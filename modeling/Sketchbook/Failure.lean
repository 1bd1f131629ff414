import Sketchbook.Disk.Query
import Sketchbook.Text.Basic
import Sketchbook.Text.Quoted

/-!
# Failures

Why an operation on a sketch fails, as causes, and the text each cause is reported with.
-/

namespace Sketchbook

/-- Why an operation fails. -/
inductive Failure
  /-- A call to the disk with this path. -/
  | disk (fault : Fault) (path : Path)
  /-- The current folder has been removed, and a relative path is to be made absolute. -/
  | noCurrentFolder
  /-- The entries of a sketch folder cannot be listed. -/
  | unlistable (folder : Path)
  /-- A sketch folder has no file that can be a tab. -/
  | noCode
  /-- The name is not that of a main file. -/
  | notASketch (filename : String)
  /-- A set with so many tabs has none at this index. -/
  | noSuchIndex (index : Int) (count : Nat)
  deriving DecidableEq, Repr

/-- The number and the text by which the system knows a fault. -/
def Fault.systemText : Fault → Option (Nat × String)
  | .missing => some (2, "No such file or directory")
  | .denied => some (13, "Permission denied")
  | .notFolder => some (20, "Not a directory")
  | .isFolder => some (21, "Is a directory")
  | .nameTooLong => some (36, "File name too long")
  | .linkLoop => some (40, "Too many levels of symbolic links")
  | .notEmpty => some (39, "Directory not empty")
  | .busy => some (16, "Device or resource busy")
  | .intoItself => some (22, "Invalid argument")
  | .nulInPath => none

/-- A fault as the system reports it. -/
def Fault.message (f : Fault) : String :=
  match f.systemText with
  | some (n, text) => "[Errno " ++ toString n ++ "] " ++ text
  | none => "embedded null byte"

/-- The text a failure is reported with. A fault of the system comes with the path. -/
def Failure.message : Failure → String
  | .disk fault path =>
    if fault.systemText.isSome then fault.message ++ ": " ++ quoted path.toString
    else fault.message
  | .noCurrentFolder => Fault.missing.message
  | .unlistable folder => "Unable to list files from " ++ folder.toString
  | .noCode => "No valid code files found"
  | .notASketch filename => "Not a sketch file: " ++ filename
  | .noSuchIndex index count =>
    "Tab index " ++ toString index ++ " out of range (0.." ++ toString ((count : Int) - 1) ++ ")"

/-- Why a file that has been opened for writing does not get the whole text. -/
inductive Breakage
  /-- There are surrogates in the text, and nothing of it is written. -/
  | unencodable (s : Stretch)
  /-- No more fits on the disk. -/
  | noRoom
  deriving DecidableEq, Repr

/-- The text that surrogates are reported with. -/
def Stretch.message (s : Stretch) : String :=
  let first := String.ofList ('\\' :: 'u' :: hexDigits 4 (0xd800 + s.first))
  let last := s.start + s.length - 1
  "'utf-8' codec can't encode " ++
    (if s.length = 1 then "character '" ++ first ++ "' in position " ++ toString s.start
    else "characters in position " ++ toString s.start ++ "-" ++ toString last) ++
    ": surrogates not allowed"

/-- The text that a breakage is reported with. -/
def Breakage.message : Breakage → String
  | .unencodable s => s.message
  | .noRoom => "[Errno 28] No space left on device"

/-- Why a text is not written to a file. -/
inductive WriteFailure
  /-- The file cannot be opened for writing, and nothing has changed. -/
  | refused (f : Failure)
  /-- The file has been opened, and only a part of the text is in it now. -/
  | brokenOff (b : Breakage)
  deriving DecidableEq, Repr

/-- The path made absolute. -/
def Disk.absolute (d : Disk) (p : Path) : Except Failure Path :=
  match d.absolute? p with
  | some q => .ok q
  | none => .error .noCurrentFolder

/-- The result of a call to the disk, the path noted with its fault. -/
def Failure.ofDisk {α : Type} (path : Path) : Except Fault α → Except Failure α
  | .ok a => .ok a
  | .error e => .error (.disk e path)

end Sketchbook
