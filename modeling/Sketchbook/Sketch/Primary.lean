import Sketchbook.Failure
import Sketchbook.FileName.Kind

/-!
# The main file of a sketch

A sketch is a folder, and its main file bears the name of the folder. `primaryIn` looks for it in
a folder, `primaryBeside` for a file that may be it or lie beside it, and `primaryOf` for either
kind of path.
-/

namespace Sketchbook

/-- The name of the main file with this extension in a folder. -/
def primaryName (folder : Path) (extension : String) : String :=
  folder.name ++ "." ++ extension

/-- The first of the extensions for which the folder holds a regular file of its own name. -/
def firstPrimary (d : Disk) (folder : Path) : List String → Except Failure (Option Path)
  | [] => .ok none
  | e :: es =>
    let candidate := folder.child (primaryName folder e)
    match d.isFile? candidate with
    | .error fault => .error (.disk fault candidate)
    | .ok true => .ok (some candidate)
    | .ok false => firstPrimary d folder es

/-- The main file in a folder. The older extension goes before the newer one. -/
def primaryIn (d : Disk) (folder : Path) : Except Failure (Option Path) :=
  firstPrimary d folder ["pde", "ino"]

/-- The main file of the sketch that a file belongs to. A file named after its folder is its main
file, whether it is there or not. -/
def primaryBeside (d : Disk) (p : Path) : Except Failure (Option Path) :=
  if p.name = primaryName p.parent "pde" ∨ p.name = primaryName p.parent "ino" then .ok (some p)
  else primaryIn d p.parent

/-- The main file of the sketch that a folder or file names. -/
def primaryOf (d : Disk) (p : Path) : Except Failure (Option Path) :=
  match d.isFolder? p with
  | .error fault => .error (.disk fault p)
  | .ok true => primaryIn d p
  | .ok false => primaryBeside d p

/-- The folders in which a build leaves the files compiled from the tabs. -/
def buildOutputFolders (build : Path) : List Path :=
  [build, build.child buildSubfolder]

end Sketchbook
