import Sketchbook.FileName.Sanitary
import Sketchbook.Order.StableSort
import Sketchbook.Workspace

/-!
# Sets of tabs

The tabs of one sketch, in order. A set holds the numbers of its tabs in a workspace. This module
has what depends on no disk: finding tabs in a set, adding and removing them, and putting them in
order, the main file first and the others by name.
-/

namespace Sketchbook

/-- The tabs of the sketch with this main file. `accepts` is the policy on the names of tabs: it
gets the name of a file without its extension, or `none` if the extension is not known. -/
structure TabSet where
  primary : Path
  name : String
  sink : Sink
  accepts : Option String → Bool
  members : List TabId

namespace TabSet

variable {μ : Type}

/-- The set of tabs, empty so far, of the sketch whose main file is at the path. -/
def ofPrimary (d : Disk) (p : Path) (sink : Sink) (accepts : Option String → Bool) :
    Except Failure TabSet :=
  match d.absolute p with
  | .error f => .error f
  | .ok primary =>
    match splitExtension? primary.name sketchExtensions with
    | none => .error (.notASketch primary.name)
    | some name => .ok ⟨primary, name, sink, accepts, []⟩

/-- The folder of the sketch. -/
def folder (s : TabSet) : Path :=
  s.primary.parent

/-- The folder of the sketch for compiled code. -/
def codeFolder (s : TabSet) : Path :=
  s.folder.child codeFolderName

/-- The folder of the sketch for its data. -/
def dataFolder (s : TabSet) : Path :=
  s.folder.child dataFolderName

/-- The number of tabs. -/
def count (s : TabSet) : Nat :=
  s.members.length

/-- The set as it is described to a programmer. -/
def describe (s : TabSet) : String :=
  "ProjectFileSet(" ++ quoted s.name ++ ", " ++ toString s.count ++ " tabs)"

/-- The set without tabs. -/
def clear (s : TabSet) : TabSet :=
  { s with members := [] }

/-- The tab at an index. -/
def get (s : TabSet) (i : Int) : Except Failure TabId :=
  match i with
  | .ofNat n =>
    match s.members[n]? with
    | some id => .ok id
    | none => .error (.noSuchIndex i s.count)
  | .negSucc _ => .error (.noSuchIndex i s.count)

/-- The index of a tab. -/
def indexOf? (s : TabSet) (id : TabId) : Option Nat :=
  s.members.findIdx? (· == id)

/-- The first tab whose file has the name. -/
def find? (s : TabSet) (w : Workspace μ) (filename : String) : Option TabId :=
  s.members.find? fun id => (w.tab id).filename == filename

/-- The set with a tab added at the end, whatever its name. -/
def add (s : TabSet) (id : TabId) : TabSet :=
  { s with members := s.members ++ [id] }

/-- The set with a tab in front. If it was in the set it leaves its first position. -/
def moveToFront (s : TabSet) (id : TabId) : TabSet :=
  { s with members := id :: s.members.erase id }

/-- A list with the first element that passes the test replaced. -/
def replaceFirst {α : Type} (test : α → Bool) (new : α) : List α → List α
  | [] => []
  | a :: as => if test a then new :: as else a :: replaceFirst test new as

/-- The set with a tab in the position of the first one whose file has the same name. -/
def replace (s : TabSet) (w : Workspace μ) (id : TabId) : TabSet :=
  let test (m : TabId) : Bool := (w.tab m).filename == (w.tab id).filename
  { s with members := replaceFirst test id s.members }

/-- The set without a tab. -/
def erase (s : TabSet) (id : TabId) : TabSet :=
  { s with members := s.members.erase id }

/-- The message about a tab that was to be removed and is not in the set. -/
def strangerWarning : String :=
  "removeCode: internal error.. could not find code"

/-- Removes a tab from the set. A tab that is not in it is reported. -/
def remove (s : TabSet) (w : Workspace μ) (id : TabId) : TabSet × Workspace μ :=
  if s.members.contains id then (s.erase id, w) else (s, w.tell s.sink [strangerWarning])

/-- Whether a tab is that of the main file. -/
def isPrimary (s : TabSet) (w : Workspace μ) (id : TabId) : Bool :=
  (w.tab id).path == s.primary

/-- The tabs in order of their names, except that the main file stays in front if it is there. -/
def orderMembers (s : TabSet) (w : Workspace μ) (ids : List TabId) : List TabId :=
  let key (id : TabId) : String := (w.tab id).filename
  match ids with
  | [] => []
  | id :: rest => if s.isPrimary w id then id :: sortOn key rest else sortOn key (id :: rest)

/-- The set in order. -/
def sort (s : TabSet) (w : Workspace μ) : TabSet :=
  { s with members := s.orderMembers w s.members }

/-- The set with the first tab of the main file moved to the front, if there is one. -/
def pinPrimary (s : TabSet) (w : Workspace μ) : TabSet :=
  match s.members.find? (s.isPrimary w) with
  | some id => s.moveToFront id
  | none => s

end TabSet

end Sketchbook
