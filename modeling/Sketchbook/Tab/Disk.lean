import Sketchbook.Tab.Steps

/-!
# Tabs and the disk

Reading, writing, renaming and deleting the file of a tab. All but the last are given step by step,
as `Steps`. Deleting can stop halfway, after the file itself is gone, and gives the disk in every
case.
-/

namespace Sketchbook

namespace Tab

variable {μ : Type}

/-- Gives the tab the text that its file has now. A text that looks damaged is reported. -/
def reload : Steps μ Failure Unit := do
  let t ← Steps.tab
  let bytes ← Steps.given (Failure.ofDisk t.path ((← Steps.disk).readFile t.path))
  let text := Utf8.decode bytes
  if isDamaged text then Steps.tell (damageWarning t.filename)
  Steps.setTab fun t => { t with text := text }
  Steps.setTab fun t => { t with dirty := false }

/-- A tab for the file at an absolute path, and the messages about it. If the file cannot be read
the tab is empty. -/
def loadAt (d : Disk) (p : Path) (data : Option μ) (sink : Sink) :
    Except Failure (Tab μ × List String) :=
  match reload.run ⟨⟨p, "", false, data, sink⟩, d, []⟩ with
  | (.ok (), desk) => .ok (desk.tab, desk.texts)
  | (.error (.disk .nulInPath q), _) => .error (.disk .nulInPath q)
  | (.error _, desk) => .ok (desk.tab, desk.texts ++ [unreadableWarning desk.tab.filename])

/-- A tab for the file at a path, and the messages about it. -/
def load (d : Disk) (p : Path) (data : Option μ) (sink : Sink) :
    Except Failure (Tab μ × List String) :=
  match d.absolute p with
  | .error f => .error f
  | .ok q => loadAt d q data sink

/-- Writes the text to the file of the tab, edited or not. -/
def save (room : Room) : Steps μ WriteFailure Unit := do
  let t ← Steps.tab
  Steps.saveText room t.text t.path
  Steps.setTab fun t => { t with dirty := false }

/-- Writes the text to another file. The tab stays as it is. -/
def saveAs (room : Room) (p : Path) : Steps μ WriteFailure Unit := do
  Steps.saveText room (← Steps.tab).text p

/-- Renames the file of the tab. Tells whether the disk let it. -/
def rename (p : Path) : Steps μ Failure Bool := do
  let target ← Steps.given ((← Steps.disk).absolute p)
  match (← Steps.disk).rename (← Steps.tab).path target with
  | .error .nulInPath => throw (.disk .nulInPath target)
  | .error _ => return false
  | .ok d =>
    Steps.setDisk d
    Steps.setTab fun t => { t with path := target }
    return true

/-- Whether the file of the tab exists. -/
def exists? (d : Disk) (t : Tab μ) : Except Failure Bool :=
  Failure.ofDisk t.path (d.exists? t.path)

/-- Whether the file of the tab cannot be written to. -/
def isReadOnly (d : Disk) (t : Tab μ) : Bool :=
  !d.isWritable t.path

end Tab

/-- The paths of the entries of a folder that were compiled from the source: those that are no
folders and whose names begin with its name. -/
def compiledFrom (d : Disk) (source : String) (folder : Path) :
    List String → Except Fault (List Path)
  | [] => .ok []
  | n :: ns =>
    if source.toList.isPrefixOf n.toList then
      match d.isFolder? (folder.child n) with
      | .error e => .error e
      | .ok isFolder =>
        match compiledFrom d source folder ns with
        | .error e => .error e
        | .ok ps => .ok (if isFolder then ps else folder.child n :: ps)
    else compiledFrom d source folder ns

/-- Removes the entries at the paths, one after the other, until one cannot be removed. Tells
whether all were. -/
def unlinkAll (d : Disk) : List Path → Bool × Disk
  | [] => (true, d)
  | p :: ps =>
    match d.unlink p with
    | .ok d => unlinkAll d ps
    | .error _ => (false, d)

/-- Removes what was compiled from the source into a folder. Tells whether all of it was. -/
def sweepFolder (o : ListingOrder) (d : Disk) (source : String) (folder : Path) : Bool × Disk :=
  match d.list folder with
  | .error _ => (false, d)
  | .ok names =>
    match compiledFrom d source folder (o.arrange names) with
    | .error _ => (false, d)
    | .ok ps => unlinkAll d ps

/-- Removes what was compiled from the source into the folders, one after the other, until one
cannot be cleared. Folders that are not there are passed over. -/
def sweepFolders (o : ListingOrder) (d : Disk) (source : String) :
    List Path → Except Failure Bool × Disk
  | [] => (.ok true, d)
  | f :: fs =>
    match d.exists? f with
    | .error e => (.error (.disk e f), d)
    | .ok false => sweepFolders o d source fs
    | .ok true =>
      match sweepFolder o d source f with
      | (true, d) => sweepFolders o d source fs
      | (false, d) => (.ok false, d)

namespace Tab

variable {μ : Type}

/-- Deletes the file of the tab, and then what was compiled from it into the folders. Tells
whether everything was deleted. -/
def delete (o : ListingOrder) (d : Disk) (t : Tab μ) (folders : List Path) :
    Except Failure Bool × Disk :=
  match d.unlink t.path with
  | .error .nulInPath => (.error (.disk .nulInPath t.path), d)
  | .error _ => (.ok false, d)
  | .ok d => sweepFolders o d t.filename folders

end Tab

end Sketchbook
