import Sketchbook.Disk.Walk

/-!
# Changing a disk

The calls that change a disk: opening a file for writing and filling it, removing an entry and
renaming one. Each gives the disk as it is afterwards, or the fault that kept the disk as it was.
-/

namespace Sketchbook

namespace Disk

/-- Opens a file for writing, links followed: it is emptied, or it is made if it is not there. Gives
the place of the file, and the disk with nothing in it yet. -/
def openEmptied (d : Disk) (p : Path) : Except Fault (Place × Disk) :=
  match d.find .writing p with
  | .ok (.entry place (.file _ a)) =>
    if a.write then .ok (place, d.put place (.file [] a)) else .error .denied
  | .ok (.entry _ (.folder _)) => .error .isFolder
  | .ok (.entry _ (.link _)) => .error .linkLoop
  | .ok .lost => .error .isFolder
  | .ok (.vacant folder name) =>
    if d.mayChange folder then .ok (folder ++ [name], d.put (folder ++ [name]) (.file [] .full))
    else .error .denied
  | .error e => .error e

/-- Gives the file at a place these bytes. -/
def fill (d : Disk) (place : Place) (bytes : List UInt8) : Disk :=
  match d.node? place with
  | some (.file _ a) => d.put place (.file bytes a)
  | _ => d

/-- Writes a file, links followed, where there is room for all the bytes. -/
def writeFile (d : Disk) (p : Path) (bytes : List UInt8) : Except Fault Disk :=
  match d.openEmptied p with
  | .error e => .error e
  | .ok (place, e) => .ok (e.fill place bytes)

/-- A file that has been put at a place is given other bytes. -/
theorem fill_put (d : Disk) (place : Place) (old bytes : List UInt8) (access : Access) :
    (d.put place (.file old access)).fill place bytes = d.put place (.file bytes access) := by
  rw [fill, node?_put, if_pos rfl]
  exact put_put ..

/-- Removes the file or link at a path; a link is not followed. -/
def unlink (d : Disk) (p : Path) : Except Fault Disk :=
  match d.find .entry p with
  | .ok (.entry _ (.folder _)) | .ok .lost => .error .isFolder
  | .ok (.entry place _) =>
    if d.mayChange place.dropLast then .ok (d.erase place) else .error .denied
  | .ok (.vacant ..) => .error .missing
  | .error e => .error e

/-- Whether the permission of a node lets it move from one folder to another. A folder that is to
lie in another one must be writable itself. -/
def mayMove (n : Node) (source target : Place) : Bool :=
  !n.isFolder || n.isWritable || source.dropLast == target.dropLast

/-- Moves a node to a place. A file or link takes the place of a file or link, a folder that of a
folder without entries; nothing else is replaced. -/
def moveOnto (d : Disk) (source : Place) (n : Node) (target : Place) : Except Fault Disk :=
  match n, d.node? target with
  | .folder _, some (.folder _) =>
    if d.names target = [] then .ok (d.moveTree source target) else .error .notEmpty
  | .folder _, some _ => .error .notFolder
  | .folder _, none => .ok (d.moveTree source target)
  | _, some (.folder _) => .error .isFolder
  | _, _ => .ok (d.moveNode source target n)

/-- Moves the node at one place to another, if permissions allow. Moving it to where it is
changes nothing. -/
def move (d : Disk) (source : Place) (n : Node) (target : Place) : Except Fault Disk :=
  if target = source then .ok d
  else if source.isPrefixOf target then .error .intoItself
  else if !d.mayChange source.dropLast || !d.mayChange target.dropLast ||
      !mayMove n source target then
    .error .denied
  else d.moveOnto source n target

/-- Renames an entry; links at the ends of the paths are not followed. -/
def rename (d : Disk) (source target : Path) : Except Fault Disk :=
  if source.hasNul || target.hasNul then .error .nulInPath
  else if !source.endsInName || !target.endsInName then .error .busy
  else match d.find .entry source with
    | .error e => .error e
    | .ok (.vacant ..) => .error .missing
    | .ok .lost => .error .busy
    | .ok (.entry place n) =>
      match d.find .entry target with
      | .error e => .error e
      | .ok .lost => .error .busy
      | .ok (.entry place₂ _) => d.move place n place₂
      | .ok (.vacant folder name) => d.move place n (folder ++ [name])

end Disk

end Sketchbook
