import Sketchbook.Disk.Change
import Sketchbook.Order.StableSort

/-!
# Arranging a disk

Building up a disk and changing it from outside, without regard to permissions. The folders on
the way to a new entry are made where they are missing. `Disk.inventory` lists all that lies
below a place.
-/

namespace Sketchbook

/-- The node with every permission given. -/
def Node.unlocked : Node → Node
  | file bytes _ => file bytes .full
  | folder _ => folder .full
  | link target => link target

namespace Disk

/-- The disk with every permission given. -/
def unlocked (d : Disk) : Disk :=
  { d with tree := d.tree.map Node.unlocked }

/-- Where names lead from a place, were every permission given. -/
def reach (d : Disk) (aim : Aim) (root : Place) (parts : List String) : Except Fault Spot :=
  d.unlocked.walk aim maxLinks root (parts.map Step.ofName)

/-- Makes the folders on the way along the names, links followed, and gives the place of the
last one. -/
def makeFolders (d : Disk) : Place → List String → Disk × Place
  | here, [] => (d, here)
  | here, n :: ns =>
    match d.reach .target here [n] with
    | .ok (.entry place _) => d.makeFolders place ns
    | .ok (.vacant folder name) =>
      (d.put (folder ++ [name]) (.folder .full)).makeFolders (folder ++ [name]) ns
    | _ => (d, here ++ n :: ns)

/-- The place of an entry with this path below `root`, the folders on the way made. -/
def prepare (d : Disk) (root : Place) (parts : List String) : Disk × Place :=
  let (d, folder) := d.makeFolders root parts.dropLast
  (d, folder ++ parts.getLast?.toList)

/-- Makes a folder, unless it is there. -/
def placeFolder (d : Disk) (root : Place) (parts : List String) : Disk :=
  (d.makeFolders root parts).1

/-- Gives a place a file with these bytes, and the access that a file there has. -/
def putBytes (d : Disk) (place : Place) (bytes : List UInt8) : Disk :=
  match d.node? place with
  | some (.file _ a) => d.put place (.file bytes a)
  | _ => d.put place (.file bytes .full)

/-- Makes a file or gives it other bytes; a link at the path is followed. -/
def placeFile (d : Disk) (root : Place) (parts : List String) (bytes : List UInt8) : Disk :=
  let (d, place) := d.prepare root parts
  match d.reach .target place.dropLast place.getLast?.toList with
  | .ok (.entry place _) => d.putBytes place bytes
  | .ok (.vacant folder name) => d.putBytes (folder ++ [name]) bytes
  | _ => d.putBytes place bytes

/-- Makes a link. -/
def placeLink (d : Disk) (root : Place) (parts : List String) (target : String) : Disk :=
  let (d, place) := d.prepare root parts
  d.put place (.link target)

/-- Removes an entry and all below it. -/
def remove (d : Disk) (root : Place) (parts : List String) : Disk :=
  match d.reach .entry root parts with
  | .ok (.entry place _) => d.eraseTree place
  | _ => d

/-- Gives a file or folder other permissions, links followed. -/
def permit (d : Disk) (root : Place) (parts : List String) (a : Access) : Disk :=
  match d.reach .target root parts with
  | .ok (.entry place (.file bytes _)) => d.put place (.file bytes a)
  | .ok (.entry place (.folder _)) => d.put place (.folder a)
  | _ => d

/-- The nodes below a place, each with the path to it from there, in order of the paths. -/
def inventory (d : Disk) (root : Place) : List (String × Node) :=
  let below := (d.tree.sub root).branches.toList []
  sortOn (·.1) (below.map fun e => ("/".intercalate e.1, e.2))

end Disk

end Sketchbook
