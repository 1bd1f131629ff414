import Sketchbook.Disk.Walk

/-!
# Asking a disk

What can be asked of a disk without changing it: what a path leads to, whether it may be written
to, the bytes of a file and the names in a folder.
-/

namespace Sketchbook

/-- Whether the fault only means that there is nothing at the path. -/
def Fault.meansAbsence : Fault → Bool
  | .missing | .notFolder | .linkLoop | .nulInPath => true
  | _ => false

namespace Disk

/-- The node that a path leads to, links followed. A folder that has been removed is still one. -/
def stat (d : Disk) (p : Path) : Except Fault Node :=
  match d.find .target p with
  | .ok (.entry _ n) => .ok n
  | .ok (.vacant ..) => .error .missing
  | .ok .lost => .ok (.folder .full)
  | .error e => .error e

/-- Whether a path leads to a node that passes the test. -/
def leadsTo (d : Disk) (test : Node → Bool) (p : Path) : Except Fault Bool :=
  match d.stat p with
  | .ok n => .ok (test n)
  | .error e => if e.meansAbsence then .ok false else .error e

/-- Whether a path leads to anything. -/
def exists? (d : Disk) (p : Path) : Except Fault Bool :=
  d.leadsTo (fun _ => true) p

/-- Whether a path leads to a folder. -/
def isFolder? (d : Disk) (p : Path) : Except Fault Bool :=
  d.leadsTo Node.isFolder p

/-- Whether a path leads to a regular file. -/
def isFile? (d : Disk) (p : Path) : Except Fault Bool :=
  d.leadsTo Node.isFile p

/-- Whether what a path leads to may be written to. No failure tells more than that it may not. -/
def isWritable (d : Disk) (p : Path) : Bool :=
  match d.stat p with
  | .ok n => n.isWritable
  | .error _ => false

/-- The bytes of the file a path leads to. -/
def readFile (d : Disk) (p : Path) : Except Fault (List UInt8) :=
  match d.stat p with
  | .ok (.file bytes a) => if a.read then .ok bytes else .error .denied
  | .ok (.folder a) => if a.read then .error .isFolder else .error .denied
  | .ok (.link _) => .error .linkLoop
  | .error e => .error e

/-- The names in the folder a path leads to, in order. There are none in a folder that has been
removed. -/
def list (d : Disk) (p : Path) : Except Fault (List String) :=
  match d.find .target p with
  | .ok (.entry place (.folder a)) => if a.read then .ok (d.names place) else .error .denied
  | .ok (.entry ..) => .error .notFolder
  | .ok (.vacant ..) => .error .missing
  | .ok .lost => .ok []
  | .error e => .error e

end Disk

end Sketchbook
