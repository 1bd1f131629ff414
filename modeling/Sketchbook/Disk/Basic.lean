import Sketchbook.NameTree

/-!
# Disks

A disk is a value: the nodes of a tree of folders, each kept under the names that lead to it
from the root. `Disk.node?` is the view through which a disk is read, and every operation that
changes a disk is described by what it does to this view. The names in a folder are listed in
order by `Disk.names`. A disk has a current folder, which stays the same folder when it is moved,
and is lost when it is removed.

A disk is simpler than a file system in these ways. A node is kept at one place only, so that a file
has no second hard link, and it is a file, a folder or a link, not a device or a pipe. Access is that
of the one user who runs the program: there are no sticky folders, and what is made gets every
access, whatever the mask. Names are made of characters, without bytes that are not UTF-8, and are
told apart by case. The length of a name has a bound, that of a path has none, and there is always
room for one more entry. Nothing but the program changes the disk while it runs.
-/

namespace Sketchbook

/-- The names that lead from the root of a disk to a node, no links among them. -/
abbrev Place := List String

/-- What may be done with a file or a folder. To execute a folder is to go through it. -/
structure Access where
  read : Bool
  write : Bool
  execute : Bool
  deriving DecidableEq, Repr

/-- The access that allows everything. -/
def Access.full : Access := ⟨true, true, true⟩

/-- A file, a folder, or a link with its target. -/
inductive Node
  | file (bytes : List UInt8) (access : Access)
  | folder (access : Access)
  | link (target : String)
  deriving DecidableEq, Repr

namespace Node

/-- Whether the node is a folder. -/
def isFolder : Node → Bool
  | folder _ => true
  | _ => false

/-- Whether the node is a regular file. -/
def isFile : Node → Bool
  | file .. => true
  | _ => false

/-- Whether the node may be written to. -/
def isWritable : Node → Bool
  | file _ a => a.write
  | folder a => a.write
  | link _ => false

end Node

/-- Why a call to a disk fails. -/
inductive Fault
  /-- There is no such entry. -/
  | missing
  /-- A permission is lacking. -/
  | denied
  /-- The path goes through something that is not a folder. -/
  | notFolder
  /-- The path names a folder where a file is wanted. -/
  | isFolder
  /-- A name is longer than a disk can hold. -/
  | nameTooLong
  /-- Links lead on without an end. -/
  | linkLoop
  /-- A folder that is to be replaced has entries. -/
  | notEmpty
  /-- The path does not end in the name of an entry. -/
  | busy
  /-- A folder would be moved into itself. -/
  | intoItself
  /-- The path holds a NUL character. The call is refused before it reaches the disk. -/
  | nulInPath
  deriving DecidableEq, Repr

/-- A disk, together with the current folder, from which relative paths start. That is the folder
at `cwd`, unless `lost` tells that it lay so many levels below this folder and is no longer
there. -/
structure Disk where
  cwd : Place
  lost : Nat
  tree : NameTree Node
  deriving DecidableEq, Repr

/-- A place, once what lay under `source` lies under `target`. -/
def relocate (source target p : Place) : Place :=
  if source.isPrefixOf p then target ++ p.drop source.length else p

namespace Disk

/-- The node at a place. -/
def node? (d : Disk) (p : Place) : Option Node :=
  d.tree.get? p

/-- The disk with this node at the place. -/
def put (d : Disk) (p : Place) (n : Node) : Disk :=
  { d with tree := d.tree.insert p n }

/-- The disk with nothing at the place. -/
def erase (d : Disk) (p : Place) : Disk :=
  { d with tree := d.tree.erase p }

/-- The disk with nothing at or below the place. The current folder is lost if it lay there. -/
def eraseTree (d : Disk) (p : Place) : Disk :=
  let tree := d.tree.graft p .empty
  if p.isPrefixOf d.cwd then ⟨p.dropLast, d.lost + (d.cwd.length - p.length) + 1, tree⟩
  else { d with tree := tree }

/-- The disk with a node that has nothing below it moved from one place to another. -/
def moveNode (d : Disk) (source target : Place) (n : Node) : Disk :=
  (d.erase source).put target n

/-- The disk with a folder and all below it moved from one place to another. -/
def moveTree (d : Disk) (source target : Place) : Disk :=
  let moved := d.eraseTree target
  { moved with
    cwd := relocate source target moved.cwd
    tree := (d.tree.graft source .empty).graft target (d.tree.sub source) }

/-- The names in a folder, in order. -/
def names (d : Disk) (folder : Place) : List String :=
  (d.tree.sub folder).names

/-- Whether entries may be made, removed and renamed in the folder. -/
def mayChange (d : Disk) (folder : Place) : Bool :=
  match d.node? folder with
  | some (.folder a) => a.write && a.execute
  | _ => false

/-- The disk that has no entry but the root. -/
def blank (cwd : Place) : Disk :=
  ⟨cwd, 0, NameTree.empty.insert [] (.folder .full)⟩

/-- Two disks with the same current folder and the same nodes. -/
def Same (d e : Disk) : Prop :=
  d.cwd = e.cwd ∧ d.lost = e.lost ∧ ∀ p, d.node? p = e.node? p

@[simp] theorem cwd_put (d : Disk) (p : Place) (n : Node) : (d.put p n).cwd = d.cwd := rfl

@[simp] theorem cwd_erase (d : Disk) (p : Place) : (d.erase p).cwd = d.cwd := rfl

@[simp] theorem lost_put (d : Disk) (p : Place) (n : Node) : (d.put p n).lost = d.lost := rfl

@[simp] theorem lost_erase (d : Disk) (p : Place) : (d.erase p).lost = d.lost := rfl

theorem node?_put (d : Disk) (p q : Place) (n : Node) :
    (d.put p n).node? q = if q = p then some n else d.node? q :=
  d.tree.get?_insert p q n

/-- Of two nodes that are put at the same place the second one stays. -/
theorem put_put (d : Disk) (p : Place) (m n : Node) : (d.put p m).put p n = d.put p n := by
  simp only [put, NameTree.insert_insert]

theorem node?_erase (d : Disk) (p q : Place) :
    (d.erase p).node? q = if q = p then none else d.node? q :=
  d.tree.get?_erase p q

theorem node?_eraseTree (d : Disk) (p q : Place) :
    (d.eraseTree p).node? q = if p.isPrefixOf q then none else d.node? q := by
  have step : (d.eraseTree p).tree = d.tree.graft p .empty := by
    rw [eraseTree]
    split <;> rfl
  rw [node?, step, NameTree.get?_graft, NameTree.get?_empty]
  rfl

theorem node?_moveNode (d : Disk) (source target q : Place) (n : Node) :
    (d.moveNode source target n).node? q =
      if q = target then some n else if q = source then none else d.node? q := by
  simp [moveNode, node?_put, node?_erase]

theorem node?_moveTree (d : Disk) (source target q : Place) :
    (d.moveTree source target).node? q =
      if target.isPrefixOf q then d.node? (source ++ q.drop target.length)
      else if source.isPrefixOf q then none else d.node? q := by
  rw [node?, moveTree, NameTree.get?_graft, NameTree.get?_sub, NameTree.get?_graft,
    NameTree.get?_empty]
  rfl

/-- The names in a folder are those of the places in it that hold a node. -/
theorem mem_names {d : Disk} {folder : Place} {n : String} :
    n ∈ d.names folder ↔ (d.node? (folder ++ [n])).isSome = true := by
  rw [names, NameTree.mem_names, NameTree.get?_sub, node?]

end Disk

end Sketchbook
