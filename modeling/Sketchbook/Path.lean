import Sketchbook.Text.Lines

/-!
# Paths

A path is a list of names, together with the slashes it begins with. Empty names and single dots
never occur in it, two dots do: they are followed when the path is looked up on a disk.
`Path.ofString` reads a path, `Path.toString` writes it.
-/

namespace Sketchbook

/-- Where a path begins. -/
inductive Anchor
  /-- At the current folder. -/
  | current
  /-- At the root, written with one slash. -/
  | root
  /-- At the root, written with two slashes. -/
  | doubleRoot
  deriving DecidableEq, Repr, Inhabited

/-- The slashes of an anchor. -/
def Anchor.slashes : Anchor → String
  | .current => ""
  | .root => "/"
  | .doubleRoot => "//"

/-- A path. -/
structure Path where
  anchor : Anchor
  parts : List String
  deriving DecidableEq, Repr, Inhabited

/-- Whether a name holds a NUL character. -/
def holdsNul (n : String) : Bool :=
  n.toList.contains '\x00'

namespace Path

/-- The slashes a path begins with. Two of them are kept, more count as one. -/
def readAnchor : List Char → Anchor
  | '/' :: '/' :: '/' :: _ => .root
  | '/' :: '/' :: _ => .doubleRoot
  | '/' :: _ => .root
  | _ => .current

/-- The names in a text between slashes, empty ones and single dots left out. -/
def readParts (cs : List Char) : List String :=
  ((splitAtEach '/' cs).map String.ofList).filter fun n => n != "" && n != "."

/-- Reads a path. -/
def ofString (s : String) : Path :=
  ⟨readAnchor s.toList, readParts s.toList⟩

/-- Writes a path. The path without any name is written as a dot. -/
protected def toString (p : Path) : String :=
  if p.anchor = .current ∧ p.parts = [] then "."
  else p.anchor.slashes ++ String.intercalate "/" p.parts

instance : ToString Path := ⟨Path.toString⟩

/-- Whether the path does not depend on the current folder. -/
def isAbsolute (p : Path) : Bool :=
  p.anchor != .current

/-- The last name of a path, empty if there is none. -/
def name (p : Path) : String :=
  p.parts.getLast?.getD ""

/-- The path without its last name. -/
def parent (p : Path) : Path :=
  { p with parts := p.parts.dropLast }

/-- The path of an entry of the folder. -/
def child (p : Path) (n : String) : Path :=
  { p with parts := p.parts ++ [n] }

/-- The path that a text names inside the folder; a text that begins with a slash names a path
of its own. -/
def join (p : Path) (s : String) : Path :=
  let q := ofString s
  if q.isAbsolute then q else { p with parts := p.parts ++ q.parts }

/-- The path made absolute: what is relative is taken from the folder at the root-to-leaf list
of names `cwd`. -/
def absolute (cwd : List String) (p : Path) : Path :=
  if p.isAbsolute then p else ⟨.root, cwd ++ p.parts⟩

/-- Whether a name in the path holds a NUL character, which no call to a disk accepts. -/
def hasNul (p : Path) : Bool :=
  p.parts.any holdsNul

/-- Whether the path ends in the name of an entry, not in two dots. -/
def endsInName (p : Path) : Bool :=
  match p.parts.getLast? with
  | none => false
  | some n => n != ".."

@[simp] theorem name_child (p : Path) (n : String) : (p.child n).name = n := by
  simp [name, child]

@[simp] theorem parent_child (p : Path) (n : String) : (p.child n).parent = p := by
  simp [parent, child]

@[simp] theorem anchor_child (p : Path) (n : String) : (p.child n).anchor = p.anchor := rfl

@[simp] theorem parts_child (p : Path) (n : String) : (p.child n).parts = p.parts ++ [n] := rfl

@[simp] theorem anchor_parent (p : Path) : p.parent.anchor = p.anchor := rfl

@[simp] theorem isAbsolute_child (p : Path) (n : String) :
    (p.child n).isAbsolute = p.isAbsolute := rfl

theorem child_injective {p : Path} {m n : String} (h : p.child m = p.child n) : m = n := by
  simpa [child] using h

end Path

end Sketchbook
