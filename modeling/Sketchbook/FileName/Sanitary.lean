import Sketchbook.FileName.Kind

/-!
# Names that tabs may bear

A name is accepted if it has letters, digits, underscores, dots and hyphens only, all of them
ASCII, begins with a letter or a digit and is not too long.
-/

namespace Sketchbook

/-- Whether a name may begin with the character. -/
def mayBeginName (c : Char) : Bool :=
  c.isAlphanum

/-- Whether a name may hold the character after its first. -/
def mayContinueName (c : Char) : Bool :=
  c.isAlphanum || c == '_' || c == '.' || c == '-'

/-- Whether a tab may bear the name, its extension left out. -/
def isSanitary (base : String) : Bool :=
  match base.toList with
  | [] => false
  | c :: cs => (c :: cs).length ≤ maxNameLength && mayBeginName c && cs.all mayContinueName

/-- The usual policy on names: a name without a known extension is refused. -/
def acceptsSanitary (base : Option String) : Bool :=
  base.any isSanitary

end Sketchbook
