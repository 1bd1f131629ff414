import Sketchbook.Text.Glob.Basic

/-!
# Reading glob patterns

How a pattern is written: the star, the question mark and the brackets have the meaning that
their `Glob.Token` says, every other character stands for itself. A bracket that is opened has
to be closed, otherwise the text is no pattern. The main definition is `Glob.parse?`.
-/

namespace Sketchbook.Glob

/-- The items written between brackets. A hyphen between two characters makes a range of them;
elsewhere it stands for itself. -/
def parseItems : List Char → List ClassItem
  | a :: '-' :: b :: cs => .range a b :: parseItems cs
  | a :: cs => .single a :: parseItems cs
  | [] => []

/-- The class that follows an opening bracket, and the text after the closing one; `none` if the
bracket is never closed. A closing bracket that stands first belongs to the class. -/
def parseClass (cs : List Char) : Option (Token × List Char) :=
  let (negated, body) := match cs with
    | '!' :: r => (true, r)
    | '^' :: r => (true, r)
    | r => (false, r)
  let (first, tail) := match body with
    | ']' :: r => ([']'], r)
    | r => ([], r)
  match tail.dropWhile (· != ']') with
  | [] => none
  | _ :: after => some (.oneOf negated (parseItems (first ++ tail.takeWhile (· != ']'))), after)

/-- Reads at most so many parts of a pattern. -/
def parseUpTo : Nat → List Char → Option Glob
  | 0, _ => some []
  | _ + 1, [] => some []
  | n + 1, '*' :: cs => (parseUpTo n cs).map (.run :: ·)
  | n + 1, '?' :: cs => (parseUpTo n cs).map (.one :: ·)
  | n + 1, '[' :: cs =>
    match parseClass cs with
    | some (t, after) => (parseUpTo n after).map (t :: ·)
    | none => none
  | n + 1, c :: cs => (parseUpTo n cs).map (.literal c :: ·)

/-- Reads a pattern; `none` if one of its brackets is never closed. Each part takes at least one
character, so no part is left out. -/
def parse? (cs : List Char) : Option Glob :=
  parseUpTo cs.length cs

end Sketchbook.Glob
