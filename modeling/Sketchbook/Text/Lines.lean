import Sketchbook.Text.Basic

/-!
# Lines and pieces of texts
-/

namespace Sketchbook

/-- The number of line breaks in a text. -/
def lineBreaks (t : Text) : Nat :=
  t.letters.count (.char '\n')

/-- The pieces of a text between the separators, empty ones included. -/
def splitAtEach (sep : Char) : List Char → List (List Char)
  | [] => [[]]
  | c :: cs =>
    if c == sep then [] :: splitAtEach sep cs
    else match splitAtEach sep cs with
      | [] => [[c]]
      | w :: ws => (c :: w) :: ws

/-- Whether `part` occurs in the text. -/
def occursIn (part : List Char) : List Char → Bool
  | [] => part.isEmpty
  | c :: cs => part.isPrefixOf (c :: cs) || occursIn part cs

end Sketchbook
