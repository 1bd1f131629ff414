import Sketchbook.Text.Glob.Basic

/-!
# Patterns as regular expressions

A pattern can be written out as a regular expression. What is wrong with a pattern is reported
with its position in this expression: the only thing that can be wrong is a range whose last
character comes before the first. The main definition is `Glob.reversedRange?`.
-/

namespace Sketchbook

namespace Glob

/-- The characters that have a backslash in front where they stand for themselves. -/
def escapedChars : List Char :=
  "()[]\x7b\x7d?*+-|^$\\.&~# \t\n\r\x0b\x0c".toList

/-- A character as it is written in an expression. -/
def escape (c : Char) : List Char :=
  if escapedChars.contains c then ['\\', c] else [c]

/-- An item as it is written between brackets. -/
def ClassItem.expression : ClassItem → List Char
  | .single c => [c]
  | .range first last => [first, '-', last]

/-- What is written in front of the items of a class. -/
def classOpening (negated : Bool) : List Char :=
  if negated then ['[', '^'] else ['[']

/-- The expression of one part of a pattern. -/
def Token.expression : Token → List Char
  | .run => "[^/]*".toList
  | .one => "[^/]".toList
  | .literal c => escape c
  | .oneOf negated items =>
    classOpening negated ++ items.flatMap ClassItem.expression ++ [']']

/-- The expression of a pattern. -/
def expression (g : Glob) : List Char :=
  g.flatMap Token.expression

/-- A range that has no character in it, with the expression that comes before it. -/
structure ReversedRange where
  first : Char
  last : Char
  before : List Char
  deriving DecidableEq, Repr

/-- The range, found in an expression that has some more text in front. -/
def ReversedRange.behind (text : List Char) (r : ReversedRange) : ReversedRange :=
  { r with before := text ++ r.before }

/-- The first range of a class whose last character comes before the first, as it stands among
the items. -/
def reversedIn? : List ClassItem → Option ReversedRange
  | [] => none
  | .range first last :: items =>
    if last < first then some ⟨first, last, []⟩
    else (reversedIn? items).map (·.behind (ClassItem.range first last).expression)
  | item :: items => (reversedIn? items).map (·.behind item.expression)

/-- The first range of a pattern whose last character comes before the first, as it stands in the
expression of the pattern. -/
def reversedRange? : Glob → Option ReversedRange
  | [] => none
  | .oneOf negated items :: g =>
    match reversedIn? items with
    | some r => some (r.behind (classOpening negated))
    | none => (reversedRange? g).map (·.behind (Token.oneOf negated items).expression)
  | t :: g => (reversedRange? g).map (·.behind t.expression)

/-- The text that a reversed range is reported with. In an expression of several lines the place
is also given by line and column. -/
def ReversedRange.message (r : ReversedRange) (expression : List Char) : String :=
  let column := (r.before.reverse.takeWhile (· != '\n')).length + 1
  "bad character range " ++ String.ofList [r.first, '-', r.last] ++
    " at position " ++ toString r.before.length ++
    (if expression.contains '\n' then
      " (line " ++ toString (r.before.count '\n' + 1) ++ ", column " ++ toString column ++ ")"
    else "")

end Glob

end Sketchbook
