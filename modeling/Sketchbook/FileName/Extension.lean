import Sketchbook.FileName.Kind
import Sketchbook.Text.Lowercase

/-!
# Extensions

Extensions are told apart without regard to case. `splitExtension?` cuts a known extension off a
file name, `stem` cuts at the last dot whatever follows it.
-/

namespace Sketchbook

/-- A list without its last `n` elements, where `n` may exceed the length: what is missing is
then kept, counted from the end a second time. -/
def cutEnd {α : Type} (n : Nat) (cs : List α) : List α :=
  if n ≤ cs.length then cs.take (cs.length - n) else cs.take (cs.length - (n - cs.length))

/-- The characters by which an extension is recognised: a dot and the extension in lowercase. -/
def extensionMark (extension : String) : List Char :=
  '.' :: lowerChars extension.toList

/-- Whether a file name carries the extension, in any case. -/
def carries (extension filename : String) : Bool :=
  (extensionMark extension).isSuffixOf (lowerChars filename.toList)

/-- The file name without the first of the extensions that it carries; `none` if it carries
none of them. As many characters are cut as the lowercase of the extension has. -/
def splitExtension? (filename : String) (extensions : List String) : Option String :=
  (extensions.find? fun e => carries e filename).map fun e =>
    String.ofList (cutEnd (extensionMark e).length filename.toList)

/-- An extension in lowercase and without dots in front. -/
def normalizeExtension (extension : String) : String :=
  String.ofList ((lowerChars extension.toList).dropWhile (· == '.'))

/-- Whether a file name carries one of the extensions, which may be written with a dot. -/
def hasExtension (filename : String) (extensions : List String) : Bool :=
  (splitExtension? filename (extensions.map normalizeExtension)).isSome

/-- The characters before the last dot, if there is a dot. -/
def beforeLastDot? : List Char → Option (List Char)
  | [] => none
  | c :: cs =>
    match beforeLastDot? cs with
    | some front => some (c :: front)
    | none => if c == '.' then some [] else none

/-- The file name up to its last dot. A name that has no dot, or none but the one it begins
with, is kept. -/
def stem (filename : String) : String :=
  match beforeLastDot? filename.toList with
  | none | some [] => filename
  | some front => String.ofList front

theorem splitExtension?_isSome {filename : String} {extensions : List String} :
    (splitExtension? filename extensions).isSome = extensions.any fun e => carries e filename := by
  rw [Bool.eq_iff_iff]
  simp [splitExtension?, List.find?_isSome]

end Sketchbook
