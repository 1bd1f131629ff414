import Sketchbook.Text.Utf8

/-!
# Texts in memory

A text in memory is a row of letters. Most letters are characters, but some are surrogates that
stand alone: halves of a character which no file can hold. A text without them is that of a
`String`, and has the bytes of it. Of any other text `Text.encode` tells the first stretch of
surrogates.
-/

namespace Sketchbook

/-- A letter of a text: a character, or a surrogate that stands alone, by its number among all
surrogates. -/
inductive Letter
  | char (c : Char)
  | surrogate (n : Fin 0x800)
  deriving DecidableEq, Repr

namespace Letter

/-- The character that a letter is. -/
def char? : Letter → Option Char
  | char c => some c
  | surrogate _ => none

/-- Whether a letter is a surrogate. -/
def isSurrogate : Letter → Bool
  | char _ => false
  | surrogate _ => true

/-- The character that a letter is shown as. -/
def shown : Letter → Char
  | char c => c
  | surrogate _ => Utf8.replacement

end Letter

/-- A text in memory. -/
structure Text where
  letters : List Letter
  deriving DecidableEq, Repr

/-- Surrogates side by side in a text: how many letters come before them, how many they are, and
the first of them. -/
structure Stretch where
  start : Nat
  length : Nat
  first : Fin 0x800
  deriving DecidableEq, Repr

namespace Text

/-- The text of these characters. -/
def ofString (s : String) : Text :=
  ⟨s.toList.map .char⟩

instance : Coe String Text := ⟨ofString⟩

instance : Append Text := ⟨fun s t => ⟨s.letters ++ t.letters⟩⟩

/-- The text as it can be shown. -/
def shown (t : Text) : String :=
  String.ofList (t.letters.map Letter.shown)

/-- The first stretch of surrogates among letters that come after so many others. -/
def stretchAfter (start : Nat) : List Letter → Option Stretch
  | [] => none
  | .char _ :: ls => stretchAfter (start + 1) ls
  | .surrogate n :: ls => some ⟨start, (ls.takeWhile Letter.isSurrogate).length + 1, n⟩

/-- The bytes of a text, or the first stretch of surrogates, for which there are no bytes. -/
def encode (t : Text) : Except Stretch (List UInt8) :=
  match stretchAfter 0 t.letters with
  | some s => .error s
  | none => .ok (Utf8.encodeChars (t.letters.filterMap Letter.char?))

theorem ofString_append (s t : String) : ofString (s ++ t) = ofString s ++ ofString t := by
  change (⟨_⟩ : Text) = ⟨_⟩
  rw [String.toList_append, List.map_append]
  rfl

/-- A text of characters has the bytes of these. -/
@[simp] theorem encode_ofString (s : String) : (ofString s).encode = .ok (Utf8.encode s) := by
  have hnone : ∀ (cs : List Char) (n : Nat), stretchAfter n (cs.map .char) = none := by
    intro cs
    induction cs with
    | nil => exact fun _ => rfl
    | cons c cs ih => exact fun n => ih (n + 1)
  have hchars : (s.toList.map Letter.char).filterMap Letter.char? = s.toList := by
    simp [List.filterMap_map, Function.comp_def, Letter.char?]
  rw [encode, ofString, hnone, hchars]
  rfl

end Text

end Sketchbook
