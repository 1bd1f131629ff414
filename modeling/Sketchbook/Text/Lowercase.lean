import Sketchbook.Text.CaseRole
import Sketchbook.Text.CaseTable

/-!
# Lowercase

Lowercase after the full rules of Unicode. Almost every character is mapped on its own, by
`lowerChar`. Two are not: `İ` becomes two characters, and a capital sigma becomes the final
sigma where it ends a word. The main definition is `lowercase`.
-/

namespace Sketchbook

/-- The lowercase of one character where neighbours play no part. -/
def lowerChar (c : Char) : Char :=
  if c.toNat < 128 then c.toLower
  else match CaseRow.lookup c.toNat with
    | some n => Char.ofNat n
    | none => c

/-- Whether the text goes on with a letter that has a case, ignorable characters passed over. -/
def goesOnCased : List Char → Bool
  | [] => false
  | c :: cs =>
    match caseRole c with
    | .ignorable => goesOnCased cs
    | .cased => true
    | .other => false

/-- Whether the text read so far ends with a cased letter, once `c` has been read after a text
for which this was `before`. -/
def endsCased (before : Bool) (c : Char) : Bool :=
  match caseRole c with
  | .ignorable => before
  | .cased => true
  | .other => false

/-- Lowercase of the rest of a text; `before` tells whether a cased letter precedes it. -/
def lowerFrom (before : Bool) : List Char → List Char
  | [] => []
  | c :: cs =>
    let rest := lowerFrom (endsCased before c) cs
    if c == 'İ' then 'i' :: '\u0307' :: rest
    else if c == 'Σ' then (if before && !goesOnCased cs then 'ς' else 'σ') :: rest
    else lowerChar c :: rest

/-- The characters of a text in lowercase. -/
def lowerChars (cs : List Char) : List Char :=
  lowerFrom false cs

/-- A text in lowercase. -/
def lowercase (s : String) : String :=
  String.ofList (lowerChars s.toList)

@[simp] theorem toList_lowercase (s : String) : (lowercase s).toList = lowerChars s.toList := by
  simp [lowercase]

/-- In ASCII every character is mapped on its own. -/
theorem lowerFrom_of_ascii (before : Bool) (cs : List Char) (h : ∀ c ∈ cs, c.toNat < 128) :
    lowerFrom before cs = cs.map Char.toLower := by
  induction cs generalizing before with
  | nil => rfl
  | cons c cs ih =>
    have hc : c.toNat < 128 := h c (by simp)
    have h1 : (c == 'İ') = false := by
      refine beq_eq_false_iff_ne.mpr fun e => ?_
      subst e; exact absurd hc (by decide)
    have h2 : (c == 'Σ') = false := by
      refine beq_eq_false_iff_ne.mpr fun e => ?_
      subst e; exact absurd hc (by decide)
    simp only [lowerFrom, h1, h2, lowerChar, hc, if_true, List.map_cons]
    simpa using ih _ fun d hd => h d (by simp [hd])

end Sketchbook
