import Sketchbook.Text.Glob.Expression
import Sketchbook.Text.Glob.Reading

/-!
# Patterns for an ending

Characters other than the star, the question mark and the opening bracket stand for themselves in
a pattern. A star followed by such characters is a pattern for the texts of one component that end
in them. Main statements: `parse?_ending` and `matches_ending_iff`.
-/

namespace Sketchbook.Glob

/-- Whether a character stands for itself in a pattern. -/
def isLiteral (c : Char) : Bool :=
  c != '*' && c != '?' && c != '['

/-- The pattern for the texts that end in the given one. -/
def ending (cs : List Char) : Glob :=
  .run :: cs.map .literal

theorem parseUpTo_of_isLiteral {n : Nat} {cs : List Char}
    (h : ∀ c ∈ cs, isLiteral c = true) (hn : cs.length ≤ n) :
    parseUpTo n cs = some (cs.map .literal) := by
  induction cs generalizing n with
  | nil => cases n <;> rfl
  | cons c cs ih =>
    obtain ⟨k, rfl⟩ : ∃ k, n = k + 1 := Nat.exists_eq_add_one.mpr (Nat.zero_lt_of_lt hn)
    have hc : isLiteral c = true := h c List.mem_cons_self
    simp only [isLiteral, Bool.and_eq_true, bne_iff_ne, ne_eq] at hc
    have hrest : parseUpTo k cs = some (cs.map .literal) :=
      ih (fun d hd => h d (List.mem_cons_of_mem c hd)) (Nat.le_of_succ_le_succ hn)
    rw [parseUpTo, hrest]
    · rfl
    · exact fun hstar => hc.1.1 hstar
    · exact fun hone => hc.1.2 hone
    · exact fun hclass => hc.2 hclass

/-- A star and characters that stand for themselves are read as the pattern for an ending. -/
theorem parse?_ending {cs : List Char} (h : ∀ c ∈ cs, isLiteral c = true) :
    parse? ('*' :: cs) = some (ending cs) := by
  rw [parse?, List.length_cons, parseUpTo, parseUpTo_of_isLiteral h (Nat.le_refl _)]
  rfl

/-- Characters that stand for themselves match themselves only. -/
theorem matches_literals_iff {cs m : List Char} : Matches (cs.map .literal) m ↔ m = cs := by
  induction cs generalizing m with
  | nil =>
    constructor
    · intro h
      cases h
      rfl
    · rintro rfl
      exact .nil
  | cons c cs ih =>
    rw [List.map_cons, matches_cons (by simp)]
    simp only [ih, Token.accepts, beq_iff_eq]
    constructor
    · rintro ⟨d, b, rfl, rfl, rfl⟩
      rfl
    · rintro rfl
      exact ⟨c, cs, rfl, rfl, rfl⟩

/-- In one component the pattern for an ending matches the texts that end so. -/
theorem matches_ending_iff {cs m : List Char} (h : '/' ∉ m) :
    Matches (ending cs) m ↔ cs <:+ m := by
  rw [ending, matches_run_cons]
  simp only [matches_literals_iff]
  constructor
  · rintro ⟨a, b, rfl, -, rfl⟩
    exact List.suffix_append a b
  · rintro ⟨a, rfl⟩
    refine ⟨a, cs, rfl, ?_, rfl⟩
    rintro c hc rfl
    exact h (List.mem_append_left _ hc)

/-- In one component a character and a star match the texts that begin with the character. -/
theorem matches_literal_run_iff {c : Char} {m : List Char} (h : '/' ∉ m) :
    Matches [.literal c, .run] m ↔ m.head? = some c := by
  rw [matches_cons (by simp)]
  simp only [Token.accepts, beq_iff_eq]
  constructor
  · rintro ⟨d, b, rfl, rfl, -⟩
    rfl
  · intro hhead
    obtain ⟨b, rfl⟩ := List.head?_eq_some_iff.mp hhead
    have hb : ∀ d ∈ b, d ≠ '/' := by
      rintro d hd rfl
      exact h (List.mem_cons_of_mem c hd)
    exact ⟨c, b, rfl, rfl, matches_run_cons.mpr ⟨b, [], (List.append_nil b).symm, hb, .nil⟩⟩

/-- A pattern without classes has no range that could be reversed. -/
theorem reversedRange?_map_literal (cs : List Char) :
    reversedRange? (cs.map .literal) = none := by
  induction cs with
  | nil => rfl
  | cons c cs ih => rw [List.map_cons, reversedRange?, ih] <;> simp

theorem reversedRange?_ending (cs : List Char) : reversedRange? (ending cs) = none := by
  rw [ending, reversedRange?, reversedRange?_map_literal] <;> simp

end Sketchbook.Glob
