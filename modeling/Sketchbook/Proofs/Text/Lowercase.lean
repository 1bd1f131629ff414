import Sketchbook.Text.Lowercase

/-!
# ASCII at the end of a lowercase text

Lowercase may lengthen a text, and it has one ASCII letter, the `k`, that comes from outside
ASCII: from the Kelvin sign. Apart from these what is ASCII in a lowercase text was ASCII before.
The main statement is `suffix_lowerFrom_iff`: the lowercase of a text ends in such characters just
where the text itself ends in them, character by character, but for their case.
-/

namespace Sketchbook

/-- Whether the character, in a lowercase text, can only come from an ASCII character. -/
def isPlainLower (c : Char) : Bool :=
  c.toNat < 128 && c != 'k'

/-! ### The lowercase of one character -/

/-- Along a row of the table the lowercase is a character outside ASCII, unless it is the `k` of
the Kelvin sign. -/
theorem CaseRow.target_of_mem_table : ∀ r ∈ CaseRow.table,
    (r.target = 0x6b ∧ r.first = r.last) ∨
      (128 ≤ r.target ∧ (r.target + (r.last - r.first) < 0xd800 ∨
        0xdfff < r.target ∧ r.target + (r.last - r.first) < 0x110000)) := by
  decide +kernel

/-- A mapping found in the table stands in one of its rows. -/
theorem CaseRow.exists_of_lookup {n m : Nat} (h : CaseRow.lookup n = some m) :
    ∃ r ∈ CaseRow.table, (r.first ≤ n ∧ n ≤ r.last) ∧ m = r.target + (n - r.first) := by
  obtain ⟨r, hfind, rfl⟩ := Option.map_eq_some_iff.mp h
  have hcovers : r.covers n = true := by simpa using List.find?_some hfind
  obtain ⟨hrange, -⟩ : (r.first ≤ n ∧ n ≤ r.last) ∧ _ := by
    simpa [CaseRow.covers] using hcovers
  exact ⟨r, List.mem_of_find?_eq_some hfind, hrange, rfl⟩

/-- The table leads to characters outside ASCII, and to `k`. -/
theorem CaseRow.toNat_of_lookup {n m : Nat} (h : CaseRow.lookup n = some m) :
    (Char.ofNat m).toNat = m ∧ (m = 0x6b ∨ 128 ≤ m) := by
  obtain ⟨r, hmem, ⟨hfirst, hlast⟩, rfl⟩ := CaseRow.exists_of_lookup h
  have hrow := CaseRow.target_of_mem_table r hmem
  have hchar : (r.target + (n - r.first)).isValidChar := by
    rw [Nat.isValidChar]
    omega
  refine ⟨?_, by omega⟩
  rw [Char.ofNat, dif_pos hchar]
  rfl

/-- The lowercase of a character outside ASCII is no plain character. -/
theorem isPlainLower_image {n m : Nat} (h : CaseRow.lookup n = some m) :
    isPlainLower (Char.ofNat m) = false := by
  obtain ⟨htoNat, rfl | hbound⟩ := CaseRow.toNat_of_lookup h
  · decide
  · have hascii : ¬ m < 128 := by omega
    simp [isPlainLower, htoNat, hascii]

/-- A character with a plain lowercase is an ASCII character. -/
theorem lowerChar_eq_toLower {c : Char} (h : isPlainLower (lowerChar c) = true) :
    lowerChar c = c.toLower := by
  unfold lowerChar at h ⊢
  by_cases hc : c.toNat < 128
  · rw [if_pos hc]
  · rw [if_neg hc] at h
    cases hlookup : CaseRow.lookup c.toNat with
    | none =>
      simp only [hlookup] at h
      simp [isPlainLower, hc] at h
    | some m =>
      simp only [hlookup, isPlainLower_image hlookup] at h
      cases h

/-! ### The lowercase of a text -/

/-- A text with a plain lowercase is mapped character by character. -/
theorem lowerFrom_eq_map {before : Bool} {cs : List Char}
    (h : ∀ c ∈ lowerFrom before cs, isPlainLower c = true) :
    lowerFrom before cs = cs.map Char.toLower := by
  induction cs generalizing before with
  | nil => rfl
  | cons c cs ih =>
    rw [lowerFrom] at h ⊢
    by_cases hdotted : (c == 'İ') = true
    · simp only [hdotted, if_true] at h
      exact absurd (h '\u0307' (by simp)) (by decide)
    · by_cases hsigma : (c == 'Σ') = true
      · simp only [hdotted, hsigma, Bool.false_eq_true, if_false, if_true] at h
        have hhead := h _ (List.mem_cons_self ..)
        split at hhead
        · exact absurd hhead (by decide)
        · exact absurd hhead (by decide)
      · simp only [hdotted, hsigma, Bool.false_eq_true, if_false] at h ⊢
        rw [List.map_cons, lowerChar_eq_toLower (h _ (List.mem_cons_self ..)),
          ih fun d hd => h d (List.mem_cons_of_mem _ hd)]

/-- Each character but the `İ` has one character for its lowercase. -/
theorem exists_lowerFrom_cons (before : Bool) {c : Char} (cs : List Char) (h : c ≠ 'İ') :
    ∃ d, lowerFrom before (c :: cs) = d :: lowerFrom (endsCased before c) cs := by
  have hdotted : (c == 'İ') = false := beq_eq_false_iff_ne.mpr h
  rw [lowerFrom]
  simp only [hdotted, Bool.false_eq_true, if_false]
  split
  · exact ⟨_, rfl⟩
  · exact ⟨_, rfl⟩

/-- What a lowercase text ends in, if it does not begin with the mark that `İ` leaves behind, is
the lowercase of what the text ends in. -/
theorem exists_lowerFrom_of_suffix {before : Bool} {cs mark : List Char}
    (hmark : mark.head? ≠ some '\u0307') (h : mark <:+ lowerFrom before cs) :
    ∃ inside front tail, cs = front ++ tail ∧ mark = lowerFrom inside tail := by
  induction cs generalizing before with
  | nil => exact ⟨before, [], [], rfl, List.suffix_nil.mp h⟩
  | cons c cs ih =>
    have hlater : mark <:+ lowerFrom (endsCased before c) cs →
        ∃ inside front tail, c :: cs = front ++ tail ∧ mark = lowerFrom inside tail := by
      intro hsuffix
      obtain ⟨inside, front, tail, rfl, htail⟩ := ih hsuffix
      exact ⟨inside, c :: front, tail, rfl, htail⟩
    by_cases hall : mark = lowerFrom before (c :: cs)
    · exact ⟨before, [], c :: cs, rfl, hall⟩
    · by_cases hdotted : c = 'İ'
      · -- the second of the two characters of its lowercase begins no mark
        subst hdotted
        rcases List.suffix_cons_iff.mp h with heq | h
        · exact absurd heq hall
        · rcases List.suffix_cons_iff.mp h with heq | h
          · exact absurd (by rw [heq]; rfl) hmark
          · exact hlater h
      · obtain ⟨d, hlower⟩ := exists_lowerFrom_cons before cs hdotted
        rw [hlower] at h hall
        rcases List.suffix_cons_iff.mp h with heq | h
        · exact absurd heq hall
        · exact hlater h

/-- Where the lowercase of a text ends in plain characters the text ends in the same characters,
but for their case. -/
theorem exists_append_of_suffix_lowerFrom {before : Bool} {cs mark : List Char}
    (hplain : ∀ c ∈ mark, isPlainLower c = true) (h : mark <:+ lowerFrom before cs) :
    ∃ front tail, cs = front ++ tail ∧ tail.map Char.toLower = mark := by
  have hmark : mark.head? ≠ some '\u0307' := by
    intro hhead
    exact absurd (hplain _ (List.mem_of_head? hhead)) (by decide)
  obtain ⟨inside, front, tail, hsplit, htail⟩ := exists_lowerFrom_of_suffix hmark h
  refine ⟨front, tail, hsplit, ?_⟩
  rw [htail] at hplain ⊢
  exact (lowerFrom_eq_map hplain).symm

/-- The lowercase of a text ends with that of its last part, read with the knowledge whether a cased
letter stands before it. -/
theorem exists_lowerFrom_append (before : Bool) (front tail : List Char) :
    ∃ lowered inside, lowerFrom before (front ++ tail) = lowered ++ lowerFrom inside tail := by
  induction front generalizing before with
  | nil => exact ⟨[], before, rfl⟩
  | cons c front ih =>
    obtain ⟨lowered, inside, hrest⟩ := ih (endsCased before c)
    by_cases hdotted : c = 'İ'
    · subst hdotted
      refine ⟨'i' :: '\u0307' :: lowered, inside, ?_⟩
      rw [List.cons_append, List.cons_append, List.cons_append, ← hrest]
      rfl
    · obtain ⟨d, hlower⟩ := exists_lowerFrom_cons before (front ++ tail) hdotted
      exact ⟨d :: lowered, inside, by rw [List.cons_append, hlower, hrest, List.cons_append]⟩

/-- Putting the capitals of ASCII in lowercase makes nothing ASCII that was not. -/
theorem toNat_lt_of_toLower {c : Char} (h : c.toLower.toNat < 128) : c.toNat < 128 := by
  unfold Char.toLower at h
  split at h
  · next hrange =>
    have hle : c.toNat ≤ 90 := UInt32.le_iff_toNat_le.mp hrange.2
    omega
  · exact h

/-- The lowercase of a text ends in plain characters just if the text ends in the same characters,
but for their case. -/
theorem suffix_lowerFrom_iff {before : Bool} {cs mark : List Char}
    (hplain : ∀ c ∈ mark, isPlainLower c = true) :
    mark <:+ lowerFrom before cs ↔
      ∃ front tail, cs = front ++ tail ∧ tail.map Char.toLower = mark := by
  constructor
  · intro h
    exact exists_append_of_suffix_lowerFrom hplain h
  · rintro ⟨front, tail, rfl, rfl⟩
    have hascii : ∀ c ∈ tail, c.toNat < 128 := by
      intro c hc
      have hlower := hplain c.toLower (List.mem_map_of_mem hc)
      refine toNat_lt_of_toLower ?_
      simpa using (Bool.and_eq_true_iff.mp hlower).1
    obtain ⟨lowered, inside, hlower⟩ := exists_lowerFrom_append before front tail
    rw [hlower, lowerFrom_of_ascii inside tail hascii]
    exact List.suffix_append ..

end Sketchbook
