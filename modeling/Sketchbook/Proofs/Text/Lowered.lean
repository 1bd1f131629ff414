import Sketchbook.Proofs.Text.Caseless

/-!
# Texts in lowercase

The characters of a lowercase text have no further lowercase: no row of the lowercase table leads to
a character that the table maps again, and neither `İ` nor the capital sigma is among those it leads
to. So what is left of a lowercase text when something is cut off is in lowercase, whatever was
around it (`lowerFrom_eq_self`).
-/

namespace Sketchbook

/-- A character that has only itself for its lowercase, whatever is around it. -/
structure IsLowered (c : Char) : Prop where
  ne_dotted : c ≠ 'İ'
  ne_sigma : c ≠ 'Σ'
  lowerChar_eq : lowerChar c = c

instance (c : Char) : Decidable (IsLowered c) :=
  decidable_of_iff (c ≠ 'İ' ∧ c ≠ 'Σ' ∧ lowerChar c = c)
    ⟨fun h => ⟨h.1, h.2.1, h.2.2⟩, fun h => ⟨h.1, h.2, h.3⟩⟩

/-! ### The lowercase of one character -/

/-- Whether the row `s` covers nothing that the row `r` leads to, as far as their bounds tell: it
lies beside the targets of `r`, or passes every other code point and misses them. -/
def CaseRow.isClearOf (r s : CaseRow) : Bool :=
  (r.target + (r.last - r.first)).blt s.first || s.last.blt r.target ||
    (r.first.beq r.last || r.step.beq 2) && s.step.beq 2 && ((r.target + s.first) % 2).beq 1

/-- What the rows of the lowercase table lead to is covered by none of them. -/
theorem CaseRow.isClearOf_table : (table.all fun r => table.all r.isClearOf) = true := by
  decide +kernel

/-- The rows of the lowercase table do not lead to `İ`. -/
theorem CaseRow.ne_dotted_of_mem_table : ∀ r ∈ CaseRow.table,
    r.target + (r.last - r.first) < 0x130 ∨ 0x130 < r.target := by
  decide +kernel

/-- What a row leads to is not covered by a row that it is clear of. -/
theorem CaseRow.covers_image_eq_false {r s : CaseRow} {n : Nat} (hclear : r.isClearOf s = true)
    (hn : r.covers n = true) : s.covers (r.image n) = false := by
  refine Bool.eq_false_iff.mpr fun hagain => ?_
  rw [image] at hagain
  simp only [covers, Bool.and_eq_true, decide_eq_true_eq, beq_iff_eq] at hn hagain
  obtain ⟨⟨hfirst, hlast⟩, hstep⟩ := hn
  obtain ⟨⟨hbelow, habove⟩, hparity⟩ := hagain
  simp only [isClearOf, Bool.or_eq_true, Bool.and_eq_true, Nat.blt_eq, Nat.beq_eq] at hclear
  rcases hclear with (hbeside | hbeside) | ⟨⟨hrow, htwo⟩, hodd⟩
  · omega
  · omega
  · have heven : (n - r.first) % 2 = 0 := by
      rcases hrow with hone | hrow
      · omega
      · rwa [hrow] at hstep
    rw [htwo] at hparity
    omega

/-- What the table leads to has no lowercase in it. -/
theorem CaseRow.lookup_of_lookup {n m : Nat} (h : lookup n = some m) :
    lookup m = none ∧ m ≠ 0x130 := by
  obtain ⟨r, hfind, rfl⟩ := Option.map_eq_some_iff.mp h
  have hr : r ∈ table := List.mem_of_find?_eq_some hfind
  have hcovers : r.covers n = true := by simpa using List.find?_some hfind
  constructor
  · rw [lookup, Option.map_eq_none_iff, List.find?_eq_none]
    intro s hs
    have hclear := List.all_eq_true.mp (List.all_eq_true.mp isClearOf_table r hr) s hs
    rw [covers_image_eq_false hclear hcovers]
    exact Bool.false_ne_true
  · have hdotted := ne_dotted_of_mem_table r hr
    simp only [covers, Bool.and_eq_true, decide_eq_true_eq] at hcovers
    rw [image]
    omega

/-- In ASCII a character in lowercase is in lowercase. -/
theorem isLowered_toLower {c : Char} (hc : c.toNat < 128) : IsLowered c.toLower := by
  have hall : ∀ n < 128, IsLowered (Char.ofNat n).toLower := by decide +kernel
  have hn := hall c.toNat hc
  rwa [Char.ofNat_toNat] at hn

/-- Outside ASCII a character that the table does not map is in lowercase. -/
theorem isLowered_of_lookup {c : Char} (hc : ¬ c.toNat < 128) (hdotted : c ≠ 'İ')
    (h : CaseRow.lookup c.toNat = none) : IsLowered c := by
  refine ⟨hdotted, ?_, ?_⟩
  · -- the capital sigma is mapped by the table
    rintro rfl
    exact absurd h (by decide +kernel)
  · rw [lowerChar, if_neg hc, h]

/-- The lowercase of a character is in lowercase. -/
theorem isLowered_lowerChar {c : Char} (hdotted : c ≠ 'İ') : IsLowered (lowerChar c) := by
  unfold lowerChar
  by_cases hc : c.toNat < 128
  · rw [if_pos hc]
    exact isLowered_toLower hc
  · rw [if_neg hc]
    cases hlookup : CaseRow.lookup c.toNat with
    | none => exact isLowered_of_lookup hc hdotted hlookup
    | some m =>
      obtain ⟨hnone, hne⟩ := CaseRow.lookup_of_lookup hlookup
      obtain ⟨htoNat, hbound⟩ := CaseRow.toNat_of_lookup hlookup
      change IsLowered (Char.ofNat m)
      rcases hbound with rfl | hbound
      · decide
      · rw [← htoNat] at hnone
        refine isLowered_of_lookup (by omega) ?_ hnone
        intro heq
        rw [heq] at htoNat
        exact hne htoNat.symm

/-- The dot above and the small sigmas are not mapped by the table. -/
theorem CaseRow.lookup_eq_none : ∀ n ∈ [0x307, 0x3c3, 0x3c2], lookup n = none := by
  decide +kernel

/-- The dot above and the small sigmas are in lowercase. -/
theorem isLowered_of_mem_marks {c : Char} (hc : c ∈ ['\u0307', 'σ', 'ς']) : IsLowered c := by
  have hfacts : ∀ d ∈ ['\u0307', 'σ', 'ς'],
      ¬ d.toNat < 128 ∧ d ≠ 'İ' ∧ d.toNat ∈ [0x307, 0x3c3, 0x3c2] := by simp
  obtain ⟨hascii, hdotted, hmem⟩ := hfacts c hc
  exact isLowered_of_lookup hascii hdotted (CaseRow.lookup_eq_none _ hmem)

/-- Every character that the lowercase of a character may have is in lowercase. -/
theorem isLowered_of_mem_lowerImages {c d : Char} (hd : d ∈ lowerImages c) : IsLowered d := by
  rw [lowerImages] at hd
  split at hd
  · rcases List.mem_cons.mp hd with rfl | hd
    · decide
    · obtain rfl := List.mem_singleton.mp hd
      exact isLowered_of_mem_marks List.mem_cons_self
  · next hdotted =>
    split at hd
    · exact isLowered_of_mem_marks (List.mem_cons_of_mem _ hd)
    · rw [List.mem_singleton.mp hd]
      exact isLowered_lowerChar hdotted

/-! ### The lowercase of a text -/

/-- The characters of a lowercase text are in lowercase. -/
theorem isLowered_of_mem_lowerFrom {before : Bool} {cs : List Char} {d : Char}
    (hd : d ∈ lowerFrom before cs) : IsLowered d := by
  induction cs generalizing before with
  | nil => cases hd
  | cons c cs ih =>
    obtain ⟨e, es, hlower, himages⟩ := lowerFrom_cons before c cs
    rw [hlower] at hd
    rcases List.mem_append.mp hd with hd | hd
    · exact isLowered_of_mem_lowerImages (himages d hd)
    · exact ih hd

/-- A text of characters in lowercase is its own lowercase. -/
theorem lowerFrom_eq_self {cs : List Char} (h : ∀ c ∈ cs, IsLowered c) (before : Bool) :
    lowerFrom before cs = cs := by
  induction cs generalizing before with
  | nil => rfl
  | cons c cs ih =>
    obtain ⟨hdotted, hsigma, hkept⟩ := h c List.mem_cons_self
    have hrest := ih (fun d hd => h d (List.mem_cons_of_mem c hd)) (endsCased before c)
    simp only [lowerFrom, beq_eq_false_iff_ne.mpr hdotted, beq_eq_false_iff_ne.mpr hsigma,
      Bool.false_eq_true, if_false, hkept, hrest]

end Sketchbook
