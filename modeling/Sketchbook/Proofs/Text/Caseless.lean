import Sketchbook.Proofs.Text.Lowercase
import Sketchbook.Text.Blank

/-!
# Caseless characters in a lowercase text

Blanks, and the ASCII characters other than letters, have no case: each of them is its own
lowercase and that of no other character. So they stand in the lowercase of a text exactly where
they stand in the text, although `İ` is mapped to two characters and a capital sigma by what is
around it. Main statements: `mem_lowerFrom_iff`, `head?_lowerFrom_eq_some_iff` and
`lowerFrom_eq_append_singleton_iff`.
-/

namespace Sketchbook

/-- Whether a character is a blank, or an ASCII character other than a letter. -/
def isCaseless (c : Char) : Bool :=
  (c.toNat < 128 && !c.isAlpha) || isBlank c

/-- The characters that the lowercase of a character may have, whatever is around it. -/
def lowerImages (c : Char) : List Char :=
  if c = 'İ' then ['i', '\u0307'] else if c = 'Σ' then ['σ', 'ς'] else [lowerChar c]

/-! ### The lowercase of one character -/

/-- The rows of the lowercase table keep clear of the blanks, on either side. -/
theorem CaseRow.apart_of_mem_blankRanges : ∀ r ∈ CaseRow.table, ∀ b ∈ blankRanges,
    (r.last < b.first ∨ b.last < r.first) ∧
      (r.target + (r.last - r.first) < b.first ∨ b.last < r.target) := by
  decide +kernel

/-- In ASCII a character without case, or with a lowercase that has none, is kept. -/
theorem toLower_eq_of_isCaseless {c : Char} (hc : c.toNat < 128)
    (h : isCaseless c = true ∨ isCaseless c.toLower = true) : c.toLower = c := by
  have hall : ∀ n < 128, isCaseless (Char.ofNat n) = true ∨
      isCaseless (Char.ofNat n).toLower = true → (Char.ofNat n).toLower = Char.ofNat n := by
    decide +kernel
  have hn := hall c.toNat hc
  rw [Char.ofNat_toNat] at hn
  exact hn h

/-- Outside ASCII neither a character that the table maps nor what it is mapped to is without
case. -/
theorem isCaseless_of_lookup {c : Char} {m : Nat} (hc : ¬ c.toNat < 128)
    (h : CaseRow.lookup c.toNat = some m) :
    isCaseless c = false ∧ isCaseless (Char.ofNat m) = false := by
  obtain ⟨r, hr, hrange, hm⟩ := CaseRow.exists_of_lookup h
  obtain ⟨htoNat, hbound⟩ := CaseRow.toNat_of_lookup h
  have hsource : isBlank c = false := by
    refine Bool.eq_false_iff.mpr fun hblank => ?_
    obtain ⟨b, hb, hin⟩ := CodeRange.anyContains_iff.mp hblank
    have hapart := (CaseRow.apart_of_mem_blankRanges r hr b hb).1
    omega
  have himage : isBlank (Char.ofNat m) = false := by
    refine Bool.eq_false_iff.mpr fun hblank => ?_
    obtain ⟨b, hb, hin⟩ := CodeRange.anyContains_iff.mp hblank
    rw [htoNat] at hin
    have hapart := (CaseRow.apart_of_mem_blankRanges r hr b hb).2
    omega
  refine ⟨by simp [isCaseless, hsource, hc], ?_⟩
  rcases hbound with rfl | hbound
  · decide
  · have hascii : ¬ m < 128 := by omega
    simp [isCaseless, himage, htoNat, hascii]

/-- A character without case is its own lowercase. -/
theorem lowerChar_of_isCaseless {c : Char} (h : isCaseless c = true) : lowerChar c = c := by
  rw [lowerChar]
  by_cases hc : c.toNat < 128
  · rw [if_pos hc, toLower_eq_of_isCaseless hc (Or.inl h)]
  · rw [if_neg hc]
    cases hlookup : CaseRow.lookup c.toNat with
    | none => rfl
    | some m =>
      have hcased := (isCaseless_of_lookup hc hlookup).1
      rw [h] at hcased
      cases hcased

/-- A character without case is the lowercase of no other character. -/
theorem eq_of_mem_lowerImages {c d : Char} (h : isCaseless d = true) (hd : d ∈ lowerImages c) :
    c = d := by
  rw [lowerImages] at hd
  split at hd
  · simp only [List.mem_cons, List.not_mem_nil, or_false] at hd
    rcases hd with rfl | rfl
    · exact absurd h (by decide)
    · exact absurd h (by decide)
  split at hd
  · simp only [List.mem_cons, List.not_mem_nil, or_false] at hd
    rcases hd with rfl | rfl
    · exact absurd h (by decide)
    · exact absurd h (by decide)
  rw [List.mem_singleton.mp hd, lowerChar] at h ⊢
  by_cases hc : c.toNat < 128
  · rw [if_pos hc] at h ⊢
    exact (toLower_eq_of_isCaseless hc (Or.inr h)).symm
  · rw [if_neg hc] at h ⊢
    cases hlookup : CaseRow.lookup c.toNat with
    | none => rfl
    | some m =>
      simp only [hlookup, (isCaseless_of_lookup hc hlookup).2] at h
      cases h

/-! ### Where they stand in a text -/

/-- The lowercase of a text begins with one or two characters for its first. -/
theorem lowerFrom_cons (before : Bool) (c : Char) (cs : List Char) :
    ∃ d ds, lowerFrom before (c :: cs) = d :: ds ++ lowerFrom (endsCased before c) cs ∧
      (∀ e ∈ d :: ds, e ∈ lowerImages c) := by
  rw [lowerFrom, lowerImages]
  by_cases hdotted : c = 'İ'
  · exact ⟨'i', ['\u0307'], by simp [hdotted], by simp [hdotted]⟩
  · by_cases hsigma : c = 'Σ'
    · refine ⟨_, [], by simp [hsigma]; rfl, ?_⟩
      simp only [hsigma]
      split <;> simp
    · exact ⟨lowerChar c, [], by simp [hdotted, hsigma], by simp [hdotted, hsigma]⟩

/-- A character without case stays where it is. -/
theorem lowerFrom_cons_of_isCaseless {before : Bool} {c : Char} (h : isCaseless c = true)
    (cs : List Char) : lowerFrom before (c :: cs) = c :: lowerFrom (endsCased before c) cs := by
  have hdotted : (c == 'İ') = false := by
    refine beq_eq_false_iff_ne.mpr ?_
    rintro rfl
    exact absurd h (by decide)
  have hsigma : (c == 'Σ') = false := by
    refine beq_eq_false_iff_ne.mpr ?_
    rintro rfl
    exact absurd h (by decide)
  simp only [lowerFrom, hdotted, hsigma, Bool.false_eq_true, if_false, lowerChar_of_isCaseless h]

/-- A lowercase text has the same characters without case as the text. -/
theorem mem_lowerFrom_iff {before : Bool} {cs : List Char} {d : Char} (h : isCaseless d = true) :
    d ∈ lowerFrom before cs ↔ d ∈ cs := by
  induction cs generalizing before with
  | nil => rfl
  | cons c cs ih =>
    constructor
    · intro hd
      obtain ⟨e, es, hlower, himages⟩ := lowerFrom_cons before c cs
      rw [hlower] at hd
      rcases List.mem_append.mp hd with hd | hd
      · exact eq_of_mem_lowerImages h (himages d hd) ▸ List.mem_cons_self
      · exact List.mem_cons_of_mem c (ih.mp hd)
    · intro hd
      rcases List.mem_cons.mp hd with rfl | hd
      · rw [lowerFrom_cons_of_isCaseless h]
        exact List.mem_cons_self
      · obtain ⟨e, es, hlower, -⟩ := lowerFrom_cons before c cs
        rw [hlower]
        exact List.mem_append_right _ (ih.mpr hd)

/-- A lowercase text begins with a character without case just if the text does. -/
theorem head?_lowerFrom_eq_some_iff {before : Bool} {cs : List Char} {d : Char}
    (h : isCaseless d = true) : (lowerFrom before cs).head? = some d ↔ cs.head? = some d := by
  cases cs with
  | nil => rfl
  | cons c cs =>
    constructor
    · intro hd
      obtain ⟨e, es, hlower, himages⟩ := lowerFrom_cons before c cs
      rw [hlower] at hd
      obtain rfl : e = d := by simpa using hd
      rw [eq_of_mem_lowerImages h (himages e List.mem_cons_self), List.head?_cons]
    · intro hd
      obtain rfl : c = d := by simpa using hd
      rw [lowerFrom_cons_of_isCaseless h, List.head?_cons]

/-- A text with a lowercase that ends in a character without case ends in this character. -/
theorem exists_append_of_lowerFrom_eq_append {before : Bool} {cs front : List Char} {d : Char}
    (h : isCaseless d = true) (hlower : lowerFrom before cs = front ++ [d]) :
    ∃ g, cs = g ++ [d] := by
  induction cs generalizing before front with
  | nil => simp [lowerFrom] at hlower
  | cons c cs ih =>
    obtain ⟨e, es, hcons, himages⟩ := lowerFrom_cons before c cs
    have hlast : (e :: es ++ lowerFrom (endsCased before c) cs).getLast? = some d := by
      rw [← hcons, hlower, List.getLast?_concat]
    cases cs with
    | nil =>
      -- of the last character there may be two in lowercase, and both are among its images
      rw [lowerFrom, List.append_nil] at hlast
      exact ⟨[], by rw [eq_of_mem_lowerImages h (himages d (List.mem_of_getLast? hlast)),
        List.nil_append]⟩
    | cons c' cs =>
      obtain ⟨e', es', hcons', -⟩ := lowerFrom_cons (endsCased before c) c' cs
      have hrest : lowerFrom (endsCased before c) (c' :: cs) ≠ [] := by
        rw [hcons']
        exact List.cons_ne_nil _ _
      rw [List.getLast?_append, List.getLast?_eq_some_getLast hrest, Option.some_or,
        ← List.getLast?_eq_some_getLast hrest] at hlast
      obtain ⟨front', hfront⟩ := List.getLast?_eq_some_iff.mp hlast
      obtain ⟨g, hg⟩ := ih hfront
      exact ⟨c :: g, by rw [hg, List.cons_append]⟩

/-! ### One more character at the end -/

/-- The letters with case keep clear of the blanks. -/
theorem CaseRole.apart_of_mem_blankRanges : ∀ r ∈ CaseRole.casedRanges, ∀ b ∈ blankRanges,
    r.last < b.first ∨ b.last < r.first := by
  decide +kernel

/-- A character without case does not count as a letter with case. -/
theorem caseRole_ne_cased {c : Char} (h : isCaseless c = true) : caseRole c ≠ .cased := by
  intro hcased
  by_cases hc : c.toNat < 128
  · have hall : ∀ n < 128, isCaseless (Char.ofNat n) = true →
        caseRole (Char.ofNat n) ≠ .cased := by
      decide +kernel
    have hn := hall c.toNat hc
    rw [Char.ofNat_toNat] at hn
    exact hn h hcased
  · have hblank : isBlank c = true := by simpa [isCaseless, hc] using h
    obtain ⟨b, hb, hin⟩ := CodeRange.anyContains_iff.mp hblank
    have hletter : CodeRange.anyContains CaseRole.casedRanges c = true := by
      rw [caseRole, if_neg hc] at hcased
      split at hcased
      · cases hcased
      · split at hcased
        · assumption
        · cases hcased
    obtain ⟨r, hr, hrin⟩ := CodeRange.anyContains_iff.mp hletter
    have hapart := CaseRole.apart_of_mem_blankRanges r hr b hb
    omega

/-- A character without case at the end of a text does not make it go on with case. -/
theorem goesOnCased_append_singleton {d : Char} (h : isCaseless d = true) (cs : List Char) :
    goesOnCased (cs ++ [d]) = goesOnCased cs := by
  induction cs with
  | nil =>
    rw [List.nil_append, goesOnCased, goesOnCased]
    split
    · rfl
    · next hcased => exact absurd hcased (caseRole_ne_cased h)
    · rfl
  | cons c cs ih => rw [List.cons_append, goesOnCased, goesOnCased, ih]

/-- A character without case at the end does not change the lowercase of the text before it. -/
theorem lowerFrom_append_singleton {before : Bool} {d : Char} (h : isCaseless d = true)
    (cs : List Char) : lowerFrom before (cs ++ [d]) = lowerFrom before cs ++ [d] := by
  induction cs generalizing before with
  | nil =>
    rw [List.nil_append, lowerFrom_cons_of_isCaseless h]
    rfl
  | cons c cs ih =>
    simp only [List.cons_append, lowerFrom, ih, goesOnCased_append_singleton h]
    split
    · rfl
    · split
      · rfl
      · rfl

/-- A lowercase text is another one with a character without case at its end just if the text
itself has this character at its end. -/
theorem lowerFrom_eq_append_singleton_iff {before : Bool} {cs front : List Char} {d : Char}
    (h : isCaseless d = true) :
    lowerFrom before cs = front ++ [d] ↔ ∃ g, cs = g ++ [d] ∧ lowerFrom before g = front := by
  constructor
  · intro hlower
    obtain ⟨g, rfl⟩ := exists_append_of_lowerFrom_eq_append h hlower
    rw [lowerFrom_append_singleton h] at hlower
    exact ⟨g, rfl, List.append_cancel_right hlower⟩
  · rintro ⟨g, rfl, rfl⟩
    exact lowerFrom_append_singleton h g

end Sketchbook
