import Sketchbook.FileName.Extension

/-!
# The last dot of a name

A text with a dot in it is split in one way only into what comes before a dot and what follows it
without another one. The two parts are `beforeLastDot?` and `afterLastDot?`, and the first of them
is what `stem` leaves of a file name (`stem_append`).
-/

namespace Sketchbook

/-- The characters after the last dot, if there is a dot. -/
def afterLastDot? : List Char → Option (List Char)
  | [] => none
  | c :: cs =>
    match afterLastDot? cs with
    | some tail => some tail
    | none => if c == '.' then some cs else none

/-- There is nothing before the last dot of a text that has no dot. -/
theorem beforeLastDot?_eq_none {cs : List Char} (h : '.' ∉ cs) : beforeLastDot? cs = none := by
  induction cs with
  | nil => rfl
  | cons c cs ih =>
    rw [List.mem_cons, not_or] at h
    rw [beforeLastDot?, ih h.2]
    exact if_neg fun heq => h.1 (beq_iff_eq.mp heq).symm

/-- There is nothing after the last dot of a text that has no dot. -/
theorem afterLastDot?_eq_none {cs : List Char} (h : '.' ∉ cs) : afterLastDot? cs = none := by
  induction cs with
  | nil => rfl
  | cons c cs ih =>
    rw [List.mem_cons, not_or] at h
    rw [afterLastDot?, ih h.2]
    exact if_neg fun heq => h.1 (beq_iff_eq.mp heq).symm

/-- A dot that no other follows is the last one, whatever comes before it. -/
theorem beforeLastDot?_append {tail : List Char} (h : '.' ∉ tail) (front : List Char) :
    beforeLastDot? (front ++ '.' :: tail) = some front := by
  induction front with
  | nil => rw [List.nil_append, beforeLastDot?, beforeLastDot?_eq_none h]; rfl
  | cons c front ih => rw [List.cons_append, beforeLastDot?, ih]

/-- What follows a dot is what follows the last one, if there is no other in it. -/
theorem afterLastDot?_append {tail : List Char} (h : '.' ∉ tail) (front : List Char) :
    afterLastDot? (front ++ '.' :: tail) = some tail := by
  induction front with
  | nil => rw [List.nil_append, afterLastDot?, afterLastDot?_eq_none h]; rfl
  | cons c front ih => rw [List.cons_append, afterLastDot?, ih]

/-- A text with a dot in it has a last one. -/
theorem exists_append_of_mem_dot {cs : List Char} (h : '.' ∈ cs) :
    ∃ front tail, cs = front ++ '.' :: tail ∧ '.' ∉ tail := by
  induction cs with
  | nil => cases h
  | cons c cs ih =>
    by_cases hrest : '.' ∈ cs
    · obtain ⟨front, tail, rfl, hdot⟩ := ih hrest
      exact ⟨c :: front, tail, rfl, hdot⟩
    · rcases List.mem_cons.mp h with rfl | h
      · exact ⟨[], cs, rfl, hrest⟩
      · exact absurd h hrest

/-- What follows the last dot of a text is all that stands at its end behind a dot and has none of
its own. -/
theorem afterLastDot?_eq_some_iff {cs tail : List Char} :
    afterLastDot? cs = some tail ↔ '.' :: tail <:+ cs ∧ '.' ∉ tail := by
  constructor
  · intro h
    by_cases hmem : '.' ∈ cs
    · obtain ⟨front, rest, rfl, hdot⟩ := exists_append_of_mem_dot hmem
      rw [afterLastDot?_append hdot] at h
      cases h
      exact ⟨⟨front, rfl⟩, hdot⟩
    · rw [afterLastDot?_eq_none hmem] at h
      cases h
  · rintro ⟨⟨front, rfl⟩, hdot⟩
    exact afterLastDot?_append hdot front

/-- The stem of a file name is what comes before its last dot, unless it begins with this one. -/
theorem stem_append {base extension : String} (hbase : base ≠ "") (h : '.' ∉ extension.toList) :
    stem (base ++ "." ++ extension) = base := by
  have hsplit : (base ++ "." ++ extension).toList = base.toList ++ '.' :: extension.toList := by
    simp
  have hbefore := beforeLastDot?_append h base.toList
  have hne : base.toList ≠ [] := mt String.toList_eq_nil_iff.mp hbase
  unfold stem
  rw [hsplit, hbefore]
  cases hcs : base.toList with
  | nil => exact absurd hcs hne
  | cons c cs =>
    change String.ofList (c :: cs) = base
    rw [← hcs, String.ofList_toList]

end Sketchbook
