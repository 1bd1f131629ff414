/-!
# Stable sorting by a text

`sortOn` puts a list in the order of a text that each element is given, code point by code point.
Elements with the same text keep the order they had.
-/

namespace Sketchbook

/-- Puts an element into a sorted list, in front of those with the same key. -/
def insertOn {α : Type} (key : α → String) (a : α) : List α → List α
  | [] => [a]
  | b :: bs => if key a ≤ key b then a :: b :: bs else b :: insertOn key a bs

/-- The list in the order of the keys. Each key is made once. -/
def sortOn {α : Type} (key : α → String) (as : List α) : List α :=
  ((as.map fun a => (key a, a)).foldr (insertOn (·.1)) []).map (·.2)

variable {α : Type} {key : α → String}

theorem insertOn_keyed (key : α → String) (a : α) (bs : List α) :
    insertOn (·.1) (key a, a) (bs.map fun b => (key b, b)) =
      (insertOn key a bs).map fun b => (key b, b) := by
  induction bs with
  | nil => rfl
  | cons b bs ih =>
    simp only [List.map_cons, insertOn, ih]
    split <;> rfl

/-- Sorting inserts one element after the other. -/
theorem sortOn_eq_foldr (key : α → String) (as : List α) :
    sortOn key as = as.foldr (insertOn key) [] := by
  have keyed : (as.map fun a => (key a, a)).foldr (insertOn (·.1)) [] =
      (as.foldr (insertOn key) []).map fun b => (key b, b) := by
    induction as with
    | nil => rfl
    | cons a as ih => rw [List.map_cons, List.foldr_cons, ih, insertOn_keyed, List.foldr_cons]
  rw [sortOn, keyed, List.map_map]
  exact List.map_id _

theorem sortOn_cons (key : α → String) (a : α) (as : List α) :
    sortOn key (a :: as) = insertOn key a (sortOn key as) := by
  rw [sortOn_eq_foldr, sortOn_eq_foldr, List.foldr_cons]

theorem insertOn_perm (a : α) (bs : List α) : (insertOn key a bs).Perm (a :: bs) := by
  induction bs with
  | nil => exact .refl _
  | cons b bs ih =>
    rw [insertOn]
    split
    · exact .refl _
    · exact (ih.cons b).trans (.swap a b bs)

theorem sortOn_perm (as : List α) : (sortOn key as).Perm as := by
  induction as with
  | nil => exact .refl _
  | cons a as ih => exact sortOn_cons key a as ▸ (insertOn_perm a _).trans (ih.cons a)

theorem insertOn_pairwise (a : α) {bs : List α} (h : bs.Pairwise fun x y => key x ≤ key y) :
    (insertOn key a bs).Pairwise fun x y => key x ≤ key y := by
  induction bs with
  | nil => simp [insertOn]
  | cons b bs ih =>
    rw [List.pairwise_cons] at h
    rw [insertOn]
    split
    · next hab =>
      refine List.pairwise_cons.mpr ⟨fun x hx => ?_, List.pairwise_cons.mpr h⟩
      rcases List.mem_cons.mp hx with rfl | hx
      · exact hab
      · exact String.le_trans hab (h.1 x hx)
    · next hab =>
      refine List.pairwise_cons.mpr ⟨fun x hx => ?_, ih h.2⟩
      rcases List.mem_cons.mp ((insertOn_perm a bs).mem_iff.mp hx) with rfl | hx
      · exact (String.le_total _ _).resolve_left hab
      · exact h.1 x hx

/-- A sorted list is in the order of the keys. -/
theorem sortOn_pairwise (as : List α) : (sortOn key as).Pairwise fun x y => key x ≤ key y := by
  induction as with
  | nil => exact .nil
  | cons a as ih => exact sortOn_cons key a as ▸ insertOn_pairwise a ih

theorem insertOn_of_le {a : α} {bs : List α} (h : ∀ b ∈ bs, key a ≤ key b) :
    insertOn key a bs = a :: bs := by
  cases bs with
  | nil => rfl
  | cons b bs => rw [insertOn, if_pos (h b (by simp))]

/-- Sorting leaves a sorted list as it is. -/
theorem sortOn_of_pairwise {as : List α} (h : as.Pairwise fun x y => key x ≤ key y) :
    sortOn key as = as := by
  induction as with
  | nil => rfl
  | cons a as ih =>
    rw [List.pairwise_cons] at h
    rw [sortOn_cons, ih h.2, insertOn_of_le h.1]

/-- Of the elements with one key, the one that is inserted stands before the others. -/
theorem filter_insertOn (k : String) (a : α) (bs : List α) :
    (insertOn key a bs).filter (fun b => key b == k) =
      (a :: bs).filter fun b => key b == k := by
  induction bs with
  | nil => rfl
  | cons b bs ih =>
    rw [insertOn]
    split
    · rfl
    · next hab =>
      -- an element that is passed over has a lower key than the one that is inserted
      have hdiffer : ¬ (key a = k ∧ key b = k) := by
        rintro ⟨rfl, hsame⟩
        exact hab (hsame ▸ String.le_refl (key b))
      rw [List.filter_cons, ih]
      by_cases hak : key a = k
      · have hbk : key b ≠ k := fun hbk => hdiffer ⟨hak, hbk⟩
        simp [hak, hbk]
      · simp [hak, List.filter_cons]

/-- Elements with one key keep their order when a list is sorted. -/
theorem filter_sortOn (k : String) (as : List α) :
    (sortOn key as).filter (fun a => key a == k) = as.filter fun a => key a == k := by
  induction as with
  | nil => rfl
  | cons a as ih => rw [sortOn_cons, filter_insertOn, List.filter_cons, ih, List.filter_cons]

end Sketchbook
