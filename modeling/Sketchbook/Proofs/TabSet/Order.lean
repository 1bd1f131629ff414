import Sketchbook.Proofs.Disk.Listing
import Sketchbook.TabSet.Basic

/-!
# The order of the tabs of a set

`PinnedOrder` is the order that a set of tabs is meant to have: the name of the main file in
front, if it is there, and the other names in strictly increasing order of code points. There is
only one way to put names in this order (`PinnedOrder.eq_of_mem_iff`). The theorem
`pinnedOrder_sort` says when sorting a set establishes it: the names are different, and no tab of
the main file lies behind the first place.
-/

namespace Sketchbook

variable {μ : Type}

/-- The name `first` leads, if it is there, and the other names are in strictly increasing order. -/
def PinnedOrder (first : String) (names : List String) : Prop :=
  (first ∈ names ∧ ∃ rest, names = first :: rest ∧ first ∉ rest ∧ rest.Pairwise (· < ·)) ∨
    (first ∉ names ∧ names.Pairwise (· < ·))

namespace PinnedOrder

variable {first : String} {names others : List String}

/-- Names in pinned order are different from each other. -/
theorem nodup (h : PinnedOrder first names) : names.Nodup := by
  rcases h with ⟨-, rest, rfl, hfirst, hrest⟩ | ⟨-, hnames⟩
  · exact List.nodup_cons.mpr ⟨hfirst, nodup_of_pairwise_lt hrest⟩
  · exact nodup_of_pairwise_lt hnames

/-- Names in pinned order are determined by which names they are. -/
theorem eq_of_mem_iff (h : PinnedOrder first names) (h' : PinnedOrder first others)
    (hmem : ∀ n, n ∈ names ↔ n ∈ others) : names = others := by
  rcases h with ⟨hin, rest, rfl, hfirst, hrest⟩ | ⟨hout, hnames⟩
  · rcases h' with ⟨-, rest', rfl, hfirst', hrest'⟩ | ⟨hout', -⟩
    · have hrests : ∀ n, n ∈ rest ↔ n ∈ rest' := by
        intro n
        have hn := hmem n
        simp only [List.mem_cons] at hn
        by_cases hnf : n = first
        · subst hnf
          exact iff_of_false hfirst hfirst'
        · simpa [hnf] using hn
      rw [eq_of_pairwise_lt hrest hrest' hrests]
    · exact (hout' ((hmem first).mp hin)).elim
  · rcases h' with ⟨hin', -⟩ | ⟨-, hothers⟩
    · exact (hout ((hmem first).mpr hin')).elim
    · exact eq_of_pairwise_lt hnames hothers hmem

end PinnedOrder

/-- Sorting by texts that differ from each other puts them in strictly increasing order. -/
theorem map_sortOn_pairwise_lt {α : Type} (key : α → String) {as : List α}
    (h : (as.map key).Nodup) : ((sortOn key as).map key).Pairwise (· < ·) := by
  have hnodup : ((sortOn key as).map key).Pairwise (· ≠ ·) :=
    ((sortOn_perm as).map key).nodup_iff.mpr h
  have hle : ((sortOn key as).map key).Pairwise (· ≤ ·) :=
    List.pairwise_map.mpr (sortOn_pairwise as)
  exact (hle.and hnodup).imp fun hab => Std.lt_of_le_of_ne hab.1 hab.2

namespace TabSet

/-- The names of the files of the tabs in a set, in order. -/
def filenames (s : TabSet) (w : Workspace μ) : List String :=
  s.members.map fun id => (w.tab id).filename

/-! ### Permutations of the members -/

/-- Putting tabs in order permutes them. -/
theorem orderMembers_perm (s : TabSet) (w : Workspace μ) (ids : List TabId) :
    (s.orderMembers w ids).Perm ids := by
  cases ids with
  | nil => exact .refl _
  | cons id rest =>
    rw [orderMembers]
    split
    · exact (sortOn_perm rest).cons id
    · exact sortOn_perm (id :: rest)

/-- Sorting a set permutes its tabs. -/
theorem sort_perm (s : TabSet) (w : Workspace μ) : (s.sort w).members.Perm s.members :=
  s.orderMembers_perm w s.members

/-- Moving a member to the front permutes the tabs of a set. -/
theorem moveToFront_perm {s : TabSet} {id : TabId} (h : id ∈ s.members) :
    (s.moveToFront id).members.Perm s.members :=
  (List.perm_cons_erase h).symm

/-- Moving the tab of the main file to the front permutes the tabs of a set. -/
theorem pinPrimary_perm (s : TabSet) (w : Workspace μ) :
    (s.pinPrimary w).members.Perm s.members := by
  unfold pinPrimary
  cases hfind : s.members.find? (s.isPrimary w) with
  | none => exact .refl _
  | some id => exact moveToFront_perm (List.mem_of_find?_eq_some hfind)

/-- Pinning changes nothing of a set but the order of its tabs. -/
theorem pinPrimary_eq (s : TabSet) (w : Workspace μ) :
    s.pinPrimary w = { s with members := (s.pinPrimary w).members } := by
  unfold pinPrimary
  split <;> rfl

/-! ### The order that sorting establishes -/

/-- Once the main file is pinned, no tab of it lies behind the first place. -/
theorem head?_pinPrimary {s : TabSet} {w : Workspace μ} {id : TabId}
    (hprimary : ∀ i ∈ s.members, ∀ j ∈ s.members, s.isPrimary w i = true →
      s.isPrimary w j = true → i = j)
    (hmem : id ∈ (s.pinPrimary w).members) (hid : s.isPrimary w id = true) :
    (s.pinPrimary w).members.head? = some id := by
  have hmem' : id ∈ s.members := (s.pinPrimary_perm w).mem_iff.mp hmem
  unfold pinPrimary
  cases hfind : s.members.find? (s.isPrimary w) with
  | none => exact absurd hid (by simpa using List.find?_eq_none.mp hfind id hmem')
  | some found =>
    have hfound : found ∈ s.members := List.mem_of_find?_eq_some hfind
    have heq : found = id := hprimary found hfound id hmem' (List.find?_some hfind) hid
    simp [moveToFront, heq]

/-- Sorting a set puts the names of its tabs in pinned order, provided that they are different,
that the tab of the main file is the one with this name, and that it leads the others. -/
theorem pinnedOrder_sort {s : TabSet} {w : Workspace μ} (hnodup : (s.filenames w).Nodup)
    (hname : ∀ id ∈ s.members,
      s.isPrimary w id = true ↔ (w.tab id).filename = s.primary.name)
    (hlead : ∀ id ∈ s.members, s.isPrimary w id = true → s.members.head? = some id) :
    PinnedOrder s.primary.name ((s.sort w).filenames w) := by
  unfold filenames at hnodup ⊢
  unfold sort orderMembers
  cases hmembers : s.members with
  | nil => exact .inr ⟨by simp, by simp⟩
  | cons id rest =>
    rw [hmembers] at hnodup hname hlead
    by_cases hid : s.isPrimary w id = true
    · -- the first tab is that of the main file and stays, the others are sorted
      have hfilename : (w.tab id).filename = s.primary.name :=
        (hname id (List.mem_cons_self ..)).mp hid
      obtain ⟨hhead, hrest⟩ := List.nodup_cons.mp hnodup
      refine .inl ?_
      simp only [hid, if_true, List.map_cons, hfilename]
      refine ⟨List.mem_cons_self .., _, rfl, ?_, map_sortOn_pairwise_lt _ hrest⟩
      rw [((sortOn_perm rest).map _).mem_iff, ← hfilename]
      exact hhead
    · -- no tab is that of the main file, and all are sorted
      refine .inr ?_
      simp only [hid, Bool.false_eq_true, if_false]
      refine ⟨?_, map_sortOn_pairwise_lt _ hnodup⟩
      rw [((sortOn_perm (id :: rest)).map _).mem_iff]
      intro hmem
      obtain ⟨other, hother, heq⟩ := List.mem_map.mp hmem
      have hprimary : s.isPrimary w other = true := (hname other hother).mpr heq
      have hfirst : id = other := by simpa using hlead other hother hprimary
      exact hid (hfirst ▸ hprimary)

end TabSet

end Sketchbook
