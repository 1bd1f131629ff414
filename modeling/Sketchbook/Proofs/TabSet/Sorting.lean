import Sketchbook.Proofs.TabSet.Order

/-!
# Sorting a set of tabs

Sorting keeps the first tab of a set in its place if it is that of the main file, and puts all
others in the order of their file names. Tabs with the same file name keep the order they had, and
so does a tab that stands in the set more than once. The second of two sorts changes nothing
(`TabSet.sort_stable`), although it may find the main file in front where the first did not.
-/

namespace Sketchbook.TabSet

variable {μ : Type}

/-- The tabs that sorting leaves in front: the first one, if it is that of the main file. -/
def pinned (s : TabSet) (w : Workspace μ) : List TabId :=
  s.members.head?.toList.filter (s.isPrimary w)

/-- The second list has the tabs of the first in the order of their file names, and those with the
same file name in the order of the first. -/
structure StablySorted (w : Workspace μ) (ids sorted : List TabId) : Prop where
  perm : sorted.Perm ids
  increasing : sorted.Pairwise fun i j => (w.tab i).filename ≤ (w.tab j).filename
  stable (n : String) : sorted.filter (fun id => (w.tab id).filename == n) =
    ids.filter fun id => (w.tab id).filename == n

/-- Sorting by the file names is stable. -/
theorem stablySorted_sortOn (w : Workspace μ) (ids : List TabId) :
    StablySorted w ids (sortOn (fun id => (w.tab id).filename) ids) where
  perm := sortOn_perm ids
  increasing := sortOn_pairwise ids
  stable := fun n => filter_sortOn n ids

variable {s : TabSet} {w : Workspace μ}

/-- If the first tab is that of the main file it stays, and those behind it are sorted. -/
theorem orderMembers_of_isPrimary {id : TabId} (h : s.isPrimary w id = true) (rest : List TabId) :
    s.orderMembers w (id :: rest) = id :: sortOn (fun id => (w.tab id).filename) rest := by
  rw [orderMembers, if_pos h]

/-- If the first tab is not that of the main file, all tabs are sorted. -/
theorem orderMembers_of_not_isPrimary {ids : List TabId}
    (h : ∀ id ∈ ids.head?, s.isPrimary w id = false) :
    s.orderMembers w ids = sortOn (fun id => (w.tab id).filename) ids := by
  cases ids with
  | nil => rfl
  | cons id rest =>
    have hid : s.isPrimary w id = false := h id rfl
    rw [orderMembers, if_neg (by simp [hid])]

/-- Tabs in the order of their file names are left as they are, whichever of them is in front. -/
theorem orderMembers_of_pairwise {ids : List TabId}
    (h : ids.Pairwise fun i j => (w.tab i).filename ≤ (w.tab j).filename) :
    s.orderMembers w ids = ids := by
  cases ids with
  | nil => rfl
  | cons id rest =>
    cases hid : s.isPrimary w id with
    | true => rw [orderMembers_of_isPrimary hid, sortOn_of_pairwise (List.pairwise_cons.mp h).2]
    | false =>
      have hhead : ∀ i ∈ (id :: rest).head?, s.isPrimary w i = false := by
        intro i hi
        rw [← Option.some_inj.mp hi, hid]
      rw [orderMembers_of_not_isPrimary hhead, sortOn_of_pairwise h]

/-- Tabs that have been put in order are left as they are. -/
theorem orderMembers_orderMembers (s : TabSet) (w : Workspace μ) (ids : List TabId) :
    s.orderMembers w (s.orderMembers w ids) = s.orderMembers w ids := by
  by_cases hlead : ∃ id ∈ ids.head?, s.isPrimary w id = true
  · obtain ⟨id, hhead, hid⟩ := hlead
    obtain ⟨rest, rfl⟩ := List.head?_eq_some_iff.mp hhead
    rw [orderMembers_of_isPrimary hid, orderMembers_of_isPrimary hid,
      sortOn_of_pairwise (sortOn_pairwise rest)]
  · -- all tabs have been sorted, and it does not matter which of them is now in front
    have hsorted : s.orderMembers w ids = sortOn (fun id => (w.tab id).filename) ids := by
      refine orderMembers_of_not_isPrimary fun id hhead => ?_
      exact Bool.eq_false_iff.mpr fun hid => hlead ⟨id, hhead, hid⟩
    rw [hsorted, orderMembers_of_pairwise (sortOn_pairwise ids)]

/-- Sorting a set permutes its tabs. The first one stays in front if it is that of the main file,
and all others are sorted by their file names, in a stable way. Sorting the set once more changes
nothing. -/
theorem sort_stable (s : TabSet) (w : Workspace μ) :
    (s.sort w).members.Perm s.members ∧
      (∃ others sorted, s.members = s.pinned w ++ others ∧
        (s.sort w).members = s.pinned w ++ sorted ∧ StablySorted w others sorted) ∧
      (s.sort w).sort w = s.sort w := by
  refine ⟨s.sort_perm w, ?_, ?_⟩
  · by_cases hlead : ∃ id ∈ s.members.head?, s.isPrimary w id = true
    · obtain ⟨id, hhead, hid⟩ := hlead
      obtain ⟨rest, hmembers⟩ := List.head?_eq_some_iff.mp hhead
      have hpinned : s.pinned w = [id] := by simp [pinned, hmembers, hid]
      refine ⟨rest, _, ?_, ?_, stablySorted_sortOn w rest⟩
      · rw [hpinned, hmembers, List.singleton_append]
      · rw [hpinned, sort, hmembers, orderMembers_of_isPrimary hid, List.singleton_append]
    · have hnot : ∀ id ∈ s.members.head?, s.isPrimary w id = false :=
        fun id hhead => Bool.eq_false_iff.mpr fun hid => hlead ⟨id, hhead, hid⟩
      have hpinned : s.pinned w = [] := by
        rw [pinned, List.filter_eq_nil_iff]
        intro id hid
        simp [hnot id (Option.mem_toList.mp hid)]
      refine ⟨s.members, _, ?_, ?_, stablySorted_sortOn w s.members⟩
      · rw [hpinned, List.nil_append]
      · rw [hpinned, List.nil_append, sort, orderMembers_of_not_isPrimary hnot]
  · have hagain : s.orderMembers w (s.orderMembers w s.members) = s.orderMembers w s.members :=
      orderMembers_orderMembers s w s.members
    exact congrArg (fun ids => { s with members := ids }) hagain

end Sketchbook.TabSet
