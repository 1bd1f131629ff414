import Sketchbook.Disk.Query

/-!
# The listing of a folder

A listing has the name of every entry of the folder (`Disk.mem_list_iff`), each of them once
(`Disk.list_nodup`). `eq_of_pairwise_lt` says that names in strictly increasing order are
determined by which names they are.
-/

namespace Sketchbook

variable {α : Type}

/-- Adding a name to names in strictly increasing order keeps them so. -/
theorem insertName_pairwise (n : String) {ms : List String} (h : ms.Pairwise (· < ·)) :
    (insertName n ms).Pairwise (· < ·) := by
  induction ms with
  | nil => simp [insertName]
  | cons m ms ih =>
    rw [List.pairwise_cons] at h
    obtain ⟨hm, hms⟩ := h
    rw [insertName]
    split
    · next hnm =>
      refine List.pairwise_cons.mpr ⟨fun k hk => ?_, List.pairwise_cons.mpr ⟨hm, hms⟩⟩
      rcases List.mem_cons.mp hk with rfl | hk
      · exact hnm
      · exact String.lt_trans hnm (hm k hk)
    · next hnm =>
      split
      · exact List.pairwise_cons.mpr ⟨hm, hms⟩
      · next hne =>
        have hmn : m < n := by
          have hle : m ≤ n := String.not_lt.mp hnm
          exact Std.lt_of_le_of_ne hle (Ne.symm hne)
        refine List.pairwise_cons.mpr ⟨fun k hk => ?_, ih hms⟩
        rcases mem_insertName.mp hk with rfl | hk
        · exact hmn
        · exact hm k hk

/-- The names one step from the root of a tree are in strictly increasing order. -/
theorem NameTree.names_pairwise (t : NameTree α) : t.names.Pairwise (· < ·) := by
  rw [names]
  generalize t.branches.names.filter _ = ns
  induction ns with
  | nil => exact .nil
  | cons n ns ih => exact insertName_pairwise n ih

/-- Names in strictly increasing order are different from each other. -/
theorem nodup_of_pairwise_lt {ns : List String} (h : ns.Pairwise (· < ·)) : ns.Nodup := by
  apply h.imp
  intro m n hlt heq
  subst heq
  exact String.lt_irrefl m hlt

/-- Names in strictly increasing order are determined by which names they are. -/
theorem eq_of_pairwise_lt {ms ns : List String} (hms : ms.Pairwise (· < ·))
    (hns : ns.Pairwise (· < ·)) (h : ∀ n, n ∈ ms ↔ n ∈ ns) : ms = ns := by
  have hperm : ms.Perm ns :=
    (List.perm_ext_iff_of_nodup (nodup_of_pairwise_lt hms) (nodup_of_pairwise_lt hns)).mpr h
  exact hperm.eq_of_pairwise (fun _ _ _ _ hab hba => (String.lt_asymm hab hba).elim) hms hns

namespace Disk

/-- The folder a path leads to has an entry of this name. -/
def HasEntry (d : Disk) (p : Path) (n : String) : Prop :=
  ∃ place access, d.find .target p = .ok (.entry place (.folder access)) ∧
    (d.node? (place ++ [n])).isSome = true

/-- A listing has the names of the entries of the folder. -/
theorem mem_list_iff {d : Disk} {p : Path} {names : List String} (h : d.list p = .ok names)
    {n : String} : n ∈ names ↔ d.HasEntry p n := by
  unfold list at h
  unfold HasEntry
  cases hfind : d.find .target p with
  | error e => simp [hfind] at h
  | ok spot =>
    cases spot with
    | vacant folder name => simp [hfind] at h
    | lost =>
      simp only [hfind, Except.ok.injEq] at h
      simp [← h]
    | entry place node =>
      cases node with
      | file bytes access => simp [hfind] at h
      | link target => simp [hfind] at h
      | folder access =>
        by_cases hread : access.read = true
        · simp only [hfind, hread, if_true, Except.ok.injEq] at h
          rw [← h, mem_names]
          simp
        · simp [hfind, hread] at h

/-- A listing has every name once. -/
theorem list_nodup {d : Disk} {p : Path} {names : List String} (h : d.list p = .ok names) :
    names.Nodup := by
  unfold list at h
  split at h
  · split at h
    · cases h
      exact nodup_of_pairwise_lt (NameTree.names_pairwise _)
    · cases h
  · cases h
  · cases h
  · cases h
    exact .nil
  · cases h

end Disk

end Sketchbook
