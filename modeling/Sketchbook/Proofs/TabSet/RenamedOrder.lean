import Sketchbook.Proofs.TabSet.RenamedEntry
import Sketchbook.Proofs.TabSet.UniqueNames

/-!
# The order of the tabs after one has been renamed

A set is put in order when a tab of it has been renamed. Sorting keeps the tab of the main file in
front only if it is there already (`TabSet.pinnedOrder_sort_iff`). A load puts it there, but a
sketch may have no main file yet, and any tab can be renamed to become it. The order is then the one
that a load would define just if the new main file leads the others anyway
(`TabSet.inCanonicalOrder_renameTab_iff`).
-/

namespace Sketchbook

variable {μ : Type}

/-- Names that strictly increase are in pinned order just if none of them is below the first. -/
theorem pinnedOrder_iff_of_pairwise_lt {first : String} {names : List String}
    (hnames : names.Pairwise (· < ·)) (hfirst : first ∈ names) :
    PinnedOrder first names ↔ ∀ n ∈ names, first ≤ n := by
  constructor
  · rintro (⟨-, rest, rfl, -, -⟩ | ⟨hout, -⟩)
    · intro n hn
      rcases List.mem_cons.mp hn with rfl | hrest
      · exact Std.le_refl _
      · exact Std.le_of_lt ((List.pairwise_cons.mp hnames).1 n hrest)
    · exact absurd hfirst hout
  · intro hle
    cases names with
    | nil => cases hfirst
    | cons n rest =>
      obtain ⟨hlt, hrest⟩ := List.pairwise_cons.mp hnames
      have hhead : n = first := by
        rcases List.mem_cons.mp hfirst with heq | hmem
        · exact heq.symm
        · exact absurd (hlt first hmem) (Std.not_lt.mpr (hle n (List.mem_cons_self ..)))
      subst hhead
      refine .inl ⟨hfirst, rest, rfl, ?_, hrest⟩
      intro hmem
      exact Std.lt_irrefl (hlt n hmem)

namespace TabSet

variable {s t : TabSet} {w w' : Workspace μ}

/-- The tab of the main file leads the others, if there is one, and the names of the others
strictly increase. -/
structure InCanonicalOrder (s : TabSet) (w : Workspace μ) : Prop where
  leads : ∀ id ∈ s.members, s.isPrimary w id = true → s.members.head? = some id
  increasing : ((s.members.filter fun id => !s.isPrimary w id).map
    fun id => (w.tab id).filename).Pairwise (· < ·)

/-- If the tab of the main file leads, the others are those behind the first. -/
theorem Housed.filter_others (h : Housed s w) (hnodup : (s.filenames w).Nodup) {id : TabId}
    {rest : List TabId} (hmembers : s.members = id :: rest) (hid : s.isPrimary w id = true) :
    s.members.filter (fun id => !s.isPrimary w id) = rest := by
  have hidmem : id ∈ s.members := by
    rw [hmembers]
    exact List.mem_cons_self ..
  have hname : (w.tab id).filename = s.primary.name := (h.isPrimary_iff hidmem).mp hid
  have hrest : ∀ other ∈ rest, s.isPrimary w other = false := by
    intro other hother
    cases hprimary : s.isPrimary w other with
    | false => rfl
    | true =>
      have hmem : other ∈ s.members := by
        rw [hmembers]
        exact List.mem_cons_of_mem _ hother
      have heq : (w.tab other).filename = (w.tab id).filename :=
        ((h.isPrimary_iff hmem).mp hprimary).trans hname.symm
      rw [filenames, hmembers, List.map_cons, List.nodup_cons, ← heq] at hnodup
      exact absurd (List.mem_map_of_mem hother) hnodup.1
  rw [hmembers, List.filter_cons_of_neg (by simp [hid]), List.filter_eq_self]
  intro other hother
  rw [hrest other hother]
  rfl

/-- If there is a tab of the main file the tabs are in canonical order just if their names are in
pinned order. -/
theorem Housed.inCanonicalOrder_iff_of_mem (h : Housed s w) (hnodup : (s.filenames w).Nodup)
    {id : TabId} (hid : id ∈ s.members) (hprimary : s.isPrimary w id = true) :
    s.InCanonicalOrder w ↔ PinnedOrder s.primary.name (s.filenames w) := by
  have hname : (w.tab id).filename = s.primary.name := (h.isPrimary_iff hid).mp hprimary
  have hmem : s.primary.name ∈ s.filenames w := by
    rw [← hname]
    exact List.mem_map_of_mem hid
  constructor
  · intro horder
    have hmembers : ∃ rest, s.members = id :: rest :=
      List.head?_eq_some_iff.mp (horder.leads id hid hprimary)
    obtain ⟨rest, hmembers⟩ := hmembers
    have hincreasing := horder.increasing
    rw [h.filter_others hnodup hmembers hprimary] at hincreasing
    have hnames : s.filenames w = s.primary.name :: rest.map fun id => (w.tab id).filename := by
      rw [filenames, hmembers, List.map_cons, hname]
    rw [hnames, List.nodup_cons] at hnodup
    exact .inl ⟨hmem, _, hnames, hnodup.1, hincreasing⟩
  · rintro (⟨-, names, hnames, -, hincreasing⟩ | ⟨hout, -⟩)
    · obtain ⟨first, rest, hmembers, hfirst, rfl⟩ := List.map_eq_cons_iff.mp hnames
      have hfirstmem : first ∈ s.members := by
        rw [hmembers]
        exact List.mem_cons_self ..
      refine ⟨fun other hother hotherprimary => ?_, ?_⟩
      · have hsame : first = other := List.inj_on_of_nodup_map hnodup hfirstmem hother
          (hfirst.trans ((h.isPrimary_iff hother).mp hotherprimary).symm)
        rw [hmembers, hsame]
        rfl
      · rw [h.filter_others hnodup hmembers ((h.isPrimary_iff hfirstmem).mpr hfirst)]
        exact hincreasing
    · exact absurd hmem hout

/-- Tabs of the sketch folder with different names are in canonical order just if their names are
in pinned order. -/
theorem Housed.inCanonicalOrder_iff (h : Housed s w) (hnodup : (s.filenames w).Nodup) :
    s.InCanonicalOrder w ↔ PinnedOrder s.primary.name (s.filenames w) := by
  by_cases hmain : ∃ id ∈ s.members, s.isPrimary w id = true
  · obtain ⟨id, hid, hprimary⟩ := hmain
    exact h.inCanonicalOrder_iff_of_mem hnodup hid hprimary
  · -- no tab is that of the main file, and all count as others
    have hothers : s.members.filter (fun id => !s.isPrimary w id) = s.members := by
      rw [List.filter_eq_self]
      intro id hid
      simpa using fun hprimary => hmain ⟨id, hid, hprimary⟩
    have hout : s.primary.name ∉ s.filenames w := by
      intro hmem
      obtain ⟨id, hid, heq⟩ := List.mem_map.mp hmem
      exact hmain ⟨id, hid, (h.isPrimary_iff hid).mpr heq⟩
    constructor
    · intro horder
      have hincreasing := horder.increasing
      rw [hothers] at hincreasing
      exact .inr ⟨hout, hincreasing⟩
    · rintro (⟨hin, -⟩ | ⟨-, hincreasing⟩)
      · exact absurd hin hout
      · refine ⟨fun id hid hprimary => absurd ⟨id, hid, hprimary⟩ hmain, ?_⟩
        rw [hothers]
        exact hincreasing

/-- Sorting a set puts the names of its tabs in pinned order just if the tab of the main file leads
already, or is the first by its name. -/
theorem pinnedOrder_sort_iff (hnodup : (s.filenames w).Nodup)
    (hname : ∀ id ∈ s.members,
      s.isPrimary w id = true ↔ (w.tab id).filename = s.primary.name) :
    PinnedOrder s.primary.name ((s.sort w).filenames w) ↔
      ∀ id ∈ s.members, s.isPrimary w id = true →
        s.members.head? = some id ∨ ∀ n ∈ s.filenames w, s.primary.name ≤ n := by
  by_cases hlead : ∀ id ∈ s.members, s.isPrimary w id = true → s.members.head? = some id
  · exact iff_of_true (pinnedOrder_sort hnodup hname hlead)
      fun id hid hprimary => .inl (hlead id hid hprimary)
  · push Not at hlead
    obtain ⟨id, hid, hprimary, hhead⟩ := hlead
    have hfilename := (hname id hid).mp hprimary
    have hperm : ((s.sort w).filenames w).Perm (s.filenames w) := filenames_perm (sort_perm s w)
    -- the first tab is not that of the main file, so that all tabs have been sorted
    have hsorted : ((s.sort w).filenames w).Pairwise (· < ·) := by
      unfold filenames at hnodup ⊢
      unfold sort orderMembers
      cases hmembers : s.members with
      | nil => simp
      | cons first rest =>
        have hfirst : first ∈ s.members := by
          rw [hmembers]
          exact List.mem_cons_self ..
        have hnot : s.isPrimary w first ≠ true := by
          intro hfirstprimary
          have heq : first = id := List.inj_on_of_nodup_map hnodup hfirst hid
            (((hname first hfirst).mp hfirstprimary).trans hfilename.symm)
          rw [hmembers, heq] at hhead
          exact hhead rfl
        rw [hmembers] at hnodup
        simp only [hnot]
        exact map_sortOn_pairwise_lt _ hnodup
    have hmem : s.primary.name ∈ (s.sort w).filenames w := by
      rw [hperm.mem_iff, ← hfilename]
      exact List.mem_map_of_mem hid
    rw [pinnedOrder_iff_of_pairwise_lt hsorted hmem]
    constructor
    · intro hle other _ _
      exact .inr fun n hn => hle n (hperm.mem_iff.mpr hn)
    · intro hcases n hn
      rcases hcases id hid hprimary with hfirst | hle
      · exact absurd hfirst hhead
      · exact hle n (hperm.mem_iff.mp hn)

/-! ### Renaming a tab of a set that has just been loaded -/

/-- Where file names are different the tab that leads is told by its name. -/
theorem head?_members_iff (hnodup : (s.filenames w).Nodup) {id : TabId} (hid : id ∈ s.members) :
    s.members.head? = some id ↔ (s.filenames w).head? = some (w.tab id).filename := by
  rw [filenames, List.head?_map]
  constructor
  · intro hhead
    rw [hhead]
    rfl
  · intro hname
    obtain ⟨first, hfirst, heq⟩ := Option.map_eq_some_iff.mp hname
    rw [hfirst, List.inj_on_of_nodup_map hnodup (List.mem_of_head? hfirst) hid heq]

namespace Renamed

variable {old new : String} {id : TabId} (h : Renamed s w old new t w' id)

include h

/-- Only the tab that has been renamed had the old name. -/
theorem eq_of_filename (hnodup : (s.filenames w).Nodup) {other : TabId} (hother : other ∈ s.members)
    (hname : (w.tab other).filename = old) : other = id :=
  List.inj_on_of_nodup_map hnodup hother h.mem (hname.trans h.filename_eq.symm)

/-- The names of the other tabs are what they were. -/
theorem forall_filenames_iff (hnodup : (s.filenames w).Nodup) :
    (∀ n ∈ s.filenames w', new ≤ n) ↔ ∀ n ∈ s.filenames w, n ≠ old → new ≤ n := by
  unfold filenames
  rw [List.forall_mem_map, List.forall_mem_map]
  constructor
  · intro hle other hother hne
    have hkept : (w'.tab other).filename = (w.tab other).filename := by
      rw [h.filename_tab, if_neg]
      rintro rfl
      exact hne h.filename_eq
    rw [← hkept]
    exact hle other hother
  · intro hle other hother
    rw [h.filename_tab]
    split
    · exact Std.le_refl _
    · next hne => exact hle other hother fun hname => hne (h.eq_of_filename hnodup hother hname)

/-- After a tab of a set in pinned order has been renamed, the tab of the main file leads the others
or is the first by its name, just if this holds where it is the one that has been renamed. -/
theorem leads_or_first_iff (hs : Housed s w)
    (horder : PinnedOrder s.primary.name (s.filenames w)) :
    (∀ other ∈ s.members, s.isPrimary w' other = true →
      s.members.head? = some other ∨ ∀ n ∈ s.filenames w', s.primary.name ≤ n) ↔
    (new = s.primary.name →
      (s.filenames w).head? = some old ∨ ∀ n ∈ s.filenames w, n ≠ old → new ≤ n) := by
  have hnodup : (s.filenames w).Nodup := horder.nodup
  have hname : ∀ other ∈ s.members, s.isPrimary w' other = true ↔
      (if other = id then new else (w.tab other).filename) = s.primary.name := by
    intro other hother
    rw [(h.housed hs).isPrimary_iff hother, h.filename_tab]
  by_cases hnew : new = s.primary.name
  · -- the tab that has been renamed is the only one of the main file
    have hprimary : s.isPrimary w' id = true := (hname id h.mem).mpr (by rw [if_pos rfl, hnew])
    have hunique : ∀ other ∈ s.members, s.isPrimary w' other = true → other = id := by
      intro other hother hmain
      have hmain' := (hname other hother).mp hmain
      split at hmain'
      · assumption
      · exact absurd (hnew ▸ hmain' ▸ List.mem_map_of_mem hother) h.not_mem
    rw [← hnew, h.forall_filenames_iff hnodup, ← h.filename_eq, ← head?_members_iff hnodup h.mem]
    constructor
    · intro hcases _
      exact hcases id h.mem hprimary
    · intro hcases other hother hmain
      rw [hunique other hother hmain]
      exact hcases rfl
  · refine iff_of_true (fun other hother hmain => .inl ?_) fun heq => absurd heq hnew
    have hkept : (w.tab other).filename = s.primary.name := by
      have hmain' := (hname other hother).mp hmain
      split at hmain'
      · exact absurd hmain' hnew
      · exact hmain'
    have hmem : s.primary.name ∈ s.filenames w := hkept ▸ List.mem_map_of_mem hother
    rw [head?_members_iff hnodup hother, hkept]
    rcases horder with ⟨-, rest, hnames, -⟩ | ⟨hout, -⟩
    · rw [hnames]
      rfl
    · exact absurd hmem hout

end Renamed

/-- The order of the tabs once one of them has been renamed after a load is the canonical one,
unless the tab has become that of the main file: then it is so just if the tab was the first before
or is the first by its new name. -/
theorem inCanonicalOrder_renameTab_iff {s t u : TabSet} {w v v' : Workspace μ} (hs : s.IsFormed)
    {o : ListingOrder} (hload : s.loadIn o w = (.ok (), t, v)) {old new : String}
    (h : t.renameTab v old new = (.ok (.ok ()), u, v')) :
    u.InCanonicalOrder v' ↔
      (new = s.primary.name → (t.filenames v).head? = some old ∨
        ∀ n ∈ t.filenames v, n ≠ old → new ≤ n) := by
  obtain ⟨hfresh, hset⟩ := fresh_of_loadIn hs hload
  obtain ⟨id, hrenamed⟩ := hfresh.toHoused.exists_renamed h
  have hhoused : Housed t v' := hrenamed.housed hfresh.toHoused
  have hprimary : t.primary = s.primary := by rw [hset]
  have hnodup : (u.filenames v').Nodup := nodup_filenames_renameTab hfresh.nodup h
  rw [hrenamed.set_eq] at hnodup ⊢
  have hnodup' : (t.filenames v').Nodup :=
    (filenames_perm (sort_perm t v')).nodup_iff.mp hnodup
  calc (t.sort v').InCanonicalOrder v'
    _ ↔ PinnedOrder t.primary.name ((t.sort v').filenames v') :=
        hhoused.sort.inCanonicalOrder_iff hnodup
    _ ↔ ∀ other ∈ t.members, t.isPrimary v' other = true →
          t.members.head? = some other ∨ ∀ n ∈ t.filenames v', t.primary.name ≤ n :=
        pinnedOrder_sort_iff hnodup' fun other hother => hhoused.isPrimary_iff hother
    _ ↔ _ := by
        rw [hrenamed.leads_or_first_iff hfresh.toHoused hfresh.canonical.ordered, hprimary]

/-- A workspace on a disk with two tabs in the folder `/B`, and no main file. -/
def headless : Workspace Unit :=
  .ofDisk (((Disk.blank []).placeFile [] ["B", "0.c"] []).placeFile [] ["B", "1.c"] []) true

/-- The second of two tabs is renamed to be the main file, and it is still the second. -/
theorem not_inCanonicalOrder_headless :
    blink.IsFormed ∧ blink.accepts = acceptsSanitary ∧
      (blink.loadIn .asKept headless).1 = .ok () ∧
      ∃ u v', (blink.loadIn .asKept headless).2.1.renameTab
          (blink.loadIn .asKept headless).2.2 "1.c" "B.ino" = (.ok (.ok ()), u, v') ∧
        ¬ u.InCanonicalOrder v' := by
  have hdone : wasDone ((blink.loadIn .asKept headless).2.1.renameTab
      (blink.loadIn .asKept headless).2.2 "1.c" "B.ino") = true := by decide +kernel
  have hmembers : ((blink.loadIn .asKept headless).2.1.renameTab
      (blink.loadIn .asKept headless).2.2 "1.c" "B.ino").2.1.members = [0, 1] := by decide +kernel
  have hprimary : ((blink.loadIn .asKept headless).2.1.renameTab
      (blink.loadIn .asKept headless).2.2 "1.c" "B.ino").2.1.isPrimary
        ((blink.loadIn .asKept headless).2.1.renameTab
          (blink.loadIn .asKept headless).2.2 "1.c" "B.ino").2.2 1 = true := by decide +kernel
  refine ⟨isFormed_blink, rfl, by decide +kernel, ?_⟩
  generalize (blink.loadIn .asKept headless).2 = loaded at hdone hmembers hprimary ⊢
  obtain ⟨u, v', hrename⟩ := exists_of_wasDone hdone
  simp only [hrename] at hmembers hprimary
  refine ⟨u, v', hrename, ?_⟩
  intro horder
  have hmem : 1 ∈ u.members := by simp [hmembers]
  have hhead : u.members.head? = some 1 := horder.leads 1 hmem hprimary
  simp [hmembers] at hhead

/-- A tab is renamed to another name than that of the main file, and the order is canonical. -/
theorem inCanonicalOrder_blink :
    blink.IsFormed ∧
      blink.loadIn .asKept (blinkOn "none") = (.ok (), loadedBlink.1, loadedBlink.2) ∧
      ∃ u v', loadedBlink.1.renameTab loadedBlink.2 "0.c" "b.c" = (.ok (.ok ()), u, v') ∧
        u.InCanonicalOrder v' := by
  have hdone : wasDone (loadedBlink.1.renameTab loadedBlink.2 "0.c" "b.c") = true := by
    decide +kernel
  obtain ⟨u, v', hrename⟩ := exists_of_wasDone hdone
  have hother : "b.c" ≠ blink.primary.name := by decide +kernel
  have hcanonical : u.InCanonicalOrder v' :=
    (inCanonicalOrder_renameTab_iff isFormed_blink loadIn_blink hrename).mpr
      fun heq => absurd heq hother
  exact ⟨isFormed_blink, loadIn_blink, u, v', hrename, hcanonical⟩

end TabSet

end Sketchbook
