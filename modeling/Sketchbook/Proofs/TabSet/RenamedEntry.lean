import Sketchbook.Proofs.Disk.Moving
import Sketchbook.Proofs.TabSet.Fresh
import Sketchbook.Proofs.TabSet.Renaming

/-!
# What renaming a tab does to the sketch folder

A tab of the sketch folder is renamed by renaming its entry (`TabSet.Housed.exists_renamed`). The
check of the new name asks for other tabs of this name, and not for other entries. After a load the
only entries that could bear the name without having a tab are folders and links to folders. The
disk refuses to replace a folder, and so nothing is lost unless the new name is that of a link to
a folder (`TabSet.movesOnly_or_replacesLink`).
-/

namespace Sketchbook

variable {μ : Type}

/-- The entry of the old name in a folder has been moved to the new name, where there was nothing.
Nothing else has changed. -/
def Disk.MovesOnly (d e : Disk) (folder : Place) (old new : String) : Prop :=
  d.node? (folder ++ [new]) = none ∧ ∃ n, Moved d e (folder ++ [old]) (folder ++ [new]) n

namespace TabSet

/-- A tab of the sketch folder has been renamed: its entry has been renamed on the disk, the tab has
the path of the new entry, and the set has been put in order. -/
structure Renamed (s : TabSet) (w : Workspace μ) (old new : String) (t : TabSet)
    (w' : Workspace μ) (id : TabId) : Prop where
  mem : id ∈ s.members
  filename_eq : (w.tab id).filename = old
  ne_primary : old ≠ s.primary.name
  accepted : s.nameProblem w new = none
  rename_eq : w.disk.rename (s.folder.child old) (s.folder.child new) = .ok w'.disk
  tab_eq : ∀ other, w'.tab other =
    if other = id then { w.tab id with path := s.folder.child new } else w.tab other
  set_eq : t = s.sort w'

section Renamed

variable {s t : TabSet} {w w' : Workspace μ} {old new : String} {id : TabId}

/-- Where a tab of the sketch folder has been renamed, this is what has happened. -/
theorem Housed.exists_renamed (h : Housed s w)
    (hrename : s.renameTab w old new = (.ok (.ok ()), t, w')) :
    ∃ id, Renamed s w old new t w' id := by
  obtain ⟨id, hok, hdisk, hset⟩ := renamable_of_renameTab hrename
  obtain ⟨hfind, hprimary, hproblem⟩ := renamable_eq_ok hok
  have hmem : id ∈ s.members := mem_of_find? hfind
  have hname : (w.tab id).filename = old := by simpa using List.find?_some hfind
  have hne : old ≠ s.primary.name := by
    rw [← hname]
    intro heq
    rw [(h.isPrimary_iff hmem).mpr heq] at hprimary
    cases hprimary
  have hentry : IsEntryName new := (isTabName_of_nameProblem hproblem).isEntryName
  have habs : w.disk.absolute (s.folder.child new) = .ok (s.folder.child new) :=
    w.disk.absolute_of_isAbsolute (h.isFormed.isAbsolute_child new)
  rw [Path.join_of_isEntryName _ hentry] at hdisk
  obtain ⟨hlt, target, d, htarget, hrenamed, rfl⟩ := Workspace.exists_of_rename hdisk
  rw [habs] at htarget
  cases htarget
  rw [h.path_eq id hmem, hname] at hrenamed
  refine ⟨id, hmem, hname, hne, hproblem, by rw [Workspace.disk_setDisk, hrenamed], ?_, hset⟩
  intro other
  rw [Workspace.tab_setDisk, Workspace.tab_setTab]
  simp [hlt]

namespace Renamed

variable (h : Renamed s w old new t w' id)

include h

/-- The tab has the new name, and all others have theirs. -/
theorem filename_tab (other : TabId) :
    (w'.tab other).filename = if other = id then new else (w.tab other).filename := by
  rw [h.tab_eq]
  split
  · exact Path.name_child s.folder new
  · rfl

/-- The new name is that of a source file which the usual policy accepts. -/
theorem accepts : acceptsSanitary (splitExtension? new sourceExtensions) = true :=
  (nameProblem_eq_none_iff.mp h.accepted).1

/-- No tab had the new name. -/
theorem not_mem : new ∉ s.filenames w :=
  (nameProblem_eq_none_iff.mp h.accepted).2

theorem isSource : isSourceName new = true :=
  isSourceName_of_acceptsSanitary h.accepts

/-- The old name was that of a tab. -/
theorem old_mem : old ∈ s.filenames w :=
  h.filename_eq ▸ List.mem_map_of_mem h.mem

theorem ne_old : new ≠ old := by
  rintro rfl
  exact h.not_mem h.old_mem

/-- The tabs are still housed after one of them has been renamed. -/
theorem housed (hs : Housed s w) : Housed s w' := by
  refine ⟨hs.isFormed, fun other hother => ?_, fun other hother => ?_⟩
  · rw [h.filename_tab, h.tab_eq]
    split
    · rfl
    · exact hs.path_eq other hother
  · rw [h.filename_tab]
    split
    · exact h.isSource
    · exact hs.isSource other hother

end Renamed

end Renamed

/-- Renaming a tab of a fresh set has moved its entry in the sketch folder, to where there was no
folder. -/
theorem Fresh.moved_of_renamed {s t : TabSet} {w w' : Workspace μ} {old new : String} {id : TabId}
    (h : Fresh s w) (hrenamed : Renamed s w old new t w' id) :
    ∃ folder access n, w.disk.find .target s.folder = .ok (.entry folder (.folder access)) ∧
      w.disk.find .entry (s.folder.child new) = .ok (w.disk.spotIn folder new) ∧
      Disk.Moved w.disk w'.disk (folder ++ [old]) (folder ++ [new]) n ∧
      ∀ m, w.disk.node? (folder ++ [new]) = some m → m.isFolder = false := by
  obtain ⟨-, -, -, -, -, hfile, -⟩ := h.exists_find hrenamed.old_mem
  have hold : isSourceName old = true := by
    rw [← hrenamed.filename_eq]
    exact h.isSource id hrenamed.mem
  obtain ⟨folder, access, n, hfolder, hspot, -, hmoved⟩ :=
    Disk.moved_of_rename (Step.ofName_of_isSourceName hold)
      (Step.ofName_of_isSourceName hrenamed.isSource) hrenamed.ne_old hfile hrenamed.rename_eq
  exact ⟨folder, access, n, hfolder, hspot, hmoved⟩

/-! ### What is lost -/

/-- Renaming a tab of a set that has just been loaded only moves its entry to a name that no entry
had, unless the new name is that of a link to a folder: such a link is replaced. -/
theorem movesOnly_or_replacesLink {s t u : TabSet} {w v v' : Workspace μ} (hs : s.IsFormed)
    (hpolicy : s.accepts = acceptsSanitary) {o : ListingOrder}
    (hload : s.loadIn o w = (.ok (), t, v)) {old new : String}
    (h : t.renameTab v old new = (.ok (.ok ()), u, v')) :
    ∃ folder access, v.disk.find .target s.folder = .ok (.entry folder (.folder access)) ∧
      (v.disk.MovesOnly v'.disk folder old new ∨
        ∃ n target, Disk.Moved v.disk v'.disk (folder ++ [old]) (folder ++ [new]) n ∧
          v.disk.node? (folder ++ [new]) = some (.link target) ∧
          v.disk.isFolder? (s.folder.child new) = .ok true) := by
  obtain ⟨hfresh, hset⟩ := fresh_of_loadIn hs hload
  obtain ⟨id, hrenamed⟩ := hfresh.toHoused.exists_renamed h
  have hfolder : t.folder = s.folder := by rw [hset]; rfl
  have haccepts : t.accepts = acceptsSanitary := by rw [hset]; exact hpolicy
  obtain ⟨folder, access, n, hfind, hspot, hmoved, hfree⟩ := hfresh.moved_of_renamed hrenamed
  rw [hfolder] at hfind hspot
  refine ⟨folder, access, hfind, ?_⟩
  cases hnode : v.disk.node? (folder ++ [new]) with
  | none => exact .inl ⟨hnode, n, hmoved⟩
  | some m =>
    -- an entry without a tab leads to a folder, and it is none itself
    have hentry : v.disk.HasEntry t.folder new := by
      rw [hfolder]
      exact ⟨folder, access, hfind, by rw [hnode]; rfl⟩
    have hleads : v.disk.isFolder? (s.folder.child new) = .ok true := by
      rw [← hfolder]
      exact hfresh.isFolder?_of_not_mem hentry hrenamed.isSource
        (by rw [haccepts]; exact hrenamed.accepts) hrenamed.not_mem
    rw [Disk.spotIn_of_some hnode] at hspot
    have hlink : ∃ target, m = .link target := by
      cases m with
      | link target => exact ⟨target, rfl⟩
      | file bytes access =>
        rw [Disk.isFolder?_of_find hspot (by simp)] at hleads
        cases hleads
      | folder access => cases hfree _ hnode
    obtain ⟨target, rfl⟩ := hlink
    exact .inr ⟨n, target, hmoved, rfl, hleads⟩

/-- A tab is renamed to the name of a link to the folder above, and the link is gone. -/
theorem not_movesOnly_link :
    blink.IsFormed ∧ blink.accepts = acceptsSanitary ∧
      (blink.loadIn .asKept (blinkOn "..")).1 = .ok () ∧
      ∃ u v', (blink.loadIn .asKept (blinkOn "..")).2.1.renameTab
          (blink.loadIn .asKept (blinkOn "..")).2.2 "0.c" "a.c" = (.ok (.ok ()), u, v') ∧
        ¬ (blinkOn "..").disk.MovesOnly v'.disk ["B"] "0.c" "a.c" := by
  have hdone : wasDone ((blink.loadIn .asKept (blinkOn "..")).2.1.renameTab
      (blink.loadIn .asKept (blinkOn "..")).2.2 "0.c" "a.c") = true := by decide +kernel
  obtain ⟨u, v', hrename⟩ := exists_of_wasDone hdone
  have hlink : (blinkOn "..").disk.node? ["B", "a.c"] = some (.link "..") := rfl
  refine ⟨isFormed_blink, rfl, by decide +kernel, u, v', hrename, ?_⟩
  intro hmoves
  have hnone : (blinkOn "..").disk.node? ["B", "a.c"] = none := hmoves.1
  rw [hlink] at hnone
  cases hnone

/-- A tab is renamed to a name that no entry has. -/
theorem movesOnly_blink :
    blink.IsFormed ∧ blink.accepts = acceptsSanitary ∧
      blink.loadIn .asKept (blinkOn "none") = (.ok (), loadedBlink.1, loadedBlink.2) ∧
      ∃ u v', loadedBlink.1.renameTab loadedBlink.2 "0.c" "b.c" = (.ok (.ok ()), u, v') ∧
        loadedBlink.2.disk.MovesOnly v'.disk ["B"] "0.c" "b.c" := by
  have hdone : wasDone (loadedBlink.1.renameTab loadedBlink.2 "0.c" "b.c") = true := by
    decide +kernel
  obtain ⟨u, v', hrename⟩ := exists_of_wasDone hdone
  have hfolder : loadedBlink.2.disk.find .target blink.folder =
      .ok (.entry ["B"] (.folder .full)) := by decide +kernel
  have hnone : loadedBlink.2.disk.node? ["B", "b.c"] = none := by decide +kernel
  refine ⟨isFormed_blink, rfl, loadIn_blink, u, v', hrename, ?_⟩
  obtain ⟨folder, access, hfind, hcases⟩ :=
    movesOnly_or_replacesLink isFormed_blink rfl loadIn_blink hrename
  rw [hfolder] at hfind
  cases hfind
  rcases hcases with hmoves | ⟨n, target, -, hlink, -⟩
  · exact hmoves
  · exact absurd (hnone.symm.trans hlink) (by simp)

end TabSet

end Sketchbook
