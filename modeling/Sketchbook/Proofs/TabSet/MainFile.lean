import Sketchbook.Proofs.TabSet.Deleting
import Sketchbook.Proofs.TabSet.RenamedEntry

/-!
# The file of the main tab

Renaming and deleting tabs spare the main file. No tab is renamed to its name, though nothing but
the list of tabs is asked (`TabSet.Fresh.mainAt_renameTab`). Deleting a tab removes the entry of the
main file only in the sweep for compiled files, if its name begins with that of the tab and the
sweep goes over the sketch folder (`TabSet.MainAt.node?_deleteMember`).
-/

namespace Sketchbook

variable {μ : Type}

namespace TabSet

/-- The tabs are those of a sketch folder, and the entry of the main file is at the place. -/
structure MainAt (s : TabSet) (w : Workspace μ) (place : Place) (n : Node) : Prop where
  housed : Housed s w
  name_eq : place = place.dropLast ++ [s.primary.name]
  node?_eq : w.disk.node? place = some n

variable {s t : TabSet} {w w' : Workspace μ} {place : Place} {n : Node}

/-- An entry with another name is not the main file. -/
theorem MainAt.ne_of_ne (h : MainAt s w place n) {name : String} (hne : name ≠ s.primary.name)
    (folder : Place) : place ≠ folder ++ [name] := by
  intro heq
  have hlast : place.dropLast ++ [s.primary.name] = folder ++ [name] := h.name_eq.symm.trans heq
  exact hne (List.singleton_inj.mp (List.append_inj' hlast rfl).2).symm

/-- The name of a main file is one step down. -/
theorem IsFormed.ofName_primary (hs : s.IsFormed) :
    Step.ofName s.primary.name = .down s.primary.name := by
  have hdot : s.primary.name ≠ "." := by
    intro heq
    have hname := hs.name_eq
    rw [heq] at hname
    exact absurd hname (by simp [show splitExtension? "." sketchExtensions = none by decide])
  have hdots : s.primary.name ≠ ".." := by
    intro heq
    have hname := hs.name_eq
    rw [heq] at hname
    exact absurd hname (by simp [show splitExtension? ".." sketchExtensions = none by decide])
  rw [Step.ofName, if_neg hdot, if_neg hdots]

/-- In a set whose tabs are housed the main file is at the place that its path leads to. -/
theorem Housed.mainAt (h : Housed s w)
    (hfind : w.disk.find .entry s.primary = .ok (.entry place n)) : MainAt s w place n := by
  have hprimary := h.isFormed.child_folder
  rw [← hprimary] at hfind
  obtain ⟨folder, access, hfolder, rfl, hnode⟩ :=
    Disk.find_child_entry_cases h.isFormed.ofName_primary hfind
  exact ⟨h, by rw [List.dropLast_concat], hnode⟩

/-- No tab of a fresh set is renamed to the name of a main file that is there and no folder. -/
theorem Fresh.ne_primary_of_renamed (h : Fresh s w) (hpolicy : s.accepts = acceptsSanitary)
    (hmain : w.disk.isFolder? s.primary = .ok false)
    (hfind : w.disk.find .entry s.primary = .ok (.entry place n)) {old new : String} {id : TabId}
    (hrenamed : Renamed s w old new t w' id) : new ≠ s.primary.name := by
  have hprimary := h.isFormed.child_folder
  intro heq
  rw [← hprimary, ← heq] at hfind hmain
  obtain ⟨folder, access, hfolder, -, hnode⟩ :=
    Disk.find_child_entry_cases (Step.ofName_of_isSourceName hrenamed.isSource) hfind
  have hentry : w.disk.HasEntry s.folder new := ⟨folder, access, hfolder, by rw [hnode]; rfl⟩
  -- the entry would have a tab of this name
  have hleads := h.isFolder?_of_not_mem hentry hrenamed.isSource
    (by rw [hpolicy]; exact hrenamed.accepts) hrenamed.not_mem
  rw [hmain] at hleads
  cases hleads

/-- When a tab of a fresh set is renamed a main file that is no folder stays where it is. -/
theorem Fresh.mainAt_renameTab (h : Fresh s w) (hpolicy : s.accepts = acceptsSanitary)
    (hmain : w.disk.isFolder? s.primary = .ok false)
    (hfind : w.disk.find .entry s.primary = .ok (.entry place n)) {old new : String}
    (hrename : s.renameTab w old new = (.ok (.ok ()), t, w')) : MainAt t w' place n := by
  obtain ⟨id, hrenamed⟩ := h.toHoused.exists_renamed hrename
  have hmainAt := h.toHoused.mainAt hfind
  obtain ⟨folder, access, m, -, -, hmoved, -⟩ := h.moved_of_renamed hrenamed
  have hnew := h.ne_primary_of_renamed hpolicy hmain hfind hrenamed
  have hprimary : t.primary = s.primary := by rw [hrenamed.set_eq]; rfl
  refine ⟨?_, by rw [hprimary]; exact hmainAt.name_eq, ?_⟩
  · rw [hrenamed.set_eq]
    exact (hrenamed.housed h.toHoused).sort
  · rw [hmoved.node?_of_ne (hmainAt.ne_of_ne hrenamed.ne_primary folder)
      (hmainAt.ne_of_ne hnew folder)]
    exact hmainAt.node?_eq

/-- When a tab is deleted the main file stays where it is, unless its name begins with that of the
tab and the sweep for compiled files goes over its folder. -/
theorem MainAt.node?_deleteMember (h : MainAt s w place n) {name : String} {id : TabId}
    (hok : s.deletable w name = .ok id) (o : ListingOrder) (build : Option Path) :
    (s.deleteMember o w id name build).workspace.disk.node? place = some n ∨
      name ≠ s.primary.name ∧
        w.disk.SweepsOver name (outputFolders build) place.dropLast s.primary.name := by
  obtain ⟨hfound, hother⟩ := deletable_eq_ok hok
  have hmem : id ∈ s.members := mem_of_find? hfound
  have hname : (w.tab id).filename = name := by simpa using List.find?_some hfound
  have hne : name ≠ s.primary.name := by
    intro heq
    rw [(h.housed.isPrimary_iff hmem).mpr (hname.trans heq)] at hother
    cases hother
  have hsource : isSourceName name = true := hname ▸ h.housed.isSource id hmem
  have hpath : (w.tab id).path = s.folder.child name := by rw [h.housed.path_eq id hmem, hname]
  have hremoves := (w.tab id).removesOnly_delete o w.disk (outputFolders build)
  rw [disk_deleteMember]
  by_cases hartifact : IsArtifact w.disk name (outputFolders build) place
  · refine .inr ⟨hne, ?_⟩
    rw [h.name_eq] at hartifact
    have hdots := not_prefix_dots_of_isSourceName hsource
    exact hartifact.sweepsOver fun _ hbegins => Step.ofName_of_prefix hdots hbegins
  · refine .inl ((hremoves.node?_of_not ?_).trans h.node?_eq)
    rintro (⟨m, hfind, -⟩ | hartifact')
    · -- the file of the tab has another name
      rw [hpath] at hfind
      obtain ⟨folder, access, -, hplace, -⟩ :=
        Disk.find_child_entry_cases (Step.ofName_of_isSourceName hsource) hfind
      exact h.ne_of_ne hne folder hplace
    · rw [hname] at hartifact'
      exact hartifact hartifact'

end TabSet

end Sketchbook
