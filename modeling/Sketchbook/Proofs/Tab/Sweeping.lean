import Sketchbook.Proofs.Disk.Removing
import Sketchbook.Tab.Disk

/-!
# What deleting a tab removes

With the file of a tab its compiled files are swept from the folders of a build. The sweep goes by
the names of the entries, and it removes only files and links whose names begin with that of the
deleted file (`removesOnly_sweepFolders`). So deleting a tab removes only its file and such entries
(`Tab.removesOnly_delete`), whatever comes of it.
-/

namespace Sketchbook

open Disk

variable {μ : Type} {o : ListingOrder} {d e : Disk} {source : String} {folder : Path}

/-- An entry of one of the folders that counts as compiled from the source, by its name. -/
def IsArtifact (d : Disk) (source : String) (folders : List Path) (place : Place) : Prop :=
  ∃ folder ∈ folders, ∃ name, source.toList <+: name.toList ∧
    d.NamesEntry (folder.child name) place

/-- What counts as compiled on a reduced disk did so before. -/
theorem IsArtifact.of_reduced {folders : List Path} {place : Place} (hreduced : Reduced d e)
    (h : IsArtifact e source folders place) : IsArtifact d source folders place := by
  obtain ⟨folder, hfolder, name, hbegins, hentry⟩ := h
  exact ⟨folder, hfolder, name, hbegins, hentry.of_reduced hreduced⟩

/-- What counts as compiled in some of the folders does so in all of them. -/
theorem IsArtifact.mono {folders others : List Path} {place : Place} (hsub : folders ⊆ others)
    (h : IsArtifact d source folders place) : IsArtifact d source others place := by
  obtain ⟨folder, hfolder, rest⟩ := h
  exact ⟨folder, hsub hfolder, rest⟩

/-- A sweep for the source goes over the entry of this name in a folder. -/
structure Disk.SweepsOver (d : Disk) (source : String) (folders : List Path) (folder : Place)
    (name : String) : Prop where
  isPrefix : source.toList <+: name.toList
  leads : ∃ p ∈ folders, ∃ access, d.find .target p = .ok (.entry folder (.folder access))

/-- What counts as compiled lies in a folder that the sweep goes over. -/
theorem IsArtifact.sweepsOver {folders : List Path} {folder : Place} {name : String}
    (hdown : ∀ n : String, source.toList <+: n.toList → Step.ofName n = .down n)
    (h : IsArtifact d source folders (folder ++ [name])) :
    d.SweepsOver source folders folder name := by
  obtain ⟨p, hp, n, hbegins, node, hfind, -⟩ := h
  obtain ⟨folder', access, hleads, hplace, -⟩ := find_child_entry_cases (hdown n hbegins) hfind
  obtain ⟨rfl, hname⟩ := List.append_inj' hplace rfl
  obtain rfl : name = n := List.singleton_inj.mp hname
  exact ⟨hbegins, p, hp, access, hleads⟩

/-- The paths of the entries that were compiled from the source are those of the listed names that
begin with its name and lead to no folder. -/
theorem mem_compiledFrom {names : List String} {ps : List Path}
    (h : compiledFrom d source folder names = .ok ps) (p : Path) :
    p ∈ ps ↔ ∃ n ∈ names, source.toList <+: n.toList ∧
      d.isFolder? (folder.child n) = .ok false ∧ p = folder.child n := by
  induction names generalizing ps with
  | nil =>
    cases h
    simp
  | cons n names ih =>
    rw [compiledFrom] at h
    split at h
    · next hbegins =>
      rw [List.isPrefixOf_iff_prefix] at hbegins
      split at h
      · cases h
      · next isFolder hfolder =>
        split at h
        · cases h
        · next rest hrest =>
          cases h
          have hmem := ih hrest
          cases isFolder with
          | true => simp [hmem, hfolder]
          | false => simp [hmem, hfolder, hbegins]
    · next hbegins =>
      rw [List.isPrefixOf_iff_prefix] at hbegins
      simp [ih h, hbegins]

/-- Of every entry whose name begins with that of the source it can be told whether it leads to a
folder, if the paths of those that do not can be told. -/
theorem exists_isFolder?_of_compiledFrom {names : List String} {ps : List Path}
    (h : compiledFrom d source folder names = .ok ps) {n : String} (hn : n ∈ names)
    (hbegins : source.toList <+: n.toList) : ∃ b, d.isFolder? (folder.child n) = .ok b := by
  induction names generalizing ps with
  | nil => cases hn
  | cons m names ih =>
    rw [compiledFrom] at h
    split at h
    · split at h
      · cases h
      · next isFolder hfolder =>
        split at h
        · cases h
        · next rest hrest =>
          rcases List.mem_cons.mp hn with rfl | hn
          · exact ⟨isFolder, hfolder⟩
          · exact ih hrest hn
    · next hnot =>
      rw [List.isPrefixOf_iff_prefix] at hnot
      rcases List.mem_cons.mp hn with rfl | hn
      · exact absurd hbegins hnot
      · exact ih h hn

/-- Removing entries one after the other removes only those that the paths name. -/
theorem removesOnly_unlinkAll (d : Disk) (ps : List Path) :
    RemovesOnly (fun q => ∃ p ∈ ps, d.NamesEntry p q) d (unlinkAll d ps).2 := by
  induction ps generalizing d with
  | nil => exact .refl _ d
  | cons p ps ih =>
    rw [unlinkAll]
    split
    · next d' hunlink =>
      have hfirst := removesOnly_unlink hunlink
      refine (hfirst.mono fun q hq => ⟨p, List.mem_cons_self .., hq⟩).trans ?_
      refine (ih d').mono ?_
      rintro q ⟨p', hp', hq⟩
      exact ⟨p', List.mem_cons_of_mem _ hp', hq.of_reduced hfirst.toReduced⟩
    · exact .refl _ d

/-- If all entries could be removed, each is gone. -/
theorem gone_of_unlinkAll {ps : List Path} (h : unlinkAll d ps = (true, e)) {p : Path}
    (hp : p ∈ ps) : ∃ place, d.NamesEntry p place ∧ e.node? place = none := by
  induction ps generalizing d with
  | nil => cases hp
  | cons first ps ih =>
    rw [unlinkAll] at h
    split at h
    · next d' hunlink =>
      rcases List.mem_cons.mp hp with rfl | hp
      · obtain ⟨place, n, hfind, hn, -, rfl⟩ := unlink_cases hunlink
        have hlater := (removesOnly_unlinkAll (d.erase place) ps).toReduced
        rw [h] at hlater
        have hgone : (d.erase place).node? place = none := by rw [node?_erase, if_pos rfl]
        exact ⟨place, ⟨n, hfind, hn⟩, hlater.node?_of_none hgone⟩
      · obtain ⟨place, hnames, hgone⟩ := ih h hp
        exact ⟨place, hnames.of_reduced (removesOnly_unlink hunlink).toReduced, hgone⟩
    · cases h

/-- Sweeping a folder removes only entries that begin with the name of the source and lead to no
folder. -/
theorem removesOnly_sweepFolder (o : ListingOrder) (d : Disk) (source : String) (folder : Path) :
    RemovesOnly (fun q => ∃ n : String, source.toList <+: n.toList ∧
      d.isFolder? (folder.child n) = .ok false ∧ d.NamesEntry (folder.child n) q) d
      (sweepFolder o d source folder).2 := by
  unfold sweepFolder
  split
  · exact .refl _ d
  · next names hlist =>
    split
    · exact .refl _ d
    · next ps hps =>
      refine (removesOnly_unlinkAll d ps).mono ?_
      rintro q ⟨p, hp, hq⟩
      obtain ⟨n, -, hbegins, hfile, rfl⟩ := (mem_compiledFrom hps p).mp hp
      exact ⟨n, hbegins, hfile, hq⟩

/-- If a folder could be swept, every entry that begins with the name of the source leads to a
folder, or is gone. -/
theorem isFolder?_or_gone_of_sweepFolder (h : sweepFolder o d source folder = (true, e))
    {n : String}
    (hentry : d.HasEntry folder n) (hbegins : source.toList <+: n.toList) :
    d.isFolder? (folder.child n) = .ok true ∨
      ∃ place, d.NamesEntry (folder.child n) place ∧ e.node? place = none := by
  unfold sweepFolder at h
  split at h
  · cases h
  · next names hlist =>
    split at h
    · cases h
    · next ps hps =>
      have hn : n ∈ o.arrange names := o.mem_arrange.mpr ((mem_list_iff hlist).mpr hentry)
      obtain ⟨b, hb⟩ := exists_isFolder?_of_compiledFrom hps hn hbegins
      cases b with
      | true => exact .inl hb
      | false =>
        exact .inr (gone_of_unlinkAll h ((mem_compiledFrom hps _).mpr ⟨n, hn, hbegins, hb, rfl⟩))

/-- Sweeping folders one after the other removes only what counts as compiled in them. -/
theorem removesOnly_sweepFolders (o : ListingOrder) (d : Disk) (source : String)
    (folders : List Path) :
    RemovesOnly (IsArtifact d source folders) d (sweepFolders o d source folders).2 := by
  induction folders generalizing d with
  | nil => exact .refl _ d
  | cons folder folders ih =>
    rw [sweepFolders]
    split
    · exact .refl _ d
    · exact (ih d).mono fun q hq => hq.mono (List.subset_cons_self ..)
    · have hfirst : RemovesOnly (IsArtifact d source (folder :: folders)) d
          (sweepFolder o d source folder).2 :=
        (removesOnly_sweepFolder o d source folder).mono fun q ⟨n, hbegins, _, hq⟩ =>
          ⟨folder, List.mem_cons_self .., n, hbegins, hq⟩
      split
      · next d' hsweep =>
        rw [hsweep] at hfirst
        refine hfirst.trans ((ih d').mono fun q hq => ?_)
        exact (hq.of_reduced hfirst.toReduced).mono (List.subset_cons_self ..)
      · next d' hsweep =>
        rw [hsweep] at hfirst
        exact hfirst

namespace Tab

/-- Deleting a tab removes its file, and then what was compiled from it is swept. If the file cannot
be removed nothing has changed. -/
theorem delete_cases (o : ListingOrder) (d : Disk) (t : Tab μ) (folders : List Path) :
    (∃ fault, d.unlink t.path = .error fault ∧ (t.delete o d folders).2 = d ∧
      (fault ≠ .nulInPath → (t.delete o d folders).1 = .ok false)) ∨
    ∃ d', d.unlink t.path = .ok d' ∧
      t.delete o d folders = sweepFolders o d' t.filename folders := by
  unfold delete
  cases hunlink : d.unlink t.path with
  | ok d' => exact .inr ⟨d', rfl, rfl⟩
  | error fault =>
    refine .inl ⟨fault, rfl, ?_⟩
    cases fault <;> simp

/-- Deleting a tab removes only its file and what counts as compiled from it. -/
theorem removesOnly_delete (o : ListingOrder) (d : Disk) (t : Tab μ) (folders : List Path) :
    RemovesOnly (fun q => d.NamesEntry t.path q ∨ IsArtifact d t.filename folders q) d
      (t.delete o d folders).2 := by
  rcases t.delete_cases o d folders with ⟨fault, -, hkept, -⟩ | ⟨d', hunlink, hdelete⟩
  · rw [hkept]
    exact .refl _ d
  · rw [hdelete]
    have hfile := removesOnly_unlink hunlink
    refine (hfile.mono fun q hq => .inl hq).trans ?_
    refine (removesOnly_sweepFolders o d' t.filename folders).mono fun q hq => ?_
    exact .inr (hq.of_reduced hfile.toReduced)

section Entry

variable {t : Tab μ} {place : Place} {n : Node}
  (hfind : d.find .entry t.path = .ok (.entry place n))
  (hn : n.isFolder = false)

include hfind hn

/-- Where the folder of the file may be changed, the file is gone after the tab has been deleted,
even if the sweep fails. -/
theorem node?_delete (o : ListingOrder) (hchange : d.mayChange place.dropLast = true)
    (folders : List Path) :
    (t.delete o d folders).2.node? place = none := by
  have hunlink : d.unlink t.path = .ok (d.erase place) := by
    rw [unlink_of_find hfind hn, if_pos hchange]
  have hdelete : t.delete o d folders = sweepFolders o (d.erase place) t.filename folders := by
    simp [delete, hunlink]
  have hgone : (d.erase place).node? place = none := by rw [node?_erase, if_pos rfl]
  rw [hdelete]
  exact (removesOnly_sweepFolders o _ t.filename folders).node?_of_none hgone

/-- Where the folder of the file may not be changed nothing is, and no failure tells more than that
the tab has not been deleted. -/
theorem delete_of_not_mayChange (o : ListingOrder) (hchange : d.mayChange place.dropLast = false)
    (folders : List Path) : t.delete o d folders = (.ok false, d) := by
  have hunlink : d.unlink t.path = .error .denied := by
    rw [unlink_of_find hfind hn, hchange, if_neg Bool.false_ne_true]
  simp [delete, hunlink]

end Entry

end Tab

end Sketchbook
