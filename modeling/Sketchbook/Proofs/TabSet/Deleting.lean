import Sketchbook.Proofs.Tab.Sweeping
import Sketchbook.Proofs.TabSet.Fresh
import Sketchbook.Proofs.TabSet.UniqueNames

/-!
# Deleting a tab, and what is left on the disk

A tab leaves the set when its file is gone. If the disk has not let the file be removed the set asks
whether the path still leads to anything, and this is not the same question: a link may lead
nowhere. So the set and the disk agree after a tab has been deleted, except where the file is such a
link in a folder that may not be changed (`TabSet.agrees_deleteTab_iff`).
-/

namespace Sketchbook

variable {μ : Type}

/-- An entry of a folder that may not be changed, which leads nowhere. It cannot be removed, but
looks as if it had been. -/
structure Disk.LooksGone (d : Disk) (folder : Path) (name : String) : Prop where
  fixed : ∃ place access, d.find .target folder = .ok (.entry place (.folder access)) ∧
    d.mayChange place = false
  leadsNowhere : d.exists? (folder.child name) = .ok false

namespace TabSet

variable {o : ListingOrder} {s : TabSet} {w : Workspace μ} {name : String} {id : TabId}

/-- The set has a tab of the name just if the sketch folder has an entry of it. -/
def Agrees (s : TabSet) (w : Workspace μ) (name : String) : Prop :=
  name ∈ s.filenames w ↔ w.disk.HasEntry s.folder name

/-- A tab that may be deleted is found under its name, and it is not that of the main file. -/
theorem deletable_eq_ok (h : s.deletable w name = .ok id) :
    s.find? w name = some id ∧ s.isPrimary w id = false := by
  unfold deletable at h
  cases hfind : s.find? w name with
  | none => simp [hfind] at h
  | some found =>
    simp only [hfind] at h
    split at h
    · cases h
    · next hprimary =>
      cases h
      exact ⟨rfl, by simpa using hprimary⟩

/-- Without a tab a set with different file names has none of its name. -/
theorem not_mem_filenames_erase (hnodup : (s.filenames w).Nodup) (hid : id ∈ s.members) :
    (w.tab id).filename ∉ (s.erase id).filenames w := by
  intro hmem
  obtain ⟨other, hother, heq⟩ := List.mem_map.mp hmem
  obtain ⟨hne, hkept⟩ := (nodup_members hnodup).mem_erase_iff.mp hother
  exact hne (List.inj_on_of_nodup_map hnodup hkept hid heq)

/-- What comes of deleting a tab if nothing stops it: the tab leaves the set, or its file could not
be removed and its path still leads to something. -/
theorem deleteMember_cases {build : Option Path} {done : Except Failure Bool} {e : Disk}
    (hid : id ∈ s.members) (hdone : (w.tab id).delete o w.disk (outputFolders build) = (done, e))
    (h : (s.deleteMember o w id name build).failure = none) :
    (s.deleteMember o w id name build).workspace = w.setDisk e ∧
      ((done = .ok true ∨ e.exists? (w.tab id).path = .ok false) ∧
          (s.deleteMember o w id name build).set = s.erase id ∨
        e.exists? (w.tab id).path = .ok true ∧ (s.deleteMember o w id name build).set = s) := by
  have hdelete : w.delete o id (outputFolders build) = (done, w.setDisk e) := by
    simp [Workspace.delete, hdone]
  have hremove : s.remove (w.setDisk e) id = (s.erase id, w.setDisk e) := by simp [remove, hid]
  unfold deleteMember at h ⊢
  rw [hdelete] at h ⊢
  rcases done with f | b
  · cases h
  · cases b with
    | true => simp [hremove]
    | false =>
      simp only [Tab.exists?, Workspace.tab_setDisk, Workspace.disk_setDisk] at h ⊢
      cases hexists : e.exists? (w.tab id).path with
      | error fault => simp [hexists, Failure.ofDisk] at h
      | ok b => cases b <;> simp [Failure.ofDisk, hremove]

/-- Whatever comes of deleting a tab, the disk is what the deletion of the file has left. -/
theorem disk_deleteMember (o : ListingOrder) (s : TabSet) (w : Workspace μ) (id : TabId)
    (name : String)
    (build : Option Path) :
    (s.deleteMember o w id name build).workspace.disk =
      ((w.tab id).delete o w.disk (outputFolders build)).2 := by
  have hremove : ∀ v : Workspace μ, (s.remove v id).2.disk = v.disk := by
    intro v
    unfold remove
    split
    · rfl
    · exact Workspace.disk_tell ..
  have hdelete : w.delete o id (outputFolders build) =
      (((w.tab id).delete o w.disk (outputFolders build)).1,
        w.setDisk ((w.tab id).delete o w.disk (outputFolders build)).2) := rfl
  unfold deleteMember
  rw [hdelete]
  generalize (w.tab id).delete o w.disk (outputFolders build) = r
  obtain ⟨f | b, e⟩ := r
  · rfl
  · cases b with
    | true => exact hremove (w.setDisk e)
    | false =>
      simp only
      split
      · rfl
      · rfl
      · exact hremove (w.setDisk e)

/-- The tab that may be deleted under a name, and its file, which is an entry of the sketch folder
and no folder. -/
structure Deletable (s : TabSet) (w : Workspace μ) (name : String) (id : TabId) (folder : Place)
    (n : Node) : Prop where
  deletable_eq : s.deletable w name = .ok id
  mem : id ∈ s.members
  filename_eq : (w.tab id).filename = name
  path_eq : (w.tab id).path = s.folder.child name
  find_folder : ∃ access, w.disk.find .target s.folder = .ok (.entry folder (.folder access))
  find_eq : w.disk.find .entry (s.folder.child name) = .ok (.entry (folder ++ [name]) n)
  isFolder_eq : n.isFolder = false

/-- Every tab of a fresh set may be deleted but that of the main file. -/
theorem Fresh.exists_deletable (h : Fresh s w) (hname : name ∈ s.filenames w)
    (hprimary : name ≠ s.primary.name) : ∃ id folder n, Deletable s w name id folder n := by
  obtain ⟨folder, access, n, hfolder, hfind, -, hn⟩ := h.exists_find hname
  cases hfound : s.find? w name with
  | none => exact absurd hname (find?_eq_none_iff.mp hfound)
  | some id =>
    have hmem : id ∈ s.members := mem_of_find? hfound
    have hfilename : (w.tab id).filename = name := by simpa using List.find?_some hfound
    have hother : s.isPrimary w id ≠ true := by
      rw [Ne, h.isPrimary_iff hmem, hfilename]
      exact hprimary
    have hdeletable : s.deletable w name = .ok id := by simp [deletable, hfound, hother]
    have hpath : (w.tab id).path = s.folder.child name := by rw [h.path_eq id hmem, hfilename]
    exact ⟨id, folder, n, hdeletable, hmem, hfilename, hpath, ⟨access, hfolder⟩, hfind, hn⟩

namespace Deletable

variable {folder : Place} {n : Node} {build : Option Path} (h : Deletable s w name id folder n)

include h

theorem find_path : w.disk.find .entry (w.tab id).path = .ok (.entry (folder ++ [name]) n) := by
  rw [h.path_eq]
  exact h.find_eq

/-- If the sketch folder may be changed the file is gone once the tab has been deleted, and the tab
with it. -/
theorem agrees_of_mayChange (hs : Fresh s w) (hchange : w.disk.mayChange folder = true)
    (hreturns : (s.deleteMember o w id name build).failure = none) :
    name ∉ (s.deleteMember o w id name build).set.filenames
        (s.deleteMember o w id name build).workspace ∧
      ¬ (s.deleteMember o w id name build).workspace.disk.HasEntry s.folder name := by
  obtain ⟨access, hfolder⟩ := h.find_folder
  have habs : (w.tab id).path.isAbsolute = true := by
    rw [h.path_eq]
    exact hs.isFormed.isAbsolute_child name
  have hparent : w.disk.mayChange (folder ++ [name]).dropLast = true := by
    rw [List.dropLast_concat]
    exact hchange
  have hgone := Tab.node?_delete h.find_path h.isFolder_eq o hparent (outputFolders build)
  have hreduced := ((w.tab id).removesOnly_delete o w.disk (outputFolders build)).toReduced
  generalize hdone : (w.tab id).delete o w.disk (outputFolders build) = r at hgone hreduced
  obtain ⟨done, e⟩ := r
  have hexists : e.exists? (w.tab id).path = .ok false :=
    Disk.exists?_of_gone habs h.find_path hreduced hgone
  obtain ⟨hworkspace, ⟨-, hset⟩ | ⟨hstill, -⟩⟩ := deleteMember_cases h.mem hdone hreturns
  · rw [hset, hworkspace]
    refine ⟨?_, Disk.not_hasEntry_of_gone hfolder hreduced hgone⟩
    rw [← h.filename_eq]
    exact not_mem_filenames_erase hs.nodup h.mem
  · rw [hexists] at hstill
    cases hstill

/-- If the sketch folder may not be changed the file is still there, and the tab just if the path
leads to something. -/
theorem agrees_of_not_mayChange (hs : Fresh s w) (hchange : w.disk.mayChange folder = false)
    (hreturns : (s.deleteMember o w id name build).failure = none) :
    (name ∈ (s.deleteMember o w id name build).set.filenames
        (s.deleteMember o w id name build).workspace ↔
      w.disk.exists? (s.folder.child name) ≠ .ok false) ∧
      (s.deleteMember o w id name build).workspace.disk = w.disk := by
  have hparent : w.disk.mayChange (folder ++ [name]).dropLast = false := by
    rw [List.dropLast_concat]
    exact hchange
  have hdone :=
    Tab.delete_of_not_mayChange h.find_path h.isFolder_eq o hparent (outputFolders build)
  obtain ⟨hworkspace, hcases⟩ := deleteMember_cases h.mem hdone hreturns
  have hkept : (s.deleteMember o w id name build).workspace = w := hworkspace
  rw [hkept, ← h.path_eq]
  refine ⟨?_, rfl⟩
  rcases hcases with ⟨hdone | hexists, hset⟩ | ⟨hstill, hset⟩
  · cases hdone
  · rw [hset, hexists, ← h.filename_eq]
    exact iff_of_false (not_mem_filenames_erase hs.nodup h.mem) (fun hne => hne rfl)
  · rw [hset, hstill, ← h.filename_eq]
    exact iff_of_true (List.mem_map_of_mem h.mem) (by simp)

end Deletable

/-- After a tab has been deleted from a set that had just been loaded, the set and the disk agree
about it, unless its file looked gone all along. -/
theorem agrees_deleteTab_iff {s t : TabSet} {w v : Workspace μ} (hs : s.IsFormed)
    {o : ListingOrder} (hload : s.loadIn o w = (.ok (), t, v)) {name : String}
    (hname : name ∈ t.filenames v) (hprimary : name ≠ s.primary.name) (o' : ListingOrder)
    (build : Option Path)
    (hreturns : (t.deleteTab o' v name build).failure = none) :
    (t.deleteTab o' v name build).set.Agrees (t.deleteTab o' v name build).workspace name ↔
      ¬ v.disk.LooksGone s.folder name := by
  obtain ⟨hfresh, hset⟩ := fresh_of_loadIn hs hload
  have hmain : t.primary = s.primary := by rw [hset]
  have hfolder : t.folder = s.folder := by rw [hset]; rfl
  have hsame : (t.deleteTab o' v name build).set.folder = t.folder := by
    rw [set_eq_deleteTab o' t v name build]
    rfl
  obtain ⟨id, folder, n, h⟩ := hfresh.exists_deletable hname (by rwa [hmain])
  obtain ⟨access, hfind⟩ := h.find_folder
  have hdelete : t.deleteTab o' v name build = t.deleteMember o' v id name build := by
    simp [deleteTab, h.deletable_eq]
  have hlooks : v.disk.LooksGone t.folder name ↔
      v.disk.mayChange folder = false ∧ v.disk.exists? (t.folder.child name) = .ok false := by
    constructor
    · rintro ⟨⟨place, access', hplace, hchange⟩, hexists⟩
      rw [hfind] at hplace
      cases hplace
      exact ⟨hchange, hexists⟩
    · rintro ⟨hchange, hexists⟩
      exact ⟨⟨folder, access, hfind, hchange⟩, hexists⟩
  unfold Agrees
  rw [hsame, ← hfolder, hlooks]
  rw [hdelete] at hreturns ⊢
  cases hchange : v.disk.mayChange folder with
  | true =>
    obtain ⟨hremoved, hgone⟩ := h.agrees_of_mayChange hfresh hchange hreturns
    simp [hremoved, hgone]
  | false =>
    obtain ⟨hmem, hdisk⟩ := h.agrees_of_not_mayChange hfresh hchange hreturns
    have hentry : v.disk.HasEntry t.folder name := by
      exact ((hfresh.canonical.mem_iff name).mp hname).1
    rw [hdisk, hmem]
    simp [hentry]

/-- The folder `/B` with a link in it that leads nowhere, and which may not be changed. -/
def fixedBlink : Workspace Unit :=
  (blinkOn "none").setDisk ((blinkOn "none").disk.permit [] ["B"] ⟨true, false, true⟩)

/-- The tab of the link is deleted from a folder that may not be changed, after a load. -/
def fixedDeletion : Deletion Unit :=
  (blink.loadIn .asKept fixedBlink).2.1.deleteTab .asKept
    (blink.loadIn .asKept fixedBlink).2.2 "a.c" none

/-- A tab is deleted and its file, a link that leads nowhere, is still there. -/
theorem not_agrees_fixedBlink :
    blink.IsFormed ∧ (blink.loadIn .asKept fixedBlink).1 = .ok () ∧
      "a.c" ∈ (blink.loadIn .asKept fixedBlink).2.1.filenames
        (blink.loadIn .asKept fixedBlink).2.2 ∧
      "a.c" ≠ blink.primary.name ∧ fixedDeletion.failure = none ∧
      ¬ fixedDeletion.set.Agrees fixedDeletion.workspace "a.c" := by
  have hnames : fixedDeletion.set.filenames fixedDeletion.workspace = ["B.ino", "0.c"] := by
    decide +kernel
  have hdisk : fixedDeletion.workspace.disk = fixedBlink.disk := by decide +kernel
  have hfolder : fixedDeletion.set.folder = ⟨.root, ["B"]⟩ := by decide +kernel
  have hfind : fixedBlink.disk.find .target ⟨.root, ["B"]⟩ =
      .ok (.entry ["B"] (.folder ⟨true, false, true⟩)) := by decide +kernel
  have hlink : fixedBlink.disk.node? ["B", "a.c"] = some (.link "none") := by decide +kernel
  have hagrees : ¬ fixedDeletion.set.Agrees fixedDeletion.workspace "a.c" := by
    unfold Agrees
    rw [hnames, hdisk, hfolder]
    intro h
    have hmem := h.mpr ⟨["B"], _, hfind, by simp [hlink]⟩
    simp at hmem
  exact ⟨isFormed_blink, by decide +kernel, by decide +kernel, by decide +kernel,
    by decide +kernel, hagrees⟩

/-- The tab of a link that leads nowhere is deleted from a folder that may be changed. -/
theorem agrees_deleteTab_blink :
    blink.IsFormed ∧
      blink.loadIn .asKept (blinkOn "none") = (.ok (), loadedBlink.1, loadedBlink.2) ∧
      "a.c" ∈ loadedBlink.1.filenames loadedBlink.2 ∧ "a.c" ≠ blink.primary.name ∧
      (loadedBlink.1.deleteTab .asKept loadedBlink.2 "a.c" none).failure = none ∧
      (loadedBlink.1.deleteTab .asKept loadedBlink.2 "a.c" none).set.Agrees
        (loadedBlink.1.deleteTab .asKept loadedBlink.2 "a.c" none).workspace "a.c" := by
  have hname : "a.c" ∈ loadedBlink.1.filenames loadedBlink.2 := by decide +kernel
  have hother : "a.c" ≠ blink.primary.name := by decide +kernel
  have hreturns : (loadedBlink.1.deleteTab .asKept loadedBlink.2 "a.c" none).failure = none := by
    decide +kernel
  have hfolder : loadedBlink.2.disk.find .target blink.folder =
      .ok (.entry ["B"] (.folder .full)) := by decide +kernel
  have hchange : loadedBlink.2.disk.mayChange ["B"] = true := by decide +kernel
  refine ⟨isFormed_blink, loadIn_blink, hname, hother, hreturns, ?_⟩
  rw [agrees_deleteTab_iff isFormed_blink loadIn_blink hname hother .asKept none hreturns]
  rintro ⟨⟨place, access, hfind, hfixed⟩, -⟩
  rw [hfolder] at hfind
  cases hfind
  rw [hchange] at hfixed
  cases hfixed

end TabSet

end Sketchbook
