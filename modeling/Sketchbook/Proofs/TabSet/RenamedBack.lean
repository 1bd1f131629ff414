import Sketchbook.Proofs.Disk.MovingBack
import Sketchbook.Proofs.Tab.Deletion
import Sketchbook.Proofs.TabSet.RenamedOrder

/-!
# Renaming a tab back

A tab of a set that has just been loaded is renamed to a free name, and back again. The check of the
old name has no objection, since the tab was loaded under it, and the disk moves the entry back. The
tabs are sorted twice and come out in the order of the load, because there is only one set with them
in pinned order (`TabSet.eq_of_pinnedOrder`). In the end everything is as it was
(`TabSet.renameTab_back`).

It is refused in one case. If the path of the sketch folder leads through the entry of the tab,
which is a link then, this path leads nowhere once the entry has another name. Such a link has a tab
only because it is out of reach along this path (`Disk.PassesEntry.outOfReach`).
-/

namespace Sketchbook

variable {μ : Type}

/-- An entry that leads to no folder under its path, although the path of its folder leads through
it, is a link out of reach. -/
theorem Disk.PassesEntry.outOfReach {d : Disk} {p : Path} {name : String}
    (h : d.PassesEntry p name) (hdots : ¬ name.toList <+: ['.', '.'])
    (hfile : d.isFolder? (p.child name) = .ok false) {place : Place} {n : Node}
    (hentry : d.find .entry (p.child name) = .ok (.entry place n)) : d.OutOfReach p name := by
  obtain ⟨folder, access, hfolder, hnot⟩ := h
  have hdown : Step.ofName name = .down name := Step.ofName_of_prefix hdots List.prefix_rfl
  obtain ⟨folder', access', hfolder', rfl, -⟩ := Disk.find_child_entry_cases hdown hentry
  rw [hfolder] at hfolder'
  cases hfolder'
  have hn : n.isFolder = false := Disk.isFolder_of_isFolder? hentry hfile
  have hsweeps : d.Sweeps name p folder name :=
    ⟨⟨access, hfolder⟩, List.prefix_rfl, hfile, n, hentry, hn⟩
  by_contra hreach
  -- the entry would be a dead end, and no way to a folder leads through one
  have hremoved : Disk.RemovesOnly d.IsDeadEnd d (d.erase (folder ++ [name])) := by
    refine ⟨d.reduced_erase _, fun q hsome hnone => ?_⟩
    rw [Disk.node?_erase] at hnone
    split at hnone
    · next heq =>
      rw [heq]
      exact hsweeps.isDeadEnd hdots hreach
    · exact absurd hnone hsome
  exact hnot (Disk.keepsFolders_of_removesOnly hremoved p folder access hfolder)

/-- A tab that has been changed is put back as it was. -/
theorem Workspace.setTab_back {w : Workspace μ} {id : TabId} (hlt : id < w.tabs.length)
    (t : Tab μ) (d e : Disk) :
    (((w.setTab id t).setDisk e).setTab id (w.tab id)).setDisk d = w.setDisk d := by
  have htabs : (w.tabs.set id t).set id (w.tab id) = w.tabs := by
    rw [List.set_set, tab, List.getD_eq_getElem?_getD, List.getElem?_eq_getElem hlt,
      Option.getD_some, List.set_getElem_self]
  simp only [setTab, setDisk, htabs]

namespace TabSet

variable {s t : TabSet} {w w' : Workspace μ} {old new : String} {id : TabId}

/-! ### The order of the tabs -/

/-- There is only one set with these tabs in pinned order. -/
theorem eq_of_pinnedOrder {first : String} (hset : t = { s with members := t.members })
    (hperm : t.members.Perm s.members) (hs : PinnedOrder first (s.filenames w))
    (ht : PinnedOrder first (t.filenames w)) : t = s := by
  have hnames : t.filenames w = s.filenames w :=
    ht.eq_of_mem_iff hs fun n => (filenames_perm hperm).mem_iff
  have hmembers : t.members = s.members := by
    refine List.ext_getElem hperm.length_eq fun i hi hj => ?_
    refine List.inj_on_of_nodup_map hs.nodup (hperm.mem_iff.mp (List.getElem_mem hi))
      (List.getElem_mem hj) ?_
    have hname := congrArg (fun names => names[i]?) hnames
    simpa [filenames, hi, hj] using hname
  rw [hset, hmembers]

/-- Renaming a tab to another name than that of the main file keeps the tabs in pinned order. -/
theorem Renamed.pinnedOrder (h : Renamed s w old new t w' id) (hs : Housed s w)
    (hnodup : (t.filenames w').Nodup) (horder : PinnedOrder s.primary.name (s.filenames w))
    (hnew : new ≠ s.primary.name) : PinnedOrder s.primary.name (t.filenames w') := by
  have hhoused := h.housed hs
  rw [h.set_eq] at hnodup ⊢
  have hnodup' : (s.filenames w').Nodup :=
    (filenames_perm (sort_perm s w')).nodup_iff.mp hnodup
  rw [pinnedOrder_sort_iff hnodup' fun other hother => hhoused.isPrimary_iff hother,
    h.leads_or_first_iff hs horder]
  exact fun heq => absurd heq hnew

/-! ### What the disk answers -/

section Answer

variable (hs : s.IsFormed) (hname : IsEntryName new) (hok : s.renamable w old new = .ok id)

include hs hname hok

/-- A tab that may be renamed is renamed if the disk renames its file. -/
theorem renameTab_of_rename {d : Disk}
    (h : w.disk.rename (w.tab id).path (s.folder.child new) = .ok d) :
    let v := (w.setTab id { w.tab id with path := s.folder.child new }).setDisk d
    s.renameTab w old new = (.ok (.ok ()), s.sort v, v) := by
  have habs := w.disk.absolute_of_isAbsolute (hs.isAbsolute_child new)
  have hrename : w.rename id (s.folder.child new) =
      (.ok true, (w.setTab id { w.tab id with path := s.folder.child new }).setDisk d) := by
    rw [Workspace.rename_eq, habs]
    simp only [h]
  rw [renameTab, hok]
  simp only [Path.join_of_isEntryName _ hname, hrename]

/-- A tab that may be renamed is refused another name if the disk does not rename its file. -/
theorem renameTab_of_rename_error {fault : Fault} (hfault : fault ≠ .nulInPath)
    (h : w.disk.rename (w.tab id).path (s.folder.child new) = .error fault) :
    s.renameTab w old new = (.ok (.error (.notRenamed old new)), s, w) := by
  have habs := w.disk.absolute_of_isAbsolute (hs.isAbsolute_child new)
  have hrename : w.rename id (s.folder.child new) = (.ok false, w) := by
    rw [Workspace.rename_eq, habs]
    simp only [h]
  rw [renameTab, hok]
  simp only [Path.join_of_isEntryName _ hname, hrename]

end Answer

/-! ### Back to the old name -/

/-- The tab that has been renamed has the path of the entry with the new name. -/
theorem Renamed.path_tab (h : Renamed s w old new t w' id) :
    (w'.tab id).path = s.folder.child new := by
  rw [h.tab_eq, if_pos rfl]

section Back

variable (hfresh : Fresh s w) (h : Renamed s w old new t w' id)

include hfresh h

/-- The old name is that of a source file. -/
theorem Fresh.isSource_old : isSourceName old = true := by
  rw [← h.filename_eq]
  exact hfresh.isSource id h.mem

/-- The entry of a tab that has been renamed to a free name has been renamed in the sketch
folder. -/
theorem Fresh.exists_renamedWithin (hfree : ¬ w.disk.HasEntry s.folder new) :
    ∃ folder n, Disk.RenamedWithin w.disk w'.disk s.folder old new folder n := by
  obtain ⟨-, -, -, -, -, hfile, -⟩ := hfresh.exists_find h.old_mem
  have hold := Step.ofName_of_isSourceName (hfresh.isSource_old h)
  exact Disk.exists_renamedWithin hold (Step.ofName_of_isSourceName h.isSource) h.ne_old hfile
    hfree h.rename_eq

/-- The old name is that of an entry that the usual policy accepts. -/
theorem Fresh.accepts_old (hpolicy : s.accepts = acceptsSanitary) :
    acceptsSanitary (splitExtension? old sourceExtensions) = true := by
  obtain ⟨-, hadmits⟩ := (hfresh.canonical.mem_iff old).mp h.old_mem
  rw [← hpolicy]
  exact (admits_iff.mp hadmits).2.2

/-- The old name is that of an entry. -/
theorem Fresh.isEntryName_old (hpolicy : s.accepts = acceptsSanitary) : IsEntryName old :=
  (isTabName_of_acceptsSanitary (hfresh.accepts_old h hpolicy)).isEntryName

/-- The tabs are still housed in the set that has been put in order. -/
theorem Fresh.housed_renamed : Housed t w' := by
  rw [h.set_eq]
  exact (h.housed hfresh.toHoused).sort

/-- The tab may be renamed back. -/
theorem Fresh.renamable_back (hpolicy : s.accepts = acceptsSanitary)
    (hnodup : (t.filenames w').Nodup) (hnew : new ≠ s.primary.name) :
    t.renamable w' new old = .ok id := by
  have hmain : t.primary = s.primary := by rw [h.set_eq, sort]
  have hmem : ∀ {other}, other ∈ t.members ↔ other ∈ s.members := by
    intro other
    rw [h.set_eq]
    exact (sort_perm s w').mem_iff
  have hname : (w'.tab id).filename = new := by rw [h.filename_tab, if_pos rfl]
  have hfind : t.find? w' new = some id := by
    rw [← hname]
    exact find?_filename hnodup (hmem.mpr h.mem)
  have hprimary : t.isPrimary w' id = false := by
    refine Bool.eq_false_iff.mpr fun hyes => hnew ?_
    rw [← hname, ← hmain]
    exact ((hfresh.housed_renamed h).isPrimary_iff (hmem.mpr h.mem)).mp hyes
  have hfree : old ∉ t.filenames w' := by
    intro hold
    obtain ⟨other, hother, heq⟩ := List.mem_map.mp hold
    rw [h.filename_tab] at heq
    split at heq
    · exact h.ne_old heq
    · next hne => exact hne (h.eq_of_filename hfresh.nodup (hmem.mp hother) heq)
  have hproblem : t.nameProblem w' old = none :=
    nameProblem_eq_none_iff.mpr ⟨hfresh.accepts_old h hpolicy, hfree⟩
  rw [renamable, hfind]
  simp only [hprimary, Bool.false_eq_true, if_false, hproblem]

/-- With its old path the tab is what it was, and so is everything besides the disk. -/
theorem Fresh.setTab_old (hrename : s.renameTab w old new = (.ok (.ok ()), t, w')) (d : Disk) :
    (w'.setTab id { w'.tab id with path := s.folder.child old }).setDisk d = w.setDisk d := by
  obtain ⟨found, target, e, hfind, hlt, -, -, hw', -⟩ := exists_of_renameTab hrename
  have hold : s.find? w old = some id := by
    rw [← h.filename_eq]
    exact find?_filename hfresh.nodup h.mem
  obtain rfl : found = id := Option.some.inj (hfind.symm.trans hold)
  have hpath : s.folder.child old = (w.tab found).path := by
    rw [hfresh.path_eq found h.mem, h.filename_eq]
  have htab : { w'.tab found with path := s.folder.child old } = w.tab found := by
    rw [h.tab_eq, if_pos rfl, hpath]
  rw [htab, hw', Workspace.setTab_back hlt]

/-- Once the disk has moved the entry back everything is as it was. -/
theorem Fresh.renameTab_back_of_rename (hpolicy : s.accepts = acceptsSanitary)
    (hrename : s.renameTab w old new = (.ok (.ok ()), t, w')) (hnew : new ≠ s.primary.name)
    {d : Disk}
    (hback : w'.disk.rename (s.folder.child new) (s.folder.child old) = .ok d) :
    t.renameTab w' new old = (.ok (.ok ()), s, w.setDisk d) := by
  have hset := set_eq_of_renameTab hrename
  have hnodup := nodup_filenames_renameTab hfresh.nodup hrename
  have hfolder : t.folder = s.folder := by rw [hset]; rfl
  have hmain : t.primary = s.primary := by rw [hset]
  have hentry := hfresh.isEntryName_old h hpolicy
  rw [← h.path_tab, ← hfolder] at hback
  have hdone := renameTab_of_rename (hfresh.housed_renamed h).isFormed hentry
    (hfresh.renamable_back h hpolicy hnodup hnew) hback
  rw [hfolder] at hdone
  simp only [hfresh.setTab_old h hrename] at hdone
  obtain ⟨other, hagain⟩ := (hfresh.housed_renamed h).exists_renamed hdone
  have horder := h.pinnedOrder hfresh.toHoused hnodup hfresh.canonical.ordered hnew
  have horder' := hagain.pinnedOrder (hfresh.housed_renamed h)
    (nodup_filenames_renameTab hnodup hdone) (by rw [hmain]; exact horder)
    (by rw [hmain]; exact h.ne_primary)
  rw [hmain] at horder'
  have hsame : t.sort (w.setDisk d) = s := by
    refine eq_of_pinnedOrder ?_ ?_ hfresh.canonical.ordered horder'
    · rw [sort, hset]
    · have hperm : t.members.Perm s.members := by
        rw [h.set_eq]
        exact sort_perm s w'
      exact (sort_perm t _).trans hperm
  rw [hdone, hsame]

/-- If the disk does not move the entry back, it is refused its old name. -/
theorem Fresh.renameTab_back_of_rename_error (hpolicy : s.accepts = acceptsSanitary)
    (hrename : s.renameTab w old new = (.ok (.ok ()), t, w')) (hnew : new ≠ s.primary.name)
    {fault : Fault} (hfault : fault ≠ .nulInPath)
    (hback : w'.disk.rename (s.folder.child new) (s.folder.child old) = .error fault) :
    t.renameTab w' new old = (.ok (.error (.notRenamed new old)), t, w') := by
  have hnodup := nodup_filenames_renameTab hfresh.nodup hrename
  have hfolder : t.folder = s.folder := by rw [set_eq_of_renameTab hrename]; rfl
  have hentry := hfresh.isEntryName_old h hpolicy
  rw [← h.path_tab, ← hfolder] at hback
  exact renameTab_of_rename_error (hfresh.housed_renamed h).isFormed hentry
    (hfresh.renamable_back h hpolicy hnodup hnew) hfault hback

end Back

/-- A tab of a set that has just been loaded, renamed to a free name and back: everything is as it
was, the disk, all tabs and their order, unless the path of the sketch folder leads through the
entry of the tab. This is then a link out of reach, the second renaming is refused, and it changes
nothing. -/
theorem renameTab_back {s t u : TabSet} {w v v' : Workspace μ} (hs : s.IsFormed)
    (hpolicy : s.accepts = acceptsSanitary) {o : ListingOrder}
    (hload : s.loadIn o w = (.ok (), t, v)) {a b : String} (hb : b ≠ s.primary.name)
    (hfree : ¬ v.disk.HasEntry s.folder b) (h : t.renameTab v a b = (.ok (.ok ()), u, v')) :
    (¬ v.disk.PassesEntry s.folder a →
      ∃ d : Disk, d.Same v.disk ∧ u.renameTab v' b a = (.ok (.ok ()), t, v.setDisk d)) ∧
    (v.disk.PassesEntry s.folder a →
      v.disk.OutOfReach s.folder a ∧
        u.renameTab v' b a = (.ok (.error (.notRenamed b a)), u, v')) := by
  obtain ⟨hfresh, hset⟩ := fresh_of_loadIn hs hload
  have hfolder : t.folder = s.folder := by rw [hset]; rfl
  have hnew : b ≠ t.primary.name := by rwa [hset]
  have haccepts : t.accepts = acceptsSanitary := by rwa [hset]
  obtain ⟨id, hrenamed⟩ := hfresh.toHoused.exists_renamed h
  rw [← hfolder] at hfree ⊢
  obtain ⟨folder, n, hwithin⟩ := hfresh.exists_renamedWithin hrenamed hfree
  obtain ⟨-, -, -, -, -, hfile, -⟩ := hfresh.exists_find hrenamed.old_mem
  have habs : t.folder.isAbsolute = true := hfresh.isFormed.isAbsolute
  have ha := hfresh.isSource_old hrenamed
  have hold := Step.ofName_of_isSourceName ha
  have hnew' := Step.ofName_of_isSourceName hrenamed.isSource
  constructor
  · intro hpasses
    obtain ⟨d, hback, hsame⟩ := hwithin.exists_rename_back habs hold hnew' hpasses
    exact ⟨d, hsame, hfresh.renameTab_back_of_rename hrenamed haccepts h hnew hback⟩
  · intro hpasses
    obtain ⟨fault, hfault, hback⟩ := hwithin.rename_back_eq_error habs hnew' hpasses
    refine ⟨hpasses.outOfReach (not_prefix_dots_of_isSourceName ha) hfile hwithin.find_old, ?_⟩
    exact hfresh.renameTab_back_of_rename_error hrenamed haccepts h hnew hfault hback

/-- Why a tab was refused another name, if it was. -/
def refusal? : Except Failure (Except Refusal Unit) → Option Refusal
  | .ok (.error r) => some r
  | _ => none

theorem renameTab_of_refusal? {a b : String} {reason : Refusal}
    (h : refusal? (s.renameTab w a b).1 = some reason) :
    s.renameTab w a b = (.ok (.error reason), s, w) := by
  rcases s.renameTab_cases w a b with ⟨t, v, hdone⟩ | ⟨r, -, hkept⟩
  · rw [hdone] at h
    cases h
  · rw [hkept] at h ⊢
    rcases r with f | reason' | ⟨⟩
    · cases h
    · cases h
      rfl
    · cases h

/-- A workspace on a disk with the folder `/B` and a link in it that leads to this folder. -/
def ring : Workspace Unit :=
  .ofDisk (((Disk.blank []).placeFile [] ["B", "B.ino"] [0x78]).placeLink [] ["B", "a.c"] ".") true

/-- The set of the sketch in this folder. The path of the main file goes through the link as often
as any path may follow links. -/
def ringed : TabSet :=
  ⟨⟨.root, "B" :: List.replicate maxLinks "a.c" ++ ["B.ino"]⟩, "B", .memory, acceptsSanitary, []⟩

/-- The tabs of this set, loaded. -/
def loadedRing : TabSet × Workspace Unit :=
  (ringed.loadIn .asKept ring).2

/-- The link has a tab, which is given another name. It is not given its old name back. -/
theorem not_renameTab_back_ring :
    ringed.IsFormed ∧ ringed.accepts = acceptsSanitary ∧
      ringed.loadIn .asKept ring = (.ok (), loadedRing.1, loadedRing.2) ∧
      "b.c" ≠ ringed.primary.name ∧ ¬ loadedRing.2.disk.HasEntry ringed.folder "b.c" ∧
      ∃ u v', loadedRing.1.renameTab loadedRing.2 "a.c" "b.c" = (.ok (.ok ()), u, v') ∧
        u.renameTab v' "b.c" "a.c" = (.ok (.error (.notRenamed "b.c" "a.c")), u, v') := by
  have hok : (ringed.loadIn .asKept ring).1 = .ok () := by decide +kernel
  have hlist : loadedRing.2.disk.list ringed.folder = .ok ["B.ino", "a.c"] := by decide +kernel
  have hdone : wasDone (loadedRing.1.renameTab loadedRing.2 "a.c" "b.c") = true := by
    decide +kernel
  have hback : refusal? ((loadedRing.1.renameTab loadedRing.2 "a.c" "b.c").2.1.renameTab
      (loadedRing.1.renameTab loadedRing.2 "a.c" "b.c").2.2 "b.c" "a.c").1 =
        some (.notRenamed "b.c" "a.c") := by decide +kernel
  refine ⟨⟨by decide, by decide +kernel⟩, rfl, Prod.ext hok rfl, by decide, ?_, ?_⟩
  · rw [← Disk.mem_list_iff hlist]
    decide
  · obtain ⟨u, v', hrename⟩ := exists_of_wasDone hdone
    rw [hrename] at hback
    exact ⟨u, v', hrename, renameTab_of_refusal? hback⟩

/-- A tab is renamed and renamed back. -/
theorem renameTab_back_blink :
    blink.IsFormed ∧ blink.accepts = acceptsSanitary ∧
      blink.loadIn .asKept (blinkOn "none") = (.ok (), loadedBlink.1, loadedBlink.2) ∧
      "b.c" ≠ blink.primary.name ∧ ¬ loadedBlink.2.disk.HasEntry blink.folder "b.c" ∧
      ∃ u v' d, loadedBlink.1.renameTab loadedBlink.2 "0.c" "b.c" = (.ok (.ok ()), u, v') ∧
        Disk.Same d loadedBlink.2.disk ∧
        u.renameTab v' "b.c" "0.c" = (.ok (.ok ()), loadedBlink.1, loadedBlink.2.setDisk d) := by
  have hdone : wasDone (loadedBlink.1.renameTab loadedBlink.2 "0.c" "b.c") = true := by
    decide +kernel
  have hlist : loadedBlink.2.disk.list blink.folder = .ok ["0.c", "B.ino", "a.c"] := by
    decide +kernel
  have hfree : ¬ loadedBlink.2.disk.HasEntry blink.folder "b.c" := by
    rw [← Disk.mem_list_iff hlist]
    decide
  have hb : "b.c" ≠ blink.primary.name := by decide
  have hfolder : loadedBlink.2.disk.find .target blink.folder =
      .ok (.entry ["B"] (.folder .full)) := by decide +kernel
  have hpasses : ¬ loadedBlink.2.disk.PassesEntry blink.folder "0.c" := by
    rintro ⟨place, access, hfind, hnot⟩
    rw [hfolder] at hfind
    cases hfind
    exact hnot (by decide +kernel)
  obtain ⟨u, v', hrename⟩ := exists_of_wasDone hdone
  obtain ⟨hback, -⟩ := renameTab_back isFormed_blink rfl loadIn_blink hb hfree hrename
  obtain ⟨d, hsame, hagain⟩ := hback hpasses
  exact ⟨isFormed_blink, rfl, loadIn_blink, hb, hfree, u, v', d, hrename, hsame, hagain⟩

end TabSet

end Sketchbook
