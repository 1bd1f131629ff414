import Mathlib.Data.List.Nodup
import Sketchbook.Disk.Arrange
import Sketchbook.Proofs.TabSet.Order
import Sketchbook.Proofs.TabSet.Scan
import Sketchbook.Proofs.Workspace.Tabs

/-!
# Loading a set of tabs

A disk may list a folder in any order, and `TabSet.loadIn` is a load that meets the entries in a
given one. All that can come of a load is said by `TabSet.LoadOutcome`. When a load succeeds the
tabs are those of the entries that are admitted, in pinned order (`TabSet.loadIn_canonical`),
whatever the order of the listing was.
-/

namespace Sketchbook

variable {μ : Type}

namespace TabSet

/-- The file names of the tabs that a sketch folder calls for: those of its entries that are
admitted, in pinned order. -/
structure Canonical (s : TabSet) (d : Disk) (files : List String) : Prop where
  mem_iff : ∀ n, n ∈ files ↔ d.HasEntry s.folder n ∧ s.admits d n = true
  ordered : PinnedOrder s.primary.name files

/-- A set and a workspace after a load that made new tabs with these file names, in this order.
Nothing else has changed: neither the disk nor a tab that there was, nor what the set is for. -/
structure LoadedAs (s : TabSet) (w : Workspace μ) (files : List String) (s' : TabSet)
    (w' : Workspace μ) : Prop where
  set_eq : s' = { s with members := s'.members }
  tabs_eq : s'.members.map w'.tab = files.map (s.freshTab w.disk)
  nodup : s'.members.Nodup
  new : ∀ id ∈ s'.members, w.tabs.length ≤ id ∧ id < w'.tabs.length
  disk_eq : w'.disk = w.disk
  old : ∃ tabs, w'.tabs = w.tabs ++ tabs

/-! ### What is gathered, and putting it in order -/

namespace LoadedAs

variable {s s' t : TabSet} {w w' : Workspace μ} {files : List String}

/-- The tabs are found under their file names. -/
theorem filenames_eq (h : LoadedAs s w files s' w') : s'.filenames w' = files := by
  have hmap := congrArg (List.map Tab.filename) h.tabs_eq
  simpa [filenames, Function.comp_def] using hmap

/-- Each tab is the one that its entry makes. -/
theorem tab_eq (h : LoadedAs s w files s' w') {id : TabId} (hid : id ∈ s'.members) :
    w'.tab id = s.freshTab w.disk (w'.tab id).filename := by
  have hmem : w'.tab id ∈ files.map (s.freshTab w.disk) :=
    h.tabs_eq ▸ List.mem_map_of_mem hid
  obtain ⟨n, -, hn⟩ := List.mem_map.mp hmem
  rw [← hn, filename_freshTab]

/-- The tabs are still as they were loaded when they have been permuted. -/
theorem permuted (h : LoadedAs s w files s' w') (hset : t = { s with members := t.members })
    (hperm : t.members.Perm s'.members) : LoadedAs s w (t.filenames w') t w' where
  set_eq := hset
  tabs_eq := by
    rw [filenames, List.map_map]
    exact List.map_congr_left fun id hid => h.tab_eq (hperm.mem_iff.mp hid)
  nodup := hperm.nodup_iff.mpr h.nodup
  new := fun id hid => h.new id (hperm.mem_iff.mp hid)
  disk_eq := h.disk_eq
  old := h.old

/-- The tab of the main file is the one with its name. -/
theorem isPrimary_iff (hs : s.IsFormed) (h : LoadedAs s w files s' w') {id : TabId}
    (hid : id ∈ s'.members) :
    s'.isPrimary w' id = true ↔ (w'.tab id).filename = s'.primary.name := by
  have hprimary : s'.primary = s.folder.child s.primary.name := by
    rw [h.set_eq, hs.child_folder]
  have hname : s'.primary.name = s.primary.name := by rw [h.set_eq]
  have hpath : (w'.tab id).path = s.folder.child (w'.tab id).filename :=
    congrArg Tab.path (h.tab_eq hid)
  rw [isPrimary, beq_iff_eq, hname, hpath, hprimary]
  exact ⟨fun heq => Path.child_injective heq, fun heq => by rw [heq]⟩

/-- Pinning and sorting the tabs puts their file names in pinned order. -/
theorem pinnedOrder (hs : s.IsFormed) (h : LoadedAs s w files s' w') (hfiles : files.Nodup) :
    PinnedOrder s.primary.name (((s'.pinPrimary w').sort w').filenames w') := by
  have hpinned : LoadedAs s w ((s'.pinPrimary w').filenames w') (s'.pinPrimary w') w' := by
    refine h.permuted ?_ (s'.pinPrimary_perm w')
    rw [s'.pinPrimary_eq w', h.set_eq]
  have hloaded : (s'.filenames w').Nodup := by
    rw [h.filenames_eq]
    exact hfiles
  have hnodup : ((s'.pinPrimary w').filenames w').Nodup :=
    ((s'.pinPrimary_perm w').map _).nodup_iff.mpr hloaded
  have hsame : ∀ i ∈ s'.members, ∀ j ∈ s'.members, s'.isPrimary w' i = true →
      s'.isPrimary w' j = true → i = j := by
    intro i hi j hj hpi hpj
    have hnames : (w'.tab i).filename = (w'.tab j).filename :=
      ((h.isPrimary_iff hs hi).mp hpi).trans ((h.isPrimary_iff hs hj).mp hpj).symm
    exact List.inj_on_of_nodup_map hloaded hi hj hnames
  have hprimary : (s'.pinPrimary w').primary = s.primary := by rw [hpinned.set_eq]
  have htest : (s'.pinPrimary w').isPrimary w' = s'.isPrimary w' := by
    funext id
    rw [isPrimary, isPrimary, hprimary, h.set_eq]
  rw [← hprimary]
  refine pinnedOrder_sort hnodup (fun id hid => hpinned.isPrimary_iff hs hid) ?_
  intro id hid hp
  rw [htest] at hp
  exact head?_pinPrimary hsame hid hp

/-- Pinning and sorting the tabs is part of a load that only differs in their order. -/
theorem arranged (hs : s.IsFormed) (h : LoadedAs s w files s' w') (hfiles : files.Nodup) :
    ∃ arranged, LoadedAs s w arranged ((s'.pinPrimary w').sort w') w' ∧
      PinnedOrder s.primary.name arranged ∧ arranged.Perm files := by
  have hperm : ((s'.pinPrimary w').sort w').members.Perm s'.members :=
    (sort_perm _ w').trans (s'.pinPrimary_perm w')
  have hset : (s'.pinPrimary w').sort w' =
      { s with members := ((s'.pinPrimary w').sort w').members } := by
    rw [sort, s'.pinPrimary_eq w', h.set_eq]
  refine ⟨_, h.permuted hset hperm, h.pinnedOrder hs hfiles, ?_⟩
  exact (hperm.map _).trans (.of_eq h.filenames_eq)

end LoadedAs

/-- A set without tabs is as after a load that made none. -/
theorem loadedAs_clear (s : TabSet) (w : Workspace μ) : LoadedAs s w [] s.clear w where
  set_eq := rfl
  tabs_eq := rfl
  nodup := .nil
  new := fun _ hid => absurd hid List.not_mem_nil
  disk_eq := rfl
  old := ⟨[], (List.append_nil _).symm⟩

/-- The set once the entries have been scanned. -/
def gathered (s : TabSet) (w : Workspace μ) (names : List String) : TabSet :=
  { s with members := w.nextIds (s.scan w.disk names : Haul μ).tabs.length }

/-- The workspace once the entries have been scanned. -/
def gatheredIn (s : TabSet) (w : Workspace μ) (names : List String) : Workspace μ :=
  (w.addTabs (s.scan w.disk names).tabs).tell s.sink (s.scan w.disk names : Haul μ).texts

section Listed

variable {s : TabSet} {w : Workspace μ} {names files : List String}

/-- The tabs that a scan has gathered get the next numbers. -/
theorem loadedAs_gathered
    (h : (s.scan w.disk names : Haul μ).tabs = files.map (s.freshTab w.disk)) :
    LoadedAs s w files (s.gathered w names) (s.gatheredIn w names) where
  set_eq := rfl
  tabs_eq := by
    rw [← h, gathered, gatheredIn, funext (Workspace.tab_tell _ _ _)]
    exact w.map_tab_nextIds _
  nodup := w.nodup_nextIds _
  new := fun id hid => by simpa [gathered, gatheredIn, Workspace.mem_nextIds] using hid
  disk_eq := by simp [gatheredIn]
  old := ⟨_, by rw [gatheredIn, Workspace.tabs_tell, Workspace.tabs_addTabs]⟩

/-! ### The three ways a load can end -/

/-- If no entry stops the scan, and one of them is admitted, the load succeeds. -/
theorem loadListed_of_admits (hs : s.IsFormed) (hnodup : names.Nodup)
    (hstops : ∀ n ∈ names, s.stops w.disk n = false)
    (hadmits : ∃ n ∈ names, s.admits w.disk n = true) :
    ∃ files s' w', s.loadListed w names = (.ok (), s', w') ∧ LoadedAs s w files s' w' ∧
      PinnedOrder s.primary.name files ∧
      ∀ n, n ∈ files ↔ n ∈ names ∧ s.admits w.disk n = true := by
  obtain ⟨htabs, hfailure⟩ := scan_append (μ := μ) hs hstops []
  simp only [List.append_nil, scan_nil] at htabs hfailure
  have hloaded := loadedAs_gathered htabs
  obtain ⟨files, harranged, hordered, hperm⟩ := hloaded.arranged hs (hnodup.filter _)
  have hmem : ∀ n, n ∈ files ↔ n ∈ names ∧ s.admits w.disk n = true := by
    intro n
    rw [hperm.mem_iff, List.mem_filter]
  have hne : (s.gathered w names).members ≠ [] := by
    intro hnil
    obtain ⟨n, hn⟩ := hadmits
    have hfilter : names.filter (s.admits w.disk) = [] := by
      simpa [filenames, hnil] using hloaded.filenames_eq.symm
    exact List.filter_eq_nil_iff.mp hfilter n hn.1 hn.2
  refine ⟨files, _, _, ?_, harranged, hordered, hmem⟩
  have hisEmpty : (s.gathered w names).members.isEmpty = false := by
    simpa [List.isEmpty_eq_false_iff] using hne
  unfold gathered at hisEmpty
  unfold loadListed
  simp only [hfailure, hisEmpty, Bool.false_eq_true, if_false]
  rfl

/-- If no entry stops the scan, and none is admitted, the load fails and leaves no tabs. -/
theorem loadListed_of_not_admits (hs : s.IsFormed)
    (hstops : ∀ n ∈ names, s.stops w.disk n = false)
    (hadmits : ∀ n ∈ names, s.admits w.disk n = false) :
    ∃ s' w', s.loadListed w names = (.error .noCode, s', w') ∧ LoadedAs s w [] s' w' := by
  obtain ⟨htabs, hfailure⟩ := scan_append (μ := μ) hs hstops []
  have hfilter : names.filter (s.admits w.disk) = [] :=
    List.filter_eq_nil_iff.mpr fun n hn => by simp [hadmits n hn]
  simp only [List.append_nil, scan_nil, hfilter, List.map_nil] at htabs hfailure
  have hloaded : LoadedAs s w [] _ _ := loadedAs_gathered htabs
  refine ⟨_, _, ?_, hloaded⟩
  unfold loadListed gathered gatheredIn
  simp [hfailure, htabs, Workspace.nextIds]

/-- If an entry stops the scan, the load fails and leaves the tabs of the entries before it, as
they were listed. -/
theorem loadListed_of_stops (hs : s.IsFormed) {before : List String} {n : String}
    (hbefore : ∀ m ∈ before, s.stops w.disk m = false) (hn : s.stops w.disk n = true)
    (after : List String) :
    ∃ f s' w', s.loadListed w (before ++ n :: after) = (.error f, s', w') ∧
      LoadedAs s w (before.filter (s.admits w.disk)) s' w' := by
  obtain ⟨htabs, hfailure⟩ := scan_append (μ := μ) hs hbefore (n :: after)
  obtain ⟨e, hscan⟩ := scan_of_stops (μ := μ) hs hn after
  rw [hscan] at htabs hfailure
  rw [List.append_nil] at htabs
  refine ⟨.disk e (s.folder.child n), _, _, ?_, loadedAs_gathered htabs⟩
  unfold loadListed gathered gatheredIn
  simp [hfailure]

end Listed

/-! ### Loading from the disk -/

/-- A load only takes in tabs that have not been edited. -/
theorem exists_tabs_loadIn (s : TabSet) (o : ListingOrder) (w : Workspace μ) :
    ∃ tabs, (∀ t ∈ tabs, t.dirty = false) ∧ (s.loadIn o w).2.2.tabs = w.tabs ++ tabs := by
  unfold loadIn
  split
  · exact ⟨[], by simp, by simp⟩
  · exact ⟨[], by simp, by simp⟩
  · next names _ =>
    refine ⟨(s.scan w.disk (o.arrange names)).tabs, fun t ht => dirty_of_mem_scan _ _ _ ht, ?_⟩
    unfold loadListed
    simp only
    split
    · simp
    · split <;> simp

/-- What can come of a load that meets the names in a folder in this order. -/
inductive LoadOutcome (s : TabSet) (o : ListingOrder) (w : Workspace μ) :
    Except Failure Unit × TabSet × Workspace μ → Prop
  /-- The folder cannot be listed. -/
  | unlistable {e : Fault} {f : Failure} (hlist : w.disk.list s.folder = .error e) :
      LoadOutcome s o w (.error f, s.clear, w)
  /-- No entry stops the scan, and there are tabs. -/
  | complete {names files : List String} {s' : TabSet} {w' : Workspace μ}
      (hlist : w.disk.list s.folder = .ok names) (hstops : ∀ n ∈ names, s.stops w.disk n = false)
      (hadmits : ∃ n ∈ names, s.admits w.disk n = true) (hfiles : s.Canonical w.disk files)
      (hloaded : LoadedAs s w files s' w') : LoadOutcome s o w (.ok (), s', w')
  /-- No entry stops the scan, and none makes a tab. -/
  | noCode {names : List String} {s' : TabSet} {w' : Workspace μ}
      (hlist : w.disk.list s.folder = .ok names) (hstops : ∀ n ∈ names, s.stops w.disk n = false)
      (hadmits : ∀ n ∈ names, s.admits w.disk n = false) (hloaded : LoadedAs s w [] s' w') :
      LoadOutcome s o w (.error .noCode, s', w')
  /-- An entry stops the scan, the first one to do so. -/
  | stopped {names before after : List String} {n : String} {f : Failure} {s' : TabSet}
      {w' : Workspace μ} (hlist : w.disk.list s.folder = .ok names)
      (hsplit : o.arrange names = before ++ n :: after)
      (hbefore : ∀ m ∈ before, s.stops w.disk m = false) (hn : s.stops w.disk n = true)
      (hloaded : LoadedAs s w (before.filter (s.admits w.disk)) s' w') :
      LoadOutcome s o w (.error f, s', w')

/-- The four outcomes are all that can come of a load. -/
theorem loadOutcome {s : TabSet} (hs : s.IsFormed) (o : ListingOrder) (w : Workspace μ) :
    LoadOutcome s o w (s.loadIn o w) := by
  cases hlist : w.disk.list s.folder with
  | error e =>
    have hload : ∃ f, s.loadIn o w = (.error f, s.clear, w) := by
      unfold loadIn
      cases e <;> simp [hlist]
    obtain ⟨f, hload⟩ := hload
    rw [hload]
    exact .unlistable hlist
  | ok names =>
    have hload : s.loadIn o w = s.loadListed w (o.arrange names) := by
      unfold loadIn
      simp only [hlist]
    have hmem : ∀ n, n ∈ o.arrange names ↔ n ∈ names := fun n => (o.perm names).mem_iff
    have hnodup : (o.arrange names).Nodup :=
      (o.perm names).nodup_iff.mpr (Disk.list_nodup hlist)
    rw [hload]
    rcases s.forall_not_stops_or_exists_first w.disk (o.arrange names) with
      hstops | ⟨before, n, after, hsplit, hbefore, hn⟩
    · have hstops' : ∀ n ∈ names, s.stops w.disk n = false :=
        fun n hn => hstops n ((hmem n).mpr hn)
      by_cases hadmits : ∃ n ∈ names, s.admits w.disk n = true
      · have hadmits' : ∃ n ∈ o.arrange names, s.admits w.disk n = true :=
          hadmits.imp fun n hn => ⟨(hmem n).mpr hn.1, hn.2⟩
        obtain ⟨files, s', w', hok, hloaded, hordered, hfiles⟩ :=
          loadListed_of_admits (w := w) hs hnodup hstops hadmits'
        have hcanonical : s.Canonical w.disk files :=
          ⟨fun n => by rw [hfiles, hmem, Disk.mem_list_iff hlist], hordered⟩
        rw [hok]
        exact .complete hlist hstops' hadmits hcanonical hloaded
      · have hnone : ∀ n ∈ names, s.admits w.disk n = false := by
          intro n hn
          by_contra hn'
          exact hadmits ⟨n, hn, by simpa using hn'⟩
        obtain ⟨s', w', hfail, hloaded⟩ :=
          loadListed_of_not_admits (w := w) hs hstops fun n hn => hnone n ((hmem n).mp hn)
        rw [hfail]
        exact .noCode hlist hstops' hnone hloaded
    · obtain ⟨f, s', w', hfail, hloaded⟩ := loadListed_of_stops (w := w) hs hbefore hn after
      rw [hsplit, hfail]
      exact .stopped hlist hsplit hbefore hn hloaded

/-- Whatever comes of a load, the tabs that it leaves are for different file names. -/
theorem exists_loadedAs_loadIn {s : TabSet} (hs : s.IsFormed) (o : ListingOrder)
    (w : Workspace μ) :
    ∃ files, files.Nodup ∧ LoadedAs s w files (s.loadIn o w).2.1 (s.loadIn o w).2.2 := by
  have houtcome := loadOutcome hs o w
  generalize s.loadIn o w = r at houtcome
  cases houtcome with
  | unlistable hlist => exact ⟨[], .nil, loadedAs_clear s w⟩
  | complete hlist hstops hadmits hfiles hloaded => exact ⟨_, hfiles.ordered.nodup, hloaded⟩
  | noCode hlist hstops hadmits hloaded => exact ⟨[], .nil, hloaded⟩
  | @stopped names before after n f s' w' hlist hsplit hbefore hn hloaded =>
    have hnodup : (o.arrange names).Nodup :=
      (o.perm names).nodup_iff.mpr (Disk.list_nodup hlist)
    rw [hsplit] at hnodup
    exact ⟨_, (List.nodup_append.mp hnodup).1.filter _, hloaded⟩

/-- There is only one list of file names that a sketch folder calls for. -/
theorem Canonical.unique {s : TabSet} {d : Disk} {files others : List String}
    (h : s.Canonical d files) (h' : s.Canonical d others) : files = others :=
  h.ordered.eq_of_mem_iff h'.ordered fun n => (h.mem_iff n).trans (h'.mem_iff n).symm

/-- Where one load succeeds, so does any other load from the same disk, with the same tabs. -/
theorem loadIn_of_complete {s : TabSet} (hs : s.IsFormed) (o : ListingOrder) (w : Workspace μ)
    {names files : List String} (hlist : w.disk.list s.folder = .ok names)
    (hstops : ∀ n ∈ names, s.stops w.disk n = false)
    (hadmits : ∃ n ∈ names, s.admits w.disk n = true) (hfiles : s.Canonical w.disk files) :
    (s.loadIn o w).1 = .ok () ∧ LoadedAs s w files (s.loadIn o w).2.1 (s.loadIn o w).2.2 := by
  have houtcome := loadOutcome hs o w
  generalize s.loadIn o w = r at houtcome
  cases houtcome with
  | unlistable hlist' =>
    rw [hlist] at hlist'
    cases hlist'
  | complete hlist' hstops' hadmits' hfiles' hloaded =>
    rw [hfiles.unique hfiles']
    exact ⟨rfl, hloaded⟩
  | noCode hlist' hstops' hadmits' hloaded =>
    obtain rfl := Except.ok.inj (hlist.symm.trans hlist')
    obtain ⟨n, hn, hadmitted⟩ := hadmits
    rw [hadmits' n hn] at hadmitted
    cases hadmitted
  | stopped hlist' hsplit hbefore hn hloaded =>
    obtain rfl := Except.ok.inj (hlist.symm.trans hlist')
    rw [hstops _ (ListingOrder.mem_of_arrange_eq hsplit)] at hn
    cases hn

/-- A load that succeeds gives the tabs that the folder calls for, in whatever order the folder
is listed. Any other load from the same disk, into whatever tabs there were before, succeeds as
well, with the same tabs. -/
theorem loadIn_canonical {s : TabSet} (hs : s.IsFormed) (o : ListingOrder) (w : Workspace μ)
    (h : (s.loadIn o w).1 = .ok ()) :
    ∃ files, s.Canonical w.disk files ∧
      LoadedAs s w files (s.loadIn o w).2.1 (s.loadIn o w).2.2 ∧
      ∀ (members : List TabId) (o' : ListingOrder) (w' : Workspace μ), w'.disk = w.disk →
        let r := { s with members := members }.loadIn o' w'
        r.1 = .ok () ∧ LoadedAs s w' files r.2.1 r.2.2 := by
  have houtcome := loadOutcome hs o w
  generalize s.loadIn o w = r at h houtcome
  cases houtcome with
  | unlistable hlist => cases h
  | noCode hlist hstops hadmits hloaded => cases h
  | stopped hlist hsplit hbefore hn hloaded => cases h
  | @complete names files s' w' hlist hstops hadmits hfiles hloaded =>
    refine ⟨files, hfiles, hloaded, fun members o' v hdisk => ?_⟩
    have hs' : IsFormed { s with members := members } := hs.of_set_eq rfl
    rw [← hdisk] at hlist hstops hadmits hfiles
    obtain ⟨hok, hloaded'⟩ :=
      loadIn_of_complete hs' o' v hlist hstops hadmits ⟨hfiles.mem_iff, hfiles.ordered⟩
    exact ⟨hok, ⟨hloaded'.set_eq, hloaded'.tabs_eq, hloaded'.nodup, hloaded'.new,
      hloaded'.disk_eq, hloaded'.old⟩⟩

/-- The set of a sketch whose main file is `/B/B.ino`. It holds a tab already. -/
def blink : TabSet :=
  ⟨⟨.root, ["B", "B.ino"]⟩, "B", .memory, acceptsSanitary, [0]⟩

/-- A workspace with an edited tab, on a disk with a link in the folder `/B` that leads to the
target, the main file and another tab. -/
def blinkOn (target : String) : Workspace Unit :=
  let main := (Disk.blank []).placeFile [] ["B", "B.ino"] [0x78]
  let disk := (main.placeFile [] ["B", "0.c"] [0x79]).placeLink [] ["B", "a.c"] target
  ⟨disk, [⟨⟨.root, ["x.c"]⟩, "text", true, none, .memory⟩], [], true⟩

theorem isFormed_blink : blink.IsFormed :=
  ⟨by decide, by decide +kernel⟩

/-- A folder with a link that leads nowhere is loaded against the order of its names. -/
theorem loadIn_canonical_reverse :
    blink.IsFormed ∧ (blink.loadIn ⟨List.reverse, List.reverse_perm⟩ (blinkOn "none")).1 = .ok () ∧
      ∃ files, blink.Canonical (blinkOn "none").disk files := by
  have hok : (blink.loadIn ⟨List.reverse, List.reverse_perm⟩ (blinkOn "none")).1 = .ok () := by
    decide +kernel
  obtain ⟨files, hfiles, -, -⟩ := loadIn_canonical isFormed_blink _ _ hok
  exact ⟨isFormed_blink, hok, files, hfiles⟩

end TabSet

end Sketchbook
