import Sketchbook.Proofs.Path.EntryName
import Sketchbook.Proofs.TabSet.Load

/-!
# Loads that fail

A load that fails may leave tabs behind. This is so exactly if an entry that cannot be examined
is listed behind one that makes a tab (`TabSet.allOrNothing_loadIn_iff`). Such an entry is a link
to a name that is too long for a disk.
-/

namespace Sketchbook.TabSet

variable {μ : Type}

/-- A load that succeeds with the tabs that the folder calls for, or fails and leaves no tabs. -/
def AllOrNothing (s : TabSet) (w : Workspace μ)
    (r : Except Failure Unit × TabSet × Workspace μ) : Prop :=
  (r.1 = .ok () ∧ ∃ files, s.Canonical w.disk files ∧ LoadedAs s w files r.2.1 r.2.2) ∨
    ((∃ f, r.1 = .error f) ∧ r.2.1.members = [])

/-- An entry that stops a scan is listed behind one that is admitted, and none before it stops
the scan. -/
def StopsMidway (s : TabSet) (d : Disk) (names : List String) : Prop :=
  ∃ before n after, names = before ++ n :: after ∧ (∀ m ∈ before, s.stops d m = false) ∧
    s.stops d n = true ∧ ∃ m ∈ before, s.admits d m = true

/-- No scan is stopped midway where no entry stops it. -/
theorem not_stopsMidway {s : TabSet} {d : Disk} {names : List String} (o : ListingOrder)
    (hstops : ∀ n ∈ names, s.stops d n = false) : ¬ s.StopsMidway d (o.arrange names) := by
  rintro ⟨before, n, after, hsplit, -, hn, -⟩
  rw [hstops n (ListingOrder.mem_of_arrange_eq hsplit)] at hn
  cases hn

/-- The entries before the first one that stops a scan are those up to which none does. -/
theorem takeWhile_of_stops {s : TabSet} {d : Disk} {before : List String} {n : String}
    (after : List String) (hbefore : ∀ m ∈ before, s.stops d m = false)
    (hn : s.stops d n = true) :
    (before ++ n :: after).takeWhile (fun m => !s.stops d m) = before := by
  rw [List.takeWhile_append_of_pos (by simpa using hbefore),
    List.takeWhile_cons_of_neg (by simp [hn]), List.append_nil]

/-- A scan that is stopped is stopped midway exactly if an entry before the one that stops it
makes a tab. -/
theorem stopsMidway_iff {s : TabSet} {d : Disk} {before after : List String} {n : String}
    (hbefore : ∀ m ∈ before, s.stops d m = false) (hn : s.stops d n = true) :
    s.StopsMidway d (before ++ n :: after) ↔ before.filter (s.admits d) ≠ [] := by
  constructor
  · rintro ⟨before', n', after', hsplit, hbefore', hn', m, hm, hadmits⟩ hfilter
    rw [← takeWhile_of_stops after' hbefore' hn', ← hsplit,
      takeWhile_of_stops after hbefore hn] at hm
    exact List.filter_eq_nil_iff.mp hfilter m hm hadmits
  · intro hfilter
    obtain ⟨m, hm⟩ := List.exists_mem_of_ne_nil _ hfilter
    obtain ⟨hm, hadmits⟩ := List.mem_filter.mp hm
    exact ⟨before, n, after, rfl, hbefore, hn, m, hm, hadmits⟩

/-- A load has left no tabs exactly if there is no file name to load them from. -/
theorem LoadedAs.members_eq_nil_iff {s s' : TabSet} {w w' : Workspace μ} {files : List String}
    (h : LoadedAs s w files s' w') : s'.members = [] ↔ files = [] := by
  have hlength : s'.members.length = files.length := by
    simpa using congrArg List.length h.tabs_eq
  rw [← List.length_eq_zero_iff, hlength, List.length_eq_zero_iff]

/-- A load is all or nothing unless an entry that cannot be examined is listed behind one that
makes a tab. Then the tabs of the entries before it stay in the set, as they were listed
(`LoadOutcome.stopped`). -/
theorem allOrNothing_loadIn_iff {s : TabSet} (hs : s.IsFormed) (o : ListingOrder)
    (w : Workspace μ) :
    s.AllOrNothing w (s.loadIn o w) ↔
      ∀ names, w.disk.list s.folder = .ok names → ¬ s.StopsMidway w.disk (o.arrange names) := by
  have houtcome := loadOutcome hs o w
  generalize s.loadIn o w = r at houtcome
  cases houtcome with
  | @unlistable e f hlist =>
    refine iff_of_true (.inr ⟨⟨f, rfl⟩, rfl⟩) fun names hnames => ?_
    rw [hlist] at hnames
    cases hnames
  | @complete names files s' w' hlist hstops hadmits hfiles hloaded =>
    refine iff_of_true (.inl ⟨rfl, files, hfiles, hloaded⟩) fun names' hnames => ?_
    obtain rfl := Except.ok.inj (hlist.symm.trans hnames)
    exact not_stopsMidway o hstops
  | @noCode names s' w' hlist hstops hadmits hloaded =>
    refine iff_of_true (.inr ⟨⟨_, rfl⟩, hloaded.members_eq_nil_iff.mpr rfl⟩) fun names' hnames => ?_
    obtain rfl := Except.ok.inj (hlist.symm.trans hnames)
    exact not_stopsMidway o hstops
  | @stopped names before after n f s' w' hlist hsplit hbefore hn hloaded =>
    constructor
    · rintro (⟨hok, -⟩ | ⟨-, hempty⟩) names' hnames
      · cases hok
      · obtain rfl := Except.ok.inj (hlist.symm.trans hnames)
        rw [hsplit, stopsMidway_iff hbefore hn, not_not]
        exact hloaded.members_eq_nil_iff.mp hempty
    · intro hmidway
      have hfilter := hmidway names hlist
      rw [hsplit, stopsMidway_iff hbefore hn, not_not] at hfilter
      exact .inr ⟨⟨f, rfl⟩, hloaded.members_eq_nil_iff.mpr hfilter⟩

/-- The target of a link that is longer than the name of an entry may be. -/
def overlongTarget : String :=
  String.ofList (List.replicate 256 'n')

/-- It cannot be found out what a link to an over-long name leads to. -/
theorem isFolder?_blinkOn {target : String} (hname : IsEntryName target)
    (hlong : isOverlong target = true) :
    (blinkOn target).disk.isFolder? (blink.folder.child "a.c") = .error .nameTooLong := by
  have hroot : (blinkOn target).disk.node? [] = some (.folder .full) := rfl
  have hfolder : (blinkOn target).disk.node? ["B"] = some (.folder .full) := rfl
  have hlink : (blinkOn target).disk.node? ["B", "a.c"] = some (.link target) := rfl
  have hsteps : (blink.folder.child "a.c").steps = [.down "B", .down "a.c"] := by decide +kernel
  have htarget : linkSteps target ++ [] = [.down target] := by
    rw [linkSteps_of_isEntryName hname, List.append_nil]
  have hfind : (blinkOn target).disk.find .target (blink.folder.child "a.c") =
      .error .nameTooLong := by
    rw [Disk.find, if_neg (by decide), if_pos (by decide), hsteps]
    calc (blinkOn target).disk.walk .target maxLinks [] [.down "B", .down "a.c"]
      _ = (blinkOn target).disk.walk .target maxLinks ["B"] [.down "a.c"] :=
        Disk.walk_down_folder hroot rfl (by decide) (by simp) hfolder
      _ = (blinkOn target).disk.walk .target 39 (linkStart ["B"] target)
          (linkSteps target ++ []) :=
        Disk.walk_down_link hfolder rfl (by decide) (by simp) hlink (by simp)
      _ = (blinkOn target).disk.walk .target 39 ["B"] [.down target] := by
        rw [linkStart_of_isEntryName _ hname, htarget]
      _ = .error .nameTooLong := Disk.walk_down_overlong hfolder rfl hlong (by simp)
  simp [Disk.isFolder?, Disk.leadsTo, Disk.stat, hfind, Fault.meansAbsence]

/-- The over-long target can be the name of an entry but for its length. -/
theorem isEntryName_overlongTarget : IsEntryName overlongTarget := by
  have htoList : overlongTarget.toList = 'n' :: List.replicate 255 'n' :=
    String.toList_ofList.trans List.replicate_succ
  refine .of_toList htoList (by decide) ?_
  rw [htoList, ← List.replicate_succ, List.mem_replicate]
  exact fun h => absurd h.2 (by decide)

/-- The link to the over-long name stops a load. -/
theorem stops_overlong : blink.stops (blinkOn overlongTarget).disk "a.c" = true := by
  have hsource : isSourceName "a.c" = true := by decide +kernel
  have hfolder := isFolder?_blinkOn isEntryName_overlongTarget (by decide +kernel)
  simp [stops, hsource, hfolder]

/-- A link to an over-long name stops the load behind the first tabs, which stay in the set. -/
theorem not_allOrNothing_overlong :
    (∃ f, (blink.loadIn .asKept (blinkOn overlongTarget)).1 = .error f) ∧
      ¬ blink.AllOrNothing (blinkOn overlongTarget)
        (blink.loadIn .asKept (blinkOn overlongTarget)) := by
  have hbefore : ∀ m ∈ ["0.c", "B.ino"], blink.stops (blinkOn overlongTarget).disk m = false := by
    decide +kernel
  have hadmits : blink.admits (blinkOn overlongTarget).disk "0.c" = true := by decide +kernel
  obtain ⟨f, s', w', hload, hloaded⟩ :=
    loadListed_of_stops (w := blinkOn overlongTarget) isFormed_blink hbefore stops_overlong []
  have hfail : blink.loadIn .asKept (blinkOn overlongTarget) = (.error f, s', w') := hload
  rw [hfail]
  refine ⟨⟨f, rfl⟩, ?_⟩
  rintro (⟨hok, -⟩ | ⟨-, hempty⟩)
  · cases hok
  · have hfilter := hloaded.members_eq_nil_iff.mp hempty
    exact List.filter_eq_nil_iff.mp hfilter "0.c" (List.mem_cons_self ..) hadmits

/-- When the same folder is listed from its end, the link is met before any tab is made, and the
load leaves nothing. -/
theorem allOrNothing_overlong_reverse :
    blink.IsFormed ∧ blink.AllOrNothing (blinkOn overlongTarget)
      (blink.loadIn ⟨List.reverse, List.reverse_perm⟩ (blinkOn overlongTarget)) := by
  refine ⟨isFormed_blink, (allOrNothing_loadIn_iff isFormed_blink _ _).mpr ?_⟩
  rintro names hnames ⟨before, n, after, hsplit, hbefore, -, m, hm, -⟩
  have hlist : (blinkOn overlongTarget).disk.list blink.folder = .ok ["0.c", "B.ino", "a.c"] := rfl
  rw [hlist] at hnames
  cases hnames
  cases before with
  | nil => cases hm
  | cons first rest =>
    have hfirst : first = "a.c" := (List.cons.inj hsplit).1.symm
    have hnot := hbefore first (List.mem_cons_self ..)
    rw [hfirst, stops_overlong] at hnot
    cases hnot

end Sketchbook.TabSet
