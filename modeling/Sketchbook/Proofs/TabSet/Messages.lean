import Sketchbook.Proofs.TabSet.Load

/-!
# What a load reports

Loading a set writes messages from three places: about a source file whose name is refused, about a
file that cannot be read, and about a file whose text is damaged. For each entry of the folder there
is at most one (`TabSet.report?`). When a load has gone through the whole folder, they have been
written in the order in which the entries are listed, none of them has been lost or written twice,
and a tab without a message has been read without damage (`TabSet.reported_loadIn`).
-/

namespace Sketchbook

variable {μ : Type}

/-! ### Messages and the files that they name -/

/-- A text that begins with something begins with its first character. -/
theorem head?_toList_append {s t : String} {c : Char} (h : s.toList.head? = some c) :
    (s ++ t).toList.head? = some c := by
  rw [String.toList_append, List.head?_append, h, Option.some_or]

theorem TabSet.head?_refusedWarning (n : String) : (refusedWarning n).toList.head? = some 'F' := by
  rw [refusedWarning, String.append_assoc]
  exact head?_toList_append (by decide)

theorem Tab.head?_unreadableWarning (n : String) :
    (unreadableWarning n).toList.head? = some 'E' :=
  head?_toList_append (by decide)

theorem Tab.head?_damageWarning (n : String) : (damageWarning n).toList.head? = some '"' := by
  simp only [damageWarning, String.append_assoc]
  exact head?_toList_append (by decide)

theorem TabSet.refusedWarning_injective {n m : String} (h : refusedWarning n = refusedWarning m) :
    n = m := by
  simp only [refusedWarning, String.append_left_inj, String.append_right_inj] at h
  exact h

theorem Tab.unreadableWarning_injective {n m : String}
    (h : unreadableWarning n = unreadableWarning m) : n = m :=
  (String.append_right_inj _).mp h

theorem Tab.damageWarning_injective {n m : String} (h : damageWarning n = damageWarning m) :
    n = m := by
  simp only [damageWarning, String.append_left_inj, String.append_right_inj] at h
  exact h

/-- Tabs that are taken in do not change which messages are written. -/
theorem Workspace.journal_tell_addTabs (w : Workspace μ) (tabs : List (Tab μ)) (sink : Sink)
    (texts : List String) :
    ((w.addTabs tabs).tell sink texts).journal = (w.tell sink texts).journal := by
  by_cases hsilent : sink = .console ∧ w.hasConsole = false
  · simp [tell, addTabs, hsilent]
  · simp [tell, addTabs, hsilent]

namespace TabSet

/-- The message about the entry of this name, if there is one. A source file that is no folder is
reported if its name is refused, or else if it cannot be read or a replacement character is read
from it. -/
def report? (s : TabSet) (d : Disk) (n : String) : Option String :=
  match isSourceName n, d.isFolder? (s.folder.child n) with
  | true, .ok false =>
    if s.accepts (splitExtension? n sourceExtensions) then
      match d.readFile (s.folder.child n) with
      | .error _ => some (Tab.unreadableWarning n)
      | .ok bytes =>
        if Utf8.replacement ∈ Utf8.decodeChars bytes then some (Tab.damageWarning n) else none
    else some (refusedWarning n)
  | _, _ => none

/-- The messages about entries, in the order of the entries. -/
def reports (s : TabSet) (d : Disk) (names : List String) : List String :=
  names.filterMap (s.report? d)

section Report

variable {s : TabSet} {d : Disk} {n m t : String}

/-- A message is one of three about the entry. -/
theorem report?_cases (h : s.report? d n = some t) :
    t = refusedWarning n ∨ t = Tab.unreadableWarning n ∨ t = Tab.damageWarning n := by
  unfold report? at h
  split at h
  · split at h
    · split at h
      · exact .inr (.inl (Option.some.inj h).symm)
      · split at h
        · exact .inr (.inr (Option.some.inj h).symm)
        · cases h
    · exact .inl (Option.some.inj h).symm
  · cases h

/-- Two entries have different messages. -/
theorem report?_injective (h : s.report? d n = some t) (h' : s.report? d m = some t) : n = m := by
  rcases report?_cases h with hn | hn | hn <;> rcases report?_cases h' with hm | hm | hm
  case inl.inl => exact refusedWarning_injective (hn.symm.trans hm)
  case inr.inl.inr.inl => exact Tab.unreadableWarning_injective (hn.symm.trans hm)
  case inr.inr.inr.inr => exact Tab.damageWarning_injective (hn.symm.trans hm)
  all_goals
    -- messages of two kinds begin with different characters
    have hhead := congrArg (fun text => text.toList.head?) (hn.symm.trans hm)
    simp only [head?_refusedWarning, Tab.head?_unreadableWarning, Tab.head?_damageWarning,
      Option.some_inj] at hhead
    exact absurd hhead (by decide)

/-- No message is written twice about different entries. -/
theorem nodup_reports {names : List String} (h : names.Nodup) : (s.reports d names).Nodup :=
  List.Nodup.filterMap (fun _ _ _ hn hm => report?_injective hn hm) h

/-- A message about one of the entries is written once. -/
theorem count_reports {names : List String} (hnodup : names.Nodup) (hn : n ∈ names)
    (h : s.report? d n = some t) : (s.reports d names).count t = 1 :=
  List.count_eq_one_of_mem (nodup_reports hnodup) (List.mem_filterMap.mpr ⟨n, hn, h⟩)

/-- A source file whose name is refused is reported. -/
theorem report?_of_not_accepts (hsource : isSourceName n = true)
    (hfolder : d.isFolder? (s.folder.child n) = .ok false)
    (h : s.accepts (splitExtension? n sourceExtensions) = false) :
    s.report? d n = some (refusedWarning n) := by
  simp [report?, hsource, hfolder, h]

/-- An entry that makes a tab is not reported only if it is read without a replacement. -/
theorem exists_bytes_of_report? (hadmits : s.admits d n = true) (h : s.report? d n = none) :
    ∃ bytes, d.readFile (s.folder.child n) = .ok bytes ∧
      Utf8.replacement ∉ Utf8.decodeChars bytes := by
  obtain ⟨hsource, hfolder, haccepts⟩ := admits_iff.mp hadmits
  cases hread : d.readFile (s.folder.child n) with
  | error e => simp [report?, hsource, hfolder, haccepts, hread] at h
  | ok bytes =>
    refine ⟨bytes, rfl, ?_⟩
    intro hdamaged
    simp [report?, hsource, hfolder, haccepts, hread, hdamaged] at h

end Report

/-! ### The messages of a scan -/

variable {s : TabSet} {d : Disk} {n : String}

/-- Opening a tab for a file with an absolute path writes a message if the file cannot be read, or
if a replacement character is read from it. -/
theorem texts_of_load {p : Path} {data : Option μ} {sink : Sink} {t : Tab μ} {texts : List String}
    (habs : p.isAbsolute = true) (h : Tab.load d p data sink = .ok (t, texts)) :
    texts = match d.readFile p with
      | .error _ => [Tab.unreadableWarning p.name]
      | .ok bytes =>
        if Utf8.replacement ∈ Utf8.decodeChars bytes then [Tab.damageWarning p.name] else [] := by
  unfold Tab.load at h
  rw [Disk.absolute_of_isAbsolute d habs] at h
  simp only [Tab.loadAt_eq] at h
  cases hread : d.readFile p with
  | ok bytes =>
    simp only [hread, Except.ok.injEq, Prod.mk.injEq, Tab.isDamaged, Utf8.toList_decode,
      List.contains_iff_mem] at h
    exact h.2.symm
  | error e =>
    simp only [hread] at h
    split at h
    · next heq => cases heq
    · cases h
    · cases h
      rfl

/-- An entry that is admitted, and does not stop the scan, is found with the message about it. -/
theorem examine_eq_tab (hs : s.IsFormed) (hadmits : s.admits d n = true)
    (hstops : s.stops d n = false) :
    (s.examine d n : Finding μ) = .tab (s.freshTab d n) (s.report? d n).toList := by
  obtain ⟨hsource, hfolder, haccepts⟩ := admits_iff.mp hadmits
  obtain ⟨texts, hexamine⟩ := examine_of_admits (μ := μ) hs hadmits hstops
  have hload : Tab.load d (s.folder.child n) (none : Option μ) s.sink =
      .ok (s.freshTab d n, texts) := by
    simp only [examine, hsource, hfolder, haccepts, Bool.not_true, Bool.false_eq_true, if_false,
      if_true] at hexamine
    split at hexamine
    · next hload =>
      cases hexamine
      exact hload
    · cases hexamine
  have htexts : texts = (s.report? d n).toList := by
    rw [texts_of_load (hs.isAbsolute_child n) hload, report?, hsource, hfolder]
    simp only [haccepts, if_true, Path.name_child]
    cases d.readFile (s.folder.child n) with
    | error e => rfl
    | ok bytes =>
      simp only
      split
      · rfl
      · rfl
  rw [hexamine, htexts]

/-- An entry that does not stop the scan is passed over without a message, refused with one, or
makes a tab with the message about it, if there is one. -/
theorem examine_of_not_stops (hs : s.IsFormed) (h : s.stops d n = false) :
    (s.examine d n : Finding μ) = .ignored ∧ s.report? d n = none ∨
      (s.examine d n : Finding μ) = .refused ∧ s.report? d n = some (refusedWarning n) ∨
      (s.examine d n : Finding μ) = .tab (s.freshTab d n) (s.report? d n).toList := by
  cases hsource : isSourceName n with
  | false => exact .inl (by simp [examine, report?, hsource])
  | true =>
    cases hfolder : d.isFolder? (s.folder.child n) with
    | error e => simp [stops, hsource, hfolder] at h
    | ok isFolder =>
      cases isFolder with
      | true => exact .inl (by simp [examine, report?, hsource, hfolder])
      | false =>
        cases haccepts : s.accepts (splitExtension? n sourceExtensions) with
        | false => exact .inr (.inl (by simp [examine, report?, hsource, hfolder, haccepts]))
        | true =>
          have hadmits : s.admits d n = true := admits_iff.mpr ⟨hsource, hfolder, haccepts⟩
          exact .inr (.inr (examine_eq_tab hs hadmits h))

/-- The message about the first entry is written before those about the others. -/
theorem reports_cons (s : TabSet) (d : Disk) (n : String) (names : List String) :
    s.reports d (n :: names) = (s.report? d n).toList ++ s.reports d names := by
  rw [reports, List.filterMap_cons]
  cases s.report? d n with
  | none => rfl
  | some t => rfl

/-- A scan that no entry stops gathers the messages about all entries. -/
theorem texts_scan (hs : s.IsFormed) {names : List String}
    (h : ∀ n ∈ names, s.stops d n = false) :
    (s.scan d names : Haul μ).texts = s.reports d names := by
  induction names with
  | nil => rfl
  | cons n names ih =>
    obtain ⟨hn, hnames⟩ := List.forall_mem_cons.mp h
    rw [reports_cons, ← ih hnames, scan.eq_def]
    rcases examine_of_not_stops (μ := μ) hs hn with
      ⟨hexamine, hreport⟩ | ⟨hexamine, hreport⟩ | hexamine
    · simp [hexamine, hreport]
    · simp [hexamine, hreport]
    · simp [hexamine]

/-! ### Loads that go through the whole folder -/

/-- A load that succeeds, or finds no code, has listed the folder and examined all its entries. -/
theorem exists_list_of_loadIn (hs : s.IsFormed) {o : ListingOrder} {w : Workspace μ}
    (h : (s.loadIn o w).1 = .ok () ∨ (s.loadIn o w).1 = .error .noCode) :
    ∃ names, w.disk.list s.folder = .ok names ∧
      (∀ n ∈ o.arrange names, s.stops w.disk n = false) ∧
      (s.loadIn o w).2.2 = s.gatheredIn w (o.arrange names) := by
  unfold loadIn at h ⊢
  cases hlist : w.disk.list s.folder with
  | error e => cases e <;> simp [hlist] at h
  | ok names =>
    simp only [hlist] at h ⊢
    refine ⟨names, rfl, ?_, ?_⟩
    · rcases s.forall_not_stops_or_exists_first w.disk (o.arrange names) with
        hstops | ⟨before, n, after, hsplit, hbefore, hn⟩
      · exact hstops
      · -- what stops a scan is a fault of the disk, never that there is no code
        obtain ⟨-, hfailure⟩ := scan_append (μ := μ) hs hbefore (n :: after)
        obtain ⟨e, hscan⟩ := scan_of_stops (μ := μ) hs hn after
        rw [← hsplit, hscan] at hfailure
        simp [loadListed, hfailure] at h
    · unfold loadListed gatheredIn
      simp only
      split
      · rfl
      · split
        · rfl
        · rfl

/-- If no entry stops the scan, a load leaves the tabs of those that are admitted. -/
theorem exists_loadedAs_of_not_stops (hs : s.IsFormed) (o : ListingOrder) {w : Workspace μ}
    {names : List String} (hlist : w.disk.list s.folder = .ok names)
    (hstops : ∀ n ∈ names, s.stops w.disk n = false) :
    ∃ files, LoadedAs s w files (s.loadIn o w).2.1 (s.loadIn o w).2.2 ∧
      ∀ n, n ∈ files ↔ n ∈ names ∧ s.admits w.disk n = true := by
  have houtcome := loadOutcome hs o w
  generalize s.loadIn o w = r at houtcome
  cases houtcome with
  | unlistable hlist' =>
    rw [hlist] at hlist'
    cases hlist'
  | @complete names' files s' w' hlist' hstops' hadmits hfiles hloaded =>
    refine ⟨files, hloaded, fun n => ?_⟩
    rw [hfiles.mem_iff, Disk.mem_list_iff hlist]
  | @noCode names' s' w' hlist' hstops' hadmits hloaded =>
    obtain rfl := Except.ok.inj (hlist.symm.trans hlist')
    refine ⟨[], hloaded, fun n => ?_⟩
    simpa using hadmits n
  | stopped hlist' hsplit hbefore hn hloaded =>
    obtain rfl := Except.ok.inj (hlist.symm.trans hlist')
    rw [hstops _ (ListingOrder.mem_of_arrange_eq hsplit)] at hn
    cases hn

/-- What a load has reported that met these names in this order, and left this set and this
workspace. -/
structure Reported (s : TabSet) (w : Workspace μ) (names : List String) (s' : TabSet)
    (w' : Workspace μ) : Prop where
  /-- The messages about the entries have been written, and no others. -/
  journal_eq : w'.journal = (w.tell s.sink (s.reports w.disk names)).journal
  /-- No message has been written twice. -/
  nodup : (s.reports w.disk names).Nodup
  /-- A source file that is no folder has become a tab, or it has been reported once that its name
  is refused. -/
  loaded_or_refused : ∀ n ∈ names, isSourceName n = true →
    w.disk.isFolder? (s.folder.child n) = .ok false →
      n ∈ s'.filenames w' ∨ (s.reports w.disk names).count (refusedWarning n) = 1
  /-- A tab about which there is no message has been read without a replacement. -/
  read : ∀ id ∈ s'.members, s.report? w.disk (w'.tab id).filename = none →
    ∃ bytes, w.disk.readFile (w'.tab id).path = .ok bytes ∧
      (w'.tab id).text = Utf8.decode bytes ∧ Utf8.replacement ∉ Utf8.decodeChars bytes

/-- The messages of a load that succeeds, or finds no code, are those about the entries of the
folder, in the order in which they are listed. No source file is dropped without a message, and none
is reported twice. -/
theorem reported_loadIn (hs : s.IsFormed) (o : ListingOrder) (w : Workspace μ)
    (h : (s.loadIn o w).1 = .ok () ∨ (s.loadIn o w).1 = .error .noCode) :
    ∃ names, w.disk.list s.folder = .ok names ∧
      Reported s w (o.arrange names) (s.loadIn o w).2.1 (s.loadIn o w).2.2 := by
  obtain ⟨names, hlist, hstops, hgathered⟩ := exists_list_of_loadIn hs h
  have hmem : ∀ n, n ∈ o.arrange names ↔ n ∈ names := fun _ => o.mem_arrange
  have hnodup : (o.arrange names).Nodup := (o.perm names).nodup_iff.mpr (Disk.list_nodup hlist)
  obtain ⟨files, hloaded, hfiles⟩ := exists_loadedAs_of_not_stops hs o hlist
    fun n hn => hstops n ((hmem n).mpr hn)
  generalize (s.loadIn o w).2.1 = s', (s.loadIn o w).2.2 = w' at hgathered hloaded ⊢
  refine ⟨names, hlist, ?_, nodup_reports hnodup, ?_, ?_⟩
  · rw [hgathered, gatheredIn, texts_scan hs hstops, Workspace.journal_tell_addTabs]
  · intro n hn hsource hfolder
    cases haccepts : s.accepts (splitExtension? n sourceExtensions) with
    | true =>
      have hadmits : s.admits w.disk n = true := admits_iff.mpr ⟨hsource, hfolder, haccepts⟩
      rw [hloaded.filenames_eq, hfiles]
      exact .inl ⟨(hmem n).mp hn, hadmits⟩
    | false =>
      exact .inr (count_reports hnodup hn (report?_of_not_accepts hsource hfolder haccepts))
  · intro id hid hreport
    have htab : w'.tab id = s.freshTab w.disk (w'.tab id).filename := hloaded.tab_eq hid
    have hfile : (w'.tab id).filename ∈ files := by
      rw [← hloaded.filenames_eq]
      exact List.mem_map_of_mem hid
    obtain ⟨bytes, hread, hwhole⟩ := exists_bytes_of_report? ((hfiles _).mp hfile).2 hreport
    refine ⟨bytes, ?_, ?_, hwhole⟩
    · rw [htab]
      exact hread
    · rw [htab]
      simp only [freshTab, Disk.textAt, hread]

/-- A workspace on a disk with the main file, a file with a byte that is no text, a link that leads
nowhere, and a file whose name is refused. -/
def motley : Workspace Unit :=
  let main := (Disk.blank []).placeFile [] ["B", "B.ino"] [0x78]
  let damaged := main.placeFile [] ["B", "0.c"] [0x79, 0xff]
  .ofDisk ((damaged.placeLink [] ["B", "a.c"] "none").placeFile [] ["B", "é.c"] []) true

/-- A folder that gives rise to all three messages is loaded against the order of its names. -/
theorem reported_loadIn_motley :
    blink.IsFormed ∧ (blink.loadIn ⟨List.reverse, List.reverse_perm⟩ motley).1 = .ok () ∧
      (blink.loadIn ⟨List.reverse, List.reverse_perm⟩ motley).2.2.journal =
        [⟨.memory, refusedWarning "é.c"⟩, ⟨.memory, Tab.unreadableWarning "a.c"⟩,
          ⟨.memory, Tab.damageWarning "0.c"⟩] := by
  have hok : (blink.loadIn ⟨List.reverse, List.reverse_perm⟩ motley).1 = .ok () := by
    decide +kernel
  obtain ⟨names, hnames, hreported⟩ := reported_loadIn isFormed_blink _ motley (.inl hok)
  have hlist : motley.disk.list blink.folder = .ok ["0.c", "B.ino", "a.c", "é.c"] := rfl
  obtain rfl := Except.ok.inj (hlist.symm.trans hnames)
  exact ⟨isFormed_blink, hok, hreported.journal_eq.trans (by decide +kernel)⟩

end TabSet

end Sketchbook
