import Sketchbook.Proofs.Disk.Walk
import Sketchbook.Proofs.Path.EntryName
import Sketchbook.Proofs.Workspace.Operations
import Sketchbook.TabSet.Disk

/-!
# What an entry of a sketch folder turns out to be

Examining an entry has three outcomes that matter for the tabs of a set. The entry makes a tab
(`TabSet.admits`), it makes none, or it cannot be found out what it is (`TabSet.stops`), which
stops the scan of the folder. `TabSet.scan_append` and `TabSet.scan_of_stops` say what a scan
gathers: the tabs of the entries that are admitted, up to the first entry that stops it.
-/

namespace Sketchbook

variable {μ : Type}

/-- The text that is read from a file. It is empty if the file cannot be read. -/
def Disk.textAt (d : Disk) (p : Path) : String :=
  match d.readFile p with
  | .ok bytes => Utf8.decode bytes
  | .error _ => ""

/-- An absolute path is not changed by making it absolute. -/
theorem Disk.absolute_of_isAbsolute (d : Disk) {p : Path} (h : p.isAbsolute = true) :
    d.absolute p = .ok p := by
  simp [Disk.absolute, Disk.absolute?, Path.absolute, h]

/-- Making a path absolute gives an absolute one. -/
theorem Disk.isAbsolute_of_absolute? {d : Disk} {p q : Path} (h : d.absolute? p = some q) :
    q.isAbsolute = true := by
  unfold Disk.absolute? at h
  split at h
  · cases h
    unfold Path.absolute
    split
    · assumption
    · rfl
  · cases h

namespace TabSet

/-- What the making of a set ensures: the main file has an absolute path and a name with the
extension of a main file, and the name of the sketch is what is left of it. -/
structure IsFormed (s : TabSet) : Prop where
  isAbsolute : s.primary.isAbsolute = true
  name_eq : splitExtension? s.primary.name sketchExtensions = some s.name

/-- A set that has been made for a main file is formed. -/
theorem isFormed_of_ofPrimary {d : Disk} {p : Path} {sink : Sink}
    {accepts : Option String → Bool} {s : TabSet} (h : ofPrimary d p sink accepts = .ok s) :
    s.IsFormed := by
  unfold ofPrimary Disk.absolute at h
  cases habs : d.absolute? p with
  | none => simp [habs] at h
  | some primary =>
    simp only [habs] at h
    cases hname : splitExtension? primary.name sketchExtensions with
    | none => simp [hname] at h
    | some name =>
      simp only [hname] at h
      cases h
      exact ⟨Disk.isAbsolute_of_absolute? habs, hname⟩

/-- Which tabs it holds plays no part in how a set is formed. -/
theorem IsFormed.of_set_eq {s t : TabSet} (hs : s.IsFormed)
    (h : t = { s with members := t.members }) : t.IsFormed := by
  rw [h]
  exact ⟨hs.isAbsolute, hs.name_eq⟩

/-- The main file lies in the folder of the sketch. -/
theorem IsFormed.child_folder {s : TabSet} (hs : s.IsFormed) :
    s.folder.child s.primary.name = s.primary := by
  have hne : s.primary.parts ≠ [] := by
    intro hnil
    have hname : s.primary.name = "" := by simp [Path.name, hnil]
    have hsplit := hs.name_eq
    rw [hname] at hsplit
    exact absurd hsplit (by simp [show splitExtension? "" sketchExtensions = none by decide])
  exact Path.child_parent_name hne

/-- The entries of the sketch folder have absolute paths. -/
theorem IsFormed.isAbsolute_child {s : TabSet} (hs : s.IsFormed) (n : String) :
    (s.folder.child n).isAbsolute = true :=
  hs.isAbsolute

/-- Whether the entry of this name makes a tab: it is that of a source file, the entry is no
folder, and the policy accepts the name without its extension. -/
def admits (s : TabSet) (d : Disk) (n : String) : Bool :=
  isSourceName n &&
    (match d.isFolder? (s.folder.child n) with
      | .ok isFolder => !isFolder
      | .error _ => false) &&
    s.accepts (splitExtension? n sourceExtensions)

/-- Whether an examination of the entry of this name fails: it is that of a source file and the
disk does not tell whether the entry is a folder, or else the name cannot be given to a disk. -/
def stops (s : TabSet) (d : Disk) (n : String) : Bool :=
  (isSourceName n &&
    match d.isFolder? (s.folder.child n) with
    | .ok _ => false
    | .error _ => true) ||
  s.admits d n && (s.folder.child n).hasNul

/-- The tab that an entry makes: its text is what is read from the file, and it has not been
edited. -/
def freshTab (s : TabSet) (d : Disk) (n : String) : Tab μ :=
  ⟨s.folder.child n, d.textAt (s.folder.child n), false, none, s.sink⟩

@[simp] theorem filename_freshTab (s : TabSet) (d : Disk) (n : String) :
    (s.freshTab d n : Tab μ).filename = n := by
  simp [freshTab, Tab.filename]

theorem admits_iff {s : TabSet} {d : Disk} {n : String} :
    s.admits d n = true ↔ isSourceName n = true ∧ d.isFolder? (s.folder.child n) = .ok false ∧
      s.accepts (splitExtension? n sourceExtensions) = true := by
  unfold admits
  cases hfolder : d.isFolder? (s.folder.child n) with
  | error e => simp
  | ok isFolder => cases isFolder <;> simp

/-! ### The examination of one entry -/

/-- Opening a tab for a file with an absolute path fails only for a NUL character, and gives a
tab that has not been edited. -/
theorem load_of_isAbsolute (d : Disk) {p : Path} (data : Option μ) (sink : Sink)
    (habs : p.isAbsolute = true) :
    if p.hasNul then Tab.load d p data sink = .error (.disk .nulInPath p)
    else ∃ texts, Tab.load d p data sink = .ok (⟨p, d.textAt p, false, data, sink⟩, texts) := by
  unfold Tab.load
  rw [Disk.absolute_of_isAbsolute d habs]
  simp only [Tab.loadAt_eq]
  unfold Disk.textAt
  have hnul := Disk.readFile_eq_nulInPath_iff (d := d) (p := p)
  cases hread : d.readFile p with
  | ok bytes =>
    rw [hread] at hnul
    simp only [reduceCtorEq, false_iff, Bool.not_eq_true] at hnul
    simp [hnul]
  | error e =>
    rw [hread] at hnul
    by_cases he : e = .nulInPath
    · subst he
      simp [hnul.mp rfl]
    · have hp : p.hasNul = false := by simpa [he] using hnul
      cases e <;> simp_all

variable {s : TabSet} {d : Disk} {n : String}

/-- An entry that stops the scan is one whose examination fails, for a fault of the disk. -/
theorem examine_of_stops (hs : s.IsFormed) (h : s.stops d n = true) :
    ∃ e, (s.examine d n : Finding μ) = .failed (.disk e (s.folder.child n)) := by
  unfold stops at h
  rcases Bool.or_eq_true_iff.mp h with h | h
  · obtain ⟨hsource, hfolder⟩ := Bool.and_eq_true_iff.mp h
    unfold examine
    cases hf : d.isFolder? (s.folder.child n) with
    | ok isFolder => simp [hf] at hfolder
    | error e => exact ⟨e, by simp [hsource, hf]⟩
  · obtain ⟨hadmits, hnul⟩ := Bool.and_eq_true_iff.mp h
    obtain ⟨hsource, hfolder, haccepts⟩ := admits_iff.mp hadmits
    have hload := load_of_isAbsolute d (none : Option μ) s.sink (hs.isAbsolute_child n)
    rw [if_pos hnul] at hload
    exact ⟨.nulInPath, by simp [examine, hsource, hfolder, haccepts, hload]⟩

/-- An entry that is admitted, and does not stop the scan, makes its tab. -/
theorem examine_of_admits (hs : s.IsFormed) (hadmits : s.admits d n = true)
    (hstops : s.stops d n = false) :
    ∃ texts, (s.examine d n : Finding μ) = .tab (s.freshTab d n) texts := by
  obtain ⟨hsource, hfolder, haccepts⟩ := admits_iff.mp hadmits
  have hnul : (s.folder.child n).hasNul = false := by
    simpa [stops, hadmits, hfolder] using hstops
  have hload := load_of_isAbsolute d (none : Option μ) s.sink (hs.isAbsolute_child n)
  rw [if_neg (by simp [hnul])] at hload
  obtain ⟨texts, hload⟩ := hload
  exact ⟨texts, by simp [examine, freshTab, hsource, hfolder, haccepts, hload]⟩

/-- An entry that is not admitted, and does not stop the scan, makes no tab. -/
theorem examine_of_not_admits (hadmits : s.admits d n = false) (hstops : s.stops d n = false) :
    (s.examine d n : Finding μ) = .ignored ∨ (s.examine d n : Finding μ) = .refused := by
  unfold examine
  by_cases hsource : isSourceName n = true
  · cases hfolder : d.isFolder? (s.folder.child n) with
    | error e => simp [stops, hsource, hfolder] at hstops
    | ok isFolder =>
      cases isFolder with
      | true => simp [hfolder]
      | false =>
        have haccepts : s.accepts (splitExtension? n sourceExtensions) = false := by
          simpa [admits, hsource, hfolder] using hadmits
        simp [hsource, hfolder, haccepts]
  · simp [hsource]

/-- The tab that an entry makes has not been edited. -/
theorem dirty_of_examine {t : Tab μ} {texts : List String}
    (h : (s.examine d n : Finding μ) = .tab t texts) : t.dirty = false := by
  unfold examine at h
  split at h
  · cases h
  · simp only at h
    split at h
    · cases h
    · cases h
    · split at h
      · split at h
        · next hload =>
          cases h
          exact Workspace.dirty_of_load hload
        · cases h
      · cases h

/-! ### The scan of a folder -/

@[simp] theorem scan_nil (s : TabSet) (d : Disk) :
    (s.scan d [] : Haul μ) = ⟨[], [], none⟩ := rfl

/-- Entries that do not stop a scan give their tabs, and the scan goes on behind them. -/
theorem scan_append (hs : s.IsFormed) {before : List String}
    (h : ∀ n ∈ before, s.stops d n = false) (rest : List String) :
    (s.scan d (before ++ rest) : Haul μ).tabs =
        (before.filter (s.admits d)).map (s.freshTab d) ++ (s.scan d rest).tabs ∧
      (s.scan d (before ++ rest) : Haul μ).failure = (s.scan d rest : Haul μ).failure := by
  induction before with
  | nil => simp
  | cons n before ih =>
    have hn : s.stops d n = false := h n (List.mem_cons_self ..)
    obtain ⟨htabs, hfailure⟩ := ih fun m hm => h m (List.mem_cons_of_mem n hm)
    rw [List.cons_append, scan.eq_def]
    cases hadmits : s.admits d n with
    | true =>
      obtain ⟨texts, hexamine⟩ := examine_of_admits (μ := μ) hs hadmits hn
      simp [hexamine, hadmits, htabs, hfailure]
    | false =>
      rcases examine_of_not_admits (μ := μ) hadmits hn with hexamine | hexamine
      · simp [hexamine, hadmits, htabs, hfailure]
      · simp [hexamine, hadmits, htabs, hfailure]

/-- A scan gathers nothing from an entry that stops it on. -/
theorem scan_of_stops (hs : s.IsFormed) (h : s.stops d n = true) (after : List String) :
    ∃ e, (s.scan d (n :: after) : Haul μ) = ⟨[], [], some (.disk e (s.folder.child n))⟩ := by
  obtain ⟨e, hexamine⟩ := examine_of_stops (μ := μ) hs h
  exact ⟨e, by rw [scan.eq_def]; simp [hexamine]⟩

/-- No tab that a scan gathers has been edited. -/
theorem dirty_of_mem_scan (s : TabSet) (d : Disk) (names : List String) {t : Tab μ}
    (h : t ∈ (s.scan d names : Haul μ).tabs) : t.dirty = false := by
  induction names with
  | nil => cases h
  | cons n names ih =>
    rw [scan.eq_def] at h
    simp only at h
    cases hexamine : (s.examine d n : Finding μ) with
    | failed f => simp [hexamine] at h
    | ignored => exact ih (by simpa [hexamine] using h)
    | refused => exact ih (by simpa [hexamine] using h)
    | tab found texts =>
      simp only [hexamine] at h
      rcases List.mem_cons.mp h with rfl | h
      · exact dirty_of_examine hexamine
      · exact ih h

/-- Either no entry stops a scan, or there is a first one that does. -/
theorem forall_not_stops_or_exists_first (s : TabSet) (d : Disk) (names : List String) :
    (∀ n ∈ names, s.stops d n = false) ∨
      ∃ before n after, names = before ++ n :: after ∧
        (∀ m ∈ before, s.stops d m = false) ∧ s.stops d n = true := by
  cases hfind : names.find? (s.stops d) with
  | none => exact .inl (by simpa using List.find?_eq_none.mp hfind)
  | some n =>
    obtain ⟨hstops, before, after, hnames, hbefore⟩ := List.find?_eq_some_iff_append.mp hfind
    exact .inr ⟨before, n, after, hnames, by simpa using hbefore, hstops⟩

end TabSet

end Sketchbook
