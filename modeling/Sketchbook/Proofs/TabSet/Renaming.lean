import Sketchbook.Proofs.FileName.Extension
import Sketchbook.Proofs.FileName.SourceFilter
import Sketchbook.Proofs.TabSet.Load
import Sketchbook.TabSet.Action

/-!
# Renaming a tab

The check of a new name asks for its extension, for a sanitary rest and for other tabs of the same
name. It never asks the filter that decides at a load which entries are source files, nor what the
name means as a path. Even so a name that passes the check is always let pass by the filter as
well, and stands for an entry of the sketch folder itself. Main statements:
`TabSet.nameProblem_eq_none_iff`, `isSourceName_of_acceptsSanitary`, `TabSet.exists_of_renameTab`
and `TabSet.nameProblem_agrees`.
-/

namespace Sketchbook

variable {μ : Type}

/-- The name of an entry of a folder is kept when the path is made absolute. -/
theorem Disk.name_of_absolute_child {d : Disk} {p q : Path} {n : String}
    (h : d.absolute (p.child n) = .ok q) : q.name = n := by
  unfold Disk.absolute Disk.absolute? at h
  by_cases hcwd : ((p.child n).isAbsolute || d.lost == 0) = true
  · simp only [hcwd, if_true, Except.ok.injEq] at h
    rw [← h, Path.absolute]
    split
    · exact Path.name_child p n
    · simp [Path.name]
  · simp only [hcwd, Bool.false_eq_true, if_false] at h
    cases h

/-- A name that the usual policy accepts without its extension is that of a source file. -/
theorem isSourceName_of_acceptsSanitary {n : String}
    (h : acceptsSanitary (splitExtension? n sourceExtensions) = true) : isSourceName n = true := by
  have hname : IsTabName n := isTabName_of_acceptsSanitary h
  obtain ⟨base, hbase, -⟩ := (Option.any_eq_true _ _).mp h
  refine (SourceFilter.isSourceName_iff hname.not_mem_slash).mpr ⟨hname.noDot, Or.inl ?_⟩
  rw [hbase, Option.isSome_some]

namespace TabSet

variable {s t : TabSet} {w w' : Workspace μ}

/-! ### Finding a tab and checking a new name -/

/-- A name is not found just if no tab has it. -/
theorem find?_eq_none_iff {name : String} :
    s.find? w name = none ↔ name ∉ s.filenames w := by
  rw [find?, List.find?_eq_none, filenames, List.mem_map]
  simp

/-- A tab that is found is one of the set. -/
theorem mem_of_find? {name : String} {id : TabId} (h : s.find? w name = some id) :
    id ∈ s.members :=
  List.mem_of_find?_eq_some h

/-- Nothing is wrong with a new name that the usual policy accepts without its extension and that
no tab has. -/
theorem nameProblem_eq_none_iff {name : String} :
    s.nameProblem w name = none ↔
      acceptsSanitary (splitExtension? name sourceExtensions) = true ∧ name ∉ s.filenames w := by
  rw [← find?_eq_none_iff, nameProblem]
  cases splitExtension? name sourceExtensions with
  | none => simp [acceptsSanitary]
  | some base =>
    cases hsanitary : isSanitary base with
    | false => simp [acceptsSanitary, hsanitary]
    | true => cases s.find? w name <;> simp [acceptsSanitary, hsanitary]

/-- A name that passes the check can be given to a tab. -/
theorem isTabName_of_nameProblem {name : String} (h : s.nameProblem w name = none) :
    IsTabName name :=
  isTabName_of_acceptsSanitary (nameProblem_eq_none_iff.mp h).1

/-! ### What renaming does -/

/-- A tab that may be renamed is found under its old name, it is not that of the main file, and
nothing is wrong with the new name. -/
theorem renamable_eq_ok {old new : String} {id : TabId} (h : s.renamable w old new = .ok id) :
    s.find? w old = some id ∧ s.isPrimary w id = false ∧ s.nameProblem w new = none := by
  unfold renamable at h
  cases hfind : s.find? w old with
  | none => simp [hfind] at h
  | some found =>
    simp only [hfind] at h
    split at h
    · cases h
    · next hprimary =>
      split at h
      · cases h
      · next hproblem =>
        cases h
        exact ⟨rfl, by simpa using hprimary, hproblem⟩

/-- Where a tab has been renamed it is one that may be, the disk has let it, and the set has been
put in order. -/
theorem renamable_of_renameTab {old new : String}
    (h : s.renameTab w old new = (.ok (.ok ()), t, w')) :
    ∃ id, s.renamable w old new = .ok id ∧ w.rename id (s.folder.join new) = (.ok true, w') ∧
      t = s.sort w' := by
  unfold renameTab at h
  cases hok : s.renamable w old new with
  | error r => simp [hok] at h
  | ok id =>
    simp only [hok] at h
    split at h
    · cases h
    · cases h
    · next hrename =>
      cases h
      exact ⟨id, rfl, hrename, rfl⟩

/-- A tab is renamed, or the set and the workspace stay as they are. -/
theorem renameTab_cases (s : TabSet) (w : Workspace μ) (old new : String) :
    (∃ t w', s.renameTab w old new = (.ok (.ok ()), t, w')) ∨
      ∃ r, r ≠ .ok (.ok ()) ∧ s.renameTab w old new = (r, s, w) := by
  unfold renameTab
  cases s.renamable w old new with
  | error refusal => exact .inr ⟨_, by simp, rfl⟩
  | ok id =>
    simp only
    rcases w.rename_cases id (s.folder.join new) with ⟨r, hr, hcase⟩ | ⟨target, d, -, -, hcase⟩
    · rw [hcase]
      match r with
      | .error f => exact .inr ⟨_, by simp, rfl⟩
      | .ok false => exact .inr ⟨_, by simp, rfl⟩
      | .ok true => exact absurd rfl hr
    · rw [hcase]
      exact .inl ⟨_, _, rfl⟩

/-- Where a tab has been renamed it is the one found under the old name, and it has the path of
the entry with the new name in the sketch folder, made absolute. Besides it only the disk and the
order of the tabs have changed. -/
theorem exists_of_renameTab {old new : String}
    (h : s.renameTab w old new = (.ok (.ok ()), t, w')) :
    ∃ id target d, s.find? w old = some id ∧ id < w.tabs.length ∧ s.nameProblem w new = none ∧
      w.disk.absolute (s.folder.child new) = .ok target ∧
      w' = (w.setTab id { w.tab id with path := target }).setDisk d ∧ t = s.sort w' := by
  obtain ⟨id, hok, hrename, rfl⟩ := renamable_of_renameTab h
  obtain ⟨hfind, -, hproblem⟩ := renamable_eq_ok hok
  have hname : IsEntryName new := (isTabName_of_nameProblem hproblem).isEntryName
  rw [Path.join_of_isEntryName _ hname] at hrename
  obtain ⟨hlt, target, d, htarget, -, hw'⟩ := Workspace.exists_of_rename hrename
  exact ⟨id, target, d, hfind, hlt, hproblem, htarget, hw', rfl⟩

/-! ### A later load -/

/-- No load into the set turns the entry of this name down for its name: it is not refused, it is
ignored as a folder only, and a load that succeeds has a tab for it unless it is one. -/
structure LoadsByName (μ : Type) (u : TabSet) (name : String) : Prop where
  not_refused : ∀ d : Disk, (u.examine d name : Finding μ) ≠ .refused
  ignored : ∀ d : Disk, (u.examine d name : Finding μ) = .ignored →
    d.isFolder? (u.folder.child name) = .ok true
  loaded : ∀ (o : ListingOrder) (w : Workspace μ), (u.loadIn o w).1 = .ok () →
    w.disk.HasEntry u.folder name → w.disk.isFolder? (u.folder.child name) = .ok false →
      name ∈ (u.loadIn o w).2.1.filenames (u.loadIn o w).2.2

/-- The entry of a name that the filter and the policy let pass is not refused, and it is ignored
as a folder only. -/
theorem examine_of_accepts {u : TabSet} {name : String} (hsource : isSourceName name = true)
    (haccepts : u.accepts (splitExtension? name sourceExtensions) = true) (d : Disk) :
    (u.examine d name : Finding μ) ≠ .refused ∧
      ((u.examine d name : Finding μ) = .ignored →
        d.isFolder? (u.folder.child name) = .ok true) := by
  unfold examine
  simp only [hsource, haccepts, Bool.not_true, Bool.false_eq_true, if_false, if_true]
  cases d.isFolder? (u.folder.child name) with
  | error e => simp
  | ok isFolder =>
    cases isFolder with
    | true => simp
    | false => cases Tab.load d (u.folder.child name) (none : Option μ) u.sink <;> simp

/-- A name that the usual policy accepts without its extension is turned down by no load under
this policy. -/
theorem loadsByName_of_acceptsSanitary {u : TabSet} (hu : u.IsFormed)
    (hpolicy : u.accepts = acceptsSanitary) {name : String}
    (h : acceptsSanitary (splitExtension? name sourceExtensions) = true) :
    LoadsByName μ u name := by
  have hsource : isSourceName name = true := isSourceName_of_acceptsSanitary h
  have haccepts : u.accepts (splitExtension? name sourceExtensions) = true := by rwa [hpolicy]
  refine ⟨fun d => (examine_of_accepts hsource haccepts d).1,
    fun d => (examine_of_accepts hsource haccepts d).2, fun o w hok hentry hfile => ?_⟩
  have houtcome := loadOutcome hu o w
  generalize u.loadIn o w = r at hok houtcome ⊢
  cases houtcome with
  | unlistable hlist => cases hok
  | noCode hlist hstops hadmits hloaded => cases hok
  | stopped hlist hsplit hbefore hn hloaded => cases hok
  | complete hlist hstops hadmits hfiles hloaded =>
    rw [hloaded.filenames_eq, hfiles.mem_iff]
    exact ⟨hentry, admits_iff.mpr ⟨hsource, hfile, haccepts⟩⟩

/-- The check of a new name agrees with the filter and the policy of a load, for every text. A
name that passes it stands for an entry of the sketch folder, and a tab that has been renamed has
this entry for its file, which no later load under the usual policy turns down for its name. -/
theorem nameProblem_agrees {s : TabSet} (hs : s.IsFormed) (w : Workspace μ) (new : String) :
    (s.nameProblem w new = none ↔ isSourceName new = true ∧
      acceptsSanitary (splitExtension? new sourceExtensions) = true ∧ new ∉ s.filenames w) ∧
    (s.nameProblem w new = none → (s.folder.join new).parent = s.folder ∧
      (s.folder.join new).name = new ∧ IsTabName new) ∧
    ∀ old t w', s.renameTab w old new = (.ok (.ok ()), t, w') →
      ∃ id, s.find? w old = some id ∧ id ∈ t.members ∧ (w'.tab id).filename = new ∧
        (w'.tab id).path.parent = s.folder ∧
        ∀ u : TabSet, u.IsFormed → u.accepts = acceptsSanitary → LoadsByName μ u new := by
  refine ⟨?_, fun hproblem => ?_, fun old t w' hrename => ?_⟩
  · rw [nameProblem_eq_none_iff]
    exact ⟨fun h => ⟨isSourceName_of_acceptsSanitary h.1, h⟩, fun h => h.2⟩
  · have hname : IsTabName new := isTabName_of_nameProblem hproblem
    rw [Path.join_of_isEntryName _ hname.isEntryName, Path.parent_child, Path.name_child]
    exact ⟨rfl, rfl, hname⟩
  · obtain ⟨id, target, d, hfind, hlt, hproblem, htarget, rfl, rfl⟩ := exists_of_renameTab hrename
    have hpath : target = s.folder.child new := by
      rw [w.disk.absolute_of_isAbsolute (hs.isAbsolute_child new)] at htarget
      exact (Except.ok.inj htarget).symm
    -- the tab is really there, so that the new path has been put in its place
    have htab : ((w.setTab id { w.tab id with path := target }).setDisk d).tab id =
        { w.tab id with path := target } := by
      rw [Workspace.tab_setDisk, Workspace.tab_setTab, if_pos ⟨rfl, hlt⟩]
    refine ⟨id, hfind, (sort_perm s _).mem_iff.mpr (mem_of_find? hfind), ?_, ?_, ?_⟩
    · rw [htab, Tab.filename, hpath, Path.name_child]
    · rw [htab, hpath, Path.parent_child]
    · intro u hu hpolicy
      exact loadsByName_of_acceptsSanitary hu hpolicy (nameProblem_eq_none_iff.mp hproblem).1

/-- The tabs of the folder `/B`, loaded. -/
def loadedBlink : TabSet × Workspace Unit :=
  (blink.loadIn .asKept (blinkOn "none")).2

/-- They have been loaded without a failure. -/
theorem loadIn_blink :
    blink.loadIn .asKept (blinkOn "none") = (.ok (), loadedBlink.1, loadedBlink.2) := by
  have hok : (blink.loadIn .asKept (blinkOn "none")).1 = .ok () := by decide +kernel
  exact Prod.ext hok rfl

/-- Whether a tab has been renamed. -/
def wasDone (r : Except Failure (Except Refusal Unit) × TabSet × Workspace μ) : Bool :=
  match r.1 with
  | .ok (.ok ()) => true
  | _ => false

theorem exists_of_wasDone {r : Except Failure (Except Refusal Unit) × TabSet × Workspace μ}
    (h : wasDone r = true) : ∃ t w', r = (.ok (.ok ()), t, w') := by
  obtain ⟨f | refusal | ⟨⟩, t, w'⟩ := r
  · cases h
  · cases h
  · exact ⟨t, w', rfl⟩

/-- A tab is renamed to a name with its extension in capitals. -/
theorem nameProblem_agrees_capitals :
    loadedBlink.1.IsFormed ∧ loadedBlink.1.nameProblem loadedBlink.2 "New-1.CPP" = none ∧
      isSourceName "New-1.CPP" = true ∧
      ∃ t w' id, loadedBlink.1.renameTab loadedBlink.2 "0.c" "New-1.CPP" = (.ok (.ok ()), t, w') ∧
        (w'.tab id).filename = "New-1.CPP" ∧ (w'.tab id).path.parent = ⟨.root, ["B"]⟩ := by
  have hformed : loadedBlink.1.IsFormed := ⟨by decide +kernel, by decide +kernel⟩
  have hproblem : loadedBlink.1.nameProblem loadedBlink.2 "New-1.CPP" = none := by decide +kernel
  have hfolder : loadedBlink.1.folder = ⟨.root, ["B"]⟩ := by decide +kernel
  have hdone : wasDone (loadedBlink.1.renameTab loadedBlink.2 "0.c" "New-1.CPP") = true := by
    decide +kernel
  obtain ⟨t, w', hrename⟩ := exists_of_wasDone hdone
  obtain ⟨hcheck, -, hrenamed⟩ := nameProblem_agrees hformed loadedBlink.2 "New-1.CPP"
  obtain ⟨id, -, -, hfilename, hparent, -⟩ := hrenamed "0.c" t w' hrename
  refine ⟨hformed, hproblem, (hcheck.mp hproblem).1, t, w', id, hrename, hfilename, ?_⟩
  rw [hparent, hfolder]

end TabSet

end Sketchbook
