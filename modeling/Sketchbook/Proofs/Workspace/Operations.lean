import Sketchbook.Proofs.Tab.Steps
import Sketchbook.Proofs.Workspace.Tabs

/-!
# What an operation on a tab can do

For each operation on a workspace all that can come of it, in one statement. What it changes is
written with `Workspace.setTab`, `Workspace.setDisk`, `Workspace.addTabs` and `Workspace.tell`. An
operation that fails has changed nothing, except that a file may have been opened for writing
(`Workspace.save_cases`).
-/

namespace Sketchbook.Workspace

variable {μ : Type}

/-- A tab that has just been made has not been edited. -/
theorem dirty_of_load {d : Disk} {p : Path} {data : Option μ} {sink : Sink} {t : Tab μ}
    {texts : List String} (h : Tab.load d p data sink = .ok (t, texts)) : t.dirty = false := by
  unfold Tab.load at h
  cases habs : d.absolute p with
  | error f => simp [habs] at h
  | ok q =>
    simp only [habs, Tab.loadAt_eq] at h
    split at h
    · cases h
      rfl
    · cases h
    · cases h
      rfl

/-- A tab that is opened has not been edited. -/
theorem openTab_cases (w : Workspace μ) (p : Path) (data : Option μ) (sink : Sink) :
    (∃ f, w.openTab p data sink = (.error f, w)) ∨
      ∃ t texts, t.dirty = false ∧
        w.openTab p data sink = (.ok w.tabs.length, (w.addTabs [t]).tell sink texts) := by
  unfold openTab
  cases hload : Tab.load w.disk p data sink with
  | error f => exact .inl ⟨f, rfl⟩
  | ok r => exact .inr ⟨r.1, r.2, dirty_of_load hload, rfl⟩

/-- A tab that is read again has the text of the bytes of its file and no mark, or the file cannot
be read, and nothing has changed. -/
theorem reload_eq (w : Workspace μ) (id : TabId) :
    w.reload id = match w.disk.readFile (w.tab id).path with
      | .error fault => (.error (.disk fault (w.tab id).path), w)
      | .ok bytes => (.ok (),
          (w.setTab id { w.tab id with text := Utf8.decode bytes, dirty := false }).tell
            (w.tab id).sink
            (if Tab.isDamaged (Utf8.decode bytes) then [Tab.damageWarning (w.tab id).filename]
              else [])) := by
  unfold reload carryOut
  rw [Tab.run_reload]
  cases w.disk.readFile (w.tab id).path with
  | error fault => simp
  | ok bytes => simp [setDisk, setTab]

/-- A tab that is read again has not been edited since. -/
theorem reload_cases (w : Workspace μ) (id : TabId) :
    (∃ f, w.reload id = (.error f, w)) ∨
      ∃ text texts, w.reload id =
        (.ok (), (w.setTab id { w.tab id with text := text, dirty := false }).tell
          (w.tab id).sink texts) := by
  rw [reload_eq]
  cases w.disk.readFile (w.tab id).path with
  | error fault => exact .inl ⟨_, rfl⟩
  | ok bytes => exact .inr ⟨_, _, rfl⟩

/-- A tab that is written to its file loses its mark, unless this fails. -/
theorem save_outcome (room : Room) (w : Workspace μ) (id : TabId) :
    ∃ r e, WriteOutcome room (w.tab id).text (w.tab id).path w.disk r e ∧
      w.save room id = match r with
        | .ok () => (.ok (), (w.setTab id { w.tab id with dirty := false }).setDisk e)
        | .error f => (.error f, w.setDisk e) := by
  obtain ⟨r, e, houtcome, hrun⟩ := Tab.run_save room ⟨w.tab id, w.disk, []⟩
  refine ⟨r, e, houtcome, ?_⟩
  unfold save carryOut
  rw [hrun]
  cases r with
  | error f => simp
  | ok u => simp

/-- A tab that is written has not been edited since, and one that is not stays as it is. -/
theorem save_cases (room : Room) (w : Workspace μ) (id : TabId) :
    (∃ f d, w.save room id = (.error f, w.setDisk d)) ∨
      ∃ d, w.save room id = (.ok (), (w.setTab id { w.tab id with dirty := false }).setDisk d) := by
  obtain ⟨r, e, -, hsave⟩ := w.save_outcome room id
  cases r with
  | error f => exact .inl ⟨f, e, hsave⟩
  | ok u => exact .inr ⟨e, hsave⟩

/-- Writing a tab to another file changes no tab. -/
theorem saveAs_outcome (room : Room) (w : Workspace μ) (id : TabId) (p : Path) :
    ∃ r e, WriteOutcome room (w.tab id).text p w.disk r e ∧
      w.saveAs room id p = (r, w.setDisk e) := by
  obtain ⟨r, e, houtcome, hrun⟩ := Tab.run_saveAs room p ⟨w.tab id, w.disk, []⟩
  refine ⟨r, e, houtcome, ?_⟩
  unfold saveAs carryOut
  rw [hrun]
  simp

/-- A tab has the new path, made absolute, where the disk lets its file be renamed. Otherwise
nothing has changed. -/
theorem rename_eq (w : Workspace μ) (id : TabId) (p : Path) :
    w.rename id p = match w.disk.absolute p with
      | .error f => (.error f, w)
      | .ok target => match w.disk.rename (w.tab id).path target with
        | .error .nulInPath => (.error (.disk .nulInPath target), w)
        | .error _ => (.ok false, w)
        | .ok d => (.ok true, (w.setTab id { w.tab id with path := target }).setDisk d) := by
  unfold rename carryOut
  rw [Tab.run_rename]
  cases w.disk.absolute p with
  | error f => simp
  | ok target =>
    simp only
    cases w.disk.rename (w.tab id).path target with
    | error fault => cases fault <;> simp
    | ok d => simp

/-- A tab whose file the disk lets be renamed has the new path made absolute, and nothing else of it
changes. -/
theorem rename_cases (w : Workspace μ) (id : TabId) (p : Path) :
    (∃ r, r ≠ .ok true ∧ w.rename id p = (r, w)) ∨
      ∃ target d, w.disk.absolute p = .ok target ∧
        w.disk.rename (w.tab id).path target = .ok d ∧
        w.rename id p = (.ok true, (w.setTab id { w.tab id with path := target }).setDisk d) := by
  rw [rename_eq]
  cases habs : w.disk.absolute p with
  | error f => exact .inl ⟨.error f, by simp, rfl⟩
  | ok target =>
    simp only
    cases hrename : w.disk.rename (w.tab id).path target with
    | ok d => exact .inr ⟨target, d, rfl, hrename, rfl⟩
    | error e =>
      refine .inl ?_
      cases e
      case nulInPath => exact ⟨_, by simp, rfl⟩
      all_goals exact ⟨.ok false, by simp, rfl⟩

/-- A tab that has been renamed is one that there is, and the disk has renamed its file, from its
path to the new one made absolute. -/
theorem exists_of_rename {w w' : Workspace μ} {id : TabId} {p : Path}
    (h : w.rename id p = (.ok true, w')) :
    id < w.tabs.length ∧ ∃ target d, w.disk.absolute p = .ok target ∧
      w.disk.rename (w.tab id).path target = .ok d ∧
      w' = (w.setTab id { w.tab id with path := target }).setDisk d := by
  rcases w.rename_cases id p with ⟨r, hr, hkept⟩ | ⟨target, d, habsolute, hdisk, hdone⟩
  · rw [h] at hkept
    exact absurd (congrArg Prod.fst hkept).symm hr
  · rw [h] at hdone
    refine ⟨Nat.lt_of_not_le fun hle => ?_, target, d, habsolute, hdisk, congrArg Prod.snd hdone⟩
    -- the blank tab that stands for all others has the path of the root, which no disk renames
    rw [tab_of_length_le hle] at hdisk
    change w.disk.rename ⟨.root, []⟩ target = .ok d at hdisk
    unfold Disk.rename at hdisk
    split at hdisk
    · cases hdisk
    · cases hdisk

/-- Deleting the file of a tab changes no tab. -/
theorem delete_cases (o : ListingOrder) (w : Workspace μ) (id : TabId) (folders : List Path) :
    ∃ r d, w.delete o id folders = (r, w.setDisk d) :=
  ⟨_, _, rfl⟩

end Sketchbook.Workspace
