import Sketchbook.Command.Run
import Sketchbook.Proofs.TabSet.Renaming

/-!
# What the steps of a run do to the disk

A run that gets as far as a loaded sketch may rename a tab and then delete one; whatever it writes
leaves the disk as it is. The disk that a step of a run leaves is that of what it does to the set
(`renameStep_cases`, `deleteStep_cases`), and the disk that a run leaves is that of its last step
(`disk_act_cases`). How the sketch is named matters only as far as its main file is found by it
(`Finds.work_congr`).
-/

namespace Sketchbook.Command

namespace Progress

@[simp] theorem workspace_print (p : Progress) (line : String) :
    (p.print line).workspace = p.workspace := rfl

@[simp] theorem set_print (p : Progress) (line : String) : (p.print line).set = p.set := rfl

@[simp] theorem workspace_write (p : Progress) (text : String) :
    (p.write text).workspace = p.workspace := rfl

@[simp] theorem set_write (p : Progress) (text : String) : (p.write text).set = p.set := rfl

@[simp] theorem disk_report (p : Progress) (text : String) :
    (p.report text).workspace.disk = p.workspace.disk := by
  simp [report]

@[simp] theorem tab_report (p : Progress) (text : String) (id : TabId) :
    (p.report text).workspace.tab id = p.workspace.tab id := by
  simp [report]

@[simp] theorem set_report (p : Progress) (text : String) : (p.report text).set = p.set := rfl

@[simp] theorem disk_finish (p : Progress) (e : Ending) : (p.finish e).disk = p.workspace.disk :=
  rfl

@[simp] theorem disk_fail (p : Progress) (f : Failure) : (p.fail f).disk = p.workspace.disk := by
  simp [fail]

end Progress

/-- A path that cannot be resolved ends a run with the disk as it is. -/
theorem disk_unresolved (d : Disk) (e : ResolveFault) : (unresolved d e).disk = d := by
  cases e <;> rfl

/-- The disk once an action has been done, be it that the run ends there. -/
def Turn.disk : Turn → Disk
  | .goOn _ p => p.workspace.disk
  | .stop o => o.disk

/-- Whether a tab may be deleted as far as the user is concerned. -/
def IsConfirmed (yes : Bool) (typed : Typed) : Prop :=
  yes = true ∨ ∃ s, typed = .text s ∧ confirms s = true

@[simp] theorem disk_showTabs (p : Progress) (ok : Bool) :
    (showTabs p ok).disk = p.workspace.disk := rfl

/-- Renaming a tab either does so, or it changes neither the disk nor the set nor its tabs. -/
theorem renameStep_cases (p : Progress) (old new : String) :
    (∃ s w, p.set.renameTab p.workspace old new = (.ok (.ok ()), s, w) ∧
      ∃ q, renameStep p old new = .goOn true q ∧ q.set = s ∧ q.workspace = w) ∨
    ((renameStep p old new).disk = p.workspace.disk ∧
      ∀ ok q, renameStep p old new = .goOn ok q →
        q.set = p.set ∧ ∀ id, q.workspace.tab id = p.workspace.tab id) := by
  unfold renameStep
  rcases p.set.renameTab_cases p.workspace old new with ⟨s, w, hrename⟩ | ⟨r, hr, hkept⟩
  · rw [hrename]
    exact .inl ⟨s, w, rfl, _, rfl, rfl, rfl⟩
  · rw [hkept]
    refine .inr ?_
    rcases r with f | refusal | ⟨⟩
    · exact ⟨by simp [Turn.disk], by simp⟩
    · refine ⟨by simp [Turn.disk], fun ok q h => ?_⟩
      cases h
      simp
    · exact absurd rfl hr

variable (order : ListingOrder)

/-- Deleting a tab that has been confirmed leaves the disk that the deletion does. -/
theorem disk_deleteConfirmed (p : Progress) (id : TabId) (name : String) (build : Option Path) :
    (deleteConfirmed order p id name build).disk =
      (p.set.deleteMember order p.workspace id name build).workspace.disk := by
  unfold deleteConfirmed
  generalize p.set.deleteMember order p.workspace id name build = r
  obtain ⟨refusal, failure, s, w⟩ := r
  cases refusal <;> cases failure <;> simp [Turn.disk]

/-- Deleting a tab changes nothing of the disk, or it was confirmed for a tab that may be
deleted. -/
theorem deleteStep_cases (p : Progress) (name : String) (build : Option Path) (yes : Bool)
    (typed : Typed) :
    (deleteStep order p name build yes typed).disk = p.workspace.disk ∨
      ∃ id, p.set.deletable p.workspace name = .ok id ∧ IsConfirmed yes typed ∧
        (deleteStep order p name build yes typed).disk =
          (p.set.deleteMember order p.workspace id name build).workspace.disk := by
  unfold deleteStep
  split
  · exact .inl (by simp [Turn.disk])
  · next id hdeletable =>
    split
    · next hyes => exact .inr ⟨id, hdeletable, .inl hyes, disk_deleteConfirmed ..⟩
    · cases typed with
      | closed => exact .inl rfl
      | interrupt => exact .inl rfl
      | text s =>
        by_cases hempty : s.isEmpty = true
        · exact .inl (by simp [hempty, Turn.disk])
        · by_cases hconfirms : confirms s = true
          · refine .inr ⟨id, hdeletable, .inr ⟨s, rfl, hconfirms⟩, ?_⟩
            simp [hempty, hconfirms, disk_deleteConfirmed]
          · exact .inl (by simp [hempty, hconfirms, Turn.disk])

/-! ### The actions of a run -/

/-- The renaming that is asked for, if one is. -/
def renameTurn (p : Progress) (request : Request) : Turn :=
  match request.rename with
  | some (old, new) => renameStep p old new
  | none => .goOn true p

/-- The deletion that is asked for, if one is. -/
def deleteTurn (order : ListingOrder) (p : Progress) (request : Request) (build : Option Path)
    (typed : Typed) : Turn :=
  match request.delete with
  | some name =>
    if name.isEmpty then .goOn true p else deleteStep order p name build request.yes typed
  | none => .goOn true p

theorem act_eq (p : Progress) (request : Request) (build : Option Path) (typed : Typed) :
    act order p request build typed = (renameTurn p request).andThen fun ok q =>
      (deleteTurn order q request build typed).andThen fun ok₂ r => showTabs r (ok && ok₂) :=
  rfl

/-- Showing the tabs at the end leaves the disk that the last action does. -/
theorem disk_andThen_showTabs (t : Turn) (ok : Bool) :
    (t.andThen fun ok₂ r => showTabs r (ok && ok₂)).disk = t.disk := by
  cases t <;> rfl

/-- Without a deletion the actions leave the disk that the renaming does. -/
theorem disk_act_of_delete_eq_none (p : Progress) {request : Request}
    (h : request.delete = none) (build : Option Path) (typed : Typed) :
    (act order p request build typed).disk = (renameTurn p request).disk := by
  have hnone : ∀ q, deleteTurn order q request build typed = .goOn true q := by
    intro q
    rw [deleteTurn, h]
  rw [act_eq]
  cases renameTurn p request with
  | stop o => rfl
  | goOn ok q =>
    simp only [Turn.andThen, hnone]
    rfl

/-- The actions leave the disk that the renaming does, unless the run goes on from there and a tab
is to be deleted. -/
theorem disk_act_cases (p : Progress) (request : Request) (build : Option Path) (typed : Typed) :
    (act order p request build typed).disk = (renameTurn p request).disk ∨
      ∃ name ok q, request.delete = some name ∧ renameTurn p request = .goOn ok q ∧
        (act order p request build typed).disk =
          (deleteStep order q name build request.yes typed).disk := by
  cases hdelete : request.delete with
  | none => exact .inl (disk_act_of_delete_eq_none order p hdelete build typed)
  | some name =>
    rw [act_eq]
    cases hrenaming : renameTurn p request with
    | stop o => exact .inl rfl
    | goOn ok q =>
      have hdisk : ((Turn.goOn ok q).andThen fun ok q =>
          (deleteTurn order q request build typed).andThen fun ok₂ r =>
            showTabs r (ok && ok₂)).disk =
            (deleteTurn order q request build typed).disk := disk_andThen_showTabs _ ok
      rw [hdisk, deleteTurn, hdelete]
      by_cases hempty : name.isEmpty = true
      · simp only [if_pos hempty]
        exact .inl rfl
      · simp only [if_neg hempty]
        exact .inr ⟨name, ok, q, rfl, rfl, rfl⟩

/-! ### The sketch that is asked for -/

/-- The request names a sketch, and this is its main file. -/
def Finds (d : Disk) (request : Request) (primary : Path) : Prop :=
  ∃ p, d.resolve (Path.ofString (sketchText d request)) = .ok p ∧
    primaryOf d p = .ok (some primary)

namespace Finds

variable {d : Disk} {request : Request} {primary : Path}

/-- A run with a main file and a build folder works on the sketch. -/
theorem work_eq (h : Finds d request primary) {build : Option Path}
    (hbuild : resolveBuild d request = .ok build) (typed : Typed) :
    work order d request typed = workOn order d primary request build typed := by
  obtain ⟨p, hresolve, hprimary⟩ := h
  simp only [work, hresolve, hprimary, hbuild]

/-- What a run does depends on how the sketch is named by the main file only. -/
theorem work_congr {sketch : Option String} (h : Finds d request primary)
    (h' : Finds d { request with sketch := sketch } primary) (typed : Typed) :
    work order d { request with sketch := sketch } typed = work order d request typed := by
  obtain ⟨p, hresolve, hprimary⟩ := h
  obtain ⟨q, hresolve', hprimary'⟩ := h'
  simp only [work, hresolve, hprimary, hresolve', hprimary']
  rfl

end Finds

end Sketchbook.Command
