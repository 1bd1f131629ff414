import Sketchbook.Proofs.Workspace.Operations
import Sketchbook.TabSet.Disk

/-!
# Saving a set of tabs

Saving a set goes through its tabs and writes those that have been edited, until one cannot be
written. `TabSet.savedIn` are the tabs that are written, and `TabSet.saveEdited_filter` says that a
tab which has not been edited plays no part.
-/

namespace Sketchbook.TabSet

variable {μ : Type} {room : Room}

/-- The tabs that are written when those of the list that have been edited are saved, in order. -/
def savedIn (room : Room) (w : Workspace μ) : List TabId → List TabId
  | [] => []
  | id :: ids =>
    if (w.tab id).dirty then
      match w.save room id with
      | (.ok (), w) => id :: savedIn room w ids
      | (.error _, _) => []
    else savedIn room w ids

/-- Writing one tab does not touch another. -/
theorem tab_save_of_ne (room : Room) (w : Workspace μ) {id other : TabId} (h : other ≠ id) :
    (w.save room id).2.tab other = w.tab other := by
  rcases w.save_cases room id with ⟨f, d, hsave⟩ | ⟨d, hsave⟩
  · rw [hsave, Workspace.tab_setDisk]
  · rw [hsave]
    simp [Workspace.tab_setTab, h]

/-- Writing a tab changes no path. -/
theorem path_save (room : Room) (w : Workspace μ) (id other : TabId) :
    ((w.save room id).2.tab other).path = (w.tab other).path := by
  rcases w.save_cases room id with ⟨f, d, hsave⟩ | ⟨d, hsave⟩
  · rw [hsave, Workspace.tab_setDisk]
  · rw [hsave, Workspace.tab_setDisk, Workspace.tab_setTab]
    split
    · next heq => rw [heq.1]
    · rfl

/-- Saving tabs changes no path. -/
theorem path_saveEdited (room : Room) (w : Workspace μ) (ids : List TabId) (other : TabId) :
    ((saveEdited room w ids).2.tab other).path = (w.tab other).path := by
  induction ids generalizing w with
  | nil => rfl
  | cons id ids ih =>
    have hfirst := path_save room w id other
    rw [saveEdited]
    split
    · split
      · next v hsave =>
        rw [hsave] at hfirst
        exact (ih v).trans hfirst
      · next f v hsave =>
        rw [hsave] at hfirst
        exact hfirst
    · exact ih w

/-- A tab that has not been edited is not written. -/
theorem not_mem_savedIn {w : Workspace μ} {id : TabId} (h : (w.tab id).dirty = false)
    (ids : List TabId) : id ∉ savedIn room w ids := by
  induction ids generalizing w with
  | nil => exact List.not_mem_nil
  | cons other ids ih =>
    rw [savedIn]
    by_cases hdirty : (w.tab other).dirty = true
    · rw [if_pos hdirty]
      have hne : id ≠ other := by
        rintro rfl
        rw [h] at hdirty
        cases hdirty
      have hkept : ((w.save room other).2.tab id).dirty = false := by
        rw [tab_save_of_ne room w hne]
        exact h
      generalize w.save room other = r at hkept ⊢
      obtain ⟨reply, w'⟩ := r
      cases reply with
      | error f => exact List.not_mem_nil
      | ok u => exact List.not_mem_cons_of_ne_of_not_mem hne (ih hkept)
    · rw [if_neg hdirty]
      exact ih h

/-- A tab that has not been edited can be left out of what is saved. -/
theorem saveEdited_filter {w : Workspace μ} {id : TabId} (h : (w.tab id).dirty = false)
    (ids : List TabId) : saveEdited room w ids = saveEdited room w (ids.filter (· != id)) := by
  induction ids generalizing w with
  | nil => rfl
  | cons other ids ih =>
    by_cases heq : other = id
    · subst heq
      rw [saveEdited, h, List.filter_cons_of_neg (by simp)]
      exact ih h
    · rw [List.filter_cons_of_pos (by simpa using heq), saveEdited, saveEdited]
      have hkept : ((w.save room other).2.tab id).dirty = false := by
        rw [tab_save_of_ne room w (Ne.symm heq)]
        exact h
      split
      · generalize w.save room other = r at hkept ⊢
        obtain ⟨reply, w'⟩ := r
        cases reply with
        | error f => rfl
        | ok u => exact ih hkept
      · exact ih h

end Sketchbook.TabSet
