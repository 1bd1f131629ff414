import Sketchbook.Workspace

/-!
# The tabs of a workspace after a change

What each change of a workspace does to its tabs and to its disk, as equations through the view
`Workspace.tab`. Nothing else on workspaces is used by the theory of sets and sessions.
-/

namespace Sketchbook.Workspace

variable {μ : Type}

@[simp] theorem tabs_tell (w : Workspace μ) (sink : Sink) (texts : List String) :
    (w.tell sink texts).tabs = w.tabs := by
  unfold tell
  split <;> rfl

@[simp] theorem disk_tell (w : Workspace μ) (sink : Sink) (texts : List String) :
    (w.tell sink texts).disk = w.disk := by
  unfold tell
  split <;> rfl

@[simp] theorem tab_tell (w : Workspace μ) (sink : Sink) (texts : List String) (id : TabId) :
    (w.tell sink texts).tab id = w.tab id := by
  rw [tab, tabs_tell, ← tab]

@[simp] theorem tell_nil (w : Workspace μ) (sink : Sink) : w.tell sink [] = w := by
  unfold tell
  split
  · rfl
  · simp

@[simp] theorem tabs_setDisk (w : Workspace μ) (d : Disk) : (w.setDisk d).tabs = w.tabs := rfl

@[simp] theorem disk_setDisk (w : Workspace μ) (d : Disk) : (w.setDisk d).disk = d := rfl

@[simp] theorem tab_setDisk (w : Workspace μ) (d : Disk) (id : TabId) :
    (w.setDisk d).tab id = w.tab id := rfl

@[simp] theorem tabs_addTabs (w : Workspace μ) (ts : List (Tab μ)) :
    (w.addTabs ts).tabs = w.tabs ++ ts := rfl

@[simp] theorem disk_addTabs (w : Workspace μ) (ts : List (Tab μ)) :
    (w.addTabs ts).disk = w.disk := rfl

@[simp] theorem length_tabs_setTab (w : Workspace μ) (id : TabId) (t : Tab μ) :
    (w.setTab id t).tabs.length = w.tabs.length := by
  simp [setTab]

@[simp] theorem disk_setTab (w : Workspace μ) (id : TabId) (t : Tab μ) :
    (w.setTab id t).disk = w.disk := rfl

@[simp] theorem setDisk_disk (w : Workspace μ) : w.setDisk w.disk = w := rfl

/-- Putting a tab in its own place changes nothing, be it that there is none. -/
@[simp] theorem setTab_tab (w : Workspace μ) (id : TabId) : w.setTab id (w.tab id) = w := by
  have htabs : w.tabs.set id (w.tab id) = w.tabs := by
    by_cases hid : id < w.tabs.length
    · simp [tab, List.getD_eq_getElem?_getD, hid]
    · exact List.set_eq_of_length_le (Nat.not_lt.mp hid)
  rw [setTab, htabs]

/-- There is a blank tab under a number that no tab has got. -/
theorem tab_of_length_le {w : Workspace μ} {id : TabId} (h : w.tabs.length ≤ id) :
    w.tab id = default := by
  rw [tab, List.getD_eq_getElem?_getD, List.getElem?_eq_none h, Option.getD_none]

/-- A changed tab is found under its number, provided that there was a tab. -/
theorem tab_setTab (w : Workspace μ) (id other : TabId) (t : Tab μ) :
    (w.setTab id t).tab other =
      if other = id ∧ id < w.tabs.length then t else w.tab other := by
  simp only [tab, setTab, List.getD_eq_getElem?_getD, List.getElem?_set]
  by_cases h : id = other
  · subst h
    by_cases hlt : id < w.tabs.length
    · simp [hlt]
    · simp [hlt]
  · simp [h, Ne.symm h]

/-- Tabs that are taken in are found under the next numbers. -/
theorem map_tab_nextIds (w : Workspace μ) (ts : List (Tab μ)) :
    (w.nextIds ts.length).map (w.addTabs ts).tab = ts := by
  apply List.ext_getElem
  · simp [nextIds]
  · intro i h₁ h₂
    have hlen : i < ts.length := h₂
    simp [nextIds, tab, List.getD_eq_getElem?_getD, hlen]

/-- The next numbers are those from the number of tabs on. -/
theorem mem_nextIds {w : Workspace μ} {count : Nat} {id : TabId} :
    id ∈ w.nextIds count ↔ w.tabs.length ≤ id ∧ id < w.tabs.length + count := by
  simp [nextIds, List.mem_range'_1]

theorem nodup_nextIds (w : Workspace μ) (count : Nat) : (w.nextIds count).Nodup :=
  List.nodup_range' _

end Sketchbook.Workspace
