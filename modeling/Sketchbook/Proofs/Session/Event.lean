import Mathlib.Data.List.Basic
import Mathlib.Data.List.Induction
import Sketchbook.Workspace

/-!
# Events in the life of tabs

What happens to the texts of tabs, as a list of events in the order in which they come about. A
tab counts as edited if its text was assigned after it was opened, and neither read nor written
since (`EditedSince`).
-/

namespace Sketchbook

/-- What happens to the text of a tab. -/
inductive Event
  /-- The tab is opened. -/
  | opened (id : TabId)
  /-- It is given a text. -/
  | assigned (id : TabId)
  /-- Its file is read again. -/
  | reloaded (id : TabId)
  /-- It is written to its file. -/
  | saved (id : TabId)
  deriving DecidableEq, Repr

/-- Whether the tab has been opened, read or written by the event, so that it has the text of its
file or none yet. -/
def Event.settles (id : TabId) : Event → Bool
  | .opened other | .reloaded other | .saved other => other == id
  | .assigned _ => false

/-- The text of the tab was assigned after the latest of all times at which it was opened, read
and written. -/
def EditedSince (h : List Event) (id : TabId) : Prop :=
  ∃ before after, h = before ++ .assigned id :: after ∧ .opened id ∈ before ∧
    ∀ e ∈ after, e.settles id = false

variable {h : List Event} {id : TabId}

theorem not_editedSince_nil : ¬ EditedSince [] id := by
  rintro ⟨before, after, heq, -⟩
  simp at heq

/-- The last event makes a tab an edited one, or it was one before and is not settled. -/
theorem editedSince_concat {e : Event} :
    EditedSince (h ++ [e]) id ↔
      (e = .assigned id ∧ .opened id ∈ h) ∨ (e.settles id = false ∧ EditedSince h id) := by
  constructor
  · rintro ⟨before, after, heq, hopened, hafter⟩
    rcases after.eq_nil_or_concat' with rfl | ⟨inner, last, rfl⟩
    · obtain ⟨rfl, hlast⟩ := List.append_inj' heq rfl
      exact .inl ⟨(List.cons.inj hlast).1, hopened⟩
    · rw [← List.cons_append, ← List.append_assoc] at heq
      obtain ⟨rfl, hlast⟩ := List.append_inj' heq rfl
      obtain rfl := (List.cons.inj hlast).1
      refine .inr ⟨hafter e (by simp), before, inner, rfl, hopened, fun e' he' => ?_⟩
      exact hafter e' (List.mem_append_left _ he')
  · rintro (⟨rfl, hopened⟩ | ⟨hsettles, before, after, rfl, hopened, hafter⟩)
    · exact ⟨h, [], rfl, hopened, by simp⟩
    · refine ⟨before, after ++ [e], by simp, hopened, fun e' he' => ?_⟩
      rcases List.mem_append.mp he' with he' | he'
      · exact hafter e' he'
      · rw [List.mem_singleton.mp he']
        exact hsettles

/-- Opening tabs makes none an edited one. -/
theorem editedSince_append_opened {ids : List TabId} :
    EditedSince (h ++ ids.map .opened) id ↔ EditedSince h id ∧ id ∉ ids := by
  induction ids using List.reverseRecOn with
  | nil => simp
  | append_singleton ids last ih =>
    rw [List.map_append, ← List.append_assoc, List.map_singleton, editedSince_concat, ih]
    have hnot : ¬ (Event.opened last = .assigned id) := by simp
    by_cases hlast : last = id
    · simp [Event.settles, hlast]
    · simp [Event.settles, hlast, Ne.symm hlast]

/-- A tab whose text was not assigned since it was opened is no edited one. -/
theorem not_editedSince_of_opened {before after : List Event}
    (heq : h = before ++ .opened id :: after) (hafter : .assigned id ∉ after) :
    ¬ EditedSince h id := by
  rintro ⟨front, back, heq', -, hback⟩
  rcases List.append_eq_append_iff.mp (heq.symm.trans heq') with
    ⟨between, -, hsplit⟩ | ⟨between, -, hsplit⟩
  · -- the assignment comes after the opening
    cases between with
    | nil => cases hsplit
    | cons e between =>
      obtain ⟨-, hsplit⟩ := List.cons.inj hsplit
      exact hafter (by rw [hsplit]; simp)
  · -- the assignment comes before the opening, which settles the tab
    cases between with
    | nil => cases hsplit
    | cons e between =>
      obtain ⟨-, hsplit⟩ := List.cons.inj hsplit
      have hopened := hback (.opened id) (by rw [hsplit]; simp)
      simp [Event.settles] at hopened

end Sketchbook
