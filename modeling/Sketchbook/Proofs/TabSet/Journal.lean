import Sketchbook.Proofs.TabSet.UniqueNames

/-!
# What has been written stays written

No change of a workspace takes back a message (`Workspace.WritesOn`), and so none of what is done
with a set of tabs does: loading it, renaming a tab and deleting one.
-/

namespace Sketchbook

variable {μ : Type}

/-- The messages of the first workspace are still there in the second, with more behind them. There
is a console in both or in neither. -/
structure Workspace.WritesOn (w v : Workspace μ) : Prop where
  hasConsole_eq : v.hasConsole = w.hasConsole
  journal_prefix : w.journal <+: v.journal

namespace Workspace.WritesOn

variable {u v w : Workspace μ}

theorem refl (w : Workspace μ) : w.WritesOn w :=
  ⟨rfl, List.prefix_rfl⟩

theorem trans (h : w.WritesOn v) (h' : v.WritesOn u) : w.WritesOn u :=
  ⟨h'.hasConsole_eq.trans h.hasConsole_eq, h.journal_prefix.trans h'.journal_prefix⟩

/-- A change that is none of the messages takes none back. -/
theorem of_journal_eq (hconsole : v.hasConsole = w.hasConsole) (hjournal : v.journal = w.journal) :
    w.WritesOn v :=
  ⟨hconsole, hjournal ▸ List.prefix_rfl⟩

theorem tell (w : Workspace μ) (sink : Sink) (texts : List String) :
    w.WritesOn (w.tell sink texts) := by
  unfold Workspace.tell
  split
  · exact refl w
  · exact ⟨rfl, List.prefix_append ..⟩

end Workspace.WritesOn

namespace TabSet

variable {s t : TabSet} {w v : Workspace μ}

open Workspace

theorem writesOn_loadIn (o : ListingOrder) (s : TabSet) (w : Workspace μ) :
    w.WritesOn (s.loadIn o w).2.2 := by
  unfold loadIn
  split
  · exact .refl w
  · exact .refl w
  · next names =>
    have htaken : ∀ tabs texts, w.WritesOn ((w.addTabs tabs).tell s.sink texts) := by
      intro tabs texts
      have hadded : w.WritesOn (w.addTabs tabs) := .of_journal_eq rfl rfl
      exact hadded.trans (.tell ..)
    unfold loadListed
    simp only
    split
    · exact htaken ..
    · split
      · exact htaken ..
      · exact htaken ..

theorem writesOn_remove (s : TabSet) (w : Workspace μ) (id : TabId) :
    w.WritesOn (s.remove w id).2 := by
  unfold remove
  split
  · exact .refl w
  · exact .tell ..

theorem writesOn_renameTab {old new : String} (h : s.renameTab w old new = (.ok (.ok ()), t, v)) :
    w.WritesOn v := by
  obtain ⟨id, target, d, -, -, -, -, rfl, -⟩ := exists_of_renameTab h
  exact .of_journal_eq rfl rfl

theorem writesOn_deleteMember (o : ListingOrder) (s : TabSet) (w : Workspace μ) (id : TabId)
    (name : String) (build : Option Path) :
    w.WritesOn (s.deleteMember o w id name build).workspace := by
  obtain ⟨r, d, hdelete⟩ := w.delete_cases o id (outputFolders build)
  have hdisk : w.WritesOn (w.setDisk d) := .of_journal_eq rfl rfl
  unfold deleteMember
  rw [hdelete]
  rcases r with f | b
  · exact hdisk
  · cases b with
    | true => exact hdisk.trans (writesOn_remove ..)
    | false =>
      simp only
      split
      · exact hdisk
      · exact hdisk
      · exact hdisk.trans (writesOn_remove ..)

end TabSet

end Sketchbook
