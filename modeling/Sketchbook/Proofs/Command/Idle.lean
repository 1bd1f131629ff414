import Sketchbook.Proofs.Command.Loaded
import Sketchbook.Proofs.TabSet.Renaming

/-!
# Runs that ask for nothing

A run looks the sketch up, loads its tabs and shows them, and none of this writes to the disk. So
whatever the disk and the sketch, and however the run ends, the disk is the same afterwards unless
the arguments ask for a tab to be renamed, or for one to be deleted and this is confirmed
(`Command.disk_run_of_asksForNothing`).
-/

namespace Sketchbook.Command

variable {order : ListingOrder} {d : Disk} {request : Request} {args : List String} {typed : Typed}

/-- The request names no tab to be renamed, and none to be deleted or one whose deletion is not
confirmed. -/
structure IsIdle (request : Request) (typed : Typed) : Prop where
  rename_eq : request.rename = none
  delete : request.delete = none ∨ ¬ IsConfirmed request.yes typed

/-- If the arguments ask for a sketch they ask for no more than to see it. -/
def AsksForNothing (args : List String) (typed : Typed) : Prop :=
  ∀ request, readArguments args = .ok (.work request) → IsIdle request typed

/-- The actions of an idle run leave the disk as it is. -/
theorem disk_act_of_isIdle (p : Progress) (h : IsIdle request typed) (build : Option Path) :
    (act order p request build typed).disk = p.workspace.disk := by
  have hrenaming : renameTurn p request = .goOn true p := by
    rw [renameTurn, h.rename_eq]
  rcases disk_act_cases order p request build typed with
    hdisk | ⟨name, ok, q, hdelete, hq, hdisk⟩
  · rw [hdisk, hrenaming]
    rfl
  · rw [hrenaming] at hq
    cases hq
    rw [hdisk]
    rcases deleteStep_cases order p name build request.yes typed with
      hkept | ⟨id, -, hconfirmed, -⟩
    · exact hkept
    · rcases h.delete with hnone | hnot
      · rw [hnone] at hdelete
        cases hdelete
      · exact absurd hconfirmed hnot

/-- An idle run on a sketch that has been found leaves the disk as it is, be it that the sketch
cannot be loaded. -/
theorem disk_workOn_of_isIdle (order : ListingOrder) (d : Disk) (primary : Path)
    (h : IsIdle request typed) (build : Option Path) :
    (workOn order d primary request build typed).disk = d := by
  rcases exists_isLoaded_or_failure order d primary with ⟨p, hp⟩ | ⟨o, -, hdisk, hwork⟩
  · rw [hp.workOn_eq, disk_act_of_isIdle p h, hp.disk_eq]
  · rw [hwork, hdisk]

/-- A run whose arguments ask for nothing leaves the disk as it is, whatever the disk and however
the run ends. -/
theorem disk_run_of_asksForNothing (h : AsksForNothing args typed) (order : ListingOrder)
    (d : Disk) :
    (runIn order d args typed).disk = d := by
  unfold runIn
  split
  · rfl
  · split
    · rfl
    · rfl
    · next request hargs =>
      have hidle : IsIdle request typed := h request hargs
      unfold work
      split
      · exact disk_unresolved ..
      · split
        · rfl
        · rfl
        · split
          · exact disk_unresolved ..
          · exact disk_workOn_of_isIdle order d _ hidle _

/-- A tab is named for deletion, with the sketch folder for the build folder, and the answer is
no. -/
theorem disk_run_declined :
    AsksForNothing ["/B", "-d", "a.c", "-b", "/B"] (.text " No\n") ∧
      (run (TabSet.blinkOn "none").disk ["/B", "-d", "a.c", "-b", "/B"] (.text " No\n")).disk =
        (TabSet.blinkOn "none").disk := by
  have hargs : readArguments ["/B", "-d", "a.c", "-b", "/B"] =
      .ok (.work ⟨some "/B", some "/B", none, some "a.c", false⟩) := by decide +kernel
  have hdeclined : ¬ IsConfirmed false (.text " No\n") := by
    rintro (hyes | ⟨s, heq, hconfirms⟩)
    · cases hyes
    · cases heq
      revert hconfirms
      decide +kernel
  have hnothing : AsksForNothing ["/B", "-d", "a.c", "-b", "/B"] (.text " No\n") := by
    intro request hrequest
    rw [hargs] at hrequest
    cases hrequest
    exact ⟨rfl, .inr hdeclined⟩
  exact ⟨hnothing, disk_run_of_asksForNothing hnothing .asKept _⟩

end Sketchbook.Command
