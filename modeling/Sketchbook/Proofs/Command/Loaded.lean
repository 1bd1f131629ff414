import Sketchbook.Proofs.Command.Steps
import Sketchbook.Proofs.TabSet.Journal

/-!
# Runs whose sketch has been loaded

A run on a sketch either loads its tabs and goes on to the actions, or it fails there and then,
with a report and with the disk as it was (`Command.exists_isLoaded_or_failure`). What is reported
on the way is still told when the run ends.
-/

namespace Sketchbook

/-- Loading a set leaves the disk as it is, whatever comes of it. -/
theorem TabSet.disk_loadIn {μ : Type} (o : ListingOrder) (s : TabSet) (w : Workspace μ) :
    (s.loadIn o w).2.2.disk = w.disk := by
  unfold loadIn
  split
  · rfl
  · rfl
  · unfold loadListed
    simp only
    split
    · simp
    · split
      · simp
      · simp

namespace Command

variable {order : ListingOrder} {d : Disk} {primary : Path} {p q : Progress}

/-! ### Reports -/

/-- The text reports an error. -/
def IsReport (text : String) : Prop :=
  "Error: ".toList <+: text.toList

theorem isReport_append (text : String) : IsReport ("Error: " ++ text) := by
  rw [IsReport, String.toList_append]
  exact List.prefix_append ..

/-- An error has been reported on the console. -/
def Progress.HasReported (p : Progress) : Prop :=
  ∃ m ∈ p.workspace.journal, m.sink = .console ∧ IsReport m.text

/-- The outcome tells of an error, in a line of its own, or that the run has been interrupted. -/
def Outcome.Tells (o : Outcome) : Prop :=
  (∃ lines, o.err = TabSet.asText lines ∧ ∃ line ∈ lines, IsReport line) ∨
    "\nCancelled.\n".toList <:+ o.out.toList

/-- The run has failed with the status for this, and tells so. -/
structure Outcome.IsFailure (o : Outcome) : Prop where
  ending_eq : o.ending = .exit 1
  tells : o.Tells

namespace Progress

/-- What has been reported is not taken back. -/
theorem HasReported.writesOn (h : p.HasReported) (hwrites : p.workspace.WritesOn q.workspace) :
    q.HasReported := by
  obtain ⟨m, hm, hreport⟩ := h
  exact ⟨m, hwrites.journal_prefix.subset hm, hreport⟩

theorem writesOn_report (p : Progress) (text : String) :
    p.workspace.WritesOn (p.report text).workspace :=
  .tell ..

/-- Where there is a console a report is written. -/
theorem hasReported_report (h : p.workspace.hasConsole = true) (text : String) :
    (p.report text).HasReported := by
  have hjournal : (p.report text).workspace.journal =
      p.workspace.journal ++ [⟨.console, "Error: " ++ text⟩] := by
    simp [report, Workspace.tell, h]
  refine ⟨⟨.console, "Error: " ++ text⟩, ?_, rfl, isReport_append text⟩
  rw [hjournal]
  exact List.mem_append_right _ (List.mem_singleton_self _)

/-- A run that has reported an error tells of it when it ends. -/
theorem HasReported.tells_finish (h : p.HasReported) (e : Ending) : (p.finish e).Tells := by
  obtain ⟨m, hm, hsink, hreport⟩ := h
  refine .inl ⟨_, rfl, m.text, List.mem_map_of_mem ?_, hreport⟩
  exact List.mem_filter.mpr ⟨hm, by simp [hsink]⟩

theorem isFailure_fail (h : p.workspace.hasConsole = true) (f : Failure) : (p.fail f).IsFailure :=
  ⟨rfl, (hasReported_report h _).tells_finish _⟩

end Progress

/-- A run that fails before a sketch has been found reports this. -/
theorem isFailure_earlyFailure (d : Disk) (text out : String) :
    ({ earlyFailure d text with out := out } : Outcome).IsFailure := by
  refine ⟨rfl, .inl ⟨["Error: " ++ text], ?_, _, List.mem_singleton_self _, isReport_append text⟩⟩
  simp [earlyFailure, TabSet.asText]

/-! ### Loading -/

/-- The sketch with this main file has been loaded, and the run has come no further. -/
structure IsLoaded (order : ListingOrder) (d : Disk) (primary : Path) (p : Progress) : Prop where
  loaded : ∃ s, TabSet.ofPrimary d primary .console acceptsSanitary = .ok s ∧
    s.loadIn order (Workspace.ofDisk d true) = (.ok (), p.set, p.workspace)
  out_eq : p.out = header primary

namespace IsLoaded

variable (h : IsLoaded order d primary p)

include h

theorem disk_eq : p.workspace.disk = d := by
  obtain ⟨s, -, hload⟩ := h.loaded
  have hdisk := TabSet.disk_loadIn order s (Workspace.ofDisk d true : Workspace Unit)
  rw [hload] at hdisk
  exact hdisk

theorem hasConsole_eq : p.workspace.hasConsole = true := by
  obtain ⟨s, -, hload⟩ := h.loaded
  have hwrites := TabSet.writesOn_loadIn order s (Workspace.ofDisk d true : Workspace Unit)
  rw [hload] at hwrites
  exact hwrites.hasConsole_eq

/-- A run whose sketch has been loaded goes on to the actions. -/
theorem workOn_eq (request : Request) (build : Option Path) (typed : Typed) :
    workOn order d primary request build typed = act order p request build typed := by
  obtain ⟨s, hset, hload⟩ := h.loaded
  obtain ⟨set, workspace, out⟩ := p
  obtain rfl : out = header primary := h.out_eq
  simp only [workOn, hset, hload]

end IsLoaded

/-- A run on a sketch loads it, or fails without a change of the disk, whatever is asked for. -/
theorem exists_isLoaded_or_failure (order : ListingOrder) (d : Disk) (primary : Path) :
    (∃ p, IsLoaded order d primary p) ∨ ∃ o : Outcome, o.IsFailure ∧ o.disk = d ∧
      ∀ request build typed, workOn order d primary request build typed = o := by
  cases hset : TabSet.ofPrimary d primary .console acceptsSanitary with
  | error f =>
    refine .inr ⟨_, isFailure_earlyFailure d f.message (header primary), rfl, fun _ _ _ => ?_⟩
    simp only [workOn, hset]
  | ok s =>
    have hdisk := TabSet.disk_loadIn order s (Workspace.ofDisk d true : Workspace Unit)
    have hwrites := TabSet.writesOn_loadIn order s (Workspace.ofDisk d true : Workspace Unit)
    rcases hload : s.loadIn order (Workspace.ofDisk d true : Workspace Unit) with ⟨f | u, t, v⟩
    · rw [hload] at hdisk hwrites
      have hfail : ((⟨t, v, header primary⟩ : Progress).fail f).IsFailure :=
        Progress.isFailure_fail hwrites.hasConsole_eq f
      refine .inr ⟨_, hfail, ?_, fun _ _ _ => ?_⟩
      · rw [Progress.disk_fail]
        exact hdisk
      · simp only [workOn, hset, hload]
    · exact .inl ⟨⟨t, v, header primary⟩, ⟨s, hset, hload⟩, rfl⟩

end Command

end Sketchbook
