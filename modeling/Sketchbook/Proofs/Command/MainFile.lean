import Sketchbook.Proofs.Command.Steps
import Sketchbook.Proofs.Sketch.Primary
import Sketchbook.Proofs.TabSet.MainFile

/-!
# Runs and the main file

A run neither renames nor deletes the main file. Still it can lose it: the sweep that goes with the
deletion of a tab takes whatever begins with its name, and nothing keeps the build folder apart from
the sketch folder. This is the only way in which the entry of the main file is lost
(`Command.run_keeps_or_sweepsMainFile`).
-/

namespace Sketchbook.Command

variable {order : ListingOrder} {d : Disk} {primary : Path} {request : Request}
  {build : Option Path} {typed : Typed} {place : Place} {n : Node}

/-- The deletion of a tab has been asked for and confirmed, and the sweep that goes with it, on the
disk that the run leaves without the deletion, goes over the main file in this folder. -/
def SweepsMainFile (order : ListingOrder) (d : Disk) (primary : Path) (folder : Place)
    (request : Request) (typed : Typed) : Prop :=
  ∃ name build, request.delete = some name ∧ name ≠ primary.name ∧
    IsConfirmed request.yes typed ∧ resolveBuild d request = .ok (some build) ∧
    (workOn order d primary { request with delete := none } (some build) typed).disk.SweepsOver name
      (buildOutputFolders build) folder primary.name

/-! ### Working on a sketch -/

/-- The set of an absolute main file is for this file. -/
theorem primary_of_ofPrimary {sink : Sink} {accepts : Option String → Bool} {s : TabSet}
    (habs : primary.isAbsolute = true) (h : TabSet.ofPrimary d primary sink accepts = .ok s) :
    s.primary = primary ∧ s.accepts = accepts := by
  unfold TabSet.ofPrimary at h
  rw [d.absolute_of_isAbsolute habs] at h
  simp only at h
  split at h
  · cases h
  · cases h
    exact ⟨rfl, rfl⟩

/-- A run on a sketch leaves the disk as it is, whatever is asked for, or the sketch is loaded from
it and the actions are done on the fresh set. -/
theorem workOn_cases (order : ListingOrder) (d : Disk) (habs : primary.isAbsolute = true)
    (build : Option Path)
    (typed : Typed) :
    (∀ request, (workOn order d primary request build typed).disk = d) ∨
      ∃ t v, TabSet.Fresh t v ∧ t.primary = primary ∧ t.accepts = acceptsSanitary ∧ v.disk = d ∧
        ∀ request, workOn order d primary request build typed =
          act order ⟨t, v, header primary⟩ request build typed := by
  unfold workOn
  cases hset : TabSet.ofPrimary d primary .console acceptsSanitary with
  | error f => exact .inl fun _ => rfl
  | ok s =>
    have hs : s.IsFormed := TabSet.isFormed_of_ofPrimary hset
    obtain ⟨hprimary, haccepts⟩ := primary_of_ofPrimary habs hset
    obtain ⟨files, -, hloaded⟩ :=
      TabSet.exists_loadedAs_loadIn hs order (Workspace.ofDisk d true : Workspace Unit)
    have hdisk := hloaded.disk_eq
    dsimp only
    generalize hload : s.loadIn order (Workspace.ofDisk d true : Workspace Unit) = r at hdisk
    obtain ⟨f | u, t, v⟩ := r
    · refine .inl fun _ => ?_
      simp only [Progress.disk_fail]
      exact hdisk
    · obtain ⟨hfresh, heq⟩ := TabSet.fresh_of_loadIn hs hload
      refine .inr ⟨t, v, hfresh, ?_, ?_, hdisk, fun _ => rfl⟩
      · rw [heq]
        exact hprimary
      · rw [heq]
        exact haccepts

/-- Renaming leaves a main file that is no folder where it is. -/
theorem mainAt_renameTurn {p : Progress} (h : TabSet.Fresh p.set p.workspace)
    (hpolicy : p.set.accepts = acceptsSanitary)
    (hmain : p.workspace.disk.isFolder? p.set.primary = .ok false)
    (hfind : p.workspace.disk.find .entry p.set.primary = .ok (.entry place n))
    (request : Request) :
    (renameTurn p request).disk.node? place = some n ∧
      ∀ ok q, renameTurn p request = .goOn ok q →
        q.set.primary = p.set.primary ∧ TabSet.MainAt q.set q.workspace place n := by
  have hbefore : TabSet.MainAt p.set p.workspace place n := h.toHoused.mainAt hfind
  unfold renameTurn
  split
  · next old new hrename =>
    rcases renameStep_cases p old new with ⟨s, w, hdone, q, hq, rfl, rfl⟩ | ⟨hdisk, hkept⟩
    · have hafter := h.mainAt_renameTab hpolicy hmain hfind hdone
      have hprimary : q.set.primary = p.set.primary := by rw [TabSet.set_eq_of_renameTab hdone]
      rw [hq]
      refine ⟨hafter.node?_eq, fun ok q' hq' => ?_⟩
      cases hq'
      exact ⟨hprimary, hafter⟩
    · refine ⟨by rw [hdisk]; exact hbefore.node?_eq, fun ok q hq => ?_⟩
      obtain ⟨hset, htab⟩ := hkept ok q hq
      rw [hq] at hdisk
      have hnode : q.workspace.disk.node? place = some n := by
        rw [show q.workspace.disk = p.workspace.disk from hdisk]
        exact hbefore.node?_eq
      rw [hset]
      exact ⟨rfl, hbefore.housed.congr htab, hbefore.name_eq, hnode⟩
  · refine ⟨hbefore.node?_eq, fun ok q hq => ?_⟩
    cases hq
    exact ⟨rfl, hbefore⟩

/-- The actions on a sketch that has just been loaded leave its main file where it is, unless they
delete a tab and the sweep that goes with this goes over the main file. -/
theorem node?_act {p : Progress} (h : TabSet.Fresh p.set p.workspace)
    (hpolicy : p.set.accepts = acceptsSanitary)
    (hmain : p.workspace.disk.isFolder? p.set.primary = .ok false)
    (hfind : p.workspace.disk.find .entry p.set.primary = .ok (.entry place n))
    (request : Request) (build : Option Path) (typed : Typed) :
    (act order p request build typed).disk.node? place = some n ∨
      ∃ name, request.delete = some name ∧ name ≠ p.set.primary.name ∧
        IsConfirmed request.yes typed ∧
        (renameTurn p request).disk.SweepsOver name (TabSet.outputFolders build) place.dropLast
          p.set.primary.name := by
  obtain ⟨hrenamed, hgoOn⟩ := mainAt_renameTurn h hpolicy hmain hfind request
  rcases disk_act_cases order p request build typed with hdisk | ⟨name, ok, q, hdelete, hq, hdisk⟩
  · rw [hdisk]
    exact .inl hrenamed
  · obtain ⟨hprimary, hmainAt⟩ := hgoOn ok q hq
    rw [hdisk]
    rcases deleteStep_cases order q name build request.yes typed with
      hkept | ⟨id, hdeletable, hconfirmed, hdeleted⟩
    · rw [hkept]
      exact .inl hmainAt.node?_eq
    · rw [hdeleted]
      rcases hmainAt.node?_deleteMember hdeletable order build with hstill | ⟨hne, hsweeps⟩
      · exact .inl hstill
      · rw [hprimary] at hne hsweeps
        refine .inr ⟨name, hdelete, hne, hconfirmed, ?_⟩
        rw [hq]
        exact hsweeps

/-- A run on a sketch leaves its main file where it is, unless a tab is deleted and the sweep that
goes with this goes over the main file. -/
theorem node?_workOn (habs : primary.isAbsolute = true) (hmain : d.isFolder? primary = .ok false)
    (hfind : d.find .entry primary = .ok (.entry place n)) (request : Request)
    (build : Option Path) (typed : Typed) :
    (workOn order d primary request build typed).disk.node? place = some n ∨
      ∃ name, request.delete = some name ∧ name ≠ primary.name ∧ IsConfirmed request.yes typed ∧
        (workOn order d primary { request with delete := none } build typed).disk.SweepsOver name
          (TabSet.outputFolders build) place.dropLast primary.name := by
  rcases workOn_cases order d habs build typed with hkept | ⟨t, v, hfresh, rfl, hpolicy, rfl, hwork⟩
  · rw [hkept]
    exact .inl (Disk.shows_of_find hfind)
  · have hundeleted :
        (act order ⟨t, v, header t.primary⟩ { request with delete := none } build typed).disk =
          (renameTurn ⟨t, v, header t.primary⟩ request).disk :=
      disk_act_of_delete_eq_none order _ rfl build typed
    rw [hwork, hwork, hundeleted]
    exact node?_act (p := ⟨t, v, header t.primary⟩) hfresh hpolicy hmain hfind request build typed

/-! ### The whole run -/

/-- Where the arguments ask for a sketch that is found, and its main file is there, it is still
where it was after the run, with the same bytes, unless the sweep that goes with the deletion of a
tab goes over it. -/
theorem run_keeps_or_sweepsMainFile {args : List String} {request : Request} {p : Path}
    (hargs : readArguments args = .ok (.work request))
    (hresolve : d.resolve (Path.ofString (sketchText d request)) = .ok p)
    (hprimary : primaryOf d p = .ok (some primary))
    (hfind : d.find .entry primary = .ok (.entry place n)) (order : ListingOrder)
    (typed : Typed) :
    (runIn order d args typed).disk.node? place = some n ∨
      SweepsMainFile order d primary place.dropLast request typed := by
  have hthere : d.node? place = some n := Disk.shows_of_find hfind
  have habs : primary.isAbsolute = true :=
    isAbsolute_of_primaryOf (Disk.isAbsolute_of_resolve hresolve) hprimary
  unfold runIn
  split
  · exact .inl hthere
  · simp only [hargs, work, hresolve, hprimary]
    cases hbuild : resolveBuild d request with
    | error e =>
      simp only [disk_unresolved]
      exact .inl hthere
    | ok build =>
      simp only
      rcases node?_workOn habs (isFolder?_of_primaryOf hprimary) hfind request build typed with
        hkept | ⟨name, hdelete, hne, hconfirmed, hsweeps⟩
      · exact .inl hkept
      · cases build with
        | none =>
          -- without a build folder nothing is swept
          obtain ⟨-, f, hf, -⟩ := hsweeps
          cases hf
        | some b => exact .inr ⟨name, b, hdelete, hne, hconfirmed, hbuild, hsweeps⟩

/-- A disk with the folder `/a.c`, where the name of the main file begins with that of the other
tab. -/
def prefixedDisk : Disk :=
  ((Disk.blank []).placeFile [] ["a.c", "a.c.ino"] [0x78]).placeFile [] ["a.c", "a.c"] []

/-- A tab is deleted with the sketch folder for the build folder, and the main file is gone. -/
theorem run_sweeps_mainFile :
    readArguments ["/a.c", "-y", "-d", "a.c", "-b", "/a.c"] =
        .ok (.work ⟨some "/a.c", some "/a.c", none, some "a.c", true⟩) ∧
      prefixedDisk.resolve (Path.ofString "/a.c") = .ok ⟨.root, ["a.c"]⟩ ∧
      primaryOf prefixedDisk ⟨.root, ["a.c"]⟩ = .ok (some ⟨.root, ["a.c", "a.c.ino"]⟩) ∧
      prefixedDisk.find .entry ⟨.root, ["a.c", "a.c.ino"]⟩ =
        .ok (.entry ["a.c", "a.c.ino"] (.file [0x78] .full)) ∧
      (runIn .asKept prefixedDisk ["/a.c", "-y", "-d", "a.c", "-b", "/a.c"] (.text "")).disk.node?
        ["a.c", "a.c.ino"] = none := by
  decide +kernel

/-- A tab is deleted with another folder for the build folder, and the main file is still there. -/
theorem run_keeps_mainFile :
    readArguments ["/B", "-y", "-d", "a.c", "-b", "/out"] =
        .ok (.work ⟨some "/B", some "/out", none, some "a.c", true⟩) ∧
      (TabSet.blinkOn "none").disk.resolve (Path.ofString "/B") = .ok ⟨.root, ["B"]⟩ ∧
      primaryOf (TabSet.blinkOn "none").disk ⟨.root, ["B"]⟩ =
        .ok (some ⟨.root, ["B", "B.ino"]⟩) ∧
      (TabSet.blinkOn "none").disk.find .entry ⟨.root, ["B", "B.ino"]⟩ =
        .ok (.entry ["B", "B.ino"] (.file [0x78] .full)) ∧
      (runIn .asKept (TabSet.blinkOn "none").disk ["/B", "-y", "-d", "a.c", "-b", "/out"]
        (.text "")).disk.node? ["B", "B.ino"] = some (.file [0x78] .full) := by
  have hargs : readArguments ["/B", "-y", "-d", "a.c", "-b", "/out"] =
      .ok (.work ⟨some "/B", some "/out", none, some "a.c", true⟩) := by decide +kernel
  have hresolve : (TabSet.blinkOn "none").disk.resolve (Path.ofString "/B") =
      .ok ⟨.root, ["B"]⟩ := by decide +kernel
  have hprimary : primaryOf (TabSet.blinkOn "none").disk ⟨.root, ["B"]⟩ =
      .ok (some ⟨.root, ["B", "B.ino"]⟩) := by decide +kernel
  have hfind : (TabSet.blinkOn "none").disk.find .entry ⟨.root, ["B", "B.ino"]⟩ =
      .ok (.entry ["B", "B.ino"] (.file [0x78] .full)) := by decide +kernel
  refine ⟨hargs, hresolve, hprimary, hfind, ?_⟩
  rcases run_keeps_or_sweepsMainFile hargs hresolve hprimary hfind .asKept (.text "") with
    hkept | ⟨name, build, hdelete, -, -, -, hsweeps⟩
  · exact hkept
  · cases hdelete
    have hbegins := hsweeps.isPrefix
    revert hbegins
    decide +kernel

end Sketchbook.Command
