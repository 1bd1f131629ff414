import Sketchbook.Proofs.Command.Loaded

/-!
# How a run ends

A run that fails is to tell so and to end with the status for it. Every run does, whatever the disk,
but for three: the path to the sketch, or that to the build folder, lies in a loop of links, or a
deletion is to be confirmed and no line can be read, because nothing is typed or the input has been
closed (`Command.isFair_run_iff`).
-/

namespace Sketchbook.Command

variable {order : ListingOrder} {d : Disk} {primary : Path} {request : Request}
  {build : Option Path} {typed : Typed} {args : List String} {p q : Progress} {o : Outcome}

/-- The run has succeeded, or it has failed and tells so. -/
def Outcome.IsFair (o : Outcome) : Prop :=
  o.ending = .exit 0 ∨ o.IsFailure

/-- A run that has broken off has done neither. -/
theorem Outcome.not_isFair (h : ∀ status, o.ending ≠ .exit status) : ¬ o.IsFair := by
  rintro (hsuccess | hfailure)
  · exact h 0 hsuccess
  · exact h 1 hfailure.ending_eq

/-! ### The single actions -/

/-- An action that is refused has told why, and so has the run if it ends there. -/
def Turn.TellsWhy (p : Progress) : Turn → Prop
  | .goOn ok q => p.workspace.WritesOn q.workspace ∧ (ok = false → q.HasReported)
  | .stop o => o.IsFailure

/-- Whether a line can be read, be it that the run is interrupted: not if nothing was typed, and not
if the input has been closed. -/
def Typed.canBeRead : Typed → Bool
  | .text s => !s.isEmpty
  | .interrupt => true
  | .closed => false

/-- The tab that is to be deleted may be, this is to be confirmed first, and there is nothing to
be read. -/
structure Progress.AsksInVain (p : Progress) (request : Request) (typed : Typed) : Prop where
  deletable : ∃ name id, request.delete = some name ∧ name.isEmpty = false ∧
    p.set.deletable p.workspace name = .ok id
  yes_eq : request.yes = false
  unreadable : typed.canBeRead = false

section Actions

variable (hconsole : p.workspace.hasConsole = true)

include hconsole

/-- A refusal that is reported is told. -/
theorem tellsWhy_report (text : String) : (Turn.goOn false (p.report text)).TellsWhy p :=
  ⟨p.writesOn_report text, fun _ => Progress.hasReported_report hconsole text⟩

theorem tellsWhy_renameStep (old new : String) : (renameStep p old new).TellsWhy p := by
  unfold renameStep
  rcases p.set.renameTab_cases p.workspace old new with ⟨s, w, hrename⟩ | ⟨r, hr, hkept⟩
  · rw [hrename]
    exact ⟨TabSet.writesOn_renameTab hrename, nofun⟩
  · rw [hkept]
    rcases r with f | refusal | ⟨⟩
    · exact Progress.isFailure_fail hconsole _
    · exact tellsWhy_report hconsole _
    · exact absurd rfl hr

theorem tellsWhy_renameTurn (request : Request) : (renameTurn p request).TellsWhy p := by
  unfold renameTurn
  split
  · exact tellsWhy_renameStep hconsole ..
  · exact ⟨.refl _, nofun⟩

theorem tellsWhy_deleteConfirmed (id : TabId) (name : String) (build : Option Path) :
    (deleteConfirmed order p id name build).TellsWhy p := by
  have hwrites := TabSet.writesOn_deleteMember order p.set p.workspace id name build
  unfold deleteConfirmed
  generalize p.set.deleteMember order p.workspace id name build = r at hwrites ⊢
  obtain ⟨refusal, failure, s, w⟩ := r
  let q : Progress := { p with set := s, workspace := w }
  have hq : q.workspace.hasConsole = true := hwrites.hasConsole_eq.trans hconsole
  have hreported : ∀ text, (q.report text).workspace.hasConsole = true := fun text =>
    (q.writesOn_report text).hasConsole_eq.trans hq
  rcases refusal with - | refusal
  · rcases failure with - | f
    · exact ⟨hwrites, nofun⟩
    · exact Progress.isFailure_fail hq f
  · rcases failure with - | f
    · exact ⟨hwrites.trans (q.writesOn_report _), fun _ => Progress.hasReported_report hq _⟩
    · exact Progress.isFailure_fail (hreported _) f

/-- A deletion tells why it is refused, where it is not asked for in vain. -/
theorem tellsWhy_deleteStep {name : String} {yes : Bool}
    (h : ∀ id, p.set.deletable p.workspace name = .ok id → yes = true ∨ typed.canBeRead = true)
    (build : Option Path) : (deleteStep order p name build yes typed).TellsWhy p := by
  have hdeleted : ∀ (out : String) id,
      (deleteConfirmed order (p.write out) id name build).TellsWhy p := fun out id =>
    tellsWhy_deleteConfirmed (p := p.write out) hconsole id name build
  unfold deleteStep
  split
  · exact tellsWhy_report hconsole _
  · next id hdeletable =>
    split
    · exact tellsWhy_deleteConfirmed hconsole ..
    · next hno =>
      have hread : typed.canBeRead = true := (h id hdeletable).resolve_left hno
      rcases typed with s | - | -
      · have hs : s.isEmpty = false := by simpa [Typed.canBeRead] using hread
        simp only [hs, Bool.false_eq_true, if_false]
        split
        · exact hdeleted ..
        · exact ⟨.refl _, nofun⟩
      · refine ⟨rfl, .inr ?_⟩
        simp only [Progress.finish, Progress.write, String.toList_append]
        exact List.suffix_append ..
      · cases hread

theorem tellsWhy_deleteTurn (h : ¬ p.AsksInVain request typed) (build : Option Path) :
    (deleteTurn order p request build typed).TellsWhy p := by
  unfold deleteTurn
  split
  · next name hdelete =>
    split
    · exact ⟨.refl _, nofun⟩
    · next hname =>
      refine tellsWhy_deleteStep hconsole (fun id hdeletable => ?_) build
      by_contra hvain
      rw [not_or, Bool.not_eq_true, Bool.not_eq_true] at hvain
      rw [Bool.not_eq_true] at hname
      exact h ⟨⟨name, id, hdelete, hname, hdeletable⟩, hvain.1, hvain.2⟩
  · exact ⟨.refl _, nofun⟩

end Actions

/-- A deletion that is asked for in vain breaks the run off. -/
theorem Progress.AsksInVain.deleteTurn_eq (h : p.AsksInVain request typed)
    (order : ListingOrder) (build : Option Path) :
    ∃ o closed, deleteTurn order p request build typed = .stop o ∧
      o.ending = @Ending.endOfInput closed := by
  obtain ⟨⟨name, id, hdelete, hname, hdeletable⟩, hyes, hread⟩ := h
  have hstep : deleteTurn order p request build typed =
      deleteStep order p name build false typed := by simp [deleteTurn, hdelete, hname, hyes]
  rw [hstep, deleteStep, hdeletable]
  rcases typed with s | - | -
  · have hs : s.isEmpty = true := by simpa [Typed.canBeRead] using hread
    exact ⟨_, false, by simp only [hs]; rfl, rfl⟩
  · cases hread
  · exact ⟨_, true, rfl, rfl⟩

/-- A run that shows the tabs at its end is fair if a refused action has been reported. -/
theorem isFair_showTabs {ok : Bool} (h : ok = false → p.HasReported) : (showTabs p ok).IsFair := by
  cases ok with
  | true => exact .inl rfl
  | false =>
    have hreported : (p.write (p.set.table p.workspace)).HasReported := h rfl
    exact .inr ⟨rfl, hreported.tells_finish _⟩

/-! ### The whole run -/

/-- The run of a sketch that has been loaded is fair unless it asks in vain. -/
theorem isFair_act_iff (hconsole : p.workspace.hasConsole = true) :
    (act order p request build typed).IsFair ↔
      ∀ ok q, renameTurn p request = .goOn ok q → ¬ q.AsksInVain request typed := by
  have hrenamed := tellsWhy_renameTurn hconsole request
  rw [act_eq]
  cases hturn : renameTurn p request with
  | stop o =>
    rw [hturn] at hrenamed
    exact ⟨fun _ _ _ => nofun, fun _ => .inr hrenamed⟩
  | goOn ok q =>
    rw [hturn] at hrenamed
    obtain ⟨hwrites, hrefused⟩ := hrenamed
    have hq : q.workspace.hasConsole = true := hwrites.hasConsole_eq.trans hconsole
    by_cases hvain : q.AsksInVain request typed
    · obtain ⟨o, closed, hstop, hending⟩ := hvain.deleteTurn_eq order build
      have hnot : ¬ o.IsFair := Outcome.not_isFair (by simp [hending])
      simp only [Turn.andThen, hstop]
      exact ⟨fun h => absurd h hnot, fun h => absurd hvain (h ok q rfl)⟩
    · refine ⟨fun _ _ _ h => by cases h; exact hvain, fun _ => ?_⟩
      have hdeleted : (deleteTurn order q request build typed).TellsWhy q :=
        tellsWhy_deleteTurn hq hvain build
      simp only [Turn.andThen]
      cases hdelete : deleteTurn order q request build typed with
      | stop o =>
        rw [hdelete] at hdeleted
        exact .inr hdeleted
      | goOn ok₂ r =>
        rw [hdelete] at hdeleted
        exact isFair_showTabs fun h => by
          rcases Bool.and_eq_false_iff.mp h with hok | hok
          · exact (hrefused hok).writesOn hdeleted.1
          · exact hdeleted.2 hok

/-- The ways in which a run breaks off without telling so. -/
inductive BreaksOff (order : ListingOrder) (d : Disk) (request : Request) (typed : Typed) : Prop
  /-- The path to the sketch lies in a loop of links. -/
  | sketchLoop {loop : Path}
    (resolve_eq : d.resolve (Path.ofString (sketchText d request)) = .error (.loop loop))
  /-- The path to the build folder lies in a loop of links. -/
  | buildLoop {primary loop : Path} (finds : Finds d request primary)
    (build_eq : resolveBuild d request = .error (.loop loop))
  /-- A deletion is to be confirmed, and there is nothing to be read. -/
  | asksInVain {primary : Path} {build : Option Path} {p q : Progress} {ok : Bool}
    (finds : Finds d request primary) (build_eq : resolveBuild d request = .ok build)
    (loaded : IsLoaded order d primary p) (renamed : renameTurn p request = .goOn ok q)
    (asks : q.AsksInVain request typed)

/-- A path that cannot be resolved is reported, unless it lies in a loop of links. -/
theorem isFair_unresolved_iff (d : Disk) (e : ResolveFault) :
    (unresolved d e).IsFair ↔ ∀ loop, e ≠ .loop loop := by
  cases e with
  | loop loop =>
    have hnot : ¬ (unresolved d (.loop loop)).IsFair :=
      Outcome.not_isFair fun _ h => by cases h
    exact ⟨fun h => absurd h hnot, fun h => absurd rfl (h loop)⟩
  | nul => exact ⟨fun _ => nofun, fun _ => .inr (isFailure_earlyFailure d _ "")⟩
  | noCurrentFolder => exact ⟨fun _ => nofun, fun _ => .inr (isFailure_earlyFailure d _ "")⟩

/-- A run on a sketch that has been found is fair unless it asks in vain. -/
theorem isFair_workOn_iff (order : ListingOrder) (d : Disk) (primary : Path)
    (request : Request) (build : Option Path) (typed : Typed) :
    (workOn order d primary request build typed).IsFair ↔
      ∀ p ok q, IsLoaded order d primary p → renameTurn p request = .goOn ok q →
        ¬ q.AsksInVain request typed := by
  constructor
  · intro h p ok q hp hrenamed
    rw [hp.workOn_eq, isFair_act_iff hp.hasConsole_eq] at h
    exact h ok q hrenamed
  · intro h
    rcases exists_isLoaded_or_failure order d primary with ⟨p, hp⟩ | ⟨o, hfailure, -, hwork⟩
    · rw [hp.workOn_eq, isFair_act_iff hp.hasConsole_eq]
      exact fun ok q => h p ok q hp
    · rw [hwork]
      exact .inr hfailure

theorem BreaksOff.not_isFair (h : BreaksOff order d request typed) :
    ¬ (work order d request typed).IsFair := by
  cases h with
  | sketchLoop hresolve =>
    simp only [work, hresolve, isFair_unresolved_iff]
    exact fun h => h _ rfl
  | buildLoop hfinds hbuild =>
    obtain ⟨p, hresolve, hprimary⟩ := hfinds
    simp only [work, hresolve, hprimary, hbuild, isFair_unresolved_iff]
    exact fun h => h _ rfl
  | asksInVain hfinds hbuild hloaded hrenamed hasks =>
    rw [hfinds.work_eq order hbuild, isFair_workOn_iff]
    exact fun h => h _ _ _ hloaded hrenamed hasks

/-- A run that gets a request is fair unless it breaks off. -/
theorem isFair_work_iff (order : ListingOrder) (d : Disk) (request : Request) (typed : Typed) :
    (work order d request typed).IsFair ↔ ¬ BreaksOff order d request typed := by
  refine ⟨fun hfair hbreaks => hbreaks.not_isFair hfair, fun h => ?_⟩
  unfold work
  split
  · next e hresolve =>
    rw [isFair_unresolved_iff]
    rintro loop rfl
    exact h (.sketchLoop hresolve)
  · next p hresolve =>
    split
    · exact .inr (isFailure_earlyFailure d _ "")
    · exact .inr (isFailure_earlyFailure d _ "")
    · next primary hprimary =>
      have hfinds : Finds d request primary := ⟨p, hresolve, hprimary⟩
      split
      · next e hbuild =>
        rw [isFair_unresolved_iff]
        rintro loop rfl
        exact h (.buildLoop hfinds hbuild)
      · next build hbuild =>
        rw [isFair_workOn_iff]
        exact fun p ok q hloaded hrenamed hasks =>
          h (.asksInVain hfinds hbuild hloaded hrenamed hasks)

/-- A run whose arguments can be read succeeds, or it fails and tells so, exactly if there is no
current folder or it does not break off on the sketch that it is asked for. -/
theorem isFair_run_iff {asked : Asked} (hargs : readArguments args = .ok asked)
    (order : ListingOrder) (d : Disk) (typed : Typed) :
    (runIn order d args typed).IsFair ↔
      d.lost ≠ 0 ∨ ∀ request, asked = .work request → ¬ BreaksOff order d request typed := by
  unfold runIn
  split
  · next hlost => exact ⟨fun _ => .inl hlost, fun _ => .inr (isFailure_earlyFailure d _ "")⟩
  · next hcurrent =>
    rw [hargs, or_iff_right hcurrent]
    cases asked with
    | help => exact ⟨fun _ => nofun, fun _ => .inl rfl⟩
    | work request =>
      have hasked : (∀ other, Asked.work request = .work other → ¬ BreaksOff order d other typed) ↔
          ¬ BreaksOff order d request typed :=
        ⟨fun h => h request rfl, fun h other heq => by cases heq; exact h⟩
      rw [hasked]
      exact isFair_work_iff order d request typed

/-- A disk with the link `/l`, which leads to itself. -/
def loopDisk : Disk :=
  (Disk.blank []).placeLink [] ["l"] "l"

/-- The link that leads to itself is named as the sketch. -/
theorem not_isFair_run_loop :
    readArguments ["/l"] = .ok (.work ⟨some "/l", none, none, none, false⟩) ∧
      ¬ (runIn .asKept loopDisk ["/l"] (.text "")).IsFair := by
  have hargs : readArguments ["/l"] = .ok (.work ⟨some "/l", none, none, none, false⟩) := by
    decide +kernel
  have hloop : loopDisk.resolve (Path.ofString "/l") = .error (.loop ⟨.root, ["l"]⟩) := by
    decide +kernel
  have hcurrent : loopDisk.lost = 0 := by decide
  refine ⟨hargs, fun hfair => ?_⟩
  rcases (isFair_run_iff hargs .asKept loopDisk (.text "")).mp hfair with hlost | hnot
  · exact hlost hcurrent
  · exact hnot _ rfl (.sketchLoop hloop)

/-- The tab `a.c` is to be deleted, and nothing is typed when this is to be confirmed. -/
theorem not_isFair_run_blink :
    readArguments ["/B", "-d", "a.c"] = .ok (.work ⟨some "/B", none, none, some "a.c", false⟩) ∧
      (runIn .asKept (TabSet.blinkOn "none").disk ["/B", "-d", "a.c"] (.text "")).ending =
        @Ending.endOfInput false ∧
      ¬ (runIn .asKept (TabSet.blinkOn "none").disk ["/B", "-d", "a.c"] (.text "")).IsFair := by
  have hargs : readArguments ["/B", "-d", "a.c"] =
      .ok (.work ⟨some "/B", none, none, some "a.c", false⟩) := by decide +kernel
  have hending : (runIn .asKept (TabSet.blinkOn "none").disk ["/B", "-d", "a.c"]
      (.text "")).ending = @Ending.endOfInput false := by decide +kernel
  exact ⟨hargs, hending, Outcome.not_isFair (by simp [hending])⟩

end Sketchbook.Command
