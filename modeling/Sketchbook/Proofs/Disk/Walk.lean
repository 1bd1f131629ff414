import Sketchbook.Disk.Query

/-!
# The steps and the faults of a walk

What one step does to a walk: it stays in a folder, goes to the one above, into an entry, or on at
the target of a link. A walk from a current folder that has been removed comes to a folder that is
there or stays outside, and which of both is a matter of its steps only (`Disk.astray`).

Of all faults only six end a walk (`Fault.endsWalk`), whatever names and link targets it meets.
In particular a call to a disk is refused for a NUL character exactly if the path itself holds
one (`Disk.find_eq_nulInPath_iff`).
-/

namespace Sketchbook

/-- Whether a walk can end with the fault. -/
def Fault.endsWalk : Fault → Bool
  | .missing | .denied | .notFolder | .isFolder | .nameTooLong | .linkLoop => true
  | .notEmpty | .busy | .intoItself | .nulInPath => false

namespace Disk

variable {d : Disk} {aim : Aim}

/-! ### Single steps -/

/-- After a slash a walk goes on in the same folder. -/
theorem walk_slash {links : Nat} {here : Place} {rest : List Step} {access : Access}
    (hhere : d.node? here = some (.folder access)) :
    d.walk aim links here (.slash :: rest) = d.walk aim links here rest := by
  cases links <;> simp [walk, walkVia, hhere]

/-- After a dot a walk goes on in the same folder. -/
theorem walk_here {links : Nat} {here : Place} {rest : List Step} {access : Access}
    (hhere : d.node? here = some (.folder access)) (hexecute : access.execute = true) :
    d.walk aim links here (.here :: rest) = d.walk aim links here rest := by
  cases links <;> simp [walk, walkVia, hhere, hexecute]

/-- A step up goes on in the folder above. -/
theorem walk_up {links : Nat} {here : Place} {rest : List Step} {access : Access}
    (hhere : d.node? here = some (.folder access)) (hexecute : access.execute = true) :
    d.walk aim links here (.up :: rest) = d.walk aim links here.dropLast rest := by
  cases links <;> simp [walk, walkVia, hhere, hexecute]

/-- A step down to what is no link goes on there. -/
theorem walk_down {links : Nat} {here : Place} {name : String} {rest : List Step}
    {access : Access} {n : Node} (hhere : d.node? here = some (.folder access))
    (hexecute : access.execute = true) (hname : isOverlong name = false)
    (hwriting : ¬ (aim = .writing ∧ rest = [.slash]))
    (hnext : d.node? (here ++ [name]) = some n) (hn : ∀ target, n ≠ .link target) :
    d.walk aim links here (.down name :: rest) = d.walk aim links (here ++ [name]) rest := by
  cases n with
  | link target => exact absurd rfl (hn target)
  | file bytes inner =>
    cases links <;> simp [walk, walkVia, hhere, hexecute, hname, hwriting, hnext]
  | folder inner =>
    cases links <;> simp [walk, walkVia, hhere, hexecute, hname, hwriting, hnext]

/-- A step down to a folder goes on in this folder. -/
theorem walk_down_folder {links : Nat} {here : Place} {name : String} {rest : List Step}
    {access inner : Access} (hhere : d.node? here = some (.folder access))
    (hexecute : access.execute = true) (hname : isOverlong name = false)
    (hwriting : ¬ (aim = .writing ∧ rest = [.slash]))
    (hnext : d.node? (here ++ [name]) = some (.folder inner)) :
    d.walk aim links here (.down name :: rest) = d.walk aim links (here ++ [name]) rest :=
  walk_down hhere hexecute hname hwriting hnext (by simp)

/-- A step down to a link that is followed goes on at its target. -/
theorem walk_down_link {links : Nat} {here : Place} {name target : String} {rest : List Step}
    {access : Access} (hhere : d.node? here = some (.folder access))
    (hexecute : access.execute = true) (hname : isOverlong name = false)
    (hwriting : ¬ (aim = .writing ∧ rest = [.slash]))
    (hnext : d.node? (here ++ [name]) = some (.link target))
    (hfollow : ¬ (rest = [] ∧ aim = .entry)) :
    d.walk aim (links + 1) here (.down name :: rest) =
      d.walk aim links (linkStart here target) (linkSteps target ++ rest) := by
  simp [walk, walkVia, hhere, hexecute, hname, hwriting, hnext, hfollow]

/-- A step down under an over-long name fails. -/
theorem walk_down_overlong {links : Nat} {here : Place} {name : String} {rest : List Step}
    {access : Access} (hhere : d.node? here = some (.folder access))
    (hexecute : access.execute = true) (hname : isOverlong name = true)
    (hwriting : ¬ (aim = .writing ∧ rest = [.slash])) :
    d.walk aim links here (.down name :: rest) = .error .nameTooLong := by
  cases links <;> simp [walk, walkVia, hhere, hexecute, hname, hwriting]

/-! ### Walks from a folder that has been removed -/

/-- Where some steps lead from the current folder if it lies so many levels below one that is there.
It is the same on every disk. -/
inductive Astray (levels : Nat) (steps : List Step) : Prop
  /-- They lead back to the folder that is there, and a walk takes these steps from it. -/
  | back (taken : List Step) (h : ∀ (d : Disk) (aim : Aim) (last : List Step),
      d.walkLost aim levels (steps ++ last) = d.walk aim maxLinks d.cwd (taken ++ last))
  /-- They lead to a folder that has been removed as well. -/
  | out (above : Nat) (h : ∀ (d : Disk) (aim : Aim) (last : List Step),
      d.walkLost aim levels (steps ++ last) = d.walkLost aim (above + 1) last)
  /-- They go down where there is nothing. -/
  | missing (h : ∀ (d : Disk) (aim : Aim) (last : List Step),
      d.walkLost aim levels (steps ++ last) = .error .missing)

/-- Every list of steps leads back, out, or down where there is nothing. -/
theorem astray (levels : Nat) (steps : List Step) : Astray levels steps := by
  induction steps generalizing levels with
  | nil =>
    cases levels with
    | zero => exact .back [] fun d aim last => by cases last <;> rfl
    | succ levels => exact .out levels fun _ _ _ => rfl
  | cons step rest ih =>
    have hstep : ∀ above, (∀ (d : Disk) (aim : Aim) (last : List Step),
        d.walkLost aim levels (step :: (rest ++ last)) = d.walkLost aim above (rest ++ last)) →
        Astray levels (step :: rest) := by
      intro above heq
      cases ih above with
      | back taken h => exact .back taken fun d aim last => (heq d aim last).trans (h d aim last)
      | out k h => exact .out k fun d aim last => (heq d aim last).trans (h d aim last)
      | missing h => exact .missing fun d aim last => (heq d aim last).trans (h d aim last)
    cases levels with
    | zero => exact .back (step :: rest) fun _ _ _ => rfl
    | succ levels =>
      cases step with
      | here => exact hstep (levels + 1) fun _ _ _ => rfl
      | slash => exact hstep (levels + 1) fun _ _ _ => rfl
      | up => exact hstep levels fun _ _ _ => rfl
      | down name => exact .missing fun _ _ _ => rfl

/-- All that a walk from the current folder comes to, whatever disk it is on. -/
theorem walkLost_cases (levels : Nat) (steps : List Step) :
    (∃ taken, ∀ (d : Disk) (aim : Aim),
        d.walkLost aim levels steps = d.walk aim maxLinks d.cwd taken) ∨
      (∀ (d : Disk) (aim : Aim), d.walkLost aim levels steps = .ok .lost) ∨
      ∀ (d : Disk) (aim : Aim), d.walkLost aim levels steps = .error .missing := by
  cases astray levels steps with
  | back taken h => exact .inl ⟨taken, fun d aim => by simpa using h d aim []⟩
  | out above h => exact .inr (.inl fun d aim => by simpa [walkLost] using h d aim [])
  | missing h => exact .inr (.inr fun d aim => by simpa using h d aim [])

/-! ### The faults of a walk -/

/-- If the walks on from its links end with such faults only, so does a walk. -/
theorem endsWalk_of_walkVia {onLink : Place → String → List Step → Except Fault Spot}
    (hlink : ∀ folder target rest e, onLink folder target rest = .error e → e.endsWalk = true)
    {here : Place} {steps : List Step} {e : Fault}
    (h : d.walkVia aim onLink here steps = .error e) : e.endsWalk = true := by
  induction steps generalizing here with
  | nil =>
    rw [walkVia.eq_def] at h
    simp only at h
    split at h
    · cases h
    · cases h; rfl
  | cons step rest ih =>
    rw [walkVia.eq_def] at h
    simp only at h
    split at h
    · cases h; rfl
    · split at h
      · exact ih h
      · split at h
        · cases h; rfl
        · split at h
          · exact ih h
          · exact ih h
          · exact ih h
          · -- the step goes down to an entry of the folder
            split at h
            · cases h; rfl
            · split at h
              · cases h; rfl
              · split at h
                · split at h
                  · cases h
                  · cases h; rfl
                · split at h
                  · cases h
                  · exact hlink _ _ _ _ h
                · exact ih h
    · cases h; rfl

/-- A walk ends with one of the faults of walks. -/
theorem endsWalk_of_walk {links : Nat} {here : Place} {steps : List Step} {e : Fault}
    (h : d.walk aim links here steps = .error e) : e.endsWalk = true := by
  induction links generalizing here steps e with
  | zero =>
    refine endsWalk_of_walkVia (fun _ _ _ e he => ?_) h
    cases he
    rfl
  | succ links ih => exact endsWalk_of_walkVia (fun _ _ _ _ he => ih he) h

/-- Where nothing is found there is nothing to be asked for, or a walk ends with the fault. -/
theorem find_error_cases {p : Path} {e : Fault} (h : d.find aim p = .error e) :
    (p.hasNul = true ∧ e = .nulInPath) ∨ e = .missing ∨
      ∃ here steps, d.walk aim maxLinks here steps = .error e := by
  unfold find at h
  split at h
  · next hnul =>
    cases h
    exact .inl ⟨hnul, rfl⟩
  · split at h
    · exact .inr (.inr ⟨_, _, h⟩)
    · rcases walkLost_cases d.lost p.steps with ⟨taken, heq⟩ | heq | heq
      · exact .inr (.inr ⟨_, _, (heq d aim).symm.trans h⟩)
      · cases (heq d aim).symm.trans h
      · cases (heq d aim).symm.trans h
        exact .inr (.inl rfl)

/-- Looking up a path fails for a NUL character exactly if the path holds one. -/
theorem find_eq_nulInPath_iff {p : Path} :
    d.find aim p = .error .nulInPath ↔ p.hasNul = true := by
  constructor
  · intro h
    rcases find_error_cases h with ⟨hnul, -⟩ | heq | ⟨here, steps, hwalk⟩
    · exact hnul
    · cases heq
    · exact absurd (endsWalk_of_walk hwalk) (by decide)
  · intro h
    rw [find, if_pos h]

/-- Reading a file fails for a NUL character exactly if the path holds one. -/
theorem readFile_eq_nulInPath_iff {p : Path} :
    d.readFile p = .error .nulInPath ↔ p.hasNul = true := by
  rw [← @find_eq_nulInPath_iff d .target p]
  unfold readFile stat
  cases hfind : d.find .target p with
  | error e => simp
  | ok spot =>
    cases spot with
    | entry place node =>
      cases node with
      | file bytes access => simp only; split <;> simp
      | folder access => simp only; split <;> simp
      | link target => simp
    | vacant folder name => simp
    | lost => simp [Access.full]

end Disk

end Sketchbook
