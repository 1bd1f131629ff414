import Sketchbook.Proofs.Disk.Removing

/-!
# Paths that are barred

Whether a path leads to anything can be told unless the way is barred: by a folder that may not be
gone through, or by a name that is too long (`Disk.bars_of_leadsTo`). Everything else that stops a
walk means that there is nothing. Removing entries bars no way: what is barred on a reduced disk was
so before (`Disk.leadsTo_of_reduced`).
-/

namespace Sketchbook

/-- Whether a walk that ends with the fault has been barred, so that it stays open what there is. -/
def Fault.bars : Fault → Bool
  | .denied | .nameTooLong => true
  | _ => false

namespace Disk

variable {d e : Disk} {aim : Aim} {fault : Fault} {p : Path}

/-- Only a walk for writing is refused because of the folder that its path names. -/
theorem ne_isFolder_of_walkVia {onLink : Place → String → List Step → Except Fault Spot}
    (hlink : ∀ folder target rest, onLink folder target rest ≠ .error .isFolder) {here : Place}
    {steps : List Step} (haim : aim ≠ .writing) :
    d.walkVia aim onLink here steps ≠ .error .isFolder := by
  induction steps generalizing here with
  | nil =>
    rw [walkVia.eq_def]
    grind
  | cons step rest ih =>
    rw [walkVia.eq_def]
    simp only [haim, false_and, if_false]
    grind

theorem ne_isFolder_of_walk (haim : aim ≠ .writing) {links : Nat} {here : Place}
    {steps : List Step} : d.walk aim links here steps ≠ .error .isFolder := by
  induction links generalizing here steps with
  | zero => exact ne_isFolder_of_walkVia (by simp) haim
  | succ links ih => exact ne_isFolder_of_walkVia (fun _ _ _ => ih) haim

/-- Where it cannot be told what a path leads to, the way is barred. -/
theorem bars_of_leadsTo {test : Node → Bool} (h : d.leadsTo test p = .error fault) :
    fault.bars = true ∧ d.find .target p = .error fault := by
  have hends : ∀ e, d.find .target p = .error e → e.meansAbsence = false → e.bars = true := by
    intro e hfind habsent
    rcases find_error_cases hfind with ⟨-, rfl⟩ | rfl | ⟨here, steps, hwalk⟩
    · cases habsent
    · cases habsent
    · have hends : e.endsWalk = true := endsWalk_of_walk hwalk
      have hfolder : e ≠ .isFolder := by
        rintro rfl
        exact ne_isFolder_of_walk (by simp) hwalk
      cases e <;> simp_all [Fault.endsWalk, Fault.meansAbsence, Fault.bars]
  unfold leadsTo stat at h
  cases hfind : d.find .target p with
  | error e =>
    simp only [hfind] at h
    split at h
    · cases h
    · next habsent =>
      cases h
      exact ⟨hends fault hfind (by simpa using habsent), rfl⟩
  | ok spot =>
    cases spot with
    | entry place n => simp [hfind] at h
    | vacant folder name => simp [hfind, Fault.meansAbsence] at h
    | lost => simp [hfind] at h

/-- Where the way is barred it cannot be told what a path leads to. -/
theorem leadsTo_of_bars {test : Node → Bool} (hbars : fault.bars = true)
    (h : d.find .target p = .error fault) : d.leadsTo test p = .error fault := by
  unfold leadsTo stat
  cases fault <;> simp_all [Fault.bars, Fault.meansAbsence]

/-! ### Ways on a reduced disk -/

/-- What bars a way on a reduced disk did so before, also behind a link. -/
theorem walkVia_error_of_reduced (hreduced : Reduced d e)
    {onLink before : Place → String → List Step → Except Fault Spot}
    (hlink : ∀ folder target rest, onLink folder target rest = .error fault →
      before folder target rest = .error fault) (hbars : fault.bars = true) {here : Place}
    {steps : List Step} (h : e.walkVia aim onLink here steps = .error fault) :
    d.walkVia aim before here steps = .error fault := by
  have hkept : ∀ {q : Place} {n : Node}, e.node? q = some n → d.node? q = some n :=
    hreduced.node?_of_some
  have hmissing : fault ≠ .missing := by
    rintro rfl
    cases hbars
  induction steps generalizing here with
  | nil =>
    rw [walkVia.eq_def] at h ⊢
    grind
  | cons step rest ih =>
    rw [walkVia.eq_def] at h ⊢
    cases hhere : e.node? here with
    | none => grind
    | some n =>
      simp only [hhere, hkept hhere] at h ⊢
      cases n with
      | file bytes access => exact h
      | link target => exact h
      | folder access =>
        cases step with
        | slash => exact ih h
        | here => grind
        | up => grind
        | down name =>
          cases hnext : e.node? (here ++ [name]) with
          | none => grind
          | some m =>
            simp only [hnext, hkept hnext] at h ⊢
            grind

/-- A path that is barred on a reduced disk was so before. -/
theorem find_error_of_reduced (hreduced : Reduced d e) (hbars : fault.bars = true)
    (h : e.find aim p = .error fault) : d.find aim p = .error fault := by
  have hwalk : ∀ links here steps, e.walk aim links here steps = .error fault →
      d.walk aim links here steps = .error fault := by
    intro links
    induction links with
    | zero => exact fun _ _ => walkVia_error_of_reduced hreduced (fun _ _ _ h => h) hbars
    | succ links ih =>
      exact fun _ _ => walkVia_error_of_reduced hreduced (fun _ _ _ => ih _ _) hbars
  unfold find at h ⊢
  split at h
  · next hnul => rwa [if_pos hnul]
  · next hnul =>
    rw [if_neg hnul]
    split at h
    · next habs =>
      rw [if_pos habs]
      exact hwalk _ _ _ h
    · next habs =>
      rw [if_neg habs, ← hreduced.lost_eq]
      rcases walkLost_cases e.lost p.steps with ⟨taken, heq⟩ | heq | heq
      · rw [heq] at h ⊢
        rw [← hreduced.cwd_eq]
        exact hwalk _ _ _ h
      · cases (heq e aim).symm.trans h
      · exact (heq d aim).trans ((heq e aim).symm.trans h)

/-- If it cannot be told on a reduced disk what a path leads to, it could not be told before. -/
theorem leadsTo_of_reduced {test : Node → Bool} (hreduced : Reduced d e)
    (h : e.leadsTo test p = .error fault) : d.leadsTo test p = .error fault := by
  obtain ⟨hbars, hfind⟩ := bars_of_leadsTo h
  exact leadsTo_of_bars hbars (find_error_of_reduced hreduced hbars hfind)

end Disk

end Sketchbook
