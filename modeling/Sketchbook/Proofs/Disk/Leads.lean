import Sketchbook.Proofs.Disk.Walk

/-!
# Where walks lead

`Disk.Leads` says rule by rule where a walk ends that does not fail. The walks of a disk follow
these rules (`Disk.walk_eq_ok_iff`), so that what holds of all of them is shown by induction on the
rules. The first such facts are what there is at the end of a walk (`Disk.Leads.shows`), and that a
walk for writing leads where any other walk leads that follows links
(`Disk.find_target_of_writing`).
-/

namespace Sketchbook.Disk

/-- There is a folder at the place that can be gone through. -/
def IsOpen (d : Disk) (place : Place) : Prop :=
  ∃ access, d.node? place = some (.folder access) ∧ access.execute = true

/-- The folder at a place that can be gone through allows this. -/
theorem IsOpen.execute_eq {d : Disk} {place : Place} {access : Access} (h : d.IsOpen place)
    (hnode : d.node? place = some (.folder access)) : access.execute = true := by
  obtain ⟨other, hother, hexecute⟩ := h
  rw [hnode] at hother
  cases hother
  exact hexecute

/-- A walk from a place that follows at most so many links leads to the spot. -/
inductive Leads (d : Disk) (aim : Aim) : Nat → Place → List Step → Spot → Prop
  /-- No step is left. -/
  | arrive {links : Nat} {here : Place} {n : Node} (hn : d.node? here = some n) :
      Leads d aim links here [] (.entry here n)
  | slash {links : Nat} {here : Place} {rest : List Step} {spot : Spot} {access : Access}
      (hhere : d.node? here = some (.folder access)) (h : Leads d aim links here rest spot) :
      Leads d aim links here (.slash :: rest) spot
  | stay {links : Nat} {here : Place} {rest : List Step} {spot : Spot} (hopen : d.IsOpen here)
      (h : Leads d aim links here rest spot) : Leads d aim links here (.here :: rest) spot
  | up {links : Nat} {here : Place} {rest : List Step} {spot : Spot} (hopen : d.IsOpen here)
      (h : Leads d aim links here.dropLast rest spot) : Leads d aim links here (.up :: rest) spot
  /-- The last step goes down where there is nothing. -/
  | vacant {links : Nat} {here : Place} {name : String} (hopen : d.IsOpen here)
      (hname : isOverlong name = false) (hnone : d.node? (here ++ [name]) = none) :
      Leads d aim links here [.down name] (.vacant here name)
  /-- The last step goes down to a link, and the walk is to the link itself. -/
  | link {links : Nat} {here : Place} {name target : String} (hopen : d.IsOpen here)
      (hname : isOverlong name = false) (haim : aim = .entry)
      (hnext : d.node? (here ++ [name]) = some (.link target)) :
      Leads d aim links here [.down name] (.entry (here ++ [name]) (.link target))
  /-- A step goes down to a link, and the walk goes on at its target. -/
  | follow {links : Nat} {here : Place} {name target : String} {rest : List Step} {spot : Spot}
      (hopen : d.IsOpen here) (hname : isOverlong name = false)
      (hwriting : ¬ (aim = .writing ∧ rest = [.slash]))
      (hnext : d.node? (here ++ [name]) = some (.link target))
      (hfollow : ¬ (rest = [] ∧ aim = .entry))
      (h : Leads d aim links (linkStart here target) (linkSteps target ++ rest) spot) :
      Leads d aim (links + 1) here (.down name :: rest) spot
  /-- A step goes down to a file or a folder. -/
  | down {links : Nat} {here : Place} {name : String} {rest : List Step} {spot : Spot} {n : Node}
      (hopen : d.IsOpen here) (hname : isOverlong name = false)
      (hwriting : ¬ (aim = .writing ∧ rest = [.slash]))
      (hnext : d.node? (here ++ [name]) = some n) (hn : ∀ target, n ≠ .link target)
      (h : Leads d aim links (here ++ [name]) rest spot) :
      Leads d aim links here (.down name :: rest) spot

variable {d : Disk} {aim : Aim}

/-! ### Walks follow the rules -/

theorem walkVia_slash_cases {onLink : Place → String → List Step → Except Fault Spot}
    {here : Place} {rest : List Step} {spot : Spot}
    (h : d.walkVia aim onLink here (.slash :: rest) = .ok spot) :
    ∃ access, d.node? here = some (.folder access) ∧ d.walkVia aim onLink here rest = .ok spot := by
  rw [walkVia.eq_def] at h
  grind

theorem walkVia_here_cases {onLink : Place → String → List Step → Except Fault Spot}
    {here : Place} {rest : List Step} {spot : Spot}
    (h : d.walkVia aim onLink here (.here :: rest) = .ok spot) :
    d.IsOpen here ∧ d.walkVia aim onLink here rest = .ok spot := by
  rw [walkVia.eq_def] at h
  grind [IsOpen]

theorem walkVia_up_cases {onLink : Place → String → List Step → Except Fault Spot}
    {here : Place} {rest : List Step} {spot : Spot}
    (h : d.walkVia aim onLink here (.up :: rest) = .ok spot) :
    d.IsOpen here ∧ d.walkVia aim onLink here.dropLast rest = .ok spot := by
  rw [walkVia.eq_def] at h
  grind [IsOpen]

/-- All that a step down can do where a walk does not fail. -/
theorem walkVia_down_cases {onLink : Place → String → List Step → Except Fault Spot} {here : Place}
    {name : String} {rest : List Step} {spot : Spot}
    (h : d.walkVia aim onLink here (.down name :: rest) = .ok spot) :
    d.IsOpen here ∧ isOverlong name = false ∧ ¬ (aim = .writing ∧ rest = [.slash]) ∧
      ((d.node? (here ++ [name]) = none ∧ rest = [] ∧ spot = .vacant here name) ∨
        (∃ target, d.node? (here ++ [name]) = some (.link target) ∧
          ((rest = [] ∧ aim = .entry ∧ spot = .entry (here ++ [name]) (.link target)) ∨
            (¬ (rest = [] ∧ aim = .entry) ∧ onLink here target rest = .ok spot))) ∨
        (∃ n, d.node? (here ++ [name]) = some n ∧ (∀ target, n ≠ .link target) ∧
          d.walkVia aim onLink (here ++ [name]) rest = .ok spot)) := by
  rw [walkVia.eq_def] at h
  simp only [reduceCtorEq, if_false] at h
  split at h
  · cases h
  · next access hhere =>
    split at h
    · cases h
    · next hexecute =>
      split at h
      · cases h
      · next hwriting =>
        split at h
        · cases h
        · next hname =>
          refine ⟨⟨access, hhere, by simpa using hexecute⟩, by simpa using hname, hwriting, ?_⟩
          split at h
          · next hnone =>
            split at h
            · next hrest =>
              cases h
              exact .inl ⟨hnone, List.isEmpty_iff.mp hrest, rfl⟩
            · cases h
          · next target hlink =>
            split at h
            · next hlast =>
              cases h
              exact .inr (.inl ⟨target, hlink, .inl ⟨hlast.1, hlast.2, rfl⟩⟩)
            · next hfollow => exact .inr (.inl ⟨target, hlink, .inr ⟨hfollow, h⟩⟩)
          · next n hlink hnext =>
            exact .inr (.inr ⟨n, hnext, hlink, h⟩)
  · cases h

/-- A walk that does not fail follows the rules, provided that the walks on from its links do. -/
theorem leads_of_walkVia {links : Nat} {onLink : Place → String → List Step → Except Fault Spot}
    (hlink : ∀ folder target rest spot, onLink folder target rest = .ok spot →
      ∃ k, links = k + 1 ∧ d.Leads aim k (linkStart folder target) (linkSteps target ++ rest) spot)
    {here : Place} {steps : List Step} {spot : Spot}
    (h : d.walkVia aim onLink here steps = .ok spot) : d.Leads aim links here steps spot := by
  induction steps generalizing here with
  | nil =>
    rw [walkVia.eq_def] at h
    cases hhere : d.node? here with
    | none => simp [hhere] at h
    | some n =>
      simp only [hhere, Except.ok.injEq] at h
      exact h ▸ .arrive hhere
  | cons step rest ih =>
    cases step with
    | down name =>
      obtain ⟨hopen, hname, hwriting, hcases⟩ := walkVia_down_cases h
      rcases hcases with ⟨hnone, rfl, rfl⟩ | ⟨target, hnext, hcases⟩ | ⟨n, hnext, hn, hdown⟩
      · exact .vacant hopen hname hnone
      · rcases hcases with ⟨rfl, haim, rfl⟩ | ⟨hfollow, hon⟩
        · exact .link hopen hname haim hnext
        · obtain ⟨k, rfl, hleads⟩ := hlink _ _ _ _ hon
          exact .follow hopen hname hwriting hnext hfollow hleads
      · exact .down hopen hname hwriting hnext hn (ih hdown)
    | slash =>
      obtain ⟨access, hhere, hrest⟩ := walkVia_slash_cases h
      exact .slash hhere (ih hrest)
    | here =>
      obtain ⟨hopen, hrest⟩ := walkVia_here_cases h
      exact .stay hopen (ih hrest)
    | up =>
      obtain ⟨hopen, hrest⟩ := walkVia_up_cases h
      exact .up hopen (ih hrest)

theorem leads_of_walk {links : Nat} {here : Place} {steps : List Step} {spot : Spot}
    (h : d.walk aim links here steps = .ok spot) : d.Leads aim links here steps spot := by
  induction links generalizing here steps spot with
  | zero => exact leads_of_walkVia (fun _ _ _ _ hlink => by cases hlink) h
  | succ links ih => exact leads_of_walkVia (fun _ _ _ _ hlink => ⟨links, rfl, ih hlink⟩) h

theorem walk_of_leads {links : Nat} {here : Place} {steps : List Step} {spot : Spot}
    (h : d.Leads aim links here steps spot) : d.walk aim links here steps = .ok spot := by
  induction h with
  | @arrive links here n hn => cases links <;> simp [walk, walkVia, hn]
  | @slash links here rest spot access hhere _ ih =>
    cases links <;> simpa [walk, walkVia, hhere] using ih
  | @stay links here rest spot hopen _ ih =>
    obtain ⟨access, hhere, hexecute⟩ := hopen
    cases links <;> simpa [walk, walkVia, hhere, hexecute] using ih
  | @up links here rest spot hopen _ ih =>
    obtain ⟨access, hhere, hexecute⟩ := hopen
    cases links <;> simpa [walk, walkVia, hhere, hexecute] using ih
  | @vacant links here name hopen hname hnone =>
    obtain ⟨access, hhere, hexecute⟩ := hopen
    cases links <;> simp [walk, walkVia, hhere, hexecute, hname, hnone]
  | @link links here name target hopen hname haim hnext =>
    obtain ⟨access, hhere, hexecute⟩ := hopen
    cases links <;> simp [walk, walkVia, hhere, hexecute, hname, hnext, haim]
  | @follow links here name target rest spot hopen hname hwriting hnext hfollow _ ih =>
    obtain ⟨access, hhere, hexecute⟩ := hopen
    simpa [walk, walkVia, hhere, hexecute, hname, hwriting, hnext, hfollow] using ih
  | @down links here name rest spot n hopen hname hwriting hnext hn _ ih =>
    obtain ⟨access, hhere, hexecute⟩ := hopen
    cases n with
    | link target => exact absurd rfl (hn target)
    | file bytes inner =>
      cases links <;> simpa [walk, walkVia, hhere, hexecute, hname, hwriting, hnext] using ih
    | folder inner =>
      cases links <;> simpa [walk, walkVia, hhere, hexecute, hname, hwriting, hnext] using ih

/-- A walk leads to a spot exactly if the rules say so. -/
theorem walk_eq_ok_iff {links : Nat} {here : Place} {steps : List Step} {spot : Spot} :
    d.walk aim links here steps = .ok spot ↔ d.Leads aim links here steps spot :=
  ⟨leads_of_walk, walk_of_leads⟩

/-! ### What there is at the end of a walk -/

/-- There is at the spot what the spot says: the node of the entry, or nothing under the name. -/
def Shows (d : Disk) : Spot → Prop
  | .entry place n => d.node? place = some n
  | .vacant folder name => d.node? (folder ++ [name]) = none
  | .lost => True

/-- There is at the end of a walk what its spot says. -/
theorem Leads.shows {links : Nat} {here : Place} {steps : List Step} {spot : Spot}
    (h : d.Leads aim links here steps spot) : d.Shows spot := by
  induction h with
  | arrive hn => exact hn
  | vacant _ _ hnone => exact hnone
  | link _ _ _ hnext => exact hnext
  | slash _ _ ih => exact ih
  | stay _ _ ih => exact ih
  | up _ _ ih => exact ih
  | follow _ _ _ _ _ _ ih => exact ih
  | down _ _ _ _ _ _ ih => exact ih

/-- No walk from a place ends in a folder that has been removed. -/
theorem Leads.ne_lost {links : Nat} {here : Place} {steps : List Step} {spot : Spot}
    (h : d.Leads aim links here steps spot) : spot ≠ .lost := by
  induction h with
  | arrive _ => simp
  | vacant _ _ _ => simp
  | link _ _ _ _ => simp
  | slash _ _ ih => exact ih
  | stay _ _ ih => exact ih
  | up _ _ ih => exact ih
  | follow _ _ _ _ _ _ ih => exact ih
  | down _ _ _ _ _ _ ih => exact ih

/-! ### Looking up a path -/

/-- What is found is the folder that has been removed, or a walk leads to it. -/
theorem leads_of_walkLost {levels : Nat} {steps : List Step} {spot : Spot}
    (h : d.walkLost aim levels steps = .ok spot) :
    spot = .lost ∨ ∃ here rest, d.Leads aim maxLinks here rest spot := by
  rcases walkLost_cases levels steps with ⟨taken, heq⟩ | heq | heq
  · rw [heq, walk_eq_ok_iff] at h
    exact .inr ⟨_, _, h⟩
  · exact .inl (Except.ok.inj ((heq d aim).symm.trans h)).symm
  · cases (heq d aim).symm.trans h

theorem leads_of_find {p : Path} {spot : Spot} (h : d.find aim p = .ok spot) :
    spot = .lost ∨ ∃ here rest, d.Leads aim maxLinks here rest spot := by
  unfold find at h
  split at h
  · cases h
  · split at h
    · exact .inr ⟨_, _, walk_eq_ok_iff.mp h⟩
    · exact leads_of_walkLost h

/-- There is at the spot that is found what the spot says. -/
theorem shows_of_find {p : Path} {spot : Spot} (h : d.find aim p = .ok spot) : d.Shows spot := by
  rcases leads_of_find h with rfl | ⟨here, rest, hleads⟩
  · trivial
  · exact hleads.shows

/-! ### Finding the same again -/

section Again

variable {e : Disk} {again : Aim} {spot found : Spot}

theorem walkLost_again {levels : Nat} {steps : List Step}
    (h : d.walkLost aim levels steps = .ok spot) (hcwd : e.cwd = d.cwd)
    (hgone : spot = .lost → found = .lost)
    (hwalk : ∀ here steps, d.Leads aim maxLinks here steps spot →
      e.Leads again maxLinks here steps found) : e.walkLost again levels steps = .ok found := by
  rcases walkLost_cases levels steps with ⟨taken, heq⟩ | heq | heq
  · rw [heq, walk_eq_ok_iff] at h ⊢
    rw [hcwd]
    exact hwalk _ _ h
  · rw [heq, hgone (Except.ok.inj ((heq d aim).symm.trans h)).symm]
  · cases (heq d aim).symm.trans h

/-- If every walk that leads to the one spot leads to the other as well, be it on another disk or
with another aim, then so does every path. -/
theorem find_again {p : Path} (h : d.find aim p = .ok spot) (hcwd : e.cwd = d.cwd)
    (hlost : e.lost = d.lost) (hgone : spot = .lost → found = .lost)
    (hwalk : ∀ here steps, d.Leads aim maxLinks here steps spot →
      e.Leads again maxLinks here steps found) : e.find again p = .ok found := by
  unfold find at h ⊢
  split at h
  · cases h
  · next hnul =>
    rw [if_neg hnul]
    split at h
    · next habs =>
      rw [if_pos habs]
      exact walk_eq_ok_iff.mpr (hwalk _ _ (walk_eq_ok_iff.mp h))
    · next habs =>
      rw [if_neg habs, hlost]
      exact walkLost_again h hcwd hgone hwalk

end Again

/-- A walk for writing that does not fail leads where any walk leads that follows links. -/
theorem Leads.target_of_writing {links : Nat} {here : Place} {steps : List Step} {spot : Spot}
    (h : d.Leads .writing links here steps spot) : d.Leads .target links here steps spot := by
  have haim : ∀ {rest : List Step}, ¬ (Aim.target = .writing ∧ rest = [.slash]) := by simp
  induction h with
  | arrive hn => exact .arrive hn
  | slash hhere _ ih => exact .slash hhere ih
  | stay hopen _ ih => exact .stay hopen ih
  | up hopen _ ih => exact .up hopen ih
  | vacant hopen hname hnone => exact .vacant hopen hname hnone
  | link _ _ haim' _ => cases haim'
  | follow hopen hname _ hnext _ _ ih => exact .follow hopen hname haim hnext (by simp) ih
  | down hopen hname _ hnext hn _ ih => exact .down hopen hname haim hnext hn ih

/-- A path leads a writer where it leads a reader. -/
theorem find_target_of_writing {p : Path} {spot : Spot} (h : d.find .writing p = .ok spot) :
    d.find .target p = .ok spot :=
  find_again h rfl rfl id fun _ _ hleads => hleads.target_of_writing

end Sketchbook.Disk
