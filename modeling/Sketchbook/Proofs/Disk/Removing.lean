import Sketchbook.Disk.Change
import Sketchbook.Proofs.Disk.Entries
import Sketchbook.Proofs.Disk.Listing

/-!
# What removing entries changes

When entries are removed each place has what it had, or nothing (`Disk.Reduced`). Removing opens no
way: a path that still leads to an entry led to the same entry before (`Disk.find_of_reduced`). And
under the path of an entry that has been removed nothing is found any more, whatever else has been
removed with it (`Disk.exists?_of_gone`). Which entries have been removed is said by
`Disk.RemovesOnly`.
-/

namespace Sketchbook.Disk

variable {d e f : Disk} {aim : Aim} {place : Place} {n : Node} {p : Path}

/-- What is left of a disk when entries have been removed from it: each place has what it had, or
nothing. -/
structure Reduced (d e : Disk) : Prop where
  cwd_eq : e.cwd = d.cwd
  lost_eq : e.lost = d.lost
  node?_eq : ∀ q, e.node? q = d.node? q ∨ e.node? q = none

namespace Reduced

protected theorem refl (d : Disk) : Reduced d d :=
  ⟨rfl, rfl, fun _ => .inl rfl⟩

protected theorem trans (h : Reduced d e) (h' : Reduced e f) : Reduced d f := by
  refine ⟨h'.cwd_eq.trans h.cwd_eq, h'.lost_eq.trans h.lost_eq, fun q => ?_⟩
  rcases h'.node?_eq q with hq | hq
  · rw [hq]
    exact h.node?_eq q
  · exact .inr hq

/-- What there is on the reduced disk there was before. -/
theorem node?_of_some (h : Reduced d e) {q : Place} (hq : e.node? q = some n) :
    d.node? q = some n := by
  rcases h.node?_eq q with heq | hnone
  · rwa [← heq]
  · rw [hnone] at hq
    cases hq

/-- Where there was nothing there is nothing on the reduced disk. -/
theorem node?_of_none (h : Reduced d e) {q : Place} (hq : d.node? q = none) :
    e.node? q = none := by
  rcases h.node?_eq q with heq | hnone
  · rwa [heq]
  · exact hnone

theorem isOpen (h : Reduced d e) {q : Place} (hq : e.IsOpen q) : d.IsOpen q := by
  obtain ⟨access, hnode, hexecute⟩ := hq
  exact ⟨access, h.node?_of_some hnode, hexecute⟩

/-- A folder that could be gone through still can, or it is gone. -/
theorem isOpen_or_none (h : Reduced d e) {q : Place} (hq : d.IsOpen q) :
    e.IsOpen q ∨ e.node? q = none := by
  obtain ⟨access, hnode, hexecute⟩ := hq
  rcases h.node?_eq q with heq | hnone
  · exact .inl ⟨access, heq.trans hnode, hexecute⟩
  · exact .inr hnone

end Reduced

/-- Removing one entry reduces a disk. -/
theorem reduced_erase (d : Disk) (p : Place) : Reduced d (d.erase p) := by
  refine ⟨rfl, rfl, fun q => ?_⟩
  rw [node?_erase]
  split
  · exact .inr rfl
  · exact .inl rfl

/-! ### Walks on a reduced disk -/

/-- A walk that leads to an entry of a reduced disk led there before. -/
theorem Leads.of_reduced (hreduced : Reduced d e) {links : Nat} {here : Place} {steps : List Step}
    (h : e.Leads aim links here steps (.entry place n)) :
    d.Leads aim links here steps (.entry place n) := by
  generalize hend : Spot.entry place n = spot at h
  induction h with
  | arrive hn => exact .arrive (hreduced.node?_of_some hn)
  | slash hhere _ ih => exact .slash (hreduced.node?_of_some hhere) (ih hend)
  | stay hopen _ ih => exact .stay (hreduced.isOpen hopen) (ih hend)
  | up hopen _ ih => exact .up (hreduced.isOpen hopen) (ih hend)
  | vacant _ _ _ => cases hend
  | link hopen hname haim hnext =>
    exact .link (hreduced.isOpen hopen) hname haim (hreduced.node?_of_some hnext)
  | follow hopen hname hwriting hnext hfollow _ ih =>
    exact .follow (hreduced.isOpen hopen) hname hwriting (hreduced.node?_of_some hnext) hfollow
      (ih hend)
  | down hopen hname hwriting hnext hn _ ih =>
    exact .down (hreduced.isOpen hopen) hname hwriting (hreduced.node?_of_some hnext) hn (ih hend)

/-- A path that leads to an entry of a reduced disk led there before. -/
theorem find_of_reduced (hreduced : Reduced d e) (h : e.find aim p = .ok (.entry place n)) :
    d.find aim p = .ok (.entry place n) :=
  find_again h hreduced.cwd_eq.symm hreduced.lost_eq.symm (fun heq => by cases heq)
    fun _ _ hleads => hleads.of_reduced hreduced

/-- A walk finds nothing: an entry on the way is missing, or the last one is. -/
inductive FindsNothing : Except Fault Spot → Prop
  | missing : FindsNothing (.error .missing)
  | vacant (folder : Place) (name : String) : FindsNothing (.ok (.vacant folder name))

/-- A walk from where there is nothing finds nothing. -/
theorem findsNothing_of_none {links : Nat} {here : Place} (hhere : d.node? here = none)
    (steps : List Step) : FindsNothing (d.walk aim links here steps) := by
  have hmissing : d.walk aim links here steps = .error .missing := by
    cases links <;> cases steps <;> simp [walk, walkVia, hhere]
  rw [hmissing]
  exact .missing

/-- A walk that goes down to where there is nothing finds nothing. -/
theorem findsNothing_down {links : Nat} {here : Place} {name : String} {rest : List Step}
    (hopen : d.IsOpen here) (hname : isOverlong name = false) (haim : aim ≠ .writing)
    (hnext : d.node? (here ++ [name]) = none) :
    FindsNothing (d.walk aim links here (.down name :: rest)) := by
  obtain ⟨access, hhere, hexecute⟩ := hopen
  cases rest with
  | nil =>
    have hvacant : d.walk aim links here [.down name] = .ok (.vacant here name) := by
      cases links <;> simp [walk, walkVia, hhere, hexecute, hname, hnext]
    rw [hvacant]
    exact .vacant here name
  | cons step rest =>
    have hmissing : d.walk aim links here (.down name :: step :: rest) = .error .missing := by
      cases links <;> simp [walk, walkVia, hhere, hexecute, hname, haim, hnext]
    rw [hmissing]
    exact .missing

/-- A walk that led to an entry finds nothing once the entry has been removed, be it that links are
followed now. -/
theorem Leads.findsNothing (hreduced : Reduced d e) (hgone : e.node? place = none) {links : Nat}
    {here : Place} {steps : List Step}
    (h : d.Leads .entry links here steps (.entry place n)) :
    FindsNothing (e.walk .target links here steps) := by
  generalize hend : Spot.entry place n = spot at h
  -- a step leads from a folder that is there no more, or the walk goes on as before
  induction h with
  | arrive hn =>
    cases hend
    exact findsNothing_of_none hgone _
  | @slash links here rest spot access hhere _ ih =>
    rcases hreduced.node?_eq here with heq | hnone
    · rw [walk_slash (heq.trans hhere)]
      exact ih hend
    · exact findsNothing_of_none hnone _
  | @stay links here rest spot hopen _ ih =>
    obtain ⟨access, hhere, hexecute⟩ := hopen
    rcases hreduced.node?_eq here with heq | hnone
    · rw [walk_here (heq.trans hhere) hexecute]
      exact ih hend
    · exact findsNothing_of_none hnone _
  | @up links here rest spot hopen _ ih =>
    obtain ⟨access, hhere, hexecute⟩ := hopen
    rcases hreduced.node?_eq here with heq | hnone
    · rw [walk_up (heq.trans hhere) hexecute]
      exact ih hend
    · exact findsNothing_of_none hnone _
  | vacant _ _ _ => cases hend
  | @link links here name target hopen hname _ hnext =>
    cases hend
    rcases hreduced.isOpen_or_none hopen with hopen' | hnone
    · exact findsNothing_down hopen' hname (by simp) hgone
    · exact findsNothing_of_none hnone _
  | @follow links here name target rest spot hopen hname _ hnext _ _ ih =>
    rcases hreduced.isOpen_or_none hopen with hopen' | hnone
    · rcases hreduced.node?_eq (here ++ [name]) with hkept | hremoved
      · obtain ⟨access, hhere, hexecute⟩ := hopen'
        rw [walk_down_link hhere hexecute hname (by simp) (hkept.trans hnext) (by simp)]
        exact ih hend
      · exact findsNothing_down hopen' hname (by simp) hremoved
    · exact findsNothing_of_none hnone _
  | @down links here name rest spot m hopen hname _ hnext hm _ ih =>
    rcases hreduced.isOpen_or_none hopen with hopen' | hnone
    · rcases hreduced.node?_eq (here ++ [name]) with hkept | hremoved
      · obtain ⟨access, hhere, hexecute⟩ := hopen'
        rw [walk_down hhere hexecute hname (by simp) (hkept.trans hnext) hm]
        exact ih hend
      · exact findsNothing_down hopen' hname (by simp) hremoved
    · exact findsNothing_of_none hnone _

/-- Where nothing is found there is nothing. -/
theorem leadsTo_of_findsNothing (test : Node → Bool) (h : FindsNothing (d.find .target p)) :
    d.leadsTo test p = .ok false := by
  unfold leadsTo stat
  generalize d.find .target p = r at h
  cases h with
  | missing => rfl
  | vacant folder name => rfl

/-- Once an entry has been removed there is nothing under its absolute path. -/
theorem exists?_of_gone (habs : p.isAbsolute = true) (h : d.find .entry p = .ok (.entry place n))
    (hreduced : Reduced d e) (hgone : e.node? place = none) : e.exists? p = .ok false := by
  have hnul : p.hasNul = false := hasNul_of_find h
  refine leadsTo_of_findsNothing _ ?_
  rw [find_of_isAbsolute habs hnul] at h ⊢
  exact (walk_eq_ok_iff.mp h).findsNothing hreduced hgone

/-- Once an entry has been removed the path of its folder leads to none of its name. -/
theorem not_hasEntry_of_gone {folder : Place} {access : Access} {name : String}
    (h : d.find .target p = .ok (.entry folder (.folder access))) (hreduced : Reduced d e)
    (hgone : e.node? (folder ++ [name]) = none) : ¬ e.HasEntry p name := by
  rintro ⟨folder', access', hfind, hsome⟩
  have hbefore := find_of_reduced hreduced hfind
  rw [h] at hbefore
  cases hbefore
  rw [hgone] at hsome
  cases hsome

/-! ### Removing one entry -/

/-- Whether an entry that is no folder can be removed is a matter of its folder. -/
theorem unlink_of_find (h : d.find .entry p = .ok (.entry place n)) (hn : n.isFolder = false) :
    d.unlink p = if d.mayChange place.dropLast then .ok (d.erase place) else .error .denied := by
  cases n with
  | folder access => cases hn
  | file bytes access => simp [unlink, h]
  | link target => simp [unlink, h]

/-- What is removed is an entry that is no folder, in a folder that may be changed. -/
theorem unlink_cases (h : d.unlink p = .ok e) :
    ∃ place n, d.find .entry p = .ok (.entry place n) ∧ n.isFolder = false ∧
      d.mayChange place.dropLast = true ∧ e = d.erase place := by
  cases hfind : d.find .entry p with
  | error fault => simp [unlink, hfind] at h
  | ok spot =>
    cases spot with
    | vacant folder name => simp [unlink, hfind] at h
    | lost => simp [unlink, hfind] at h
    | entry place n =>
      by_cases hn : n.isFolder = true
      · cases n with
        | folder access => simp [unlink, hfind] at h
        | file bytes access => cases hn
        | link target => cases hn
      · rw [Bool.not_eq_true] at hn
        rw [unlink_of_find hfind hn] at h
        split at h
        · next hchange =>
          cases h
          exact ⟨place, n, rfl, hn, hchange, rfl⟩
        · cases h

/-- Removing an entry fails for a NUL character exactly if the path holds one. -/
theorem unlink_eq_nulInPath_iff : d.unlink p = .error .nulInPath ↔ p.hasNul = true := by
  rw [← @find_eq_nulInPath_iff d .entry p]
  unfold unlink
  cases hfind : d.find .entry p with
  | error e => simp
  | ok spot =>
    cases spot with
    | entry place node =>
      cases node with
      | folder access => simp
      | file bytes access => simp only; split <;> simp
      | link target => simp only; split <;> simp
    | vacant folder name => simp
    | lost => simp

/-! ### Which entries are removed -/

/-- Entries have been removed from a disk, all of them at places that pass the test. -/
structure RemovesOnly (test : Place → Prop) (d e : Disk) : Prop extends Reduced d e where
  passes : ∀ q, d.node? q ≠ none → e.node? q = none → test q

namespace RemovesOnly

variable {test other : Place → Prop}

protected theorem refl (test : Place → Prop) (d : Disk) : RemovesOnly test d d :=
  ⟨.refl d, fun _ hsome hnone => absurd hnone hsome⟩

protected theorem trans (h : RemovesOnly test d e) (h' : RemovesOnly test e f) :
    RemovesOnly test d f := by
  refine ⟨h.toReduced.trans h'.toReduced, fun q hsome hnone => ?_⟩
  by_cases hgone : e.node? q = none
  · exact h.passes q hsome hgone
  · exact h'.passes q hgone hnone

protected theorem mono (h : RemovesOnly test d e) (himp : ∀ q, test q → other q) :
    RemovesOnly other d e :=
  ⟨h.toReduced, fun q hsome hnone => himp q (h.passes q hsome hnone)⟩

/-- What does not pass the test is still there. -/
theorem node?_of_not (h : RemovesOnly test d e) {q : Place} (hq : ¬ test q) :
    e.node? q = d.node? q := by
  rcases h.node?_eq q with heq | hnone
  · exact heq
  · cases hsome : d.node? q with
    | none => exact hnone
    | some n => exact absurd (h.passes q (by simp [hsome]) hnone) hq

end RemovesOnly

/-- The path of an entry that is no folder leads to this place. -/
def NamesEntry (d : Disk) (p : Path) (place : Place) : Prop :=
  ∃ n, d.find .entry p = .ok (.entry place n) ∧ n.isFolder = false

/-- An entry that a path names on a reduced disk it named before. -/
theorem NamesEntry.of_reduced (hreduced : Reduced d e) (h : e.NamesEntry p place) :
    d.NamesEntry p place := by
  obtain ⟨n, hfind, hn⟩ := h
  exact ⟨n, find_of_reduced hreduced hfind, hn⟩

/-- Removing an entry removes the one that the path names. -/
theorem removesOnly_unlink (h : d.unlink p = .ok e) : RemovesOnly (d.NamesEntry p) d e := by
  obtain ⟨place, n, hfind, hn, -, rfl⟩ := unlink_cases h
  refine ⟨reduced_erase d place, fun q hsome hnone => ?_⟩
  rw [node?_erase] at hnone
  split at hnone
  · next heq =>
    rw [heq]
    exact ⟨n, hfind, hn⟩
  · exact absurd hnone hsome

end Sketchbook.Disk
