import Mathlib.Data.List.Basic
import Mathlib.Data.List.Induction
import Sketchbook.Proofs.Disk.Removing
import Sketchbook.Proofs.Path.EntryName

/-!
# Ways to folders

A walk that may follow more links leads to the same spot (`Disk.Leads.of_le`), and one that may
follow fewer does so too or runs out of links (`Disk.Leads.walk_eq_or`). If entries are removed that
lead to no folder, then every path that leads to a folder still does so
(`Disk.keepsFolders_of_removesOnly`), because no way to a folder goes through such an entry.
-/

namespace Sketchbook.Disk

variable {d e f : Disk} {aim : Aim} {place : Place} {spot : Spot} {p : Path} {name : String}

/-! ### The number of links -/

/-- A walk that leads to a spot does so with more links to follow. -/
theorem Leads.of_le {k l : Nat} {here : Place} {steps : List Step}
    (h : d.Leads aim k here steps spot) (hle : k ≤ l) : d.Leads aim l here steps spot := by
  induction h generalizing l with
  | arrive hn => exact .arrive hn
  | slash hhere _ ih => exact .slash hhere (ih hle)
  | stay hopen _ ih => exact .stay hopen (ih hle)
  | up hopen _ ih => exact .up hopen (ih hle)
  | vacant hopen hname hnone => exact .vacant hopen hname hnone
  | link hopen hname haim hnext => exact .link hopen hname haim hnext
  | follow hopen hname hwriting hnext hfollow _ ih =>
    obtain ⟨more, rfl⟩ := Nat.exists_eq_add_of_lt hle
    exact .follow hopen hname hwriting hnext hfollow (ih (Nat.le_add_right ..))
  | down hopen hname hwriting hnext hn _ ih =>
    exact .down hopen hname hwriting hnext hn (ih hle)

/-- With another number of links a walk leads to the same spot, or it runs out of links. -/
theorem Leads.walk_eq_or {l : Nat} {here : Place} {steps : List Step}
    (h : d.Leads aim l here steps spot) (k : Nat) :
    d.walk aim k here steps = .ok spot ∨ d.walk aim k here steps = .error .linkLoop := by
  induction h generalizing k with
  | arrive hn => exact .inl (walk_eq_ok_iff.mpr (.arrive hn))
  | vacant hopen hname hnone => exact .inl (walk_eq_ok_iff.mpr (.vacant hopen hname hnone))
  | link hopen hname haim hnext =>
    exact .inl (walk_eq_ok_iff.mpr (.link hopen hname haim hnext))
  | slash hhere _ ih =>
    rw [walk_slash hhere]
    exact ih k
  | stay hopen _ ih =>
    obtain ⟨access, hhere, hexecute⟩ := hopen
    rw [walk_here hhere hexecute]
    exact ih k
  | up hopen _ ih =>
    obtain ⟨access, hhere, hexecute⟩ := hopen
    rw [walk_up hhere hexecute]
    exact ih k
  | follow hopen hname hwriting hnext hfollow _ ih =>
    obtain ⟨access, hhere, hexecute⟩ := hopen
    cases k with
    | zero => exact .inr (by simp [walk, walkVia, hhere, hexecute, hname, hwriting, hnext, hfollow])
    | succ k =>
      rw [walk_down_link hhere hexecute hname hwriting hnext hfollow]
      exact ih k
  | down hopen hname hwriting hnext hn _ ih =>
    obtain ⟨access, hhere, hexecute⟩ := hopen
    rw [walk_down hhere hexecute hname hwriting hnext hn]
    exact ih k

/-! ### Entries that lead to a folder, and entries that do not -/

/-- The path of an entry leads to a folder exactly if a folder is found under it. -/
theorem isFolder?_child_iff {n : Node} (hp : d.find .target p = .ok (.entry place n)) :
    d.isFolder? (p.child name) = .ok true ↔
      ∃ inner access, d.find .target (p.child name) = .ok (.entry inner (.folder access)) := by
  obtain ⟨k, -, hwalk⟩ := find_child_eq_walk hp
  unfold isFolder? leadsTo stat
  cases hfind : d.find .target (p.child name) with
  | error fault => cases fault <;> simp [Fault.meansAbsence]
  | ok spot =>
    cases spot with
    | vacant inner last => simp [Fault.meansAbsence]
    | lost =>
      have hnul : holdsNul name = false :=
        (Path.hasNul_child_eq_false_iff.mp (hasNul_of_find hfind)).2
      rw [hwalk (by simp) hnul, walk_eq_ok_iff] at hfind
      exact absurd rfl hfind.ne_lost
    | entry inner node => cases node <;> simp [Node.isFolder]

/-- The entry of this name in the folder leads to a folder, links followed. -/
def EntersFolder (d : Disk) (folder : Place) (name : String) : Prop :=
  ∃ inner access, d.Leads .target maxLinks folder [.down name] (.entry inner (.folder access))

/-- The path of an entry that leads to a folder does so as well, or it runs out of links. -/
theorem EntersFolder.isFolder?_child {n : Node} (h : d.EntersFolder place name)
    (hp : d.find .target p = .ok (.entry place n)) (hdown : Step.ofName name = .down name)
    (hnul : holdsNul name = false) :
    d.isFolder? (p.child name) = .ok true ∨ d.find .target (p.child name) = .error .linkLoop := by
  obtain ⟨k, -, hwalk⟩ := find_child_eq_walk hp
  have hchild := hwalk (by simp : Aim.target ≠ .writing) hnul
  rw [hdown] at hchild
  obtain ⟨inner, access, hleads⟩ := h
  rcases hleads.walk_eq_or k with hok | hloop
  · exact .inl ((isFolder?_child_iff hp).mpr ⟨inner, access, hchild.trans hok⟩)
  · exact .inr (hchild.trans hloop)

/-- The entry at the place is no folder and leads to none. -/
structure IsDeadEnd (d : Disk) (place : Place) : Prop where
  isFolder_eq : ∀ n, d.node? place = some n → n.isFolder = false
  not_entersFolder : ∀ folder name, place = folder ++ [name] → ¬ d.EntersFolder folder name

/-- Every path that leads to a folder on the one disk leads to it on the other. -/
def KeepsFolders (d e : Disk) : Prop :=
  ∀ p place access, d.find .target p = .ok (.entry place (.folder access)) →
    e.find .target p = .ok (.entry place (.folder access))

namespace KeepsFolders

protected theorem refl (d : Disk) : KeepsFolders d d :=
  fun _ _ _ h => h

protected theorem trans (h : KeepsFolders d e) (h' : KeepsFolders e f) : KeepsFolders d f :=
  fun p place access hfind => h' p place access (h p place access hfind)

/-- The path of an entry that leads to a folder on the one disk does so on the other. -/
theorem isFolder?_child {access : Access} (h : KeepsFolders d e)
    (hp : d.find .target p = .ok (.entry place (.folder access)))
    (hchild : d.isFolder? (p.child name) = .ok true) : e.isFolder? (p.child name) = .ok true := by
  obtain ⟨inner, access', hfind⟩ := (isFolder?_child_iff hp).mp hchild
  exact (isFolder?_child_iff (h p place access hp)).mpr ⟨inner, access', h _ _ _ hfind⟩

end KeepsFolders

/-- A walk to a folder goes through no dead end. -/
theorem Leads.not_isDeadEnd {links : Nat} (hle : links ≤ maxLinks) {here inner : Place}
    {access : Access} {rest : List Step}
    (h : d.Leads .target links here (.down name :: rest) (.entry inner (.folder access))) :
    ¬ d.IsDeadEnd (here ++ [name]) := by
  intro hdead
  refine hdead.not_entersFolder here name rfl ?_
  cases rest with
  | nil => exact ⟨inner, access, h.of_le hle⟩
  | cons step rest =>
    have hcut : d.Leads .target links here ([.down name] ++ step :: rest)
        (.entry inner (.folder access)) := h
    obtain ⟨k, folder, access', hfirst, -⟩ := hcut.append_cases (by simp)
    exact ⟨folder, access', hfirst.of_le hle⟩

/-- If only dead ends have been removed a walk leads to the same folder as before. -/
theorem Leads.of_removesOnly (hremoved : RemovesOnly d.IsDeadEnd d e) {links : Nat}
    (hle : links ≤ maxLinks) {here inner : Place} {access : Access} {steps : List Step}
    (h : d.Leads .target links here steps (.entry inner (.folder access))) :
    e.Leads .target links here steps (.entry inner (.folder access)) := by
  have hfolder : ∀ {q : Place} {a : Access}, d.node? q = some (.folder a) →
      e.node? q = some (.folder a) := by
    intro q a hq
    rw [hremoved.node?_of_not fun hdead => ?_, hq]
    have hfile := hdead.isFolder_eq _ hq
    cases hfile
  have hopened : ∀ {q : Place}, d.IsOpen q → e.IsOpen q :=
    fun ⟨a, hq, hexecute⟩ => ⟨a, hfolder hq, hexecute⟩
  generalize hend : Spot.entry inner (.folder access) = found at h
  induction h with
  | arrive hn =>
    cases hend
    exact .arrive (hfolder hn)
  | slash hhere _ ih => exact .slash (hfolder hhere) (ih hle hend)
  | stay hopen _ ih => exact .stay (hopened hopen) (ih hle hend)
  | up hopen _ ih => exact .up (hopened hopen) (ih hle hend)
  | vacant _ _ _ => cases hend
  | link _ _ haim _ => cases haim
  | follow hopen hname hwriting hnext hfollow hrest ih =>
    subst hend
    have hwalk := Leads.follow hopen hname hwriting hnext hfollow hrest
    have hkept := hremoved.node?_of_not (hwalk.not_isDeadEnd hle)
    exact .follow (hopened hopen) hname hwriting (hkept.trans hnext) hfollow
      (ih (Nat.le_of_succ_le hle) rfl)
  | down hopen hname hwriting hnext hn hrest ih =>
    subst hend
    have hwalk := Leads.down hopen hname hwriting hnext hn hrest
    have hkept := hremoved.node?_of_not (hwalk.not_isDeadEnd hle)
    exact .down (hopened hopen) hname hwriting (hkept.trans hnext) hn (ih hle rfl)

/-- If only dead ends have been removed every path to a folder still leads to it. -/
theorem keepsFolders_of_removesOnly (hremoved : RemovesOnly d.IsDeadEnd d e) :
    KeepsFolders d e := by
  intro p place access hfind
  exact find_again hfind hremoved.cwd_eq hremoved.lost_eq (fun heq => by cases heq)
    fun here steps hleads => hleads.of_removesOnly hremoved (Nat.le_refl _)

/-! ### Ways from the root -/

/-- Everything above the place is a folder. -/
def IsGrounded (d : Disk) (place : Place) : Prop :=
  ∀ q, q <+: place → q ≠ place → ∃ access, d.node? q = some (.folder access)

namespace IsGrounded

theorem root (d : Disk) : d.IsGrounded [] :=
  fun _ hq hne => absurd (List.prefix_nil.mp hq) hne

/-- An entry of a folder is grounded as the folder is. -/
theorem concat (h : d.IsGrounded place) (hopen : d.IsOpen place) :
    d.IsGrounded (place ++ [name]) := by
  intro q hq hne
  rcases List.prefix_concat_iff.mp hq with rfl | hq
  · exact absurd rfl hne
  · by_cases heq : q = place
    · obtain ⟨access, hnode, -⟩ := hopen
      exact ⟨access, heq ▸ hnode⟩
    · exact h q hq heq

/-- The place above a grounded one is grounded. -/
theorem dropLast (h : d.IsGrounded place) : d.IsGrounded place.dropLast := by
  intro q hq hne
  refine h q (hq.trans (List.dropLast_prefix place)) ?_
  rintro rfl
  exact hne (hq.eq_of_length_le (by simp))

/-- Above a folder that is grounded there is a folder; above the root there is the root. -/
theorem exists_folder_dropLast {access : Access} (h : d.IsGrounded place)
    (hfolder : d.node? place = some (.folder access)) :
    ∃ above, d.node? place.dropLast = some (.folder above) := by
  by_cases heq : place.dropLast = place
  · exact ⟨access, heq.symm ▸ hfolder⟩
  · exact h _ (List.dropLast_prefix place) heq

end IsGrounded

/-- A walk from a place that is grounded leads to places that are. -/
theorem Leads.isGrounded {links : Nat} {here : Place} {steps : List Step} {n : Node}
    (h : d.Leads aim links here steps (.entry place n)) (hhere : d.IsGrounded here) :
    d.IsGrounded place := by
  generalize hend : Spot.entry place n = spot at h
  induction h with
  | arrive hn =>
    cases hend
    exact hhere
  | slash _ _ ih => exact ih hhere hend
  | stay _ _ ih => exact ih hhere hend
  | up _ _ ih => exact ih hhere.dropLast hend
  | vacant _ _ _ => cases hend
  | link hopen _ _ _ =>
    cases hend
    exact hhere.concat hopen
  | @follow links here name target rest spot hopen _ _ _ _ _ ih =>
    refine ih ?_ hend
    unfold linkStart
    split
    · exact .root d
    · exact hhere
  | down hopen _ _ _ _ _ ih => exact ih (hhere.concat hopen) hend

/-- A single dot and two dots lead from a folder that is grounded to a folder. -/
theorem Leads.exists_folder_of_dots {links : Nat} {folder : Place} {access : Access} {step : Step}
    {n : Node} (h : d.Leads aim links folder [step] (.entry place n))
    (hstep : step = .here ∨ step = .up) (hgrounded : d.IsGrounded folder)
    (hfolder : d.node? folder = some (.folder access)) :
    ∃ a, d.node? place = some (.folder a) := by
  rcases hstep with rfl | rfl
  · cases h with
    | stay _ hrest =>
      cases hrest with
      | arrive _ => exact ⟨access, hfolder⟩
  · cases h with
    | up _ hrest =>
      cases hrest with
      | arrive _ => exact hgrounded.exists_folder_dropLast hfolder

/-- What is removed under an absolute path is an entry that the path names: the path does not end in
a dot, in two dots, or at the root. -/
theorem ofName_name_of_unlink (habs : p.isAbsolute = true) (h : d.unlink p = .ok e) :
    p.parts ≠ [] ∧ Step.ofName p.name = .down p.name := by
  obtain ⟨place, n, hfind, hn, hchange, -⟩ := unlink_cases h
  rw [find_of_isAbsolute habs (hasNul_of_find hfind), Path.steps_of_isAbsolute habs,
    walk_eq_ok_iff] at hfind
  have hfile : ∀ access, d.node? place ≠ some (.folder access) := by
    intro access hfolder
    obtain rfl : n = .folder access := Option.some.inj (hfind.shows.symm.trans hfolder)
    cases hn
  rcases p.parts.eq_nil_or_concat' with hnil | ⟨names, last, hparts⟩
  · rw [hnil] at hfind
    cases hfind with
    | arrive hroot =>
      unfold mayChange at hchange
      split at hchange
      · next access hfolder => exact absurd hfolder (hfile access)
      · cases hchange
  · refine ⟨by simp [hparts], ?_⟩
    have hlast : p.name = last := by simp [Path.name, hparts]
    rw [hparts, List.map_append] at hfind
    obtain ⟨k, folder, access, hfolder, hstep⟩ := hfind.append_cases (by simp)
    rw [hlast]
    rw [List.map_singleton] at hstep
    have hentry : ¬ (Step.ofName last = .here ∨ Step.ofName last = .up) := by
      intro hdots
      obtain ⟨a, ha⟩ :=
        hstep.exists_folder_of_dots hdots (hfolder.isGrounded (.root d)) hfolder.shows
      exact hfile a ha
    rcases Step.ofName_cases last with ⟨-, hhere⟩ | ⟨-, hup⟩ | hdown
    · exact absurd (.inl hhere) hentry
    · exact absurd (.inr hup) hentry
    · exact hdown

end Sketchbook.Disk
