import Sketchbook.Proofs.Disk.Leads
import Sketchbook.Proofs.Disk.Walk

/-!
# Paths to the entries of a folder

A path that ends in a name leads where its folder leads, and from there one step down. This holds
in both directions: what is found under the path is the spot of the name in the folder
(`Disk.find_child_cases`), and this spot is found if the folder can be gone through
(`Disk.find_child`). A path to an
entry that is no link leads to this entry also if links are followed (`Disk.find_target_of_entry`).
-/

namespace Sketchbook

/-- The steps to an entry are those along the names of its folder, and one more. -/
theorem Path.steps_child (p : Path) (n : String) :
    (p.child n).steps = p.parts.map Step.ofName ++ [Step.ofName n] := by
  simp [steps, child]

/-- The steps of an absolute path are those along its names. -/
theorem Path.steps_of_isAbsolute {p : Path} (h : p.isAbsolute = true) :
    p.steps = p.parts.map Step.ofName := by
  have hanchor : p.anchor ≠ .current := by simpa [isAbsolute] using h
  simp [steps, hanchor]

/-- A path holds a NUL character if its folder or its name does. -/
theorem Path.hasNul_child (p : Path) (n : String) :
    (p.child n).hasNul = (p.hasNul || holdsNul n) := by
  simp [hasNul, child]

theorem Path.hasNul_child_eq_false_iff {p : Path} {n : String} :
    (p.child n).hasNul = false ↔ p.hasNul = false ∧ holdsNul n = false := by
  rw [hasNul_child, Bool.or_eq_false_iff]

namespace Disk

variable {d : Disk} {aim : Aim} {name : String} {p : Path} {spot : Spot}

/-- The spot of a name in a folder: the entry of this name, or else the vacancy. -/
def spotIn (d : Disk) (folder : Place) (name : String) : Spot :=
  match d.node? (folder ++ [name]) with
  | some n => .entry (folder ++ [name]) n
  | none => .vacant folder name

theorem spotIn_of_none {folder : Place} (h : d.node? (folder ++ [name]) = none) :
    d.spotIn folder name = .vacant folder name := by
  simp [spotIn, h]

theorem spotIn_of_some {folder : Place} {n : Node} (h : d.node? (folder ++ [name]) = some n) :
    d.spotIn folder name = .entry (folder ++ [name]) n := by
  simp [spotIn, h]

/-- If the spot of a name is an entry, it is the one at the place under the name. -/
theorem spotIn_eq_entry_iff {folder place : Place} {n : Node} :
    d.spotIn folder name = .entry place n ↔
      place = folder ++ [name] ∧ d.node? (folder ++ [name]) = some n := by
  cases h : d.node? (folder ++ [name]) with
  | none => simp [spotIn_of_none h]
  | some m =>
    rw [spotIn_of_some h, Spot.entry.injEq, Option.some.injEq]
    exact and_congr_left fun _ => eq_comm

/-! ### One more step down -/

/-- A walk that leads to a place goes on from there, with the links that are left to it. How many
these are is a matter of the way there only. -/
theorem Leads.walk_concat {links : Nat} {here place : Place} {steps : List Step} {n : Node}
    (h : d.Leads .target links here steps (.entry place n)) :
    ∃ k ≤ links, ∀ {aim : Aim} {last : List Step}, aim ≠ .writing → last ≠ [] →
      d.walk aim links here (steps ++ last) = d.walk aim k place last := by
  have hwriting : ∀ {aim : Aim} {rest : List Step}, aim ≠ .writing →
      ¬ (aim = .writing ∧ rest = [.slash]) := fun haim hw => haim hw.1
  generalize hend : Spot.entry place n = found at h
  induction h with
  | arrive hn =>
    cases hend
    exact ⟨_, Nat.le_refl _, fun _ _ => rfl⟩
  | slash hhere _ ih =>
    obtain ⟨k, hle, hk⟩ := ih hend
    exact ⟨k, hle, fun haim hlast => (walk_slash hhere).trans (hk haim hlast)⟩
  | stay hopen _ ih =>
    obtain ⟨access, hhere, hexecute⟩ := hopen
    obtain ⟨k, hle, hk⟩ := ih hend
    exact ⟨k, hle, fun haim hlast => (walk_here hhere hexecute).trans (hk haim hlast)⟩
  | up hopen _ ih =>
    obtain ⟨access, hhere, hexecute⟩ := hopen
    obtain ⟨k, hle, hk⟩ := ih hend
    exact ⟨k, hle, fun haim hlast => (walk_up hhere hexecute).trans (hk haim hlast)⟩
  | vacant hopen hname hnone => cases hend
  | link hopen hname htarget hnext => cases htarget
  | @follow links here name target rest found hopen hname _ hnext _ _ ih =>
    obtain ⟨access, hhere, hexecute⟩ := hopen
    obtain ⟨k, hle, hk⟩ := ih hend
    refine ⟨k, Nat.le_succ_of_le hle, fun {aim last} haim hlast => ?_⟩
    have hfollow : ¬ (rest ++ last = [] ∧ aim = .entry) :=
      fun hnil => hlast (List.append_eq_nil_iff.mp hnil.1).2
    refine (walk_down_link hhere hexecute hname (hwriting haim) hnext hfollow).trans ?_
    rw [← List.append_assoc]
    exact hk haim hlast
  | down hopen hname _ hnext hn _ ih =>
    obtain ⟨access, hhere, hexecute⟩ := hopen
    obtain ⟨k, hle, hk⟩ := ih hend
    exact ⟨k, hle, fun haim hlast =>
      (walk_down hhere hexecute hname (hwriting haim) hnext hn).trans (hk haim hlast)⟩

/-- A step down to an entry that is not followed leads to the spot of its name. -/
theorem walk_down_entry (links : Nat) {folder : Place} (hopen : d.IsOpen folder)
    (hname : isOverlong name = false) :
    d.walk .entry links folder [.down name] = .ok (d.spotIn folder name) := by
  rw [walk_eq_ok_iff]
  cases hnode : d.node? (folder ++ [name]) with
  | none =>
    rw [spotIn_of_none hnode]
    exact .vacant hopen hname hnode
  | some n =>
    rw [spotIn_of_some hnode]
    cases n with
    | link target => exact .link hopen hname rfl hnode
    | file bytes access => exact .down hopen hname (by simp) hnode (by simp) (.arrive hnode)
    | folder access => exact .down hopen hname (by simp) hnode (by simp) (.arrive hnode)

/-- A walk with a step to go starts in a folder. -/
theorem Leads.exists_folder {links : Nat} {here : Place} {steps : List Step}
    (h : d.Leads aim links here steps spot) (hsteps : steps ≠ []) :
    ∃ access, d.node? here = some (.folder access) := by
  have hopen : d.IsOpen here → ∃ access, d.node? here = some (.folder access) :=
    fun ⟨access, hhere, _⟩ => ⟨access, hhere⟩
  cases h with
  | arrive _ => exact absurd rfl hsteps
  | slash hhere _ => exact ⟨_, hhere⟩
  | stay h _ => exact hopen h
  | up h _ => exact hopen h
  | vacant h _ _ => exact hopen h
  | link h _ _ _ => exact hopen h
  | follow h _ _ _ _ _ => exact hopen h
  | down h _ _ _ _ _ => exact hopen h

/-- A walk with steps after others leads along these others to a folder, with links followed, and
goes on from there with the links that are left to it. -/
theorem Leads.append_cases {links : Nat} {here : Place} {steps last : List Step}
    (h : d.Leads aim links here (steps ++ last) spot) (hlast : last ≠ []) :
    ∃ k folder access, d.Leads .target links here steps (.entry folder (.folder access)) ∧
      d.Leads aim k folder last spot := by
  have hwriting : ∀ rest : List Step, ¬ (Aim.target = .writing ∧ rest = [.slash]) := by simp
  have hnil : ∀ {links : Nat} {here : Place} {all : List Step} {spot : Spot},
      [] ++ last = all → d.Leads aim links here all spot → ∃ k folder access,
        d.Leads .target links here [] (.entry folder (.folder access)) ∧
          d.Leads aim k folder last spot := by
    rintro links here all spot rfl h
    obtain ⟨access, hhere⟩ := h.exists_folder hlast
    exact ⟨links, here, access, .arrive hhere, h⟩
  have hshort : ∀ {step name : Step} {steps : List Step}, (name :: steps) ++ last ≠ [step] :=
    fun hall => hlast (List.append_eq_nil_iff.mp (List.cons.inj hall).2).2
  generalize hall : steps ++ last = all at h
  induction h generalizing steps with
  | arrive hn => exact absurd (List.append_eq_nil_iff.mp hall).2 hlast
  | slash hhere hrest ih =>
    cases steps with
    | nil => exact hnil hall (.slash hhere hrest)
    | cons step steps =>
      cases hall
      obtain ⟨k, folder, access, hleads, hgoOn⟩ := ih rfl
      exact ⟨k, folder, access, .slash hhere hleads, hgoOn⟩
  | stay hopen hrest ih =>
    cases steps with
    | nil => exact hnil hall (.stay hopen hrest)
    | cons step steps =>
      cases hall
      obtain ⟨k, folder, access, hleads, hgoOn⟩ := ih rfl
      exact ⟨k, folder, access, .stay hopen hleads, hgoOn⟩
  | up hopen hrest ih =>
    cases steps with
    | nil => exact hnil hall (.up hopen hrest)
    | cons step steps =>
      cases hall
      obtain ⟨k, folder, access, hleads, hgoOn⟩ := ih rfl
      exact ⟨k, folder, access, .up hopen hleads, hgoOn⟩
  | vacant hopen hname hnone =>
    cases steps with
    | nil => exact hnil hall (.vacant hopen hname hnone)
    | cons step steps => exact absurd hall hshort
  | link hopen hname haim hnext =>
    cases steps with
    | nil => exact hnil hall (.link hopen hname haim hnext)
    | cons step steps => exact absurd hall hshort
  | follow hopen hname hnot hnext hfollow hrest ih =>
    cases steps with
    | nil => exact hnil hall (.follow hopen hname hnot hnext hfollow hrest)
    | cons step steps =>
      cases hall
      obtain ⟨k, folder, access, hleads, hgoOn⟩ := ih (List.append_assoc ..)
      exact ⟨k, folder, access, .follow hopen hname (hwriting _) hnext (by simp) hleads, hgoOn⟩
  | down hopen hname hnot hnext hn hrest ih =>
    cases steps with
    | nil => exact hnil hall (.down hopen hname hnot hnext hn hrest)
    | cons step steps =>
      cases hall
      obtain ⟨k, folder, access, hleads, hgoOn⟩ := ih rfl
      exact ⟨k, folder, access, .down hopen hname (hwriting _) hnext hn hleads, hgoOn⟩

/-- A step down that does not fail leads to the spot of the name, if links are not followed. -/
theorem leads_down_entry_cases {links : Nat} {folder : Place}
    (h : d.Leads .entry links folder [.down name] spot) :
    d.IsOpen folder ∧ isOverlong name = false ∧ spot = d.spotIn folder name := by
  cases h with
  | vacant hopen hname hnone => exact ⟨hopen, hname, (spotIn_of_none hnone).symm⟩
  | link hopen hname _ hnext => exact ⟨hopen, hname, (spotIn_of_some hnext).symm⟩
  | follow _ _ _ _ hfollow _ => exact absurd ⟨rfl, rfl⟩ hfollow
  | down hopen hname _ hnext hn hrest =>
    cases hrest with
    | arrive hnode => exact ⟨hopen, hname, (spotIn_of_some hnode).symm⟩

/-- A walk to an entry leads to a folder first, which can be gone through, and from there to the
spot of the name. -/
theorem leads_concat_down {links : Nat} {here : Place} {steps : List Step}
    (h : d.Leads .entry links here (steps ++ [.down name]) spot) :
    ∃ folder access, d.Leads .target links here steps (.entry folder (.folder access)) ∧
      access.execute = true ∧ isOverlong name = false ∧ spot = d.spotIn folder name := by
  obtain ⟨k, folder, access, hleads, hdown⟩ := h.append_cases (by simp)
  obtain ⟨hopen, hname, hspot⟩ := leads_down_entry_cases hdown
  exact ⟨folder, access, hleads, hopen.execute_eq hleads.shows, hname, hspot⟩

/-! ### Looking up an entry -/

/-- A path under which something is found holds no NUL character. -/
theorem hasNul_of_find (h : d.find aim p = .ok spot) : p.hasNul = false := by
  cases hnul : p.hasNul with
  | false => rfl
  | true =>
    rw [find_eq_nulInPath_iff.mpr hnul] at h
    cases h

/-- A path that leads to a node holds no NUL character. -/
theorem hasNul_of_stat {n : Node} (h : d.stat p = .ok n) : p.hasNul = false := by
  cases hfind : d.find .target p with
  | ok spot => exact hasNul_of_find hfind
  | error e =>
    rw [stat, hfind] at h
    cases h

/-- What is asked about a path is told by the node that is found. -/
theorem leadsTo_of_find {test : Node → Bool} {place : Place} {n : Node}
    (h : d.find .target p = .ok (.entry place n)) : d.leadsTo test p = .ok (test n) := by
  simp [leadsTo, stat, h]

/-- An absolute path is walked from the root. -/
theorem find_of_isAbsolute (habs : p.isAbsolute = true) (hnul : p.hasNul = false) :
    d.find aim p = d.walk aim maxLinks [] p.steps := by
  rw [find, hnul, if_neg Bool.false_ne_true, if_pos habs]

/-- A relative path is walked from the current folder. -/
theorem find_of_not_isAbsolute (habs : p.isAbsolute = false) (hnul : p.hasNul = false) :
    d.find aim p = d.walkLost aim d.lost p.steps := by
  rw [find, hnul, habs, if_neg Bool.false_ne_true, if_neg Bool.false_ne_true]

/-- What a dot leads to is the current folder. -/
theorem walkLost_of_here {levels : Nat} {place : Place} {n : Node}
    (h : d.walkLost .target levels [.here] = .ok (.entry place n)) :
    d.walkLost .target levels [] = .ok (.entry place n) := by
  cases levels with
  | zero =>
    cases walk_eq_ok_iff.mp h with
    | stay _ hrest => exact walk_eq_ok_iff.mpr hrest
  | succ levels => exact h

/-- If the current folder is there and can be gone through, it can be stayed in. -/
theorem walkLost_here {levels : Nat} {folder : Place} {access : Access}
    (h : d.walkLost aim levels [] = .ok (.entry folder (.folder access)))
    (hexecute : access.execute = true) :
    d.walkLost aim levels [.here] = .ok (.entry folder (.folder access)) := by
  cases levels with
  | zero =>
    have hleads : d.Leads aim maxLinks d.cwd [] (.entry folder (.folder access)) :=
      walk_eq_ok_iff.mp h
    have hopen : d.IsOpen d.cwd := by
      cases hleads with
      | arrive hnode => exact ⟨access, hnode, hexecute⟩
    exact walk_eq_ok_iff.mpr (.stay hopen hleads)
  | succ levels => cases h

/-- A walk to an entry from the current folder, be it there or not, leads to the folder of the
entry first. -/
theorem walkLost_concat_down {levels : Nat} {steps : List Step}
    (h : d.walkLost .entry levels (steps ++ [.down name]) = .ok spot) :
    ∃ folder access, d.walkLost .target levels steps = .ok (.entry folder (.folder access)) ∧
      access.execute = true ∧ isOverlong name = false ∧ spot = d.spotIn folder name := by
  cases astray levels steps with
  | back taken heq =>
    rw [heq, walk_eq_ok_iff] at h
    obtain ⟨folder, access, hleads, hlast⟩ := leads_concat_down h
    have hfolder : d.walkLost .target levels steps = d.walk .target maxLinks d.cwd taken := by
      simpa using heq d .target []
    exact ⟨folder, access, hfolder.trans (walk_eq_ok_iff.mpr hleads), hlast⟩
  | out above heq =>
    rw [heq] at h
    cases h
  | missing heq =>
    rw [heq] at h
    cases h

/-- The spot that is found under the path of an entry is that of its name in the folder that the
path without it leads to. -/
theorem find_child_cases (hdown : Step.ofName name = .down name)
    (h : d.find .entry (p.child name) = .ok spot) :
    ∃ folder access, d.find .target p = .ok (.entry folder (.folder access)) ∧
      access.execute = true ∧ isOverlong name = false ∧ spot = d.spotIn folder name := by
  have hchild : (p.child name).hasNul = false := hasNul_of_find h
  have hp : p.hasNul = false := (Path.hasNul_child_eq_false_iff.mp hchild).1
  cases habs : p.isAbsolute with
  | true =>
    rw [find_of_isAbsolute (p := p.child name) habs hchild, Path.steps_child, hdown,
      walk_eq_ok_iff] at h
    obtain ⟨folder, access, hleads, hlast⟩ := leads_concat_down h
    refine ⟨folder, access, ?_, hlast⟩
    rw [find_of_isAbsolute habs hp, Path.steps_of_isAbsolute habs, walk_eq_ok_iff]
    exact hleads
  | false =>
    rw [find_of_not_isAbsolute (p := p.child name) habs hchild, Path.steps_child, hdown] at h
    obtain ⟨folder, access, hwalk, hexecute, hlast⟩ := walkLost_concat_down h
    refine ⟨folder, access, ?_, hexecute, hlast⟩
    rw [find_of_not_isAbsolute habs hp, Path.steps]
    split
    · next hnone =>
      -- the path is a dot only, and its one step stays in the folder
      rw [hnone.2] at hwalk
      exact walkLost_here hwalk hexecute
    · exact hwalk

/-- An entry that is found under its path is that of its name in the folder. -/
theorem find_child_entry_cases {place : Place} {n : Node} (hdown : Step.ofName name = .down name)
    (h : d.find .entry (p.child name) = .ok (.entry place n)) :
    ∃ folder access, d.find .target p = .ok (.entry folder (.folder access)) ∧
      place = folder ++ [name] ∧ d.node? (folder ++ [name]) = some n := by
  obtain ⟨folder, access, hfolder, -, -, hspot⟩ := find_child_cases hdown h
  exact ⟨folder, access, hfolder, spotIn_eq_entry_iff.mp hspot.symm⟩

/-- The walk along the path has somewhere to start: the root, or a current folder that is there. -/
def HasStart (d : Disk) (p : Path) : Prop :=
  p.isAbsolute = true ∨ d.lost = 0

/-- Where the walk along a path starts, if anywhere. -/
def origin (d : Disk) (p : Path) : Place :=
  if p.isAbsolute then [] else d.cwd

theorem origin_child (d : Disk) (p : Path) (n : String) : d.origin (p.child n) = d.origin p := rfl

theorem find_eq_walk (hstart : d.HasStart p) (hnul : p.hasNul = false) :
    d.find aim p = d.walk aim maxLinks (d.origin p) p.steps := by
  unfold origin
  cases habs : p.isAbsolute with
  | true => exact find_of_isAbsolute habs hnul
  | false =>
    have hcurrent : d.lost = 0 := hstart.resolve_left (by simp [habs])
    rw [find_of_not_isAbsolute habs hnul, hcurrent]
    cases p.steps <;> rfl

/-- A path that leads to a node is walked from some place on, and so is every path with a name more:
from the place, along the names of the path, and then along the last one. -/
theorem exists_walk_of_find {place : Place} {n : Node}
    (h : d.find .target p = .ok (.entry place n)) :
    ∃ here steps, d.Leads .target maxLinks here steps (.entry place n) ∧
      ∀ (aim : Aim) (name : String), holdsNul name = false →
        d.find aim (p.child name) = d.walk aim maxLinks here (steps ++ [Step.ofName name]) := by
  have hp : p.hasNul = false := hasNul_of_find h
  have hchild : ∀ {name : String}, holdsNul name = false → (p.child name).hasNul = false :=
    fun hnul => Path.hasNul_child_eq_false_iff.mpr ⟨hp, hnul⟩
  cases habs : p.isAbsolute with
  | true =>
    rw [find_of_isAbsolute habs hp, Path.steps_of_isAbsolute habs, walk_eq_ok_iff] at h
    refine ⟨[], _, h, fun aim name hnul => ?_⟩
    rw [find_of_isAbsolute (p := p.child name) habs (hchild hnul), Path.steps_child]
  | false =>
    have hname : ∀ (aim : Aim) (name : String), holdsNul name = false →
        d.find aim (p.child name) =
          d.walkLost aim d.lost (p.parts.map Step.ofName ++ [Step.ofName name]) := by
      intro aim name hnul
      rw [find_of_not_isAbsolute (p := p.child name) habs (hchild hnul), Path.steps_child]
    have hfolder : d.walkLost .target d.lost (p.parts.map Step.ofName) =
        .ok (.entry place n) := by
      rw [find_of_not_isAbsolute habs hp, Path.steps] at h
      split at h
      · next hnone =>
        -- the path is a dot only, and its one step stays in the folder
        rw [hnone.2]
        exact walkLost_of_here h
      · exact h
    cases astray d.lost (p.parts.map Step.ofName) with
    | back taken heq =>
      have hwalk : d.walk .target maxLinks d.cwd taken = .ok (.entry place n) := by
        simpa [hfolder] using (heq d .target []).symm
      exact ⟨d.cwd, taken, walk_eq_ok_iff.mp hwalk, fun aim name hnul =>
        (hname aim name hnul).trans (heq d aim _)⟩
    | out above heq => simpa [hfolder, walkLost] using heq d .target []
    | missing heq => simpa [hfolder] using heq d .target []

/-- A path with a name more is walked from where the path leads, with the links that are left after
the way there. -/
theorem find_child_eq_walk {place : Place} {n : Node}
    (h : d.find .target p = .ok (.entry place n)) :
    ∃ k ≤ maxLinks, ∀ {aim : Aim} {name : String}, aim ≠ .writing → holdsNul name = false →
      d.find aim (p.child name) = d.walk aim k place [Step.ofName name] := by
  obtain ⟨here, steps, hleads, hchild⟩ := exists_walk_of_find h
  obtain ⟨k, hle, hk⟩ := hleads.walk_concat
  exact ⟨k, hle, fun haim hnul => (hchild _ _ hnul).trans (hk haim (by simp))⟩

section Child

variable {folder : Place} {access : Access}
  (hfolder : d.find .target p = .ok (.entry folder (.folder access)))
  (hdown : Step.ofName name = .down name) (hnul : holdsNul name = false)

include hfolder hdown hnul

/-- The spot of a name in a folder that can be gone through is found under its path. -/
theorem find_child (hexecute : access.execute = true) (hname : isOverlong name = false) :
    d.find .entry (p.child name) = .ok (d.spotIn folder name) := by
  have hopen : d.IsOpen folder := ⟨access, shows_of_find hfolder, hexecute⟩
  obtain ⟨k, -, hk⟩ := find_child_eq_walk hfolder
  rw [hk (by simp) hnul, hdown]
  exact walk_down_entry k hopen hname

/-- If it can be told what the path of an entry leads to, its folder can be gone through and its
name is not too long. -/
theorem passable_of_leadsTo {test : Node → Bool} {b : Bool}
    (h : d.leadsTo test (p.child name) = .ok b) :
    access.execute = true ∧ isOverlong name = false := by
  have hnode : d.node? folder = some (.folder access) := shows_of_find hfolder
  obtain ⟨k, -, hk⟩ := find_child_eq_walk hfolder
  unfold leadsTo stat at h
  rw [hk (by simp) hnul, hdown] at h
  cases hexecute : access.execute with
  | false =>
    have hdenied : d.walk .target k folder [.down name] = .error .denied := by
      cases k <;> simp [walk, walkVia, hnode, hexecute]
    simp [hdenied, Fault.meansAbsence] at h
  | true =>
    refine ⟨rfl, ?_⟩
    cases hname : isOverlong name with
    | false => rfl
    | true =>
      rw [walk_down_overlong hnode hexecute hname (by simp)] at h
      simp [Fault.meansAbsence] at h

end Child

/-- The spot of a name is found under its path exactly in a folder that the path without it leads
to and that can be gone through. -/
theorem find_entry_child_iff (hdown : Step.ofName name = .down name)
    (hnul : holdsNul name = false) :
    d.find .entry (p.child name) = .ok spot ↔
      ∃ folder access, d.find .target p = .ok (.entry folder (.folder access)) ∧
        access.execute = true ∧ isOverlong name = false ∧ spot = d.spotIn folder name := by
  constructor
  · intro h
    exact find_child_cases hdown h
  · rintro ⟨folder, access, hfolder, hexecute, hname, rfl⟩
    exact find_child hfolder hdown hnul hexecute hname

/-! ### Entries that are no links -/

/-- A walk to what is no link leads there too if links are followed. -/
theorem Leads.target_of_entry {links : Nat} {here : Place} {steps : List Step}
    (h : d.Leads .entry links here steps spot)
    (hspot : ∀ place target, spot ≠ .entry place (.link target)) :
    d.Leads .target links here steps spot := by
  have hwriting : ∀ rest : List Step, ¬ (Aim.target = .writing ∧ rest = [.slash]) := by simp
  induction h with
  | arrive hn => exact .arrive hn
  | slash hhere _ ih => exact .slash hhere (ih hspot)
  | stay hopen _ ih => exact .stay hopen (ih hspot)
  | up hopen _ ih => exact .up hopen (ih hspot)
  | vacant hopen hname hnone => exact .vacant hopen hname hnone
  | link _ _ _ _ => exact absurd rfl (hspot _ _)
  | follow hopen hname _ hnext _ _ ih =>
    exact .follow hopen hname (hwriting _) hnext (by simp) (ih hspot)
  | down hopen hname _ hnext hn _ ih =>
    exact .down hopen hname (hwriting _) hnext hn (ih hspot)

/-- A path to what is no link leads there too if links are followed. -/
theorem find_target_of_entry (h : d.find .entry p = .ok spot)
    (hspot : ∀ place target, spot ≠ .entry place (.link target)) :
    d.find .target p = .ok spot :=
  find_again h rfl rfl id fun _ _ hleads => hleads.target_of_entry hspot

/-- Whether the path of an entry that is no link leads to a folder is told by the entry. -/
theorem isFolder?_of_find {place : Place} {n : Node} (h : d.find .entry p = .ok (.entry place n))
    (hn : ∀ target, n ≠ .link target) : d.isFolder? p = .ok n.isFolder := by
  have htarget : d.find .target p = .ok (.entry place n) := by
    refine find_target_of_entry h fun q target heq => ?_
    cases heq
    exact hn target rfl
  exact leadsTo_of_find htarget

/-- An entry is no folder if its path leads to none. -/
theorem isFolder_of_isFolder? {place : Place} {n : Node}
    (h : d.find .entry p = .ok (.entry place n)) (hfile : d.isFolder? p = .ok false) :
    n.isFolder = false := by
  cases n with
  | link target => rfl
  | file bytes access => rfl
  | folder access =>
    rw [isFolder?_of_find h (by simp)] at hfile
    cases hfile

end Disk

end Sketchbook
