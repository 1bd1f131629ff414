import Sketchbook.Disk.Resolve
import Sketchbook.Proofs.Disk.Entries
import Sketchbook.Proofs.Path.EntryName

/-!
# Paths without links

A path is link-free if none of the names in it is that of a link, as far as it can be followed
(`Disk.LinkFree`). Whatever such a path leads to is at the place that can be read off the path: its
names, those of the current folder in front if it is relative, without the double dots
(`Disk.LinkFree.place_eq`).

All this is about a current folder that has not been removed.
-/

namespace Sketchbook

namespace Path

variable {n : String}

theorem absolute_child (cwd : List String) (p : Path) (n : String) :
    (p.child n).absolute cwd = (p.absolute cwd).child n := by
  rw [absolute, absolute, isAbsolute_child]
  split
  · rfl
  · simp [child]

theorem cancelDots_child (p : Path) (hn : n ≠ "..") :
    (p.child n).cancelDots = p.cancelDots.child n := by
  simp [cancelDots, child, hn]

theorem parts_cancelDots_dots (p : Path) :
    (p.child "..").cancelDots.parts = p.cancelDots.parts.dropLast := by
  simp [cancelDots, child]

/-- Names without double dots stay as they are. -/
theorem parts_cancelDots_of_not_mem (a : Anchor) {parts : List String} (h : ".." ∉ parts) :
    (⟨a, parts⟩ : Path).cancelDots.parts = parts := by
  have hadd : ∀ done : List String, parts.foldl
      (fun done n => if n = ".." then done.dropLast else done ++ [n]) done = done ++ parts := by
    induction parts with
    | nil => simp
    | cons n parts ih =>
      intro done
      obtain ⟨hn, hparts⟩ := not_or.mp (mt List.mem_cons.mpr h)
      rw [List.foldl_cons, if_neg (Ne.symm hn), ih hparts, List.append_assoc]
      rfl
  exact hadd []

theorem above_child_dots (p : Path) : (p.child "..").above = (p.child "..").child ".." := by
  simp [above, child]

theorem above_child {p : Path} (hn : n ≠ "..") : (p.child n).above = p := by
  simp [above, child, parent, hn]

end Path

namespace Disk

variable {d : Disk} {aim : Aim} {p : Path} {n : String} {spot : Spot} {place : Place}
  {node : Node}

/-- A step that is not a slash is taken from a folder that can be gone through. -/
theorem Leads.isOpen {links : Nat} {here : Place} {step : Step} {rest : List Step}
    (h : d.Leads aim links here (step :: rest) spot) (hstep : step ≠ .slash) : d.IsOpen here := by
  cases h with
  | slash _ _ => exact absurd rfl hstep
  | stay hopen _ => exact hopen
  | up hopen _ => exact hopen
  | vacant hopen _ _ => exact hopen
  | link hopen _ _ _ => exact hopen
  | follow hopen _ _ _ _ _ => exact hopen
  | down hopen _ _ _ _ _ => exact hopen

/-- A name does not stand for a slash. -/
theorem ofName_ne_slash (n : String) : Step.ofName n ≠ .slash := by
  rcases Step.ofName_cases n with ⟨-, h⟩ | ⟨-, h⟩ | h
  · simp [h]
  · simp [h]
  · simp [h]

/-! ### One more name -/

section Current

variable (hcurrent : d.lost = 0)

include hcurrent

/-- What is found under a path with a name at its end is found from the folder that the path leads
to without the name. -/
theorem leads_of_find_child (h : d.find aim (p.child n) = .ok spot) :
    ∃ k folder access, d.find .target p = .ok (.entry folder (.folder access)) ∧
      d.Leads aim k folder [Step.ofName n] spot := by
  have hchild : (p.child n).hasNul = false := hasNul_of_find h
  have hp : p.hasNul = false := (Path.hasNul_child_eq_false_iff.mp hchild).1
  rw [find_eq_walk (p := p.child n) (.inr hcurrent) hchild, origin_child, Path.steps_child,
    walk_eq_ok_iff] at h
  obtain ⟨k, folder, access, hleads, hlast⟩ := h.append_cases (by simp)
  refine ⟨k, folder, access, ?_, hlast⟩
  rw [find_eq_walk (.inr hcurrent) hp, walk_eq_ok_iff, Path.steps]
  split
  · next hnone =>
    -- the path is a dot only, and its one step stays in the folder
    rw [hnone.2] at hleads
    cases hleads with
    | arrive hnode => exact .stay (hlast.isOpen (ofName_ne_slash n)) (.arrive hnode)
  · exact hleads

/-- Where a path with a name at its end leads to something there is an entry of this name. -/
theorem find_entry_of_find_target (hn : Step.ofName n = .down n)
    (h : d.find .target (p.child n) = .ok (.entry place node)) :
    ∃ folder access m, d.find .target p = .ok (.entry folder (.folder access)) ∧
      d.find .entry (p.child n) = .ok (.entry (folder ++ [n]) m) := by
  obtain ⟨k, folder, access, hfolder, hleads⟩ := leads_of_find_child hcurrent h
  have hnul : holdsNul n = false := (Path.hasNul_child_eq_false_iff.mp (hasNul_of_find h)).2
  have hentry : d.IsOpen folder → isOverlong n = false → ∀ m,
      d.node? (folder ++ [n]) = some m →
        d.find .entry (p.child n) = .ok (.entry (folder ++ [n]) m) := by
    intro hopen hname m hm
    have hexecute : access.execute = true := hopen.execute_eq (shows_of_find hfolder)
    exact (find_entry_child_iff hn hnul).mpr
      ⟨folder, access, hfolder, hexecute, hname, (spotIn_of_some hm).symm⟩
  rw [hn] at hleads
  cases hleads with
  | link _ _ haim _ => cases haim
  | follow hopen hname _ hnext _ _ => exact ⟨folder, access, _, hfolder, hentry hopen hname _ hnext⟩
  | down hopen hname _ hnext _ _ => exact ⟨folder, access, _, hfolder, hentry hopen hname _ hnext⟩

end Current

/-! ### Link-free paths -/

/-- There is no link on the path, as far as it can be followed. -/
inductive LinkFree (d : Disk) : Path → Prop
  | base (a : Anchor) : LinkFree d ⟨a, []⟩
  | up {p : Path} (h : LinkFree d p) : LinkFree d (p.child "..")
  | down {p : Path} {n : String} (h : LinkFree d p) (hn : Step.ofName n = .down n)
    (hlink : ∀ place target, d.find .entry (p.child n) ≠ .ok (.entry place (.link target))) :
    LinkFree d (p.child n)

namespace LinkFree

/-- The path of the folder above is link-free, as the path is. -/
theorem above (h : d.LinkFree p) : d.LinkFree p.above := by
  cases h with
  | base a =>
    unfold Path.above
    split
    · split
      · exact .base a
      · exact .up (.base a)
    · next hlast => cases hlast
  | up h =>
    rw [Path.above_child_dots]
    exact .up (.up h)
  | down h hn _ =>
    rw [Path.above_child (by rintro rfl; cases hn)]
    exact h

/-- What is found under the name of no link is the entry of this name. -/
theorem find_down (hcurrent : d.lost = 0) (hn : Step.ofName n = .down n)
    (hlink : ∀ place target, d.find .entry (p.child n) ≠ .ok (.entry place (.link target)))
    (h : d.find .target (p.child n) = .ok (.entry place node)) :
    ∃ folder access, d.find .target p = .ok (.entry folder (.folder access)) ∧
      place = folder ++ [n] := by
  obtain ⟨folder, access, m, hfolder, hentry⟩ := find_entry_of_find_target hcurrent hn h
  have hm : ∀ place target, Spot.entry (folder ++ [n]) m ≠ .entry place (.link target) := by
    rintro place target heq
    exact hlink place target (heq ▸ hentry)
  have htarget := find_target_of_entry hentry hm
  rw [h] at htarget
  cases htarget
  exact ⟨folder, access, hfolder, rfl⟩

/-- What a link-free path leads to is at the place that the path spells out. -/
theorem place_eq (h : d.LinkFree p) (hcurrent : d.lost = 0) (hcwd : ".." ∉ d.cwd)
    (hfind : d.find .target p = .ok (.entry place node)) :
    place = (p.absolute d.cwd).cancelDots.parts := by
  induction h generalizing place node with
  | base a =>
    rw [find_eq_walk (.inr hcurrent) rfl, walk_eq_ok_iff] at hfind
    cases a with
    | current =>
      have hcancelled := Path.parts_cancelDots_of_not_mem .root hcwd
      cases hfind with
      | stay _ hrest =>
        cases hrest with
        | arrive _ =>
          simpa [origin, Path.absolute, Path.isAbsolute] using hcancelled.symm
    | root =>
      cases hfind with
      | arrive _ => rfl
    | doubleRoot =>
      cases hfind with
      | arrive _ => rfl
  | @up p h ih =>
    obtain ⟨k, folder, access, hfolder, hleads⟩ := leads_of_find_child hcurrent hfind
    have hplace : place = folder.dropLast := by
      cases hleads with
      | up _ hrest =>
        cases hrest with
        | arrive _ => rfl
    rw [hplace, ih hfolder, Path.absolute_child, Path.parts_cancelDots_dots]
  | @down p n h hn hlink ih =>
    obtain ⟨folder, access, hfolder, hplace⟩ := find_down hcurrent hn hlink hfind
    have hdots : n ≠ ".." := by
      rintro rfl
      cases hn
    rw [hplace, ih hfolder, Path.absolute_child, Path.cancelDots_child _ hdots, Path.parts_child]

end LinkFree

end Disk

end Sketchbook
