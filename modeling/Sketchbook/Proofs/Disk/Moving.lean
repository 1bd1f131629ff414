import Sketchbook.Proofs.Disk.Removing
import Sketchbook.Proofs.Disk.Writing

/-!
# What renaming an entry changes

Renaming moves a node from one place to another (`Disk.rename_cases`). Within a folder, an entry
that is no folder takes the place under the new name, and nothing else changes
(`Disk.moved_of_rename`). What stood in that place is lost: a disk refuses to replace a folder, but
it does replace a file or a link.
-/

namespace Sketchbook.Disk

variable {d e : Disk} {n : Node} {p q : Path}

/-- A node has been moved from one place to another, where it stands instead of what was there.
Nothing else has changed. -/
structure Moved (d e : Disk) (source target : Place) (n : Node) : Prop where
  source_eq : d.node? source = some n
  node?_eq : ∀ r, e.node? r = if r = target then some n else if r = source then none else d.node? r
  cwd_eq : e.cwd = d.cwd
  lost_eq : e.lost = d.lost

/-- Where neither end of a move is, a node stays. -/
theorem Moved.node?_of_ne {source target r : Place} (h : Moved d e source target n)
    (hsource : r ≠ source) (htarget : r ≠ target) : e.node? r = d.node? r := by
  rw [h.node?_eq, if_neg htarget, if_neg hsource]

/-- What is renamed is an entry, and it is moved to the place that the new path names. -/
theorem rename_cases (h : d.rename p q = .ok e) :
    ∃ source n spot target, d.find .entry p = .ok (.entry source n) ∧
      d.find .entry q = .ok spot ∧ spot.IsAt target ∧ d.move source n target = .ok e := by
  unfold rename at h
  split at h
  · cases h
  · split at h
    · cases h
    · split at h
      · cases h
      · cases h
      · cases h
      · next source n hsource =>
        split at h
        · cases h
        · cases h
        · next target m htarget => exact ⟨source, n, _, target, hsource, htarget, rfl, h⟩
        · next folder name htarget => exact ⟨source, n, _, _, hsource, htarget, rfl, h⟩

/-- What is no folder is moved to another place if there is no folder there. -/
theorem moved_of_move {source target : Place} (hsource : d.node? source = some n)
    (hn : n.isFolder = false) (hne : target ≠ source) (h : d.move source n target = .ok e) :
    Moved d e source target n ∧ ∀ m, d.node? target = some m → m.isFolder = false := by
  have honto : d.moveOnto source n target = .ok e := by
    unfold move at h
    rw [if_neg hne] at h
    split at h
    · cases h
    · split at h
      · cases h
      · exact h
  have hmoved : e = d.moveNode source target n ∧
      ∀ m, d.node? target = some m → m.isFolder = false := by
    unfold moveOnto at honto
    cases n with
    | folder access => cases hn
    | file _ _ | link _ =>
      cases htarget : d.node? target with
      | none => simp_all
      | some m => cases m <;> simp_all [Node.isFolder]
  obtain ⟨rfl, hfree⟩ := hmoved
  exact ⟨⟨hsource, fun r => node?_moveNode d source target r n, rfl, rfl⟩, hfree⟩

/-- An entry that leads to no folder, renamed within its folder, is moved to the place under the
new name, where there was no folder. -/
theorem moved_of_rename {old new : String} (hold : Step.ofName old = .down old)
    (hnew : Step.ofName new = .down new) (hne : new ≠ old)
    (hfile : d.isFolder? (p.child old) = .ok false)
    (h : d.rename (p.child old) (p.child new) = .ok e) :
    ∃ folder access n, d.find .target p = .ok (.entry folder (.folder access)) ∧
      d.find .entry (p.child new) = .ok (d.spotIn folder new) ∧ n.isFolder = false ∧
      Moved d e (folder ++ [old]) (folder ++ [new]) n ∧
      ∀ m, d.node? (folder ++ [new]) = some m → m.isFolder = false := by
  obtain ⟨source, n, spot, target, hsource, hspot, htarget, hmove⟩ := rename_cases h
  obtain ⟨folder, access, hfolder, rfl, hnode⟩ := find_child_entry_cases hold hsource
  obtain ⟨folder', access', hfolder', -, -, rfl⟩ := find_child_cases hnew hspot
  -- the two paths lead through the same folder
  have hsame : folder' = folder := by
    rw [hfolder] at hfolder'
    cases hfolder'
    rfl
  subst hsame
  have hplaces : target = folder' ++ [new] := by
    unfold spotIn at htarget
    split at htarget
    · exact htarget.symm
    · exact htarget.symm
  subst hplaces
  have hn : n.isFolder = false := isFolder_of_isFolder? hsource hfile
  have hother : folder' ++ [new] ≠ folder' ++ [old] := by simpa using hne
  obtain ⟨hmoved, hfree⟩ := moved_of_move hnode hn hother hmove
  exact ⟨folder', access, n, hfolder, hspot, hn, hmoved, hfree⟩

end Sketchbook.Disk
