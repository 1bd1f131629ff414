import Sketchbook.Disk.Arrange
import Sketchbook.Proofs.Disk.Leads
import Sketchbook.Proofs.Text.Utf8

/-!
# What writing a file changes

Writing changes the bytes of one file, the one that the path leads to, or makes it
(`Disk.openEmptied_cases`). A file at a place where there was a file or nothing opens no way and
bars none, so that the path then leads to this file (`Disk.find_put`), whatever it is filled with
(`Disk.written_of_openEmptied`). A text that is written is what is read next
(`Disk.readFile_of_writeFile`).
-/

namespace Sketchbook

/-- The spot is at the place: it is the entry there, or the entry would be made there. -/
def Spot.IsAt (place : Place) : Spot → Prop
  | .entry p _ => p = place
  | .vacant folder name => folder ++ [name] = place
  | .lost => False

namespace Disk

variable {d e : Disk} {aim : Aim} {place : Place} {bytes : List UInt8} {access : Access}

/-- There is a file at the place, or nothing. -/
def HoldsNoMore (d : Disk) (place : Place) : Prop :=
  ∀ n, d.node? place = some n → n.isFile = true

/-- A folder or a link is still there when a file has been put where there was none of them. -/
theorem node?_put_of_not_isFile (hplace : d.HoldsNoMore place) {p : Place} {n : Node}
    (hn : d.node? p = some n) (hfile : n.isFile = false) :
    (d.put place (.file bytes access)).node? p = some n := by
  have hne : p ≠ place := by
    rintro rfl
    rw [hplace n hn] at hfile
    cases hfile
  rw [node?_put, if_neg hne, hn]

theorem isOpen_put (hplace : d.HoldsNoMore place) {p : Place} (h : d.IsOpen p) :
    (d.put place (.file bytes access)).IsOpen p := by
  obtain ⟨inner, hp, hexecute⟩ := h
  exact ⟨inner, node?_put_of_not_isFile hplace hp rfl, hexecute⟩

/-- A walk that led to a place leads to the file that has been put there. -/
theorem Leads.put {links : Nat} {here : Place} {steps : List Step} {spot : Spot}
    (hplace : d.HoldsNoMore place) (h : d.Leads aim links here steps spot)
    (hspot : spot.IsAt place) :
    (d.put place (.file bytes access)).Leads aim links here steps
      (.entry place (.file bytes access)) := by
  have hput : (d.put place (.file bytes access)).node? place = some (.file bytes access) := by
    rw [node?_put, if_pos rfl]
  induction h with
  | @arrive links here n hn =>
    obtain rfl : here = place := hspot
    exact .arrive hput
  | slash hhere _ ih => exact .slash (node?_put_of_not_isFile hplace hhere rfl) (ih hspot)
  | stay hopen _ ih => exact .stay (isOpen_put hplace hopen) (ih hspot)
  | up hopen _ ih => exact .up (isOpen_put hplace hopen) (ih hspot)
  | @vacant links here name hopen hname hnone =>
    obtain rfl : here ++ [name] = place := hspot
    exact .down (isOpen_put hplace hopen) hname (by simp) hput (by simp) (.arrive hput)
  | @link links here name target hopen hname haim hnext =>
    obtain rfl : here ++ [name] = place := hspot
    exact absurd (hplace _ hnext) (by simp [Node.isFile])
  | follow hopen hname hwriting hnext hfollow _ ih =>
    exact .follow (isOpen_put hplace hopen) hname hwriting
      (node?_put_of_not_isFile hplace hnext rfl) hfollow (ih hspot)
  | @down links here name rest spot n hopen hname hwriting hnext hn _ ih =>
    by_cases hp : here ++ [name] = place
    · have hfile : (d.put place (.file bytes access)).node? (here ++ [name]) =
          some (.file bytes access) := by
        rw [hp, hput]
      exact .down (isOpen_put hplace hopen) hname hwriting hfile (by simp) (ih hspot)
    · have hkept : (d.put place (.file bytes access)).node? (here ++ [name]) = some n := by
        rw [node?_put, if_neg hp, hnext]
      exact .down (isOpen_put hplace hopen) hname hwriting hkept hn (ih hspot)

/-- A path that led to a place leads to the file that has been put there. -/
theorem find_put {p : Path} {spot : Spot} (hplace : d.HoldsNoMore place)
    (h : d.find aim p = .ok spot) (hspot : spot.IsAt place) :
    (d.put place (.file bytes access)).find aim p = .ok (.entry place (.file bytes access)) := by
  refine find_again h rfl rfl ?_ fun _ _ hleads => hleads.put hplace hspot
  rintro rfl
  exact hspot.elim

/-- A file that is opened for writing is emptied, or is made. -/
theorem openEmptied_cases {p : Path} (h : d.openEmptied p = .ok (place, e)) :
    (∃ old access, d.find .writing p = .ok (.entry place (.file old access)) ∧
        access.write = true ∧ e = d.put place (.file [] access)) ∨
      ∃ folder name, place = folder ++ [name] ∧ d.find .writing p = .ok (.vacant folder name) ∧
        d.mayChange folder = true ∧ e = d.put place (.file [] .full) := by
  unfold openEmptied at h
  split at h
  · next found old access hfind =>
    split at h
    · next hwrite =>
      cases h
      exact .inl ⟨old, access, hfind, hwrite, rfl⟩
    · cases h
  · cases h
  · cases h
  · cases h
  · next folder name hfind =>
    split at h
    · next hchange =>
      cases h
      exact .inr ⟨folder, name, rfl, hfind, hchange, rfl⟩
    · cases h
  · cases h

/-- A file that is opened for writing and not filled has been written without any bytes. -/
theorem fill_nil_of_openEmptied {p : Path} (h : d.openEmptied p = .ok (place, e)) :
    e.fill place [] = e := by
  rcases openEmptied_cases h with ⟨old, access, -, -, rfl⟩ | ⟨folder, name, -, -, -, rfl⟩
  · exact fill_put ..
  · exact fill_put ..

/-- What a reader gets where a path leads to a file. -/
theorem readFile_of_find {p : Path}
    (h : d.find .target p = .ok (.entry place (.file bytes access))) :
    d.readFile p = if access.read then .ok bytes else .error .denied := by
  simp [readFile, stat, h]

/-- What a writer has left at the place that a path leads to: a file with these bytes and this
access, be it that there was one with the same access or that it has been made. Nothing else has
changed. -/
structure Written (d e : Disk) (p : Path) (place : Place) (bytes : List UInt8) (access : Access) :
    Prop where
  node?_eq : ∀ q, e.node? q = if q = place then some (.file bytes access) else d.node? q
  cwd_eq : e.cwd = d.cwd
  lost_eq : e.lost = d.lost
  found : (∃ old, d.find .target p = .ok (.entry place (.file old access)) ∧
      d.node? place = some (.file old access)) ∨
    ∃ folder name, place = folder ++ [name] ∧ d.find .target p = .ok (.vacant folder name) ∧
      d.node? place = none ∧ access = .full
  leads : e.find .target p = .ok (.entry place (.file bytes access))

/-- A file that is opened for writing and filled leaves one place changed, the one that the path
leads to. -/
theorem written_of_openEmptied {p : Path} (h : d.openEmptied p = .ok (place, e))
    (bytes : List UInt8) : ∃ access, Written d (e.fill place bytes) p place bytes access := by
  rcases openEmptied_cases h with
    ⟨old, access, hfind, -, rfl⟩ | ⟨folder, name, rfl, hfind, -, rfl⟩
  · have hnode : d.node? place = some (.file old access) := shows_of_find hfind
    have hplace : d.HoldsNoMore place := by
      intro n hn
      rw [hnode] at hn
      cases hn
      rfl
    have htarget := find_target_of_writing hfind
    rw [fill_put]
    exact ⟨access, fun q => node?_put .., rfl, rfl, .inl ⟨old, htarget, hnode⟩,
      find_put hplace htarget rfl⟩
  · have hnode : d.node? (folder ++ [name]) = none := shows_of_find hfind
    have hplace : d.HoldsNoMore (folder ++ [name]) := by
      intro n hn
      rw [hnode] at hn
      cases hn
    have htarget := find_target_of_writing hfind
    rw [fill_put]
    exact ⟨.full, fun q => node?_put .., rfl, rfl,
      .inr ⟨folder, name, rfl, htarget, hnode, rfl⟩, find_put hplace htarget rfl⟩

section Read

variable {p : Path} {old : List UInt8} (hread : d.readFile p = .ok old)
  (h : Written d e p place bytes access)

include hread h

/-- A file that has been read was there before it was written, and it may still be read. -/
theorem Written.found_of_readFile :
    access.read = true ∧ d.node? place = some (.file old access) := by
  rcases h.found with ⟨old', hfind, hnode⟩ | ⟨folder, name, -, hfind, -, -⟩
  · rw [readFile_of_find hfind] at hread
    split at hread
    · next hmay =>
      cases hread
      exact ⟨hmay, hnode⟩
    · cases hread
  · simp [readFile, stat, hfind] at hread

/-- A file that has been read and then written has the bytes that were written. -/
theorem Written.readFile_eq : e.readFile p = .ok bytes := by
  rw [readFile_of_find h.leads, if_pos (h.found_of_readFile hread).1]

end Read

/-- Writing the bytes that have been read changes nothing. -/
theorem Written.same {p : Path} (hread : d.readFile p = .ok bytes)
    (h : Written d e p place bytes access) : e.Same d := by
  refine ⟨h.cwd_eq, h.lost_eq, fun q => ?_⟩
  rw [h.node?_eq]
  split
  · next hq =>
    subst hq
    exact (h.found_of_readFile hread).2.symm
  · rfl

end Disk

end Sketchbook
