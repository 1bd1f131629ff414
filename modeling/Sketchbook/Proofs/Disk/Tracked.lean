import Sketchbook.Proofs.Disk.LinkFree

/-!
# What is reached without links

While the links in a text are followed, what has been reached is the place that the path so far
leads to, and this path is link-free (`Disk.Tracked`). One step down keeps to this
(`Disk.Tracked.down`, `Disk.Tracked.vacant`), and so does one step up (`Disk.Tracked.goUp`).
-/

namespace Sketchbook.Disk

variable {d : Disk} {r : Reached} {p : Path} {n : String} {place : Place} {node : Node}

/-- One step up meets no link. -/
theorem walk_up_eq {aim : Aim} (k l : Nat) :
    d.walk aim k place [.up] = d.walk aim l place [.up] := by
  cases k <;> cases l <;> rfl

/-! ### What has been reached -/

/-- The path is link-free, and the place is the one that the path leads to. It is known at least if
it is a folder that can be gone through. -/
structure Tracked (d : Disk) (r : Reached) : Prop where
  linkFree : d.LinkFree r.path
  sound : ∀ place, r.place = some place → ∃ node, d.find .target r.path = .ok (.entry place node)
  complete : ∀ place access, d.find .target r.path = .ok (.entry place (.folder access)) →
    access.execute = true → r.place = some place

/-- A link-free path is tracked from where it leads to. -/
theorem tracked_reached (h : d.LinkFree p) : d.Tracked (d.reached p) := by
  refine ⟨h, ?_, ?_⟩
  · intro place hplace
    simp only [reached] at hplace ⊢
    split at hplace
    · next found node hfind =>
      cases hplace
      exact ⟨node, hfind⟩
    · cases hplace
  · intro place access hfind _
    simp only [reached] at hfind ⊢
    rw [hfind]

namespace Tracked

/-- One step up from the root stays there, and is tracked. -/
theorem upFromRoot {a : Anchor} (ha : a ≠ .current) (h : d.Tracked ⟨⟨a, []⟩, some place⟩) :
    d.Tracked ⟨⟨a, []⟩, match d.walk .target maxLinks place [.up] with
      | .ok (.entry above _) => some above
      | _ => none⟩ := by
  have habs : (⟨a, []⟩ : Path).isAbsolute = true := by simpa [Path.isAbsolute] using ha
  have hroot : ∀ place node, d.find .target ⟨a, []⟩ = .ok (.entry place node) →
      place = [] ∧ d.node? [] = some node := by
    intro place node hfind
    rw [find_of_isAbsolute habs rfl, Path.steps_of_isAbsolute habs, walk_eq_ok_iff] at hfind
    cases hfind with
    | arrive hnode => exact ⟨rfl, hnode⟩
  obtain ⟨node, hfind⟩ := h.sound place rfl
  obtain ⟨rfl, hnode⟩ := hroot place node hfind
  refine ⟨.base a, ?_, ?_⟩
  · intro place hplace
    simp only at hplace
    split at hplace
    · next above other hwalk =>
      cases hplace
      cases walk_eq_ok_iff.mp hwalk with
      | up _ hrest =>
        cases hrest with
        | arrive _ => exact ⟨node, hfind⟩
    · cases hplace
  · intro place access hother hexecute
    obtain ⟨rfl, hfolder⟩ := hroot place _ hother
    have hwalk : d.walk .target maxLinks [] [.up] = .ok (.entry [] (.folder access)) :=
      walk_eq_ok_iff.mpr (.up ⟨access, hfolder, hexecute⟩ (.arrive hfolder))
    simp only [hwalk]

/-- One step up along double dots is tracked. -/
theorem upAlongDots (h : d.Tracked r) (hplace : r.place = some place) :
    d.Tracked ⟨r.path.child "..", match d.walk .target maxLinks place [.up] with
      | .ok (.entry above _) => some above
      | _ => none⟩ := by
  obtain ⟨node, hfind⟩ := h.sound place hplace
  obtain ⟨k, -, hk⟩ := find_child_eq_walk hfind
  have hup : d.find .target (r.path.child "..") = d.walk .target maxLinks place [.up] :=
    (hk (by simp) (by decide)).trans (walk_up_eq k maxLinks)
  have hreached := tracked_reached h.linkFree.up
  rw [reached, hup] at hreached
  exact hreached

/-- The entries of what has been reached are those under its path. -/
theorem entryIn?_eq_some_iff (h : d.Tracked r) (hn : Step.ofName n = .down n)
    (hnul : holdsNul n = false) :
    d.entryIn? r n = some (place, node) ↔
      d.find .entry (r.path.child n) = .ok (.entry place node) := by
  rw [find_entry_child_iff hn hnul]
  constructor
  · intro hentry
    unfold entryIn? at hentry
    split at hentry
    · cases hentry
    · next folder hfolder =>
      obtain ⟨m, hfind⟩ := h.sound folder hfolder
      split at hentry
      · next found other hwalk =>
        cases hentry
        obtain ⟨hopen, hname, hspot⟩ := leads_down_entry_cases (walk_eq_ok_iff.mp hwalk)
        obtain ⟨access, hnode, hexecute⟩ := hopen
        have hm : d.node? folder = some m := shows_of_find hfind
        obtain rfl : m = .folder access := by simpa using hm.symm.trans hnode
        exact ⟨folder, access, hfind, hexecute, hname, hspot⟩
      · cases hentry
  · rintro ⟨folder, access, hfind, hexecute, hname, hspot⟩
    have hopen : d.IsOpen folder := ⟨access, shows_of_find hfind, hexecute⟩
    simp only [entryIn?, h.complete folder access hfind hexecute, walk_down_entry _ hopen hname,
      ← hspot]

/-- One step down to what is no link is tracked. -/
theorem down (h : d.Tracked r) (hn : Step.ofName n = .down n) (hnul : holdsNul n = false)
    (hentry : d.entryIn? r n = some (place, node)) (hnode : ∀ target, node ≠ .link target) :
    d.Tracked ⟨r.path.child n, some place⟩ := by
  have hfind := (h.entryIn?_eq_some_iff hn hnul).mp hentry
  have hspot : ∀ other target, Spot.entry place node ≠ .entry other (.link target) := by
    intro other target heq
    cases heq
    exact hnode target rfl
  have htarget := find_target_of_entry hfind hspot
  refine ⟨.down h.linkFree hn ?_, ?_, ?_⟩
  · intro other target hlink
    rw [hfind] at hlink
    exact hspot other target (Except.ok.inj hlink)
  · intro other hother
    cases hother
    exact ⟨node, htarget⟩
  · intro other access hother _
    rw [htarget] at hother
    cases hother
    rfl

variable (hcurrent : d.lost = 0)

include hcurrent

/-- One step down to where there is nothing is tracked. -/
theorem vacant (h : d.Tracked r) (hn : Step.ofName n = .down n) (hnul : holdsNul n = false)
    (hentry : d.entryIn? r n = none) : d.Tracked ⟨r.path.child n, none⟩ := by
  have hnone : ∀ place node, d.find .entry (r.path.child n) ≠ .ok (.entry place node) := by
    intro place node hfind
    rw [(h.entryIn?_eq_some_iff hn hnul).mpr hfind] at hentry
    cases hentry
  refine ⟨.down h.linkFree hn fun place target => hnone place _, nofun, ?_⟩
  intro place access hfind _
  obtain ⟨folder, _, m, -, hthere⟩ := find_entry_of_find_target hcurrent hn hfind
  exact absurd hthere (hnone _ _)

/-- One step up is tracked. -/
theorem goUp (h : d.Tracked r) : d.Tracked (d.goUp r) := by
  obtain ⟨path, found⟩ := r
  cases found with
  | none => exact tracked_reached h.linkFree.above
  | some place =>
    have hdots : path.endsInName = false → path.above = path.child ".." →
        d.Tracked (d.goUp ⟨path, some place⟩) := by
      intro hends habove
      simp only [Disk.goUp, hends, habove, Bool.false_eq_true, if_false]
      exact h.upAlongDots rfl
    obtain ⟨node, hfind⟩ := h.sound place rfl
    cases h.linkFree with
    | base a =>
      cases a with
      | current => exact hdots rfl rfl
      | root => exact h.upFromRoot (by simp)
      | doubleRoot => exact h.upFromRoot (by simp)
    | @up p hfree => exact hdots (by simp [Path.endsInName]) (Path.above_child_dots p)
    | @down p n hfree hn hlink =>
      have hne : n ≠ ".." := by
        rintro rfl
        cases hn
      have hends : (p.child n).endsInName = true := by simp [Path.endsInName, hne]
      obtain ⟨folder, access, hfolder, rfl⟩ := LinkFree.find_down hcurrent hn hlink hfind
      have hup : d.goUp ⟨p.child n, some (folder ++ [n])⟩ = ⟨p, some folder⟩ := by
        simp [Disk.goUp, hends, Path.above_child hne]
      change d.Tracked (d.goUp ⟨p.child n, some (folder ++ [n])⟩)
      rw [hup]
      refine ⟨hfree, ?_, ?_⟩
      · rintro _ ⟨⟩
        exact ⟨_, hfolder⟩
      · intro other _ hother _
        rw [hfolder] at hother
        cases hother
        rfl

end Tracked

end Sketchbook.Disk
