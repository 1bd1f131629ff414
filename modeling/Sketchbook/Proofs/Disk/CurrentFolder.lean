import Mathlib.Data.List.Infix
import Sketchbook.Proofs.Disk.LinkFree
import Sketchbook.Proofs.Disk.Ways

/-!
# Paths from the current folder

A relative path is walked from the current folder, and from the root once it has been made absolute.
If every folder above the current one can be gone through, both walks lead to the same spot
(`Disk.HasCurrentFolder.find_absolute`). If one cannot, no absolute path leads below it
(`Disk.HasCurrentFolder.find_absolute_of_not_openWay`).
-/

namespace Sketchbook

variable {d : Disk} {p : Path} {place : Place}

namespace Path

/-- The names of a relative path come behind those of the current folder. -/
theorem absolute_of_relative (cwd : List String) (hp : p.isAbsolute = false) :
    p.absolute cwd = ⟨.root, cwd ++ p.parts⟩ := by
  rw [absolute, if_neg (by simp [hp])]

/-- A path that has been made absolute is. -/
theorem isAbsolute_absolute (cwd : List String) (p : Path) :
    (p.absolute cwd).isAbsolute = true := by
  unfold absolute
  split
  · assumption
  · rfl

/-- The folder of a path that has been made absolute. -/
theorem parent_absolute (cwd : List String) (hp : p.isAbsolute = false) (hne : p.parts ≠ []) :
    (p.absolute cwd).parent = p.parent.absolute cwd := by
  rw [absolute_of_relative cwd hp, absolute_of_relative cwd (p := p.parent) hp]
  simp [parent, List.dropLast_append_of_ne_nil hne]

/-- A path keeps its name when it is made absolute, unless it is the current folder. -/
theorem name_absolute {cwd : List String} (hname : cwd = [] ∨ p.parts ≠ []) :
    (p.absolute cwd).name = p.name := by
  unfold absolute
  split
  · rfl
  · rcases hname with rfl | hne
    · rfl
    · simp [name, List.getLast?_append_of_ne_nil _ hne]

/-- A path without NUL has a name without. -/
theorem holdsNul_name (h : p.hasNul = false) : holdsNul p.name = false := by
  unfold name
  cases hlast : p.parts.getLast? with
  | none => rfl
  | some n => simpa using List.any_eq_false.mp h n (List.mem_of_getLast? hlast)

end Path

namespace Disk

/-! ### Walks along the names of a folder -/

/-- Every folder above the place can be gone through. -/
def OpenWay (d : Disk) (place : Place) : Prop :=
  ∀ q, q <+: place → q ≠ place → d.IsOpen q

/-- There is nothing above the root. -/
theorem openWay_root (d : Disk) : d.OpenWay [] :=
  fun _ hq hne => absurd (List.prefix_nil.mp hq) hne

/-- The way to an entry of a folder is open if the folder is, and the way to it. -/
theorem openWay_concat_iff {n : String} :
    d.OpenWay (place ++ [n]) ↔ d.OpenWay place ∧ d.IsOpen place := by
  have hne : place ≠ place ++ [n] := by simp
  constructor
  · intro h
    refine ⟨fun q hq hqne => h q (hq.trans (List.prefix_append ..)) ?_,
      h place (List.prefix_append ..) hne⟩
    rintro rfl
    exact hqne (hq.eq_of_length_le (by simp))
  · rintro ⟨hway, hopen⟩ q hq hqne
    rcases List.prefix_concat_iff.mp hq with rfl | hq
    · exact absurd rfl hqne
    · by_cases heq : q = place
      · exact heq ▸ hopen
      · exact hway q hq heq

/-- No step is taken from a folder that may not be gone through. -/
theorem walk_denied {aim : Aim} {links : Nat} {step : Step} {rest : List Step}
    (hstep : step ≠ .slash) {access : Access} (hfolder : d.node? place = some (.folder access))
    (hexecute : access.execute = false) :
    d.walk aim links place (step :: rest) = .error .denied := by
  cases links <;> simp [walk, walkVia, hfolder, hexecute, hstep]

/-- A walk from the root along the names of a folder goes on from this folder, unless one of those
above may not be gone through. -/
theorem walk_along_cases (hgrounded : d.IsGrounded place)
    (hnames : ∀ n ∈ place, Step.ofName n = .down n ∧ isOverlong n = false)
    {access : Access} (hfolder : d.node? place = some (.folder access)) (links : Nat) :
    (d.OpenWay place ∧ ∀ last, d.walk .target links [] (place.map Step.ofName ++ last) =
        d.walk .target links place last) ∨
      (¬ d.OpenWay place ∧ ∀ last, d.walk .target links [] (place.map Step.ofName ++ last) =
        .error .denied) := by
  induction place using List.reverseRecOn generalizing access with
  | nil => exact .inl ⟨openWay_root d, fun _ => rfl⟩
  | append_singleton place n ih =>
    obtain ⟨outer, houter⟩ := hgrounded place (List.prefix_append ..) (by simp)
    obtain ⟨hdown, hname⟩ := hnames n (by simp)
    have hsteps : ∀ last, (place ++ [n]).map Step.ofName ++ last =
        place.map Step.ofName ++ (.down n :: last) := by
      intro last
      simp [hdown]
    have habove : d.IsGrounded place := by simpa using hgrounded.dropLast
    simp only [hsteps, openWay_concat_iff]
    rcases ih habove (fun m hm => hnames m (by simp [hm])) houter with
      ⟨hway, hwalk⟩ | ⟨hbarred, hwalk⟩
    · cases hexecute : outer.execute with
      | true =>
        refine .inl ⟨⟨hway, outer, houter, hexecute⟩, fun last => ?_⟩
        rw [hwalk, walk_down_folder houter hexecute hname (by simp) hfolder]
      | false =>
        refine .inr ⟨fun h => ?_, fun last => ?_⟩
        · have hopen := h.2.execute_eq houter
          rw [hexecute] at hopen
          cases hopen
        · rw [hwalk, walk_denied (by simp) houter hexecute]
    · exact .inr ⟨fun h => hbarred h.1, fun last => hwalk _⟩

/-! ### Paths with a NUL character -/

/-- Nothing is there under a path with a NUL character. -/
theorem leadsTo_of_hasNul (test : Node → Bool) (h : p.hasNul = true) :
    d.leadsTo test p = .ok false := by
  simp [leadsTo, stat, find_eq_nulInPath_iff.mpr h, Fault.meansAbsence]

/-! ### The current folder -/

/-- The current folder has a path: it has not been removed, it lies in folders up to the root, and
its names are such as entries bear. -/
structure HasCurrentFolder (d : Disk) : Prop where
  lost_eq : d.lost = 0
  isGrounded : d.IsGrounded d.cwd
  exists_folder : ∃ access, d.node? d.cwd = some (.folder access)
  isEntryName : ∀ n ∈ d.cwd, IsEntryName n
  noNul : ∀ n ∈ d.cwd, holdsNul n = false
  short : ∀ n ∈ d.cwd, isOverlong n = false

namespace HasCurrentFolder

variable (h : d.HasCurrentFolder) (hp : p.isAbsolute = false)

include h

/-- The names of the current folder are steps down. -/
theorem names : ∀ n ∈ d.cwd, Step.ofName n = .down n ∧ isOverlong n = false :=
  fun n hn => ⟨(h.isEntryName n hn).ofName_eq, h.short n hn⟩

/-- On an open way a walk along the names of the current folder goes on from there. -/
theorem walk_of_openWay (hway : d.OpenWay d.cwd) (links : Nat) (last : List Step) :
    d.walk .target links [] (d.cwd.map Step.ofName ++ last) = d.walk .target links d.cwd last := by
  obtain ⟨access, hfolder⟩ := h.exists_folder
  rcases walk_along_cases h.isGrounded h.names hfolder links with ⟨-, hwalk⟩ | ⟨hbarred, -⟩
  · exact hwalk last
  · exact absurd hway hbarred

/-- If the way is not open no walk goes along the names of the current folder. -/
theorem walk_of_not_openWay (hbarred : ¬ d.OpenWay d.cwd) (links : Nat) (last : List Step) :
    d.walk .target links [] (d.cwd.map Step.ofName ++ last) = .error .denied := by
  obtain ⟨access, hfolder⟩ := h.exists_folder
  rcases walk_along_cases h.isGrounded h.names hfolder links with ⟨hway, -⟩ | ⟨-, hwalk⟩
  · exact absurd hway hbarred
  · exact hwalk last

include hp

/-- A relative path holds a NUL character exactly if it does so made absolute. -/
theorem hasNul_absolute : (p.absolute d.cwd).hasNul = p.hasNul := by
  have hcwd : d.cwd.any holdsNul = false := List.any_eq_false.mpr fun n hn => by simp [h.noNul n hn]
  rw [Path.absolute_of_relative d.cwd hp, Path.hasNul, List.any_append, hcwd, Bool.false_or]
  rfl

/-- A relative path is walked from the current folder. -/
theorem find_eq_walk_cwd (hnul : p.hasNul = false) :
    d.find .target p = d.walk .target maxLinks d.cwd p.steps := by
  have horigin : d.origin p = d.cwd := by simp [origin, hp]
  rw [find_eq_walk (.inr h.lost_eq) hnul, horigin]

/-- Once it has been made absolute it is walked along the names of the current folder first. -/
theorem find_absolute_eq_walk (hnul : p.hasNul = false) :
    d.find .target (p.absolute d.cwd) =
      d.walk .target maxLinks [] (d.cwd.map Step.ofName ++ p.parts.map Step.ofName) := by
  have habs := Path.isAbsolute_absolute d.cwd p
  rw [find_of_isAbsolute habs ((h.hasNul_absolute hp).trans hnul), Path.steps_of_isAbsolute habs,
    Path.absolute_of_relative d.cwd hp, List.map_append]

/-- On an open way a relative path with a name leads where it leads once made absolute. -/
theorem find_absolute (hway : d.OpenWay d.cwd) (hne : p.parts ≠ []) :
    d.find .target (p.absolute d.cwd) = d.find .target p := by
  cases hnul : p.hasNul with
  | true =>
    rw [find_eq_nulInPath_iff.mpr hnul,
      find_eq_nulInPath_iff.mpr ((h.hasNul_absolute hp).trans hnul)]
  | false =>
    have hsteps : p.steps = p.parts.map Step.ofName := by simp [Path.steps, hne]
    rw [h.find_absolute_eq_walk hp hnul, h.walk_of_openWay hway, h.find_eq_walk_cwd hp hnul, hsteps]

/-- The same is told about a relative path with a name once it has been made absolute. -/
theorem leadsTo_absolute (hway : d.OpenWay d.cwd) (test : Node → Bool) (hne : p.parts ≠ []) :
    d.leadsTo test (p.absolute d.cwd) = d.leadsTo test p := by
  rw [leadsTo, leadsTo, stat, stat, h.find_absolute hp hway hne]

/-- If the way is not open no path leads through the current folder once made absolute. -/
theorem find_absolute_of_not_openWay (hbarred : ¬ d.OpenWay d.cwd) (hnul : p.hasNul = false) :
    d.find .target (p.absolute d.cwd) = .error .denied := by
  rw [h.find_absolute_eq_walk hp hnul, h.walk_of_not_openWay hbarred]

/-- In a current folder that may not be gone through no relative path leads anywhere. -/
theorem find_of_not_isOpen (hclosed : ¬ d.IsOpen d.cwd) (hnul : p.hasNul = false) :
    d.find .target p = .error .denied := by
  obtain ⟨access, hfolder⟩ := h.exists_folder
  have hexecute : access.execute = false :=
    Bool.eq_false_iff.mpr fun hexecute => hclosed ⟨access, hfolder, hexecute⟩
  rw [h.find_eq_walk_cwd hp hnul, Path.steps]
  split
  · exact walk_denied (by simp) hfolder hexecute
  · next hnamed =>
    cases hparts : p.parts with
    | nil => exact absurd ⟨by simpa [Path.isAbsolute] using hp, hparts⟩ hnamed
    | cons n rest => exact walk_denied (ofName_ne_slash n) hfolder hexecute

/-- A dot is a folder, if the current one can be gone through. -/
theorem isFolder?_of_nil (hnil : p.parts = []) (hopen : d.IsOpen d.cwd) :
    d.isFolder? p = .ok true := by
  have hnul : p.hasNul = false := by simp [Path.hasNul, hnil]
  have hsteps : p.steps = [.here] := if_pos ⟨by simpa [Path.isAbsolute] using hp, hnil⟩
  obtain ⟨access, hfolder, hexecute⟩ := hopen
  have hfind : d.find .target p = .ok (.entry d.cwd (.folder access)) := by
    rw [h.find_eq_walk_cwd hp hnul, hsteps, walk_here hfolder hexecute]
    exact walk_eq_ok_iff.mpr (.arrive hfolder)
  exact leadsTo_of_find hfind

/-- The current folder is one for its absolute path, if the way is open. -/
theorem isFolder?_absolute_of_nil (hway : d.OpenWay d.cwd) (hnil : p.parts = []) :
    d.isFolder? (p.absolute d.cwd) = .ok true := by
  have hnul : p.hasNul = false := by simp [Path.hasNul, hnil]
  obtain ⟨access, hfolder⟩ := h.exists_folder
  have hfind : d.find .target (p.absolute d.cwd) = .ok (.entry d.cwd (.folder access)) := by
    rw [h.find_absolute_eq_walk hp hnul, h.walk_of_openWay hway, hnil]
    exact walk_eq_ok_iff.mpr (.arrive hfolder)
  exact leadsTo_of_find hfind

end HasCurrentFolder

end Disk

end Sketchbook
