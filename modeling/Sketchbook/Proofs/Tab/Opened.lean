import Sketchbook.Proofs.Disk.Walk
import Sketchbook.Proofs.Path.Pieces
import Sketchbook.Proofs.Tab.Steps

/-!
# Tabs that have been opened

A tab has an absolute path of proper names from the time it is opened (`Tab.isOpened_of_load`), and
again when its file has been renamed (`Tab.isOpened_of_rename`).
-/

namespace Sketchbook

variable {μ : Type} {d : Disk}

/-- A path that has been made absolute is made of its own names and those of the current folder. -/
theorem Disk.isPathPart_of_absolute {p q : Path} (hp : ∀ n ∈ p.parts, IsPathPart n)
    (hcwd : ∀ n ∈ d.cwd, IsPathPart n) (h : d.absolute p = .ok q) :
    q.isAbsolute = true ∧ ∀ n ∈ q.parts, IsPathPart n := by
  unfold Disk.absolute absolute? at h
  split at h
  · next found habsolute =>
    cases h
    split at habsolute
    · cases habsolute
      unfold Path.absolute
      split
      · next habs => exact ⟨habs, hp⟩
      · refine ⟨rfl, fun n hn => ?_⟩
        rcases List.mem_append.mp hn with hn | hn
        · exact hcwd n hn
        · exact hp n hn
    · cases habsolute
  · cases h

namespace Tab

variable {t : Tab μ} {p : Path}

/-- A tab as it is made by opening or renaming a file: its path is absolute, and in it are names
that can stand in a path, without a NUL character. -/
structure IsOpened (t : Tab μ) : Prop where
  isAbsolute_eq : t.path.isAbsolute = true
  hasNul_eq : t.path.hasNul = false
  isPathPart : ∀ n ∈ t.path.parts, IsPathPart n

/-- The tab for a file has the path of this file, in which there is no NUL character. -/
theorem path_of_loadAt {q : Path} {data : Option μ} {sink : Sink} {texts : List String}
    (h : loadAt d q data sink = .ok (t, texts)) : t.path = q ∧ q.hasNul = false := by
  rw [loadAt_eq] at h
  have hnul : d.readFile q ≠ .error .nulInPath := by
    intro hread
    simp [hread] at h
  rw [Ne, Disk.readFile_eq_nulInPath_iff, Bool.not_eq_true] at hnul
  refine ⟨?_, hnul⟩
  cases hread : d.readFile q with
  | ok bytes =>
    simp only [hread, Except.ok.injEq, Prod.mk.injEq] at h
    rw [← h.1]
  | error fault =>
    simp only [hread] at h
    split at h
    · next heq => cases heq
    · cases h
    · cases h
      rfl

/-- Opening a file makes such a tab. -/
theorem isOpened_of_load {data : Option μ} {sink : Sink} {texts : List String}
    (hp : ∀ n ∈ p.parts, IsPathPart n) (hcwd : ∀ n ∈ d.cwd, IsPathPart n)
    (h : load d p data sink = .ok (t, texts)) : t.IsOpened := by
  unfold load at h
  cases habs : d.absolute p with
  | error f => simp [habs] at h
  | ok q =>
    obtain ⟨habsolute, hparts⟩ := Disk.isPathPart_of_absolute hp hcwd habs
    simp only [habs] at h
    obtain ⟨rfl, hnul⟩ := path_of_loadAt h
    exact ⟨habsolute, hnul, hparts⟩

/-- Renaming a file makes such a tab, whatever the tab was before. -/
theorem isOpened_of_rename {desk e : Desk μ} (hp : ∀ n ∈ p.parts, IsPathPart n)
    (hcwd : ∀ n ∈ desk.disk.cwd, IsPathPart n) (h : (rename p).run desk = (.ok true, e)) :
    e.tab.IsOpened := by
  rw [run_rename] at h
  cases habs : desk.disk.absolute p with
  | error f => simp [habs] at h
  | ok q =>
    obtain ⟨habsolute, hparts⟩ := Disk.isPathPart_of_absolute hp hcwd habs
    simp only [habs] at h
    cases hrename : desk.disk.rename desk.tab.path q with
    | error fault => cases fault <;> simp [hrename] at h
    | ok d =>
      simp only [hrename, Prod.mk.injEq, true_and] at h
      subst h
      refine ⟨habsolute, ?_, hparts⟩
      unfold Disk.rename at hrename
      split at hrename
      · cases hrename
      · next hnul => exact (Bool.or_eq_false_iff.mp (by simpa using hnul)).2

end Tab

end Sketchbook
