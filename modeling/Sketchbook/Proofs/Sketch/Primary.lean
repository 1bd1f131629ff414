import Sketchbook.Disk.Resolve
import Sketchbook.Proofs.TabSet.Scan
import Sketchbook.Sketch.Primary

/-!
# The main file that is found

A path that has been resolved is absolute (`Disk.isAbsolute_of_resolve`). The main file found for a
path is a regular file in the folder at the path or around it, or it is the file at the path, be it
there or not (`primaryOf_cases`). In any case it is no folder (`isFolder?_of_primaryOf`).
-/

namespace Sketchbook

variable {d : Disk} {p q : Path}

/-- Resolving a path gives an absolute one. -/
theorem Disk.isAbsolute_of_resolve (h : d.resolve p = .ok q) : q.isAbsolute = true := by
  unfold resolve at h
  split at h
  · cases h
  · simp only at h
    split at h
    · cases h
    · next found habs =>
      have hfull : q = found.cancelDots := by
        split at h
        · cases h
        · cases h
        · exact (Except.ok.inj h).symm
      have hfound : found.isAbsolute = true := isAbsolute_of_absolute? habs
      rw [hfull]
      exact hfound

/-- The path of a regular file leads to one. -/
theorem Disk.exists_of_isFile? (h : d.isFile? p = .ok true) :
    ∃ bytes access, d.stat p = .ok (.file bytes access) := by
  unfold isFile? leadsTo at h
  cases hstat : d.stat p with
  | error fault =>
    simp only [hstat] at h
    split at h <;> cases h
  | ok n =>
    simp only [hstat] at h
    cases n with
    | file bytes access => exact ⟨bytes, access, rfl⟩
    | folder access => cases h
    | link target => cases h

/-- What is a regular file is no folder. -/
theorem Disk.isFolder?_of_isFile? (h : d.isFile? p = .ok true) : d.isFolder? p = .ok false := by
  obtain ⟨bytes, access, hstat⟩ := exists_of_isFile? h
  simp only [isFolder?, leadsTo, hstat]
  rfl

/-- The main file found in a folder is a regular file there with the name of the folder. -/
theorem exists_of_firstPrimary {folder : Path} {extensions : List String}
    (h : firstPrimary d folder extensions = .ok (some q)) :
    ∃ e ∈ extensions, q = folder.child (primaryName folder e) ∧ d.isFile? q = .ok true := by
  induction extensions with
  | nil => cases h
  | cons e extensions ih =>
    unfold firstPrimary at h
    simp only at h
    split at h
    · cases h
    · next hfile =>
      cases h
      exact ⟨e, List.mem_cons_self .., rfl, hfile⟩
    · obtain ⟨e', he', hq⟩ := ih h
      exact ⟨e', List.mem_cons_of_mem _ he', hq⟩

/-- The main file found for a path is at the path, or it lies in the folder at the path or around
it. -/
theorem primaryOf_cases (h : primaryOf d p = .ok (some q)) :
    q = p ∧ d.isFolder? p = .ok false ∨
      ∃ folder e, (folder = p ∨ folder = p.parent) ∧ q = folder.child (primaryName folder e) ∧
        d.isFile? q = .ok true := by
  unfold primaryOf at h
  split at h
  · cases h
  · obtain ⟨e, -, hq, hfile⟩ := exists_of_firstPrimary h
    exact .inr ⟨p, e, .inl rfl, hq, hfile⟩
  · next hfolder =>
    unfold primaryBeside at h
    split at h
    · cases h
      exact .inl ⟨rfl, hfolder⟩
    · obtain ⟨e, -, hq, hfile⟩ := exists_of_firstPrimary h
      exact .inr ⟨p.parent, e, .inr rfl, hq, hfile⟩

/-- The main file found for an absolute path has one. -/
theorem isAbsolute_of_primaryOf (hp : p.isAbsolute = true)
    (h : primaryOf d p = .ok (some q)) : q.isAbsolute = true := by
  rcases primaryOf_cases h with ⟨rfl, -⟩ | ⟨folder, e, rfl | rfl, rfl, -⟩
  · exact hp
  · exact hp
  · exact hp

/-- A name with an extension of several letters is not the double dots. -/
theorem primaryName_ne_dots (folder : Path) {e : String} (he : 1 < e.length) :
    primaryName folder e ≠ ".." := by
  intro heq
  have hlength := congrArg String.length heq
  simp only [primaryName, String.length_append] at hlength
  have hdot : ".".length = 1 := rfl
  have hdots : "..".length = 2 := rfl
  omega

/-- A main file in a folder is an entry of this folder, and it is the main file for its own path as
well. -/
theorem primaryOf_primary (hfolder : d.isFolder? p = .ok true)
    (h : primaryOf d p = .ok (some q)) :
    q = p.child q.name ∧ q.name ≠ ".." ∧ d.isFile? q = .ok true ∧ primaryOf d q = .ok (some q) := by
  simp only [primaryOf, hfolder] at h
  obtain ⟨e, he, rfl, hfile⟩ := exists_of_firstPrimary h
  rw [Path.name_child]
  have hext : e = "pde" ∨ e = "ino" := by simpa using he
  have hself : primaryOf d (p.child (primaryName p e)) =
      .ok (some (p.child (primaryName p e))) := by
    simp only [primaryOf, Disk.isFolder?_of_isFile? hfile, primaryBeside, Path.name_child,
      Path.parent_child]
    rw [if_pos]
    rcases hext with rfl | rfl
    · exact .inl rfl
    · exact .inr rfl
  have hname : primaryName p e ≠ ".." := by
    rcases hext with rfl | rfl
    · exact primaryName_ne_dots p (by decide)
    · exact primaryName_ne_dots p (by decide)
  exact ⟨rfl, hname, hfile, hself⟩

/-- The main file that is found is no folder. -/
theorem isFolder?_of_primaryOf (h : primaryOf d p = .ok (some q)) :
    d.isFolder? q = .ok false := by
  rcases primaryOf_cases h with ⟨rfl, hfolder⟩ | ⟨folder, e, -, -, hfile⟩
  · exact hfolder
  · exact Disk.isFolder?_of_isFile? hfile

end Sketchbook
