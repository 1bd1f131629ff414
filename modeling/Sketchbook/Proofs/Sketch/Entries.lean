import Mathlib.Data.List.Basic
import Sketchbook.Disk.Arrange
import Sketchbook.Proofs.Disk.Entries
import Sketchbook.Proofs.Sketch.Primary

/-!
# The main file for a folder and for its entries

A search finds the first of its candidates that is a regular file
(`firstPrimary_eq_child_iff`). For an entry of a folder that is no folder itself the same main file
is found as for the folder, unless the entry bears the name of a main file: it then stands for
itself, and when that is the same is said by `primaryOf_child_iff`.
-/

namespace Sketchbook

variable {d : Disk} {p folder : Path} {name e : String}

/-- The extension is seen from the name of the main file. -/
theorem primaryName_injective {e' : String} (h : primaryName folder e = primaryName folder e') :
    e = e' := by
  have hlists : (primaryName folder e).toList = (primaryName folder e').toList := congrArg _ h
  simp only [primaryName, String.toList_append] at hlists
  exact String.toList_injective (List.append_cancel_left hlists)

/-! ### The search for a main file -/

/-- The search finds the main file with an extension exactly if this is a regular file and there is
none with an extension before. -/
theorem firstPrimary_eq_child_iff {extensions : List String} :
    firstPrimary d folder extensions = .ok (some (folder.child (primaryName folder e))) ↔
      ∃ before after, extensions = before ++ e :: after ∧
        d.isFile? (folder.child (primaryName folder e)) = .ok true ∧
        ∀ b ∈ before, d.isFile? (folder.child (primaryName folder b)) = .ok false := by
  induction extensions with
  | nil => simp [firstPrimary]
  | cons x extensions ih =>
    rw [firstPrimary]
    constructor
    · intro h
      split at h
      · cases h
      · next hfile =>
        have hname := Path.child_injective (Option.some.inj (Except.ok.inj h))
        obtain rfl := primaryName_injective hname
        exact ⟨[], extensions, rfl, hfile, by simp⟩
      · next hfile =>
        obtain ⟨before, after, rfl, hfound, hbefore⟩ := ih.mp h
        refine ⟨x :: before, after, rfl, hfound, fun b hb => ?_⟩
        rcases List.mem_cons.mp hb with rfl | hb
        · exact hfile
        · exact hbefore b hb
    · rintro ⟨before, after, hsplit, hfound, hbefore⟩
      rcases List.cons_eq_append_iff.mp hsplit with ⟨rfl, hcons⟩ | ⟨rest, rfl, hrest⟩
      · obtain ⟨rfl, -⟩ := List.cons.inj hcons
        simp only [hfound]
      · have hx := hbefore x (List.mem_cons_self ..)
        simp only [hx]
        exact ih.mpr ⟨rest, after, hrest, hfound, fun b hb =>
          hbefore b (List.mem_cons_of_mem _ hb)⟩

/-- The main file with the older extension is found wherever it is a regular file. -/
theorem primaryIn_eq_pde_iff :
    primaryIn d p = .ok (some (p.child (primaryName p "pde"))) ↔
      d.isFile? (p.child (primaryName p "pde")) = .ok true := by
  rw [primaryIn, firstPrimary_eq_child_iff]
  constructor
  · rintro ⟨-, -, -, hfound, -⟩
    exact hfound
  · intro hfound
    exact ⟨[], ["ino"], rfl, hfound, by simp⟩

/-- The main file with the newer extension is found only where there is none with the older. -/
theorem primaryIn_eq_ino_iff :
    primaryIn d p = .ok (some (p.child (primaryName p "ino"))) ↔
      d.isFile? (p.child (primaryName p "ino")) = .ok true ∧
        d.isFile? (p.child (primaryName p "pde")) = .ok false := by
  rw [primaryIn, firstPrimary_eq_child_iff]
  constructor
  · rintro ⟨before, after, hsplit, hfound, hbefore⟩
    rcases List.cons_eq_append_iff.mp hsplit with ⟨-, hcons⟩ | ⟨rest, rfl, -⟩
    · exact absurd (List.cons.inj hcons).1 (by decide)
    · exact ⟨hfound, hbefore "pde" (List.mem_cons_self ..)⟩
  · rintro ⟨hfound, hpde⟩
    exact ⟨["pde"], [], rfl, hfound, by simpa using hpde⟩

/-! ### Entries of a folder -/

/-- For a folder its main file is looked for in it. -/
theorem primaryOf_of_isFolder? (h : d.isFolder? p = .ok true) :
    primaryOf d p = primaryIn d p := by
  rw [primaryOf, h]

/-- An entry with the name of a main file stands for itself. -/
theorem primaryOf_child_of_eq (he : e = "pde" ∨ e = "ino")
    (hfile : d.isFolder? (p.child (primaryName p e)) = .ok false) :
    primaryOf d (p.child (primaryName p e)) = .ok (some (p.child (primaryName p e))) := by
  rw [primaryOf, hfile]
  refine if_pos ?_
  rw [Path.name_child, Path.parent_child]
  exact he.imp (congrArg _) (congrArg _)

/-- For an entry with another name the main file is looked for in its folder. -/
theorem primaryOf_child_of_ne (hpde : name ≠ primaryName p "pde")
    (hino : name ≠ primaryName p "ino") (hfile : d.isFolder? (p.child name) = .ok false) :
    primaryOf d (p.child name) = primaryIn d p := by
  rw [primaryOf, hfile]
  simp [primaryBeside, hpde, hino]

/-- An entry that is no folder and bears the name of a main file stands for itself. For an entry
that is no folder the same is found as for its folder exactly if it is the main file that goes
first, or does not bear the name of one. Links are set apart that lead to a folder, and those where
this cannot be told: there the search fails. -/
theorem primaryOf_child_iff {place : Place} {n : Node} (hfolder : d.isFolder? p = .ok true)
    (hentry : d.find .entry (p.child name) = .ok (.entry place n)) (hn : n.isFolder = false) :
    ((∃ target, n = .link target) ∧
      (d.isFolder? (p.child name) = .ok true ∨
        ∃ fault, d.isFolder? (p.child name) = .error fault ∧
          primaryOf d (p.child name) = .error (.disk fault (p.child name)))) ∨
    ((name = primaryName p "pde" ∨ name = primaryName p "ino" →
        primaryOf d (p.child name) = .ok (some (p.child name))) ∧
      (primaryOf d (p.child name) = primaryOf d p ↔
        (name = primaryName p "pde" → d.isFile? (p.child name) = .ok true) ∧
          (name = primaryName p "ino" → d.isFile? (p.child name) = .ok true ∧
            d.isFile? (p.child (primaryName p "pde")) = .ok false))) := by
  have hlink : d.isFolder? (p.child name) ≠ .ok false → ∃ target, n = .link target := by
    intro hnot
    by_contra hlink
    have htold := Disk.isFolder?_of_find hentry fun target h => hlink ⟨target, h⟩
    exact hnot (htold.trans (congrArg _ hn))
  cases htold : d.isFolder? (p.child name) with
  | error fault =>
    refine .inl ⟨hlink (by simp [htold]), .inr ⟨fault, rfl, ?_⟩⟩
    rw [primaryOf, htold]
  | ok isFolder =>
    cases isFolder with
    | true => exact .inl ⟨hlink (by simp [htold]), .inl rfl⟩
    | false =>
      refine .inr ⟨?_, ?_⟩
      · rintro (rfl | rfl)
        · exact primaryOf_child_of_eq (.inl rfl) htold
        · exact primaryOf_child_of_eq (.inr rfl) htold
      rw [primaryOf_of_isFolder? hfolder]
      by_cases hpde : name = primaryName p "pde"
      · subst hpde
        have hother : primaryName p "pde" ≠ primaryName p "ino" := fun h =>
          absurd (primaryName_injective h) (by decide)
        rw [primaryOf_child_of_eq (.inl rfl) htold, eq_comm, primaryIn_eq_pde_iff]
        simp [hother]
      · by_cases hino : name = primaryName p "ino"
        · subst hino
          rw [primaryOf_child_of_eq (.inr rfl) htold, eq_comm, primaryIn_eq_ino_iff]
          simp [hpde]
        · rw [primaryOf_child_of_ne hpde hino htold]
          simp [hpde, hino]

/-- A disk with the folder `/B` that holds both main files, and a file beside them. -/
def twoMainFiles : Disk :=
  (((Disk.blank []).placeFile [] ["B", "B.pde"] [0x78]).placeFile [] ["B", "B.ino"]
    [0x79]).placeFile [] ["B", "a.c"] [0x7a]

/-- The newer of two main files stands for itself, while for the folder the older one is found. -/
theorem primaryOf_twoMainFiles :
    twoMainFiles.isFolder? ⟨.root, ["B"]⟩ = .ok true ∧
      twoMainFiles.find .entry (Path.child ⟨.root, ["B"]⟩ "B.ino") =
        .ok (.entry ["B", "B.ino"] (.file [0x79] .full)) ∧
      primaryOf twoMainFiles (Path.child ⟨.root, ["B"]⟩ "B.ino") =
        .ok (some ⟨.root, ["B", "B.ino"]⟩) ∧
      primaryOf twoMainFiles ⟨.root, ["B"]⟩ = .ok (some ⟨.root, ["B", "B.pde"]⟩) := by
  decide +kernel

/-- For the file beside two main files the older one is found, as for the folder. -/
theorem primaryOf_child_twoMainFiles :
    twoMainFiles.isFolder? ⟨.root, ["B"]⟩ = .ok true ∧
      twoMainFiles.find .entry (Path.child ⟨.root, ["B"]⟩ "a.c") =
        .ok (.entry ["B", "a.c"] (.file [0x7a] .full)) ∧
      primaryOf twoMainFiles (Path.child ⟨.root, ["B"]⟩ "a.c") =
        primaryOf twoMainFiles ⟨.root, ["B"]⟩ := by
  have hfolder : twoMainFiles.isFolder? ⟨.root, ["B"]⟩ = .ok true := by decide +kernel
  have hentry : twoMainFiles.find .entry (Path.child ⟨.root, ["B"]⟩ "a.c") =
      .ok (.entry ["B", "a.c"] (.file [0x7a] .full)) := by decide +kernel
  refine ⟨hfolder, hentry, ?_⟩
  rcases primaryOf_child_iff hfolder hentry rfl with ⟨⟨target, hlink⟩, -⟩ | ⟨-, hsame⟩
  · cases hlink
  · refine hsame.mpr ⟨fun hpde => ?_, fun hino => ?_⟩
    · exact absurd hpde (by decide +kernel)
    · exact absurd hino (by decide +kernel)

end Sketchbook
