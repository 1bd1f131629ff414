import Sketchbook.Proofs.Command.Steps
import Sketchbook.Proofs.Disk.Resolving
import Sketchbook.Proofs.Sketch.Primary
import Sketchbook.Proofs.TabSet.Load

/-!
# Naming the folder or the main file

A sketch can be named by its folder or by its main file, and the run is the same, whatever else is
asked for. The one exception is a main file that is a link and leads to a file that is not the main
file: then the sketch is not found under the name of its main file
(`Command.run_mainFile_eq_or_link`).
-/

namespace Sketchbook.Command

variable {d : Disk} {request : Request} {args args' : List String} {sketch : String}
  {p primary : Path}

/-- A sketch that is found in a folder is found as well if its main file is named, unless this file
is a link. -/
theorem finds_mainFile_or_link (hcurrent : d.lost = 0) (hcwd : ".." ∉ d.cwd)
    (hresolve : d.resolve (Path.ofString (sketchText d request)) = .ok p)
    (hfolder : d.isFolder? p = .ok true) (hprimary : primaryOf d p = .ok (some primary))
    (hsketch : Path.ofString sketch =
      (Path.ofString (sketchText d request)).child primary.name) :
    Finds d { request with sketch := some sketch } primary ∨
      ∃ target, d.node? (p.parts ++ [primary.name]) = some (.link target) := by
  obtain ⟨hchild, hdots, hfile, hself⟩ := primaryOf_primary hfolder hprimary
  have hpart : IsPathPart primary.name := by
    have hmem : primary.name ∈ (Path.ofString sketch).parts := by simp [hsketch]
    exact Path.isPathPart_of_mem_ofString hmem
  obtain ⟨bytes, access, hstat⟩ := Disk.exists_of_isFile? hfile
  rw [hchild] at hstat
  rcases Disk.resolve_child_or_link hcurrent hcwd (fun _ => Path.isPathPart_of_mem_ofString) hpart
    hdots hresolve hstat with hresolved | hlink
  · rw [← hsketch, ← hchild] at hresolved
    exact .inl ⟨primary, hresolved, hself⟩
  · exact .inr hlink

/-- A run on a sketch that has been found by its folder is the same if its main file is named
instead, unless the main file is a link and the sketch is not found by it. The current folder may be
any place, which double dots are no part of. -/
theorem run_mainFile_eq_or_link (hcwd : ".." ∉ d.cwd)
    (hargs : readArguments args = .ok (.work request))
    (hargs' : readArguments args' = .ok (.work { request with sketch := some sketch }))
    (hresolve : d.resolve (Path.ofString (sketchText d request)) = .ok p)
    (hfolder : d.isFolder? p = .ok true) (hprimary : primaryOf d p = .ok (some primary))
    (hsketch : Path.ofString sketch =
      (Path.ofString (sketchText d request)).child primary.name) (order : ListingOrder)
    (typed : Typed) :
    runIn order d args' typed = runIn order d args typed ∨
      (∃ target, d.node? (p.parts ++ [primary.name]) = some (.link target)) ∧
        ¬ Finds d { request with sketch := some sketch } primary := by
  by_cases hcurrent : d.lost = 0
  · by_cases hfinds : Finds d { request with sketch := some sketch } primary
    · have hfolderFinds : Finds d request primary := ⟨p, hresolve, hprimary⟩
      refine .inl ?_
      simp only [runIn, hargs, hargs', hcurrent]
      exact hfolderFinds.work_congr order hfinds typed
    · rcases finds_mainFile_or_link hcurrent hcwd hresolve hfolder hprimary hsketch with
        hfound | hlink
      · exact absurd hfound hfinds
      · exact .inr ⟨hlink, hfinds⟩
  · simp [runIn, hcurrent]

/-- A disk with the sketch folder `/B`, whose main file is a link to a file with another name. -/
def linkedDisk : Disk :=
  ((Disk.blank []).placeFile [] ["X", "y.ino"] [0x78]).placeLink [] ["B", "B.ino"] "../X/y.ino"

/-- The sketch is found by its folder, with a link for its main file, but not by this main file. -/
theorem run_mainFile_linked :
    readArguments ["/B"] = .ok (.work ⟨some "/B", none, none, none, false⟩) ∧
      readArguments ["/B/B.ino"] = .ok (.work ⟨some "/B/B.ino", none, none, none, false⟩) ∧
      linkedDisk.resolve (Path.ofString "/B") = .ok ⟨.root, ["B"]⟩ ∧
      linkedDisk.isFolder? ⟨.root, ["B"]⟩ = .ok true ∧
      primaryOf linkedDisk ⟨.root, ["B"]⟩ = .ok (some ⟨.root, ["B", "B.ino"]⟩) ∧
      Path.ofString "/B/B.ino" = (Path.ofString "/B").child "B.ino" ∧
      (run linkedDisk ["/B"] (.text "")).ending = .exit 0 ∧
      (run linkedDisk ["/B/B.ino"] (.text "")).ending = .exit 1 := by
  decide +kernel

/-- A sketch whose main file is no link is named by its folder and by its main file. -/
theorem run_mainFile_blink :
    ".." ∉ (TabSet.blinkOn "none").disk.cwd ∧
      readArguments ["/B", "-d", "a.c"] = .ok (.work ⟨some "/B", none, none, some "a.c", false⟩) ∧
      readArguments ["/B/B.ino", "-d", "a.c"] =
        .ok (.work ⟨some "/B/B.ino", none, none, some "a.c", false⟩) ∧
      (TabSet.blinkOn "none").disk.resolve (Path.ofString "/B") = .ok ⟨.root, ["B"]⟩ ∧
      (TabSet.blinkOn "none").disk.isFolder? ⟨.root, ["B"]⟩ = .ok true ∧
      primaryOf (TabSet.blinkOn "none").disk ⟨.root, ["B"]⟩ =
        .ok (some ⟨.root, ["B", "B.ino"]⟩) ∧
      Path.ofString "/B/B.ino" = (Path.ofString "/B").child "B.ino" ∧
      runIn .asKept (TabSet.blinkOn "none").disk ["/B/B.ino", "-d", "a.c"] (.text "y\n") =
        runIn .asKept (TabSet.blinkOn "none").disk ["/B", "-d", "a.c"] (.text "y\n") := by
  have hcwd : ".." ∉ (TabSet.blinkOn "none").disk.cwd := by decide +kernel
  have hargs : readArguments ["/B", "-d", "a.c"] =
      .ok (.work ⟨some "/B", none, none, some "a.c", false⟩) := by decide +kernel
  have hargs' : readArguments ["/B/B.ino", "-d", "a.c"] =
      .ok (.work ⟨some "/B/B.ino", none, none, some "a.c", false⟩) := by decide +kernel
  have hresolve : (TabSet.blinkOn "none").disk.resolve (Path.ofString "/B") =
      .ok ⟨.root, ["B"]⟩ := by decide +kernel
  have hfolder : (TabSet.blinkOn "none").disk.isFolder? ⟨.root, ["B"]⟩ = .ok true := by
    decide +kernel
  have hprimary : primaryOf (TabSet.blinkOn "none").disk ⟨.root, ["B"]⟩ =
      .ok (some ⟨.root, ["B", "B.ino"]⟩) := by decide +kernel
  have hsketch : Path.ofString "/B/B.ino" = (Path.ofString "/B").child "B.ino" := by
    decide +kernel
  have hnode : (TabSet.blinkOn "none").disk.node? ["B", "B.ino"] =
      some (.file [0x78] .full) := by decide +kernel
  refine ⟨hcwd, hargs, hargs', hresolve, hfolder, hprimary, hsketch, ?_⟩
  rcases run_mainFile_eq_or_link hcwd hargs hargs' hresolve hfolder hprimary hsketch
    .asKept (.text "y\n") with heq | ⟨⟨target, hlink⟩, -⟩
  · exact heq
  · have hlink' := hnode.symm.trans hlink
    cases hlink'

end Sketchbook.Command
