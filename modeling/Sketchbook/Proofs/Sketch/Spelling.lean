import Sketchbook.Proofs.Disk.Barred
import Sketchbook.Proofs.Disk.CurrentFolder
import Sketchbook.Proofs.Sketch.Entries

/-!
# Relative and absolute paths of a sketch

The main file bears the name of its folder, and this name is read off the path. A relative path may
leave it out, because it is a single dot, or the name of a file in the current folder. Then another
name is looked for than for the same path made absolute, and the same main file is never found; for
all other paths it is (`sameSketch_absolute_iff`).
-/

namespace Sketchbook

variable {d : Disk} {p q : Path} {e : String}

/-- What is found for two spellings of a path: nothing for both, the same main file, with its path
made absolute for the second, or both searches fail for the same fault. -/
inductive SameSketch (cwd : Place) :
    Except Failure (Option Path) → Except Failure (Option Path) → Prop
  | none : SameSketch cwd (.ok none) (.ok none)
  | found (q : Path) : SameSketch cwd (.ok (some q)) (.ok (some (q.absolute cwd)))
  | failed (fault : Fault) (p q : Path) :
      SameSketch cwd (.error (.disk fault p)) (.error (.disk fault q))

/-- The path of the folder that is searched for the main file. -/
def sketchFolder (d : Disk) (p : Path) : Path :=
  if d.isFolder? p = .ok false then p.parent else p

/-- The name of the folder that is searched is the same for the relative path and the absolute one:
the path has a name for it, or it is the root. -/
def NamesSketch (d : Disk) (p : Path) : Prop :=
  d.cwd = [] ∨ (sketchFolder d p).parts ≠ []

theorem primaryName_absolute {cwd : Place} (hname : cwd = [] ∨ p.parts ≠ []) (e : String) :
    primaryName (p.absolute cwd) e = primaryName p e := by
  rw [primaryName, primaryName, Path.name_absolute hname]

/-! ### The names of main files -/

/-- A main file that is found bears the name of the folder that is searched. -/
theorem name_of_primaryOf (h : primaryOf d p = .ok (some q)) :
    ∃ e ∈ ["pde", "ino"], q.name = primaryName (sketchFolder d p) e := by
  unfold primaryOf at h
  split at h
  · cases h
  · next hfolder =>
    obtain ⟨e, he, rfl, -⟩ := exists_of_firstPrimary h
    have hsketch : sketchFolder d p = p := by simp [sketchFolder, hfolder]
    exact ⟨e, he, by rw [hsketch, Path.name_child]⟩
  · next hfile =>
    have hsketch : sketchFolder d p = p.parent := if_pos hfile
    rw [hsketch]
    unfold primaryBeside at h
    split at h
    · next hname =>
      cases h
      exact hname.elim (fun h => ⟨"pde", by simp, h⟩) fun h => ⟨"ino", by simp, h⟩
    · obtain ⟨e, he, rfl, -⟩ := exists_of_firstPrimary h
      exact ⟨e, he, Path.name_child ..⟩

/-- The name of a main file is not empty. -/
theorem primaryName_ne_empty (p : Path) (e : String) : primaryName p e ≠ "" := by
  intro h
  have hlength := congrArg String.length h
  simp only [primaryName, String.length_append] at hlength
  have hdot : ".".length = 1 := rfl
  have hempty : "".length = 0 := rfl
  omega

/-- From the name of a main file it is seen whether its folder has one. -/
theorem name_eq_of_primaryName_eq {e' : String} (he : e ∈ ["pde", "ino"])
    (he' : e' ∈ ["pde", "ino"]) (h : primaryName p e = primaryName q e') (hq : q.name = "") :
    p.name = "" := by
  have hlength : ∀ x ∈ ["pde", "ino"], x.length = 3 := by decide
  have heq := congrArg String.length h
  simp only [primaryName, String.length_append, hq, hlength e he, hlength e' he'] at heq
  have hempty : "".length = 0 := rfl
  rw [← String.length_eq_zero_iff]
  omega

/-! ### Paths with a NUL character -/

/-- The name of a main file holds a NUL character if that of its folder does. -/
theorem holdsNul_primaryName (p : Path) (he : holdsNul e = false) :
    holdsNul (primaryName p e) = holdsNul p.name := by
  unfold holdsNul at he ⊢
  simp only [primaryName, String.toList_append, List.contains_append, he]
  simp

/-- No main file is found in a folder with a NUL character in its path. -/
theorem firstPrimary_of_hasNul (h : p.hasNul = true) (extensions : List String) :
    firstPrimary d p extensions = .ok none := by
  induction extensions with
  | nil => rfl
  | cons e extensions ih =>
    have hnul : (p.child (primaryName p e)).hasNul = true := by
      rw [Path.hasNul_child, h, Bool.true_or]
    have hfile : d.isFile? (p.child (primaryName p e)) = .ok false := Disk.leadsTo_of_hasNul _ hnul
    rw [firstPrimary]
    simp only [hfile]
    exact ih

namespace Disk.HasCurrentFolder

variable (h : d.HasCurrentFolder) (hp : p.isAbsolute = false)

include h hp

/-- The search fails for the absolute path of a folder if no entry can be reached through it. -/
theorem primaryIn_absolute_of_denied (hnul : p.hasNul = false)
    (hdenied : ∀ n, holdsNul n = false →
      d.find .target ((p.child n).absolute d.cwd) = .error .denied) :
    ∃ q, primaryIn d (p.absolute d.cwd) = .error (.disk .denied q) := by
  have hname : holdsNul (primaryName (p.absolute d.cwd) "pde") = false := by
    rw [holdsNul_primaryName _ (by decide)]
    exact Path.holdsNul_name ((h.hasNul_absolute hp).trans hnul)
  have hfind := hdenied _ hname
  rw [Path.absolute_child] at hfind
  have hfile : d.isFile? ((p.absolute d.cwd).child (primaryName (p.absolute d.cwd) "pde")) =
      .error .denied := leadsTo_of_bars rfl hfind
  exact ⟨_, by rw [primaryIn, firstPrimary, hfile]⟩

/-! ### On an open way -/

section Open

variable (hway : d.OpenWay d.cwd)

include hway

/-- Searching a folder gives the same for its relative path as for the absolute one, if it has the
same name in both. -/
theorem sameSketch_firstPrimary (hname : d.cwd = [] ∨ p.parts ≠ []) (extensions : List String) :
    SameSketch d.cwd (firstPrimary d p extensions)
      (firstPrimary d (p.absolute d.cwd) extensions) := by
  induction extensions with
  | nil => exact .none
  | cons e extensions ih =>
    have hcandidate : (p.absolute d.cwd).child (primaryName (p.absolute d.cwd) e) =
        (p.child (primaryName p e)).absolute d.cwd := by
      rw [primaryName_absolute hname, Path.absolute_child]
    have hfile : d.isFile? ((p.child (primaryName p e)).absolute d.cwd) =
        d.isFile? (p.child (primaryName p e)) :=
      h.leadsTo_absolute (p := p.child _) hp hway _ (by simp)
    rw [firstPrimary, firstPrimary, hcandidate]
    simp only [hfile]
    cases d.isFile? (p.child (primaryName p e)) with
    | error fault => exact .failed _ _ _
    | ok found =>
      cases found with
      | true => exact .found _
      | false => exact ih

/-- The main file of the root is the same for a dot, if the root is the current folder. -/
theorem sameSketch_of_nil (hnil : p.parts = []) (hcwd : d.cwd = []) :
    SameSketch d.cwd (primaryOf d p) (primaryOf d (p.absolute d.cwd)) := by
  have hnul : p.hasNul = false := by simp [Path.hasNul, hnil]
  rw [primaryOf_of_isFolder? (h.isFolder?_absolute_of_nil hp hway hnil)]
  by_cases hopen : d.IsOpen d.cwd
  · rw [primaryOf_of_isFolder? (h.isFolder?_of_nil hp hnil hopen)]
    exact h.sameSketch_firstPrimary hp hway (.inl hcwd) _
  · have hfolder : d.isFolder? p = .error .denied :=
      leadsTo_of_bars rfl (h.find_of_not_isOpen hp hopen hnul)
    obtain ⟨q, hdenied⟩ := h.primaryIn_absolute_of_denied hp hnul fun n hn => by
      rw [h.find_absolute (p := p.child n) hp hway (by simp)]
      exact h.find_of_not_isOpen (p := p.child n) hp hopen
        (Path.hasNul_child_eq_false_iff.mpr ⟨hnul, hn⟩)
    rw [hdenied, primaryOf, hfolder]
    exact .failed _ _ _

/-- The same main file is found for a relative path and for the absolute one, if the folder that is
searched has a name in it. -/
theorem sameSketch_of_namesSketch (hnames : NamesSketch d p) :
    SameSketch d.cwd (primaryOf d p) (primaryOf d (p.absolute d.cwd)) := by
  by_cases hne : p.parts = []
  · have hsearched : (sketchFolder d p).parts = [] := by
      unfold sketchFolder
      split
      · simp [Path.parent, hne]
      · exact hne
    exact h.sameSketch_of_nil hp hway hne (hnames.resolve_right fun hnot => hnot hsearched)
  · have hfolder : d.isFolder? (p.absolute d.cwd) = d.isFolder? p :=
      h.leadsTo_absolute hp hway _ hne
    unfold primaryOf
    rw [hfolder]
    cases htold : d.isFolder? p with
    | error fault => exact .failed _ _ _
    | ok isFolder =>
      cases isFolder with
      | true => exact h.sameSketch_firstPrimary hp hway (.inr hne) _
      | false =>
        have hparent : d.cwd = [] ∨ p.parent.parts ≠ [] := by
          simpa [NamesSketch, sketchFolder, htold] using hnames
        simp only [primaryBeside, Path.parent_absolute d.cwd hp hne, Path.name_absolute (.inr hne),
          primaryName_absolute hparent]
        split
        · exact .found p
        · exact h.sameSketch_firstPrimary (p := p.parent) hp hway hparent _

/-- If it has no name in the relative path, the folder that is searched for the absolute path is the
current one. -/
theorem parts_sketchFolder_absolute (hnames : ¬ NamesSketch d p) :
    (sketchFolder d (p.absolute d.cwd)).parts = d.cwd := by
  have hsearched : (sketchFolder d p).parts = [] := by
    by_contra hne
    exact hnames (.inr hne)
  by_cases hne : p.parts = []
  · have hfolder := h.isFolder?_absolute_of_nil hp hway hne
    rw [sketchFolder, if_neg (by simp [hfolder]), Path.absolute_of_relative d.cwd hp, hne,
      List.append_nil]
  · have hfolder : d.isFolder? (p.absolute d.cwd) = d.isFolder? p :=
      h.leadsTo_absolute hp hway _ hne
    unfold sketchFolder at hsearched ⊢
    rw [hfolder]
    split at hsearched
    · next hfile =>
      rw [if_pos hfile, Path.parent_absolute d.cwd hp hne,
        Path.absolute_of_relative d.cwd (p := p.parent) hp, hsearched, List.append_nil]
    · exact absurd hsearched hne

/-- Where the folder has no name in the relative path, what is found for it is not what is found for
the absolute path. -/
theorem primaryOf_absolute_ne (hnames : ¬ NamesSketch d p) (hfound : primaryOf d p = .ok (some q)) :
    primaryOf d (p.absolute d.cwd) ≠ .ok (some (q.absolute d.cwd)) := by
  intro hfound'
  obtain ⟨hcwd, hsearched⟩ := not_or.mp hnames
  obtain ⟨e, he, hname⟩ := name_of_primaryOf hfound
  obtain ⟨e', he', hname'⟩ := name_of_primaryOf hfound'
  have hparts : q.parts ≠ [] := by
    intro hnil
    have hempty : primaryName (sketchFolder d p) e = "" := by simp [← hname, Path.name, hnil]
    exact primaryName_ne_empty _ e hempty
  have hempty : (sketchFolder d p).name = "" := by
    simp [Path.name, not_not.mp hsearched]
  rw [Path.name_absolute (.inr hparts), hname] at hname'
  have hnone : (sketchFolder d (p.absolute d.cwd)).name = "" :=
    name_eq_of_primaryName_eq he' he hname'.symm hempty
  rw [Path.name, h.parts_sketchFolder_absolute hp hway hnames,
    List.getLast?_eq_some_getLast hcwd] at hnone
  exact (h.isEntryName _ (List.getLast_mem hcwd)).ne_empty hnone

end Open

/-! ### On a way that is not open -/

section Barred

variable (hbarred : ¬ d.OpenWay d.cwd)

include hbarred

/-- The search is denied for an absolute path through the current folder, unless it does not ask the
disk at all. -/
theorem sameSketch_or_denied :
    SameSketch d.cwd (primaryOf d p) (primaryOf d (p.absolute d.cwd)) ∨
      ∃ q, primaryOf d (p.absolute d.cwd) = .error (.disk .denied q) := by
  cases hnul : p.hasNul with
  | false =>
    have hfolder : d.isFolder? (p.absolute d.cwd) = .error .denied :=
      leadsTo_of_bars rfl (h.find_absolute_of_not_openWay hp hbarred hnul)
    exact .inr ⟨_, by rw [primaryOf, hfolder]⟩
  | true =>
    have hne : p.parts ≠ [] := by
      intro hnil
      simp [Path.hasNul, hnil] at hnul
    have hfile : d.isFolder? p = .ok false := leadsTo_of_hasNul _ hnul
    have hfile' : d.isFolder? (p.absolute d.cwd) = .ok false :=
      leadsTo_of_hasNul _ ((h.hasNul_absolute hp).trans hnul)
    unfold primaryOf
    rw [hfile, hfile']
    simp only [primaryBeside, Path.parent_absolute d.cwd hp hne, Path.name_absolute (.inr hne)]
    cases hparent : p.parent.hasNul with
    | true =>
      left
      have hparts : p.parent.parts ≠ [] := by
        intro hnil
        simp [Path.hasNul, hnil] at hparent
      have hparent' := (h.hasNul_absolute (p := p.parent) hp).trans hparent
      simp only [primaryName_absolute (.inr hparts)]
      split
      · exact .found p
      · rw [primaryIn, primaryIn, firstPrimary_of_hasNul hparent, firstPrimary_of_hasNul hparent']
        exact .none
    | false =>
      right
      have hname : holdsNul p.name = true := by
        have hchild := hnul
        rw [← Path.child_parent_name hne, Path.hasNul_child, hparent, Bool.false_or] at hchild
        exact hchild
      have hother : ∀ e, holdsNul e = false →
          p.name ≠ primaryName (p.parent.absolute d.cwd) e := by
        intro e he heq
        have hnone := Path.holdsNul_name ((h.hasNul_absolute (p := p.parent) hp).trans hparent)
        rw [heq, holdsNul_primaryName _ he, hnone] at hname
        cases hname
      rw [if_neg (not_or.mpr ⟨hother "pde" (by decide), hother "ino" (by decide)⟩)]
      exact h.primaryIn_absolute_of_denied (p := p.parent) hp hparent fun n hn =>
        h.find_absolute_of_not_openWay (p := p.parent.child n) hp hbarred
          (Path.hasNul_child_eq_false_iff.mpr ⟨hparent, hn⟩)

end Barred

end Disk.HasCurrentFolder

/-- A relative path and the same path made absolute stand for the same sketch exactly if the folder
of the sketch has a name in the relative one, or nothing is found for either. If a folder above
the current one may not be gone through, nothing is told about absolute paths below it. -/
theorem sameSketch_absolute_iff (h : d.HasCurrentFolder) (hp : p.isAbsolute = false) :
    (d.OpenWay d.cwd →
      (SameSketch d.cwd (primaryOf d p) (primaryOf d (p.absolute d.cwd)) ↔
        NamesSketch d p ∨
          (primaryOf d p = .ok none ∧ primaryOf d (p.absolute d.cwd) = .ok none) ∨
          ∃ fault q r, primaryOf d p = .error (.disk fault q) ∧
            primaryOf d (p.absolute d.cwd) = .error (.disk fault r))) ∧
    (¬ d.OpenWay d.cwd →
      SameSketch d.cwd (primaryOf d p) (primaryOf d (p.absolute d.cwd)) ∨
        ∃ q, primaryOf d (p.absolute d.cwd) = .error (.disk .denied q)) := by
  refine ⟨fun hway => ⟨fun hsame => ?_, fun hcases => ?_⟩, h.sameSketch_or_denied hp⟩
  · by_cases hnames : NamesSketch d p
    · exact .inl hnames
    · right
      have hother := fun q => h.primaryOf_absolute_ne (q := q) hp hway hnames
      generalize primaryOf d p = r, primaryOf d (p.absolute d.cwd) = r' at hsame hother
      cases hsame with
      | none => exact .inl ⟨rfl, rfl⟩
      | found q => exact absurd rfl (hother q rfl)
      | failed fault q r => exact .inr ⟨fault, q, r, rfl, rfl⟩
  · rcases hcases with hnames | ⟨hnone, hnone'⟩ | ⟨fault, q, r, hfailed, hfailed'⟩
    · exact h.sameSketch_of_namesSketch hp hway hnames
    · rw [hnone, hnone']
      exact .none
    · rw [hfailed, hfailed']
      exact .failed fault q r

/-- A disk with the sketch folder `/B`, which is the current folder. -/
def insideSketch : Disk :=
  (Disk.blank ["B"]).placeFile [] ["B", "B.ino"] [0x78]

/-- The folder of a sketch is current, and no main file is found for a dot, but it is for the path
of the folder. -/
theorem primaryOf_dot_insideSketch :
    insideSketch.lost = 0 ∧ insideSketch.isFolder? ⟨.current, []⟩ = .ok true ∧
      primaryOf insideSketch ⟨.current, []⟩ = .ok none ∧
      Path.absolute insideSketch.cwd ⟨.current, []⟩ = ⟨.root, ["B"]⟩ ∧
      primaryOf insideSketch ⟨.root, ["B"]⟩ = .ok (some ⟨.root, ["B", "B.ino"]⟩) := by
  decide +kernel

theorem openWay_insideSketch : insideSketch.OpenWay ([] ++ ["B"]) := by
  have hroot : insideSketch.node? [] = some (.folder .full) := by decide +kernel
  exact Disk.openWay_concat_iff.mpr ⟨Disk.openWay_root _, .full, hroot, rfl⟩

theorem hasCurrentFolder_insideSketch : insideSketch.HasCurrentFolder where
  lost_eq := by decide +kernel
  isGrounded q hq hne := by
    obtain ⟨access, hfolder, -⟩ := openWay_insideSketch q hq hne
    exact ⟨access, hfolder⟩
  exists_folder := ⟨.full, by decide +kernel⟩
  isEntryName n hn := by
    obtain rfl := List.mem_singleton.mp (show n ∈ ["B"] from hn)
    exact ⟨by decide, by decide, by decide, by decide⟩
  noNul := by decide +kernel
  short := by decide +kernel

/-- A relative path that leads out of the folder of the sketch and back has a name for it, and the
main file is found for both spellings. -/
theorem sameSketch_insideSketch :
    insideSketch.HasCurrentFolder ∧ Path.isAbsolute ⟨.current, ["..", "B"]⟩ = false ∧
      insideSketch.OpenWay insideSketch.cwd ∧
      primaryOf insideSketch ⟨.current, ["..", "B"]⟩ =
        .ok (some ⟨.current, ["..", "B", "B.ino"]⟩) ∧
      SameSketch insideSketch.cwd (primaryOf insideSketch ⟨.current, ["..", "B"]⟩)
        (primaryOf insideSketch (Path.absolute insideSketch.cwd ⟨.current, ["..", "B"]⟩)) := by
  have hway : insideSketch.OpenWay insideSketch.cwd := openWay_insideSketch
  have hnames : NamesSketch insideSketch ⟨.current, ["..", "B"]⟩ := .inr (by decide +kernel)
  refine ⟨hasCurrentFolder_insideSketch, rfl, hway, by decide +kernel, ?_⟩
  exact ((sameSketch_absolute_iff hasCurrentFolder_insideSketch rfl).1 hway).mpr (.inl hnames)

end Sketchbook
