import Sketchbook.Proofs.Disk.CurrentFolder
import Sketchbook.Proofs.FileName.Cut
import Sketchbook.Proofs.Sketch.Spelling

/-!
# The main file that is found makes a set of tabs

The search puts the name of a main file together, from the name of the folder, a dot and an
extension. A set of tabs takes it apart again, by the lowercase of the name. Both agree on every
name of a folder, also on one with dots or with characters that become longer in lowercase: the set
is made, and bears the name of the folder (`makesSet_of_primaryOf`). Only a relative path has no set
once the current folder has been removed, for then it cannot be made absolute.
-/

namespace Sketchbook

variable {d : Disk} {p q : Path}

/-- The extensions that are looked for are those of main files. -/
theorem mem_sketchExtensions : ∀ e ∈ ["pde", "ino"], e ∈ sketchExtensions := by
  decide

/-- The name of a main file is taken apart into the name of its folder and the extension. -/
theorem splitExtension?_primaryName (folder : Path) {e : String} (he : e ∈ ["pde", "ino"]) :
    splitExtension? (primaryName folder e) sketchExtensions = some folder.name := by
  have hsketch : ∀ x ∈ sketchExtensions, x ∈ sourceExtensions := by decide
  exact splitExtension?_append hsketch (mem_sketchExtensions e he) rfl folder.name

/-- The extension of a main file is seen at the end of its name. -/
theorem eq_ino_of_suffix {folder : Path} {e : String} (he : e ∈ ["pde", "ino"])
    (h : ".ino".toList <:+ (primaryName folder e).toList) : e = "ino" := by
  have hdots : ∀ x ∈ ["pde", "ino"], '.' ∉ x.toList := by decide
  have hend : '.' :: e.toList <:+ (primaryName folder e).toList :=
    ⟨folder.name.toList, by simp [primaryName]⟩
  have hino : ".ino".toList = '.' :: "ino".toList := by decide
  rw [hino] at h
  exact String.toList_injective (eq_of_dot_suffix hend h (hdots e he) (by decide))

/-- A path with the name of a main file is that of the main file in its folder. -/
theorem eq_child_of_name {e : String} (h : p.name = primaryName p.parent e) :
    p = p.parent.child (primaryName p.parent e) := by
  have hne : p.parts ≠ [] := by
    intro hnil
    have hempty : p.name = "" := by
      rw [Path.name, hnil]
      rfl
    exact primaryName_ne_empty p.parent e (h.symm.trans hempty)
  rw [← h, Path.child_parent_name hne]

/-- What a search finds in a folder is the main file with one of the extensions. -/
theorem exists_of_primaryIn {folder : Path} (h : primaryIn d folder = .ok (some q)) :
    ∃ e ∈ ["pde", "ino"], q = q.parent.child (primaryName q.parent e) ∧
      primaryIn d q.parent = .ok (some q) := by
  obtain ⟨e, he, rfl, -⟩ := exists_of_firstPrimary h
  rw [Path.parent_child]
  exact ⟨e, he, rfl, h⟩

/-- A main file that is found bears the name of the folder that it lies in. It is the file that was
asked about, or a search has found it in this folder. -/
theorem exists_extension_of_primaryOf (h : primaryOf d p = .ok (some q)) :
    ∃ e ∈ ["pde", "ino"], q = q.parent.child (primaryName q.parent e) ∧
      (q = p ∨ primaryIn d q.parent = .ok (some q)) := by
  rw [primaryOf] at h
  split at h
  · cases h
  · obtain ⟨e, he, hchild, hfound⟩ := exists_of_primaryIn h
    exact ⟨e, he, hchild, .inr hfound⟩
  · rw [primaryBeside] at h
    split at h
    · next hname =>
      cases h
      rcases hname with hname | hname
      · exact ⟨"pde", by decide, eq_child_of_name hname, .inl rfl⟩
      · exact ⟨"ino", by decide, eq_child_of_name hname, .inl rfl⟩
    · obtain ⟨e, he, hchild, hfound⟩ := exists_of_primaryIn h
      exact ⟨e, he, hchild, .inr hfound⟩

/-- What is found for a path begins where the path does. -/
theorem hasStart_primaryOf_iff (h : primaryOf d p = .ok (some q)) :
    d.HasStart q ↔ d.HasStart p := by
  rcases primaryOf_cases h with ⟨rfl, -⟩ | ⟨folder, e, rfl | rfl, rfl, -⟩
  · exact Iff.rfl
  · exact Iff.rfl
  · exact Iff.rfl

/-! ### The set of tabs -/

/-- A path that has somewhere to start can be made absolute. -/
theorem Disk.absolute_of_hasStart (hstart : d.HasStart p) :
    d.absolute p = .ok (p.absolute d.cwd) := by
  have hable : (p.isAbsolute || d.lost == 0) = true := by
    rw [Bool.or_eq_true, beq_iff_eq]
    exact hstart
  rw [Disk.absolute, Disk.absolute?, if_pos hable]

/-- A path that has nowhere to start cannot. -/
theorem Disk.absolute_of_not_hasStart (h : ¬ d.HasStart p) :
    d.absolute p = .error .noCurrentFolder := by
  have hunable : ¬ (p.isAbsolute || d.lost == 0) = true := by
    rw [Bool.or_eq_true, beq_iff_eq]
    exact h
  rw [Disk.absolute, Disk.absolute?, if_neg hunable]

/-- A set of tabs is made for the main file in a folder, if the path of the folder can be made
absolute. -/
theorem exists_ofPrimary_child {folder : Path} (hstart : d.HasStart folder) {e : String}
    (he : e ∈ ["pde", "ino"]) (sink : Sink) (accepts : Option String → Bool) :
    ∃ s, TabSet.ofPrimary d (folder.child (primaryName folder e)) sink accepts = .ok s ∧
      s.name = folder.name ∧ d.absolute folder = .ok s.folder := by
  have hmain : d.absolute (folder.child (primaryName folder e)) =
      .ok ((folder.absolute d.cwd).child (primaryName folder e)) := by
    rw [Disk.absolute_of_hasStart (p := folder.child _) hstart, Path.absolute_child]
  refine ⟨⟨(folder.absolute d.cwd).child (primaryName folder e), folder.name, sink, accepts, []⟩,
    ?_, rfl, ?_⟩
  · rw [TabSet.ofPrimary, hmain]
    simp only [Path.name_child, splitExtension?_primaryName folder he]
  · rw [TabSet.folder, Path.parent_child, Disk.absolute_of_hasStart hstart]

/-- Whatever main file is found bears the name of its folder. A set of tabs is made for it, with the
same name, exactly if the path has somewhere to start: once the current folder has been removed a
relative one does not. Unless it is the file that was asked about, it is a regular file, and with
the newer extension it is found only where none has the older one. -/
theorem makesSet_of_primaryOf (h : primaryOf d p = .ok (some q)) :
    (∃ e ∈ ["pde", "ino"], q.name = primaryName q.parent e) ∧
    (∀ (sink : Sink) (accepts : Option String → Bool),
      (d.HasStart p → ∃ s, TabSet.ofPrimary d q sink accepts = .ok s ∧
        s.name = q.parent.name ∧ d.absolute q.parent = .ok s.folder) ∧
      (¬ d.HasStart p → TabSet.ofPrimary d q sink accepts = .error .noCurrentFolder)) ∧
    (q ≠ p → d.isFile? q = .ok true ∧
      (".ino".toList <:+ q.name.toList →
        d.isFile? (q.parent.child (primaryName q.parent "pde")) = .ok false)) := by
  obtain ⟨e, he, hchild, hfound⟩ := exists_extension_of_primaryOf h
  have hname : q.name = primaryName q.parent e := by
    conv_lhs => rw [hchild, Path.name_child]
  have hbegins := hasStart_primaryOf_iff h
  refine ⟨⟨e, he, hname⟩, fun sink accepts => ⟨fun hstart => ?_, fun hnot => ?_⟩, ?_⟩
  · have hstart' : d.HasStart q.parent := show d.HasStart q from hbegins.mpr hstart
    have hmade := exists_ofPrimary_child hstart' he sink accepts
    rwa [← hchild] at hmade
  · rw [TabSet.ofPrimary, Disk.absolute_of_not_hasStart (mt hbegins.mp hnot)]
  · intro hother
    have hsearch := hfound.resolve_left hother
    obtain ⟨-, -, -, hfile⟩ := exists_of_firstPrimary hsearch
    refine ⟨hfile, fun hino => ?_⟩
    rw [hname] at hino
    obtain rfl := eq_ino_of_suffix he hino
    rw [hchild, Path.parent_child] at hsearch
    exact (primaryIn_eq_ino_iff.mp hsearch).2

/-- A disk with a folder that has an extension inside its name, a capital sigma at the end and a
letter that becomes longer in lowercase. -/
def wideDisk : Disk :=
  (Disk.blank []).placeFile [] ["İ.pdeΣ", "İ.pdeΣ.ino"] [0x78]

/-- The main file of the folder is found, and the set made for it bears the name of the folder. -/
theorem makesSet_of_primaryOf_wide :
    wideDisk.HasStart ⟨.current, ["İ.pdeΣ"]⟩ ∧
      primaryOf wideDisk ⟨.current, ["İ.pdeΣ"]⟩ =
        .ok (some ⟨.current, ["İ.pdeΣ", "İ.pdeΣ.ino"]⟩) ∧
      ∃ s, TabSet.ofPrimary wideDisk ⟨.current, ["İ.pdeΣ", "İ.pdeΣ.ino"]⟩ .memory acceptsSanitary =
        .ok s ∧ s.name = "İ.pdeΣ" := by
  have hstart : wideDisk.HasStart ⟨.current, ["İ.pdeΣ"]⟩ := .inr rfl
  have hfound : primaryOf wideDisk ⟨.current, ["İ.pdeΣ"]⟩ =
      .ok (some ⟨.current, ["İ.pdeΣ", "İ.pdeΣ.ino"]⟩) := by
    decide +kernel
  obtain ⟨-, hmade, -⟩ := makesSet_of_primaryOf hfound
  obtain ⟨s, hset, hname, -⟩ := (hmade .memory acceptsSanitary).1 hstart
  exact ⟨hstart, hfound, s, hset, hname⟩

/-- A disk whose current folder has been removed. -/
def withoutCurrent : Disk :=
  ((Disk.blank ["C"]).put ["C"] (.folder .full)).eraseTree ["C"]

/-- A file with the name of a main file stands for itself, but in a current folder that has been
removed no set of tabs is made for it. -/
theorem not_makesSet_withoutCurrent :
    primaryOf withoutCurrent ⟨.current, ["x", "x.ino"]⟩ =
        .ok (some ⟨.current, ["x", "x.ino"]⟩) ∧
      ∀ (sink : Sink) (accepts : Option String → Bool),
        TabSet.ofPrimary withoutCurrent ⟨.current, ["x", "x.ino"]⟩ sink accepts =
          .error .noCurrentFolder :=
  ⟨by decide +kernel, fun _ _ => rfl⟩

end Sketchbook
