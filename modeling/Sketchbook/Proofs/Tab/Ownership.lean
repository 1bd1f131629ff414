import Mathlib.Data.List.Infix
import Sketchbook.Proofs.Path.EntryName
import Sketchbook.Proofs.Tab.Sweeping

/-!
# Whose files a deletion removes

What is compiled from a source has its name, with a dot and more behind it. A deletion goes by less:
it sweeps whatever begins with the name of the file (`Tab.isPrefix_of_delete`). So it spares what
belongs to another source unless the names of the two overlap, as `x.c` and `x.cpp` do, and where
they overlap it does not (`Tab.spares_or_overlap`).
-/

namespace Sketchbook

open Disk

variable {μ : Type} {o : ListingOrder} {a b : String}

/-- The entry of this name belongs to the source: it is the source itself, or has its name with a
dot and more behind it. -/
def BelongsTo (source name : String) : Prop :=
  name = source ∨ (source ++ ".").toList <+: name.toList

/-- A sweep for the first name takes what belongs to the second: the second begins with the first,
but not with the first and a dot, or the first begins with the second and a dot. -/
def Overlap (a b : String) : Prop :=
  (a.toList <+: b.toList ∧ a ≠ b ∧ ¬ (a ++ ".").toList <+: b.toList) ∨
    (b ++ ".").toList <+: a.toList

instance (source name : String) : Decidable (BelongsTo source name) :=
  inferInstanceAs (Decidable (_ ∨ _))

instance (a b : String) : Decidable (Overlap a b) :=
  inferInstanceAs (Decidable (_ ∨ _))

/-- If a name begins with the first and belongs to the second only, the two overlap. -/
theorem overlap_of_begins {name : String} (hbegins : a.toList <+: name.toList)
    (hb : BelongsTo b name) (ha : ¬ BelongsTo a name) : Overlap a b := by
  have hne : name ≠ a := fun heq => ha (.inl heq)
  have hdot : ¬ (a ++ ".").toList <+: name.toList := fun h => ha (.inr h)
  rcases hb with rfl | hb
  · exact .inl ⟨hbegins, hne.symm, hdot⟩
  · rcases List.prefix_or_prefix_of_prefix hbegins hb with hshort | hlong
    · -- the first name is the second with a dot, or the second begins with it
      have hmark : (b ++ ".").toList = b.toList ++ ['.'] := String.toList_append
      rw [hmark] at hshort
      rcases List.prefix_concat_iff.mp hshort with heq | hab
      · exact .inr (by rw [hmark, heq])
      · have hprefix : b.toList <+: name.toList := by
          rw [hmark] at hb
          exact (List.prefix_append ..).trans hb
        refine .inl ⟨hab, ?_, fun h => hdot (h.trans hprefix)⟩
        rintro rfl
        exact hdot hb
    · exact .inr hlong

namespace Tab

/-- The name of a tab with a known extension has more than dots. -/
theorem not_prefix_dots_of_splitExtension? {n : String}
    (h : (splitExtension? n sourceExtensions).isSome = true) : ¬ n.toList <+: ['.', '.'] := by
  have hdots : ∀ dots ∈ ['.', '.'].inits,
      (splitExtension? (String.ofList dots) sourceExtensions).isSome = false := by
    decide +kernel
  intro hprefix
  have hnone := hdots n.toList ((List.mem_inits ..).mpr hprefix)
  rw [String.ofList_toList, h] at hnone
  cases hnone

/-- Every entry that is gone once a tab has been deleted begins with the name of its file. -/
theorem isPrefix_of_delete {d : Disk} {t : Tab μ} {folders : List Path} {place : Place}
    {name : String} (ht : ¬ t.filename.toList <+: ['.', '.'])
    (hgone : (t.delete o d folders).2.node? (place ++ [name]) ≠ d.node? (place ++ [name])) :
    t.filename.toList <+: name.toList := by
  have hdown : ∀ n : String, t.filename.toList <+: n.toList → Step.ofName n = .down n :=
    fun _ => Step.ofName_of_prefix ht
  have hparts : t.path.parts ≠ [] := by
    intro hnil
    refine ht ?_
    simp [filename, Path.name, hnil]
  have hremoved := mt (t.removesOnly_delete o d folders).node?_of_not hgone
  rcases not_not.mp hremoved with hfile | hartifact
  · rw [← Path.child_parent_name hparts] at hfile
    obtain ⟨n, hfind, -⟩ := hfile
    obtain ⟨folder, access, -, hplace, -⟩ :=
      find_child_entry_cases (hdown _ List.prefix_rfl) hfind
    obtain ⟨-, hname⟩ := List.append_inj' hplace rfl
    exact List.singleton_inj.mp hname ▸ List.prefix_rfl
  · exact (hartifact.sweepsOver hdown).isPrefix

/-- Deleting a tab with the first name leaves every entry that belongs to the second and not to the
first, whatever the disk and the folders. -/
def Spares (μ : Type) (o : ListingOrder) (a b : String) : Prop :=
  ∀ (d : Disk) (t : Tab μ) (folders : List Path) (place : Place) (name : String),
    t.filename = a → BelongsTo b name → ¬ BelongsTo a name →
    (t.delete o d folders).2.node? (place ++ [name]) = d.node? (place ++ [name])

/-- Names that do not overlap are told apart. -/
theorem spares_of_not_overlap (ha : (splitExtension? a sourceExtensions).isSome = true)
    (h : ¬ Overlap a b) : Spares μ o a b := by
  rintro d t folders place name rfl hb hnot
  by_contra hgone
  exact h (overlap_of_begins (isPrefix_of_delete (not_prefix_dots_of_splitExtension? ha) hgone) hb
    hnot)

/-! ### Names that overlap -/

/-- A name that an entry can bear, also with one letter more. -/
structure HasRoom (n : String) : Prop extends IsEntryName n where
  holdsNul_eq : holdsNul n = false
  size_lt : n.utf8ByteSize < maxNameBytes

/-- A name that an entry can bear is not too long. -/
theorem HasRoom.isOverlong_eq {n : String} (h : HasRoom n) : isOverlong n = false := by
  simpa [isOverlong] using h.size_lt.le

/-- With one letter more it is still a name that an entry can bear. -/
theorem HasRoom.append_letter {n : String} (h : HasRoom n) :
    holdsNul (n ++ "o") = false ∧ isOverlong (n ++ "o") = false := by
  constructor
  · have hkeeps := h.holdsNul_eq
    simp only [holdsNul, String.toList_append] at hkeeps ⊢
    simpa using hkeeps
  · have hlt := h.size_lt
    have hone : "o".utf8ByteSize = 1 := by decide
    simp only [isOverlong, String.utf8ByteSize_append, decide_eq_false_iff_not]
    omega

/-- The disk that has these two files in its root, and nothing else. -/
def twoFiles (a n : String) : Disk :=
  ((Disk.blank []).put [a] (.file [] .full)).put [n] (.file [] .full)

/-- The tab of the file of this name in the root. -/
def rootTab (μ : Type) (a : String) : Tab μ :=
  ⟨⟨.root, [a]⟩, "", false, none, .memory⟩

section Root

variable {d : Disk} {n : String} (hroot : d.node? [] = some (.folder .full))
  (hnode : d.node? [n] = some (.file [] .full)) (hdots : ¬ n.toList <+: ['.', '.'])
  (hnul : holdsNul n = false) (hname : isOverlong n = false)

include hroot

theorem find_root : d.find .target ⟨.root, []⟩ = .ok (.entry [] (.folder .full)) := by
  rw [find_of_isAbsolute rfl rfl, walk_eq_ok_iff]
  exact .arrive hroot

include hnode hdots hnul hname

/-- A file in the root is found under its name. -/
theorem find_file : d.find .entry ⟨.root, [n]⟩ = .ok (.entry [n] (.file [] .full)) := by
  have hfind := find_child (find_root hroot) (Step.ofName_of_prefix hdots List.prefix_rfl) hnul rfl
    hname
  rwa [spotIn_of_some hnode] at hfind

/-- A file in the root can be removed. -/
theorem unlink_file : d.unlink ⟨.root, [n]⟩ = .ok (d.erase [n]) := by
  rw [unlink_of_find (find_file hroot hnode hdots hnul hname) rfl]
  simp [mayChange, hroot, Access.full]

/-- If the file is the only entry of the root and begins with the name of the source, it is swept.
-/
theorem sweepFolders_root (o : ListingOrder) {source : String}
    (hbegins : source.toList <+: n.toList)
    (hsole : ∀ m, d.node? [m] ≠ none → m = n) :
    sweepFolders o d source [⟨.root, []⟩] = (.ok true, d.erase [n]) := by
  have hthere : d.exists? ⟨.root, []⟩ = .ok true := by
    simp [Disk.exists?, leadsTo, stat, find_root hroot]
  have hnames : d.names [] = [n] := by
    refine eq_of_pairwise_lt (NameTree.names_pairwise _) (List.pairwise_singleton ..) fun m => ?_
    rw [mem_names, List.mem_singleton, Option.isSome_iff_ne_none]
    refine ⟨hsole m, ?_⟩
    rintro rfl
    simp [hnode]
  have hlist : d.list ⟨.root, []⟩ = .ok [n] := by
    simp [list, find_root hroot, Access.full, hnames]
  have hfile : d.isFolder? ⟨.root, [n]⟩ = .ok false :=
    isFolder?_of_find (find_file hroot hnode hdots hnul hname) (by simp)
  have hcompiled : compiledFrom d source ⟨.root, []⟩ [n] = .ok [⟨.root, [n]⟩] := by
    simp [compiledFrom, List.isPrefixOf_iff_prefix.mpr hbegins, Path.child, hfile]
  have hsweep : sweepFolder o d source ⟨.root, []⟩ = (true, d.erase [n]) := by
    have horder : o.arrange [n] = [n] := List.perm_singleton.mp (o.perm [n])
    simp [sweepFolder, hlist, horder, hcompiled, unlinkAll,
      unlink_file hroot hnode hdots hnul hname]
  simp [sweepFolders, hthere, hsweep]

end Root

/-- Of two files in the root, both with the same beginning, the second goes with the first. -/
theorem delete_twoFiles (o : ListingOrder) {n : String} (ha : ¬ a.toList <+: ['.', '.'])
    (hroom : HasRoom a)
    (hbegins : a.toList <+: n.toList) (hne : n ≠ a) (hnul : holdsNul n = false)
    (hname : isOverlong n = false) :
    ((rootTab μ a).delete o (twoFiles a n) [⟨.root, []⟩]).2.node? [n] = none := by
  have hdots : ¬ n.toList <+: ['.', '.'] := fun h => ha (hbegins.trans h)
  have hunlink : (twoFiles a n).unlink ⟨.root, [a]⟩ = .ok ((twoFiles a n).erase [a]) := by
    refine unlink_file ?_ ?_ ha hroom.holdsNul_eq hroom.isOverlong_eq
    · rfl
    · simp [twoFiles, node?_put, hne.symm]
  have hsweep : sweepFolders o ((twoFiles a n).erase [a]) a [⟨.root, []⟩] =
      (.ok true, ((twoFiles a n).erase [a]).erase [n]) := by
    refine sweepFolders_root ?_ ?_ hdots hnul hname o hbegins fun m hm => ?_
    · rfl
    · simp [twoFiles, node?_erase, node?_put, hne]
    · by_contra hother
      refine hm ?_
      by_cases hm' : m = a
      · simp [node?_erase, hm']
      · simp [twoFiles, node?_erase, node?_put, hother, hm']
        rfl
  have hdelete : (rootTab μ a).delete o (twoFiles a n) [⟨.root, []⟩] =
      (.ok true, ((twoFiles a n).erase [a]).erase [n]) := by
    simp [delete, rootTab, hunlink, filename, Path.name, hsweep]
  rw [hdelete, node?_erase, if_pos rfl]

/-- A name with one letter more is not that of the source, nor does it belong to it. -/
theorem not_belongsTo_append (a : String) : ¬ BelongsTo a (a ++ "o") := by
  rintro (heq | hdot)
  · have hlength := congrArg (fun n : String => n.toList.length) heq
    simp [String.toList_append] at hlength
  · rw [String.toList_append, String.toList_append, List.prefix_append_right_inj] at hdot
    exact absurd hdot (by decide)

/-- Of names that overlap the one is not spared when a tab with the other is deleted. -/
theorem not_spares_of_overlap (ha : (splitExtension? a sourceExtensions).isSome = true)
    (hroom : HasRoom a) (hroom' : HasRoom b) (h : Overlap a b) : ¬ Spares μ o a b := by
  intro hspares
  have hdots := not_prefix_dots_of_splitExtension? ha
  have hkept : ∀ n, BelongsTo b n → ¬ BelongsTo a n →
      ((rootTab μ a).delete o (twoFiles a n) [⟨.root, []⟩]).2.node? [n] ≠ none := by
    intro n hb hnot
    have heq := hspares (twoFiles a n) (rootTab μ a) [⟨.root, []⟩] [] n rfl hb hnot
    rw [List.nil_append] at heq
    rw [heq, twoFiles, node?_put, if_pos rfl]
    simp
  rcases h with ⟨hbegins, hne, hdot⟩ | hdot
  · -- the second source itself is swept
    have hnot : ¬ BelongsTo a b := fun hbelongs => hbelongs.elim hne.symm hdot
    exact hkept b (.inl rfl) hnot
      (delete_twoFiles o hdots hroom hbegins hne.symm hroom'.holdsNul_eq hroom'.isOverlong_eq)
  · -- a file of the second source is swept, with one letter behind the first
    have hbegins : a.toList <+: (a ++ "o").toList := by
      rw [String.toList_append]
      exact List.prefix_append ..
    have hnot := not_belongsTo_append a
    obtain ⟨hnul, hname⟩ := hroom.append_letter
    exact hkept (a ++ "o") (.inr (hdot.trans hbegins)) hnot
      (delete_twoFiles o hdots hroom hbegins (fun heq => hnot (.inl heq)) hnul hname)

/-- Deleting a tab leaves what belongs to another source and not to its own, if the names of the two
do not overlap. If they overlap it does not, as far as a disk can hold files of these names. -/
theorem spares_or_overlap (o : ListingOrder)
    (ha : (splitExtension? a sourceExtensions).isSome = true) :
    (¬ Overlap a b → Spares μ o a b) ∧ (HasRoom a → HasRoom b → Overlap a b → ¬ Spares μ o a b) :=
  ⟨spares_of_not_overlap ha, not_spares_of_overlap ha⟩

/-- Deleting `x.c` leaves whatever belongs to `y.cpp`. -/
theorem spares_x_y :
    (splitExtension? "x.c" sourceExtensions).isSome = true ∧ Spares Unit .asKept "x.c" "y.cpp" := by
  have ha : (splitExtension? "x.c" sourceExtensions).isSome = true := by decide +kernel
  exact ⟨ha, (spares_or_overlap .asKept ha).1 (by decide)⟩

/-- The disk with the source `/B/x.c` and what was compiled from `x.cpp` in `/out`. -/
def mixedDisk : Disk :=
  ((((Disk.blank []).put ["B"] (.folder .full)).put ["B", "x.c"] (.file [] .full)).put ["out"]
    (.folder .full)).put ["out", "x.cpp.o"] (.file [1] .full)

/-- With `x.c` goes what was compiled from `x.cpp`. -/
theorem not_spares_x_c :
    (splitExtension? "x.c" sourceExtensions).isSome = true ∧
      (splitExtension? "x.cpp" sourceExtensions).isSome = true ∧
      ¬ Spares Unit .asKept "x.c" "x.cpp" := by
  refine ⟨by decide +kernel, by decide +kernel, fun hspares => ?_⟩
  have hkept := hspares mixedDisk ⟨⟨.root, ["B", "x.c"]⟩, "", false, none, .memory⟩
    [⟨.root, ["out"]⟩] ["out"] "x.cpp.o" rfl (by decide) (by decide)
  exact absurd hkept (by decide +kernel)

end Tab

end Sketchbook
