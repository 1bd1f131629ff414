import Mathlib.Logic.Relation
import Sketchbook.Proofs.TabSet.Renaming
import Sketchbook.Proofs.TabSet.Save

/-!
# The names of the tabs in a set are different

A set in guarded use is loaded, saved, put in order, renamed and deleted from, but no tab is added
to it unchecked, and the files of its tabs are renamed through the set only. `GuardedStep` is one
step of such use, whatever comes of it, or anything else that goes on around the set. No step makes
two tabs have the same file name (`namesDiffer_of_guardedStep`), and so tabs are found by their
names and their positions (`get_find`).
-/

namespace Sketchbook

variable {μ : Type}

namespace TabSet

/-! ### Finding tabs -/

section Finding

variable {s : TabSet} {w : Workspace μ}

/-- The tabs of a set are different if their file names are. -/
theorem nodup_members (h : (s.filenames w).Nodup) : s.members.Nodup :=
  h.of_map _

/-- Where file names are different each tab is found by its own. -/
theorem find?_filename (h : (s.filenames w).Nodup) {id : TabId} (hid : id ∈ s.members) :
    s.find? w (w.tab id).filename = some id := by
  have hsome : (s.find? w (w.tab id).filename).isSome = true :=
    List.find?_isSome.mpr ⟨id, hid, by simp⟩
  obtain ⟨found, hfound⟩ := Option.isSome_iff_exists.mp hsome
  have hname : (w.tab found).filename = (w.tab id).filename := by
    simpa using List.find?_some hfound
  rw [hfound, List.inj_on_of_nodup_map h (mem_of_find? hfound) hid hname]

/-- Where the tabs are different the index of each is its position. -/
theorem indexOf?_getElem (h : s.members.Nodup) {n : Nat} {id : TabId}
    (hn : s.members[n]? = some id) : s.indexOf? id = some n := by
  obtain ⟨hlt, hget⟩ := List.getElem?_eq_some_iff.mp hn
  refine List.findIdx?_eq_some_iff_getElem.mpr ⟨hlt, by simp [hget], ?_⟩
  intro j hj hbeq
  have heq : s.members[j] = s.members[n] := by
    rw [hget]
    simpa using hbeq
  exact absurd ((List.Nodup.getElem_inj_iff h).mp heq) (by omega)

/-- The tab at an index is found by its file name, and the index is found by the tab. -/
theorem get_find (h : (s.filenames w).Nodup) {i : Int} {id : TabId} (hget : s.get i = .ok id) :
    s.find? w (w.tab id).filename = some id ∧ (s.indexOf? id).map Int.ofNat = some i := by
  cases i with
  | negSucc n => cases hget
  | ofNat n =>
    unfold get at hget
    cases hn : s.members[n]? with
    | none => simp [hn] at hget
    | some found =>
      simp only [hn, Except.ok.injEq] at hget
      subst hget
      refine ⟨find?_filename h (List.mem_of_getElem? hn), ?_⟩
      rw [indexOf?_getElem (nodup_members h) hn]
      rfl

/-- Every valid index has a tab. -/
theorem exists_get {i : Int} (hnonneg : 0 ≤ i) (hlt : i < s.count) : ∃ id, s.get i = .ok id := by
  obtain ⟨n, rfl⟩ := Int.eq_ofNat_of_zero_le hnonneg
  have hn : n < s.members.length := Int.ofNat_lt.mp hlt
  exact ⟨s.members[n], by simp [get, hn]⟩

end Finding

/-! ### What operations do to the file names -/

section Names

variable {s t : TabSet} {w w' : Workspace μ}

/-- The file names of a set depend on the paths of its tabs only. -/
theorem filenames_congr (h : ∀ id ∈ s.members, (w'.tab id).path = (w.tab id).path) :
    s.filenames w' = s.filenames w :=
  List.map_congr_left fun id hid => congrArg Path.name (h id hid)

/-- The file names are permuted with the tabs. -/
theorem filenames_perm (h : t.members.Perm s.members) :
    (t.filenames w).Perm (s.filenames w) :=
  h.map _

/-- Replacing the first element that has the image of the new one keeps the images. -/
theorem map_replaceFirst {α β : Type} [BEq β] [LawfulBEq β] (f : α → β) (new : α)
    (as : List α) : (replaceFirst (fun a => f a == f new) new as).map f = as.map f := by
  induction as with
  | nil => rfl
  | cons a as ih =>
    rw [replaceFirst]
    split
    · next heq => simp [eq_of_beq heq]
    · simp [ih]

/-- A tab that is put in the position of the one with its name does not change the file names. -/
theorem filenames_replace (s : TabSet) (w : Workspace μ) (id : TabId) :
    (s.replace w id).filenames w = s.filenames w :=
  map_replaceFirst (fun m => (w.tab m).filename) id s.members

/-- What is left when a tab is removed are some of the file names, in order. -/
theorem filenames_remove (s : TabSet) (w : Workspace μ) (id : TabId) :
    ((s.remove w id).1.filenames (s.remove w id).2).Sublist (s.filenames w) := by
  unfold remove
  split
  · exact s.members.erase_sublist.map _
  · have hkept : s.filenames (w.tell s.sink [strangerWarning]) = s.filenames w :=
      filenames_congr fun other _ => by rw [Workspace.tab_tell]
    show (s.filenames (w.tell s.sink [strangerWarning])).Sublist _
    rw [hkept]

/-- Removing a tab changes nothing of a set but its tabs. -/
theorem set_eq_remove (s : TabSet) (w : Workspace μ) (id : TabId) :
    (s.remove w id).1 = { s with members := (s.remove w id).1.members } := by
  unfold remove
  split <;> rfl

/-- When one tab gets a path with a name that no tab has the file names stay different. -/
theorem nodup_filenames_setTab (h : (s.filenames w).Nodup) (id : TabId) {t : Tab μ}
    (hnew : t.filename ∉ s.filenames w) : (s.filenames (w.setTab id t)).Nodup := by
  refine (nodup_members h).map_on fun i hi j hj heq => ?_
  rw [Workspace.tab_setTab, Workspace.tab_setTab] at heq
  have hne : ∀ m ∈ s.members, t.filename ≠ (w.tab m).filename := by
    intro m hm hname
    exact hnew (hname ▸ List.mem_map_of_mem hm)
  split at heq
  · next hi' =>
    split at heq
    · next hj' => rw [hi'.1, hj'.1]
    · exact absurd heq (hne j hj)
  · split at heq
    · exact absurd heq.symm (hne i hi)
    · exact List.inj_on_of_nodup_map h hi hj heq

/-- Renaming a tab keeps the file names different. -/
theorem nodup_filenames_renameTab (h : (s.filenames w).Nodup) {old new : String}
    (hrename : s.renameTab w old new = (.ok (.ok ()), t, w')) : (t.filenames w').Nodup := by
  obtain ⟨id, target, d, -, -, hproblem, htarget, rfl, rfl⟩ := exists_of_renameTab hrename
  have hfilename : ({ w.tab id with path := target } : Tab μ).filename = new :=
    Disk.name_of_absolute_child htarget
  have hnew : new ∉ s.filenames w := (nameProblem_eq_none_iff.mp hproblem).2
  rw [(filenames_perm (sort_perm s _)).nodup_iff]
  exact nodup_filenames_setTab h id (by rwa [hfilename])

/-- Renaming a tab changes nothing of a set but the order of its tabs. -/
theorem set_eq_of_renameTab {old new : String}
    (h : s.renameTab w old new = (.ok (.ok ()), t, w')) : t = { s with members := t.members } := by
  obtain ⟨id, target, d, -, -, -, -, rfl, rfl⟩ := exists_of_renameTab h
  rfl

/-- Deleting a tab leaves some of the file names, in order. -/
theorem filenames_deleteTab (o : ListingOrder) (s : TabSet) (w : Workspace μ) (name : String)
    (build : Option Path) :
    ((s.deleteTab o w name build).set.filenames (s.deleteTab o w name build).workspace).Sublist
      (s.filenames w) := by
  unfold deleteTab
  cases s.deletable w name with
  | error r => exact .refl _
  | ok id =>
    obtain ⟨r, d, hdelete⟩ := w.delete_cases o id (outputFolders build)
    simp only [deleteMember, hdelete]
    rcases r with f | b
    · exact .refl _
    · cases b with
      | true => exact s.filenames_remove (w.setDisk d) id
      | false =>
        simp only
        split
        · exact .refl _
        · exact .refl _
        · exact s.filenames_remove (w.setDisk d) id

/-- Deleting a tab changes nothing of a set but its tabs. -/
theorem set_eq_deleteTab (o : ListingOrder) (s : TabSet) (w : Workspace μ) (name : String)
    (build : Option Path) :
    (s.deleteTab o w name build).set =
      { s with members := (s.deleteTab o w name build).set.members } := by
  unfold deleteTab deleteMember
  split
  · rfl
  · split
    · rfl
    · exact set_eq_remove ..
    · split
      · rfl
      · rfl
      · exact set_eq_remove ..

end Names

/-! ### Guarded use -/

/-- One step in the guarded use of a set. Whatever comes of an operation, the step leads to what
the set and the workspace are then. The order in which folders are listed and the room that there
is on the disk may be others at each step. -/
inductive GuardedStep : TabSet × Workspace μ → TabSet × Workspace μ → Prop
  /-- Something else happens to the disk and the tabs, but no tab of the set gets another path. -/
  | outside {s : TabSet} {w w' : Workspace μ}
      (h : ∀ id ∈ s.members, (w'.tab id).path = (w.tab id).path) : GuardedStep (s, w) (s, w')
  | load {s : TabSet} {w : Workspace μ} (o : ListingOrder) : GuardedStep (s, w) (s.loadIn o w).2
  | save {s : TabSet} {w : Workspace μ} (room : Room) :
      GuardedStep (s, w) (s, (s.save room w).2)
  | sort {s : TabSet} {w : Workspace μ} : GuardedStep (s, w) (s.sort w, w)
  | replace {s : TabSet} {w : Workspace μ} (id : TabId) : GuardedStep (s, w) (s.replace w id, w)
  | remove {s : TabSet} {w : Workspace μ} (id : TabId) : GuardedStep (s, w) (s.remove w id)
  | moveToFront {s : TabSet} {w : Workspace μ} {id : TabId} (h : id ∈ s.members) :
      GuardedStep (s, w) (s.moveToFront id, w)
  | rename {s : TabSet} {w : Workspace μ} (old new : String) :
      GuardedStep (s, w) (s.renameTab w old new).2
  | delete {s : TabSet} {w : Workspace μ} (o : ListingOrder) (name : String)
      (build : Option Path) :
      GuardedStep (s, w)
        ((s.deleteTab o w name build).set, (s.deleteTab o w name build).workspace)
  | clear {s : TabSet} {w : Workspace μ} : GuardedStep (s, w) (s.clear, w)

/-- A set that has been made for a main file, with tabs for different file names. -/
structure NamesDiffer (s : TabSet) (w : Workspace μ) : Prop where
  isFormed : s.IsFormed
  nodup : (s.filenames w).Nodup

section Invariant

variable {s : TabSet} {w : Workspace μ}

/-- File names are different after a load, whatever comes of it. -/
theorem namesDiffer_loadIn (hs : s.IsFormed) (o : ListingOrder) (w : Workspace μ) :
    NamesDiffer (s.loadIn o w).2.1 (s.loadIn o w).2.2 := by
  obtain ⟨files, hnodup, hloaded⟩ := exists_loadedAs_loadIn hs o w
  exact ⟨hs.of_set_eq hloaded.set_eq, by rwa [hloaded.filenames_eq]⟩

/-- File names are different after a tab has been renamed, or could not be. -/
theorem namesDiffer_renameTab (h : NamesDiffer s w) (old new : String) :
    NamesDiffer (s.renameTab w old new).2.1 (s.renameTab w old new).2.2 := by
  rcases s.renameTab_cases w old new with ⟨t, v, hrename⟩ | ⟨r, -, hkept⟩
  · rw [hrename]
    exact ⟨h.isFormed.of_set_eq (set_eq_of_renameTab hrename),
      nodup_filenames_renameTab h.nodup hrename⟩
  · rw [hkept]
    exact h

/-- A step of guarded use keeps the file names different. -/
theorem namesDiffer_of_guardedStep {p q : TabSet × Workspace μ} (hstep : GuardedStep p q)
    (h : NamesDiffer p.1 p.2) : NamesDiffer q.1 q.2 := by
  cases hstep with
  | outside hpaths => exact ⟨h.isFormed, by rw [filenames_congr hpaths]; exact h.nodup⟩
  | load o => exact namesDiffer_loadIn h.isFormed o _
  | @save s w room =>
    have hpaths : ∀ id ∈ s.members, ((s.save room w).2.tab id).path = (w.tab id).path :=
      fun id _ => path_saveEdited room w s.members id
    exact ⟨h.isFormed, by rw [filenames_congr hpaths]; exact h.nodup⟩
  | @sort s w =>
    exact ⟨h.isFormed.of_set_eq rfl, (filenames_perm (s.sort_perm w)).nodup_iff.mpr h.nodup⟩
  | @replace s w id =>
    exact ⟨h.isFormed.of_set_eq rfl, by rw [filenames_replace]; exact h.nodup⟩
  | @remove s w id =>
    exact ⟨h.isFormed.of_set_eq (set_eq_remove s w id), h.nodup.sublist (s.filenames_remove w id)⟩
  | moveToFront hid =>
    exact ⟨h.isFormed.of_set_eq rfl, (filenames_perm (moveToFront_perm hid)).nodup_iff.mpr h.nodup⟩
  | rename old new => exact namesDiffer_renameTab h old new
  | @delete s w o name build =>
    exact ⟨h.isFormed.of_set_eq (set_eq_deleteTab o s w name build),
      h.nodup.sublist (filenames_deleteTab o s w name build)⟩
  | clear => exact ⟨h.isFormed.of_set_eq rfl, .nil⟩

/-- Guarded use keeps the file names different. -/
theorem namesDiffer_of_guarded {p q : TabSet × Workspace μ}
    (hrun : Relation.ReflTransGen GuardedStep p q) (h : NamesDiffer p.1 p.2) :
    NamesDiffer q.1 q.2 := by
  induction hrun with
  | refl => exact h
  | tail _ hstep ih => exact namesDiffer_of_guardedStep hstep ih

end Invariant

/-- From its first load on, whatever came of it, a set in guarded use has tabs for different file
names. Every valid index has a tab, which is found by its file name and by the index. -/
theorem nodup_filenames_of_guarded {s t : TabSet} {v w : Workspace μ} (hs : s.IsFormed)
    (o : ListingOrder) (h : Relation.ReflTransGen GuardedStep (s.loadIn o w).2 (t, v)) :
    (t.filenames v).Nodup ∧ ∀ i : Int, 0 ≤ i → i < t.count →
      ∃ id, t.get i = .ok id ∧ t.find? v (v.tab id).filename = some id ∧
        (t.indexOf? id).map Int.ofNat = some i := by
  have hnodup : (t.filenames v).Nodup :=
    (namesDiffer_of_guarded h (namesDiffer_loadIn hs o w)).nodup
  refine ⟨hnodup, fun i hnonneg hlt => ?_⟩
  obtain ⟨id, hget⟩ := exists_get hnonneg hlt
  exact ⟨id, hget, get_find hnodup hget⟩

/-- A tab is renamed, another one is deleted, and the set is put in order. -/
def renameDeleteSort (p : TabSet × Workspace μ) : TabSet × Workspace μ :=
  let renamed := (p.1.renameTab p.2 "0.c" "b.c").2
  let deletion := renamed.1.deleteTab .asKept renamed.2 "a.c" none
  (deletion.set.sort deletion.workspace, deletion.workspace)

theorem guarded_renameDeleteSort (p : TabSet × Workspace μ) :
    Relation.ReflTransGen GuardedStep p (renameDeleteSort p) :=
  .tail (.tail (.single (.rename "0.c" "b.c")) (.delete .asKept "a.c" none)) .sort

/-- Three steps after a load that gave three tabs, two are left, one of them under a new name. -/
theorem nodup_filenames_blink :
    ∃ t v, renameDeleteSort (blink.loadIn .asKept (blinkOn "none")).2 = (t, v) ∧
      t.filenames v = ["B.ino", "b.c"] ∧ (t.filenames v).Nodup := by
  have hrun := guarded_renameDeleteSort (blink.loadIn .asKept (blinkOn "none")).2
  have hnames : (renameDeleteSort (blink.loadIn .asKept (blinkOn "none")).2).1.filenames
      (renameDeleteSort (blink.loadIn .asKept (blinkOn "none")).2).2 = ["B.ino", "b.c"] := by
    decide +kernel
  generalize renameDeleteSort (blink.loadIn .asKept (blinkOn "none")).2 = r at hrun hnames
  obtain ⟨t, v⟩ := r
  exact ⟨t, v, rfl, hnames, (nodup_filenames_of_guarded isFormed_blink .asKept hrun).1⟩

end TabSet

end Sketchbook
