import Mathlib.Data.List.Basic
import Mathlib.Data.List.Induction
import Sketchbook.Proofs.Disk.Barred
import Sketchbook.Proofs.Path.EntryName
import Sketchbook.Proofs.Tab.Sweeping

/-!
# The turns of a deletion

Once the file of a tab is gone the folders have their turns, one after the other, each on the disk
that the turns before it have left (`Tab.Turn`). A deletion that succeeds has come to every folder
(`Tab.exists_turn_of_delete`). It tells by its reply what has come of it, and it raises only if it
cannot be told whether there is anything under the path of a folder whose turn it is, which is when
the path is barred (`Tab.delete_raises_iff`).
-/

namespace Sketchbook

open Disk

variable {μ : Type} {o : ListingOrder}

/-- The later folders are swept on what the earlier ones have left, if all of these could be
cleared. -/
theorem sweepFolders_append (o : ListingOrder) (d : Disk) (source : String)
    (before after : List Path) :
    sweepFolders o d source (before ++ after) =
      match sweepFolders o d source before with
      | (.ok true, e) => sweepFolders o e source after
      | r => r := by
  induction before generalizing d with
  | nil => rfl
  | cons folder before ih =>
    rw [List.cons_append, sweepFolders, sweepFolders]
    split
    · rfl
    · exact ih d
    · split
      · next e _ => exact ih e
      · rfl

/-- All that can come of the turn of one folder. -/
theorem sweepFolders_singleton_cases (o : ListingOrder) (d : Disk) (source : String)
    (folder : Path) :
    (∃ fault, d.exists? folder = .error fault ∧
        sweepFolders o d source [folder] = (.error (.disk fault folder), d)) ∨
      (d.exists? folder = .ok false ∧ sweepFolders o d source [folder] = (.ok true, d)) ∨
      (d.exists? folder = .ok true ∧ sweepFolders o d source [folder] =
        (.ok (sweepFolder o d source folder).1, (sweepFolder o d source folder).2)) := by
  rw [sweepFolders]
  cases d.exists? folder with
  | error fault => exact .inl ⟨fault, rfl, rfl⟩
  | ok there =>
    cases there with
    | false => exact .inr (.inl ⟨rfl, rfl⟩)
    | true =>
      refine .inr (.inr ⟨rfl, ?_⟩)
      rcases sweepFolder o d source folder with ⟨_ | _, e⟩ <;> rfl

/-- The turn of a folder raises only if it cannot be told whether there is anything under its path,
and then nothing changes. -/
theorem sweepFolders_singleton_eq_error_iff {d e : Disk} {source : String} {folder : Path}
    {f : Failure} : sweepFolders o d source [folder] = (.error f, e) ↔
      d = e ∧ ∃ fault, d.exists? folder = .error fault ∧ f = .disk fault folder := by
  rcases sweepFolders_singleton_cases o d source folder with
    ⟨fault, hexists, heq⟩ | ⟨hexists, heq⟩ | ⟨hexists, heq⟩
  · rw [heq, hexists, Prod.mk.injEq, and_comm]
    simp [eq_comm]
  · simp [heq, hexists]
  · simp [heq, hexists]

namespace Tab

variable {d m e : Disk} {t : Tab μ} {folders : List Path} {p folder : Path} {f : Failure}

/-- The later folders are swept on what the deletion with the earlier ones has left, if it has
succeeded. -/
theorem delete_append (o : ListingOrder) (d : Disk) (t : Tab μ) (before after : List Path) :
    t.delete o d (before ++ after) =
      match t.delete o d before with
      | (.ok true, e) => sweepFolders o e t.filename after
      | r => r := by
  unfold delete
  cases d.unlink t.path with
  | ok e => exact sweepFolders_append o e t.filename before after
  | error fault => cases fault <;> rfl

/-- In the course of the deletion it is the turn of this folder, and the disk is then `m`: the file
is gone, and all folders before this one have been cleared. -/
def Turn (t : Tab μ) (o : ListingOrder) (d : Disk) (folders : List Path) (folder : Path)
    (m : Disk) : Prop :=
  ∃ before after, folders = before ++ folder :: after ∧ t.delete o d before = (.ok true, m)

/-- With one folder more there is one more turn, if the deletion comes so far. -/
theorem turn_concat_iff :
    t.Turn o d (folders ++ [p]) folder m ↔
      t.Turn o d folders folder m ∨ (folder = p ∧ t.delete o d folders = (.ok true, m)) := by
  constructor
  · rintro ⟨before, after, heq, hdelete⟩
    rcases after.eq_nil_or_concat' with rfl | ⟨inner, last, rfl⟩
    · obtain ⟨rfl, hlast⟩ := List.append_inj' heq rfl
      exact .inr ⟨(List.singleton_inj.mp hlast).symm, hdelete⟩
    · rw [← List.cons_append, ← List.append_assoc] at heq
      obtain ⟨rfl, -⟩ := List.append_inj' heq rfl
      exact .inl ⟨before, inner, rfl, hdelete⟩
  · rintro (⟨before, after, rfl, hdelete⟩ | ⟨rfl, hdelete⟩)
    · exact ⟨before, after ++ [p], by simp, hdelete⟩
    · exact ⟨folders, [], rfl, hdelete⟩

/-- A deletion that has succeeded has come to the turn of every folder. -/
theorem exists_turn_of_delete (h : t.delete o d folders = (.ok true, e))
    (hfolder : folder ∈ folders) : ∃ m, t.Turn o d folders folder m := by
  obtain ⟨before, after, rfl⟩ := List.append_of_mem hfolder
  rw [delete_append] at h
  split at h
  · next m hbefore => exact ⟨m, before, after, rfl, hbefore⟩
  · next hnot => exact absurd h (hnot e)

/-- By the turn of a folder entries have been removed, and nothing else. -/
theorem Turn.reduced (h : t.Turn o d folders folder m) : Reduced d m := by
  obtain ⟨before, after, -, hdelete⟩ := h
  have hreduced := (t.removesOnly_delete o d before).toReduced
  rwa [hdelete] at hreduced

/-- In a deletion that succeeds the turn of a folder does, and after it entries are only removed. -/
theorem Turn.exists_cleared (hturn : t.Turn o d folders folder m)
    (hdelete : t.delete o d folders = (.ok true, e)) :
    ∃ m', sweepFolders o m t.filename [folder] = (.ok true, m') ∧ Reduced m' e := by
  obtain ⟨before, after, rfl, hbefore⟩ := hturn
  have hrest : sweepFolders o m t.filename ([folder] ++ after) = (.ok true, e) := by
    rwa [delete_append, hbefore] at hdelete
  rw [sweepFolders_append] at hrest
  split at hrest
  · next m' hcleared =>
    have hreduced := (removesOnly_sweepFolders o m' t.filename after).toReduced
    rw [hrest] at hreduced
    exact ⟨m', hcleared, hreduced⟩
  · next hnot => exact absurd hrest (hnot e)

/-! ### What a deletion replies -/

/-- With one folder more a deletion raises as it does without, or in the turn of this folder. -/
theorem delete_concat_eq_error_iff :
    t.delete o d (folders ++ [p]) = (.error f, e) ↔
      t.delete o d folders = (.error f, e) ∨
        (t.delete o d folders = (.ok true, e) ∧
          ∃ fault, e.exists? p = .error fault ∧ f = .disk fault p) := by
  rw [delete_append]
  obtain ⟨r, m⟩ := t.delete o d folders
  rcases r with g | _ | _
  · simp
  · simp
  · simp only [sweepFolders_singleton_eq_error_iff, Prod.mk.injEq, reduceCtorEq, false_and,
      false_or, true_and]
    constructor
    · rintro ⟨rfl, h⟩
      exact ⟨rfl, h⟩
    · rintro ⟨rfl, h⟩
      exact ⟨rfl, h⟩

/-- Without folders a deletion raises only because of a NUL character in the path of the file. -/
theorem delete_nil_eq_error_iff :
    t.delete o d [] = (.error f, e) ↔
      t.path.hasNul = true ∧ f = .disk .nulInPath t.path ∧ e = d := by
  rw [← @unlink_eq_nulInPath_iff d t.path]
  unfold delete
  cases d.unlink t.path with
  | ok m => simp [sweepFolders]
  | error fault => cases fault <;> simp [eq_comm]

/-- A deletion raises if the path of the file holds a NUL character, or in the turn of a folder. -/
theorem delete_eq_error_iff :
    t.delete o d folders = (.error f, e) ↔
      (t.path.hasNul = true ∧ f = .disk .nulInPath t.path ∧ e = d) ∨
        ∃ folder fault, t.Turn o d folders folder e ∧ e.exists? folder = .error fault ∧
          f = .disk fault folder := by
  induction folders using List.reverseRecOn with
  | nil =>
    rw [delete_nil_eq_error_iff]
    simp [Turn]
  | append_singleton folders last ih =>
    rw [delete_concat_eq_error_iff, ih]
    simp only [turn_concat_iff]
    constructor
    · rintro ((hnul | ⟨folder, fault, hturn, h⟩) | ⟨hdelete, fault, h⟩)
      · exact .inl hnul
      · exact .inr ⟨folder, fault, .inl hturn, h⟩
      · exact .inr ⟨last, fault, .inr ⟨rfl, hdelete⟩, h⟩
    · rintro (hnul | ⟨folder, fault, hturn | ⟨rfl, hdelete⟩, h⟩)
      · exact .inl (.inl hnul)
      · exact .inl (.inr ⟨folder, fault, hturn, h⟩)
      · exact .inr ⟨hdelete, fault, h⟩

/-- By the turn of a folder the file is gone. -/
theorem Turn.exists_gone (h : t.Turn o d folders folder m) :
    ∃ place, d.NamesEntry t.path place ∧ m.node? place = none := by
  obtain ⟨before, after, -, hdelete⟩ := h
  rcases t.delete_cases o d before with ⟨fault, hunlink, -, hreply⟩ | ⟨d', hunlink, hsweep⟩
  · by_cases hnul : fault = .nulInPath
    · subst hnul
      simp [delete, hunlink] at hdelete
    · have hrefused := hreply hnul
      simp [hdelete] at hrefused
  · obtain ⟨place, n, hfind, hn, hchange, rfl⟩ := unlink_cases hunlink
    have hgone := node?_delete hfind hn o hchange before
    rw [hdelete] at hgone
    exact ⟨place, ⟨n, hfind, hn⟩, hgone⟩

/-- A deletion replies whether it has succeeded, except in two cases. In the one the path of the
file holds a NUL character, as no path of a tab does that has been opened. In the other it is the
turn of a folder whose path is barred, by a folder that may not be gone through or by a name that is
too long, and it was barred from the start. The file is gone by then. -/
theorem delete_raises_iff :
    t.delete o d folders = (.error f, e) ↔
      (t.path.hasNul = true ∧ f = .disk .nulInPath t.path ∧ e = d) ∨
        ∃ folder fault place, t.Turn o d folders folder e ∧ f = .disk fault folder ∧
          fault.bars = true ∧ e.exists? folder = .error fault ∧ d.exists? folder = .error fault ∧
          d.NamesEntry t.path place ∧ e.node? place = none := by
  rw [delete_eq_error_iff]
  refine or_congr_right ⟨?_, ?_⟩
  · rintro ⟨folder, fault, hturn, hexists, rfl⟩
    obtain ⟨place, hnames, hgone⟩ := hturn.exists_gone
    have hbars : fault.bars = true := (bars_of_leadsTo hexists).1
    have hbefore : d.exists? folder = .error fault := leadsTo_of_reduced hturn.reduced hexists
    exact ⟨folder, fault, place, hturn, rfl, hbars, hexists, hbefore, hnames, hgone⟩
  · rintro ⟨folder, fault, place, hturn, hf, -, hexists, -⟩
    exact ⟨folder, fault, hturn, hexists, hf⟩

/-- The disk that has the file `/a.c` only. -/
def soleFile : Disk :=
  (Disk.blank []).put ["a.c"] (.file [] .full)

/-- The tab of this file. -/
def soleTab : Tab Unit :=
  ⟨⟨.root, ["a.c"]⟩, "", false, none, .memory⟩

/-- A name that is longer than that of an entry can be. -/
def overlongName : String :=
  String.ofList (List.replicate 256 'n')

/-- The path of a folder with this name. -/
def overlongFolder : Path :=
  ⟨.root, [overlongName]⟩

theorem toList_overlongName : overlongName.toList = List.replicate 256 'n' :=
  String.toList_ofList

/-- The name holds no NUL character. -/
theorem hasNul_overlongFolder : overlongFolder.hasNul = false := by
  have hnul : holdsNul overlongName = false := by
    rw [holdsNul, toList_overlongName]
    decide +kernel
  simp [Path.hasNul, overlongFolder, hnul]

/-- The name is one step down. -/
theorem steps_overlongFolder : overlongFolder.steps = [.down overlongName] := by
  have hdots : ¬ overlongName.toList <+: ['.', '.'] := by
    intro h
    have hlength := h.length_le
    rw [toList_overlongName, List.length_replicate] at hlength
    exact absurd hlength (by decide)
  rw [Path.steps_of_isAbsolute rfl, overlongFolder, List.map_singleton,
    Step.ofName_of_prefix hdots List.prefix_rfl]

/-- Whatever the disk, it cannot be told whether there is a folder of this name. -/
theorem exists?_overlongFolder {access : Access} (hroot : d.node? [] = some (.folder access))
    (hexecute : access.execute = true) :
    d.exists? overlongFolder = .error .nameTooLong := by
  refine leadsTo_of_bars rfl ?_
  rw [find_of_isAbsolute rfl hasNul_overlongFolder, steps_overlongFolder]
  exact walk_down_overlong hroot hexecute (by decide +kernel) (by simp)

/-- A deletion raises for the over-long name of a folder, when the file is gone already. -/
theorem delete_raises_overlong :
    load soleFile ⟨.root, ["a.c"]⟩ none .memory = .ok (soleTab, []) ∧
      soleTab.delete .asKept soleFile [overlongFolder] =
        (.error (.disk .nameTooLong overlongFolder), soleFile.erase ["a.c"]) ∧
      ¬ ∃ b, (soleTab.delete .asKept soleFile [overlongFolder]).1 = .ok b := by
  have hfile : soleTab.delete .asKept soleFile [] = (.ok true, soleFile.erase ["a.c"]) := by
    decide +kernel
  have hroot : (soleFile.erase ["a.c"]).node? [] = some (.folder .full) := by decide +kernel
  have hexists : (soleFile.erase ["a.c"]).exists? overlongFolder = .error .nameTooLong :=
    exists?_overlongFolder hroot rfl
  have hraises : soleTab.delete .asKept soleFile [overlongFolder] =
      (.error (.disk .nameTooLong overlongFolder), soleFile.erase ["a.c"]) :=
    delete_eq_error_iff.mpr (.inr ⟨overlongFolder, _, ⟨[], [], rfl, hfile⟩, hexists, rfl⟩)
  refine ⟨by decide +kernel, hraises, ?_⟩
  rw [hraises]
  simp

end Tab

end Sketchbook
