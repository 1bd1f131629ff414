import Mathlib.Data.List.Infix
import Sketchbook.Proofs.Disk.Entries
import Sketchbook.Proofs.FileName.SourceFilter
import Sketchbook.Proofs.Path.EntryName
import Sketchbook.Proofs.TabSet.Load

/-!
# Sets that have just been loaded

The tabs of a set are housed if each of them stands for the entry of the sketch folder with its name
(`TabSet.Housed`). After a load that succeeded they are fresh (`TabSet.Fresh`): nothing has happened
since, so that the set still has a tab for just those entries that are admitted, and each of these
entries is found on the disk (`TabSet.Fresh.exists_find`).
-/

namespace Sketchbook

variable {μ : Type}

/-- The name of a source file has more than dots. -/
theorem not_prefix_dots_of_isSourceName {source : String} (h : isSourceName source = true) :
    ¬ source.toList <+: ['.', '.'] := by
  have hsources : ∀ dots ∈ ['.', '.'].inits, isSourceName (String.ofList dots) = false := by
    decide +kernel
  intro hdots
  have hfalse := hsources source.toList ((List.mem_inits ..).mpr hdots)
  rw [String.ofList_toList, h] at hfalse
  cases hfalse

/-- The name of a source file is one step down. -/
theorem Step.ofName_of_isSourceName {n : String} (h : isSourceName n = true) :
    Step.ofName n = .down n :=
  ofName_of_prefix (not_prefix_dots_of_isSourceName h) List.prefix_rfl

namespace TabSet

/-- The tabs of a set stand for source files of the sketch folder, each for the entry with its
name. -/
structure Housed (s : TabSet) (w : Workspace μ) : Prop where
  isFormed : s.IsFormed
  path_eq : ∀ id ∈ s.members, (w.tab id).path = s.folder.child (w.tab id).filename
  isSource : ∀ id ∈ s.members, isSourceName (w.tab id).filename = true

/-- The tab of the main file is the one with its name. -/
theorem Housed.isPrimary_iff {s : TabSet} {w : Workspace μ} (h : Housed s w) {id : TabId}
    (hid : id ∈ s.members) :
    s.isPrimary w id = true ↔ (w.tab id).filename = s.primary.name := by
  have hpath := h.path_eq id hid
  have hprimary := h.isFormed.child_folder
  rw [isPrimary, beq_iff_eq]
  constructor
  · intro heq
    apply Path.child_injective (p := s.folder)
    rw [← hpath, heq, hprimary]
  · intro heq
    rw [hpath, heq, hprimary]

/-- Whether tabs are housed is a matter of the tabs only. -/
theorem Housed.congr {s : TabSet} {w w' : Workspace μ} (h : Housed s w)
    (htab : ∀ id, w'.tab id = w.tab id) : Housed s w' := by
  refine ⟨h.isFormed, fun id hid => ?_, fun id hid => ?_⟩
  · rw [htab]
    exact h.path_eq id hid
  · rw [htab]
    exact h.isSource id hid

/-- Tabs are housed in whatever order they are. -/
theorem Housed.sort {s : TabSet} {w : Workspace μ} (h : Housed s w) : Housed (s.sort w) w := by
  have hmem : ∀ {id}, id ∈ (s.sort w).members → id ∈ s.members := (sort_perm s w).mem_iff.mp
  exact ⟨h.isFormed.of_set_eq rfl, fun id hid => h.path_eq id (hmem hid),
    fun id hid => h.isSource id (hmem hid)⟩

/-- A set as a load that succeeded has left it: its tabs are those that the sketch folder calls
for, and no entry of the folder would stop a load. -/
structure Fresh (s : TabSet) (w : Workspace μ) : Prop extends Housed s w where
  canonical : s.Canonical w.disk (s.filenames w)
  not_stops : ∀ n, w.disk.HasEntry s.folder n → s.stops w.disk n = false

/-- A load that succeeds leaves a fresh set. -/
theorem fresh_of_loadIn {s t : TabSet} {w v : Workspace μ} (hs : s.IsFormed) {o : ListingOrder}
    (h : s.loadIn o w = (.ok (), t, v)) : Fresh t v ∧ t = { s with members := t.members } := by
  have houtcome := loadOutcome hs o w
  rw [h] at houtcome
  cases houtcome with
  | complete hlist hstops hadmits hfiles hloaded =>
    have hnames := hloaded.filenames_eq
    have hset := hloaded.set_eq
    have htab : ∀ id ∈ t.members, v.tab id = s.freshTab w.disk (v.tab id).filename :=
      fun id hid => hloaded.tab_eq hid
    have hnot : ∀ n, w.disk.HasEntry s.folder n → s.stops w.disk n = false :=
      fun n hn => hstops n ((Disk.mem_list_iff hlist).mpr hn)
    have hsource : ∀ n ∈ t.filenames v, isSourceName n = true := by
      intro n hn
      rw [hnames, hfiles.mem_iff, admits_iff] at hn
      exact hn.2.1
    have hcanonical : s.Canonical w.disk (t.filenames v) := by rwa [hnames]
    refine ⟨?_, hset⟩
    rw [← hloaded.disk_eq] at hcanonical hnot
    generalize t.members = members at hset
    subst hset
    refine ⟨⟨hs.of_set_eq rfl, fun id hid => ?_, fun id hid => ?_⟩, ?_, hnot⟩
    · exact congrArg Tab.path (htab id hid)
    · exact hsource _ (List.mem_map_of_mem hid)
    · exact ⟨hcanonical.mem_iff, hcanonical.ordered⟩

namespace Fresh

variable {s : TabSet} {w : Workspace μ} {n : String}

/-- The tabs have different names. -/
theorem nodup (h : Fresh s w) : (s.filenames w).Nodup :=
  h.canonical.ordered.nodup

/-- The file of a tab is an entry of the sketch folder and no folder. -/
theorem exists_find (h : Fresh s w) (hn : n ∈ s.filenames w) :
    ∃ folder access node, w.disk.find .target s.folder = .ok (.entry folder (.folder access)) ∧
      w.disk.find .entry (s.folder.child n) = .ok (.entry (folder ++ [n]) node) ∧
      w.disk.isFolder? (s.folder.child n) = .ok false ∧ node.isFolder = false := by
  obtain ⟨hentry, hadmits⟩ := (h.canonical.mem_iff n).mp hn
  obtain ⟨hsource, hfile, -⟩ := admits_iff.mp hadmits
  have hnul : holdsNul n = false := by
    have hpath : (s.folder.child n).hasNul = false := by
      simpa [stops, hadmits, hfile] using h.not_stops n hentry
    rw [Path.hasNul_child] at hpath
    exact (Bool.or_eq_false_iff.mp hpath).2
  obtain ⟨folder, access, hfolder, hsome⟩ := hentry
  obtain ⟨node, hnode⟩ := Option.isSome_iff_exists.mp hsome
  have habs : s.folder.isAbsolute = true := h.isFormed.isAbsolute
  have hdown := Step.ofName_of_isSourceName hsource
  obtain ⟨hexecute, hshort⟩ := Disk.passable_of_leadsTo hfolder hdown hnul hfile
  have hfind := Disk.find_child hfolder hdown hnul hexecute hshort
  rw [Disk.spotIn_of_some hnode] at hfind
  exact ⟨folder, access, node, hfolder, hfind, hfile, Disk.isFolder_of_isFolder? hfind hfile⟩

/-- An entry of the sketch folder that has no tab, though its name would do for one, is a folder or
a link to one. -/
theorem isFolder?_of_not_mem (h : Fresh s w) (hentry : w.disk.HasEntry s.folder n)
    (hsource : isSourceName n = true)
    (haccepts : s.accepts (splitExtension? n sourceExtensions) = true)
    (hn : n ∉ s.filenames w) : w.disk.isFolder? (s.folder.child n) = .ok true := by
  have hstops := h.not_stops n hentry
  cases hfolder : w.disk.isFolder? (s.folder.child n) with
  | error e => simp [stops, hsource, hfolder] at hstops
  | ok isFolder =>
    cases isFolder with
    | true => rfl
    | false =>
      have hadmits : s.admits w.disk n = true := admits_iff.mpr ⟨hsource, hfolder, haccepts⟩
      exact absurd ((h.canonical.mem_iff n).mpr ⟨hentry, hadmits⟩) hn

end Fresh

end TabSet

end Sketchbook
