import Sketchbook.Proofs.Sketch.Primary
import Sketchbook.Proofs.TabSet.MainFile

/-!
# The tab that leads

The tab of the main file leads the others after a load, if there is one. A main file that is on the
disk has a tab exactly if the policy accepts its name, which is more than the making of a set asks
for (`TabSet.leads_loadIn_iff`). A main file whose name the policy refuses is left out as any other
file is.
-/

namespace Sketchbook

variable {μ : Type}

/-- What a path with a name more leads to is reached through an entry of this name. -/
theorem Disk.hasEntry_of_stat {d : Disk} {p : Path} {n : String} {folder : Place} {access : Access}
    {node : Node} (hfolder : d.find .target p = .ok (.entry folder (.folder access)))
    (hdown : Step.ofName n = .down n) (h : d.stat (p.child n) = .ok node) : d.HasEntry p n := by
  refine ⟨folder, access, hfolder, ?_⟩
  have hnul : holdsNul n = false := (Path.hasNul_child_eq_false_iff.mp (hasNul_of_stat h)).2
  obtain ⟨k, -, hk⟩ := find_child_eq_walk hfolder
  unfold stat at h
  rw [hk (by simp) hnul, hdown] at h
  cases hwalk : d.walk .target k folder [.down n] with
  | error fault => simp [hwalk] at h
  | ok spot =>
    rw [hwalk] at h
    cases walk_eq_ok_iff.mp hwalk with
    | vacant _ _ _ => cases h
    | link _ _ haim _ => cases haim
    | follow _ _ _ hnext _ _ => rw [hnext]; rfl
    | down _ _ _ hnext _ _ => rw [hnext]; rfl

/-- Extensions that come later play no part for a file name that carries one of the first. -/
theorem splitExtension?_append_extensions {filename base : String} {first : List String}
    (h : splitExtension? filename first = some base) (later : List String) :
    splitExtension? filename (first ++ later) = some base := by
  obtain ⟨e, hfind, hbase⟩ := Option.map_eq_some_iff.mp h
  rw [splitExtension?, List.find?_append, hfind]
  exact congrArg some hbase

/-- Names in pinned order begin with the one that is pinned exactly if it is among them. -/
theorem PinnedOrder.head?_eq_some_iff {first : String} {names : List String}
    (h : PinnedOrder first names) : names.head? = some first ↔ first ∈ names := by
  refine ⟨List.mem_of_head?, fun hmem => ?_⟩
  rcases h with ⟨-, rest, rfl, -, -⟩ | ⟨hout, -⟩
  · rfl
  · exact absurd hmem hout

namespace TabSet

variable {s t : TabSet} {w v : Workspace μ}

/-- The tab at index zero is the first one. -/
theorem get_zero_eq_ok_iff {id : TabId} : s.get 0 = .ok id ↔ s.members.head? = some id := by
  change s.get (.ofNat 0) = .ok id ↔ _
  rw [List.head?_eq_getElem?, get]
  cases s.members[0]? with
  | none => simp
  | some first => simp

/-- A main file that is a regular file is admitted exactly if the name of the sketch is sanitary. -/
theorem IsFormed.admits_primary_iff (hs : s.IsFormed) (hpolicy : s.accepts = acceptsSanitary)
    {d : Disk} (hfile : d.isFile? s.primary = .ok true) :
    s.admits d s.primary.name = true ↔ isSanitary s.name = true := by
  have hname : splitExtension? s.primary.name sourceExtensions = some s.name :=
    splitExtension?_append_extensions hs.name_eq auxiliaryExtensions
  have haccepts : s.accepts (splitExtension? s.primary.name sourceExtensions) =
      isSanitary s.name := by
    rw [hpolicy, hname]
    rfl
  rw [admits_iff, haccepts, hs.child_folder]
  constructor
  · rintro ⟨-, -, hsanitary⟩
    exact hsanitary
  · intro hsanitary
    rw [hpolicy] at haccepts
    exact ⟨isSourceName_of_acceptsSanitary (haccepts.trans hsanitary),
      Disk.isFolder?_of_isFile? hfile, hsanitary⟩

/-- The tab of a file in the sketch folder is that of the main file if the names are the same. -/
theorem LoadedAs.path_eq_primary_iff {files : List String} (hs : s.IsFormed)
    (h : LoadedAs s w files t v) {id : TabId} (hid : id ∈ t.members) :
    (v.tab id).path = s.primary ↔ (v.tab id).filename = s.primary.name := by
  have hprimary : t.primary = s.primary := by rw [h.set_eq]
  rw [← hprimary, ← h.isPrimary_iff hs hid, isPrimary, beq_iff_eq]

/-- In the order that a load establishes the tab of the main file is the first one, if there is
one. -/
theorem LoadedAs.leads_iff {files : List String} (hs : s.IsFormed) (h : LoadedAs s w files t v)
    (hordered : PinnedOrder s.primary.name files) :
    (∃ id, t.get 0 = .ok id ∧ (v.tab id).path = s.primary) ↔ s.primary.name ∈ files := by
  rw [← hordered.head?_eq_some_iff, ← h.filenames_eq, filenames, List.head?_map,
    Option.map_eq_some_iff]
  refine exists_congr fun id => ?_
  rw [get_zero_eq_ok_iff]
  exact and_congr_right fun hhead => h.path_eq_primary_iff hs (List.mem_of_head? hhead)

/-- A main file that is on the disk is among the files that its folder calls for exactly if the
name of the sketch is sanitary. -/
theorem Canonical.primary_mem_iff {d : Disk} {files : List String} (h : s.Canonical d files)
    (hs : s.IsFormed) (hpolicy : s.accepts = acceptsSanitary) {n : String}
    (hlisted : d.HasEntry s.folder n) (hfile : d.isFile? s.primary = .ok true) :
    s.primary.name ∈ files ↔ isSanitary s.name = true := by
  obtain ⟨folder, access, hfolder, -⟩ := hlisted
  obtain ⟨bytes, access', hstat⟩ := Disk.exists_of_isFile? hfile
  rw [← hs.child_folder] at hstat
  have hentry := Disk.hasEntry_of_stat hfolder hs.ofName_primary hstat
  rw [h.mem_iff, ← hs.admits_primary_iff hpolicy hfile]
  exact and_iff_right hentry

/-- After a load under the usual policy a main file that is on the disk leads the tabs exactly if
the name of the sketch is sanitary. Otherwise it has no tab at all. -/
theorem leads_loadIn_iff (hs : s.IsFormed) (hpolicy : s.accepts = acceptsSanitary)
    {o : ListingOrder} (hload : s.loadIn o w = (.ok (), t, v))
    (hfile : w.disk.isFile? s.primary = .ok true) :
    ((∃ id, t.get 0 = .ok id ∧ (v.tab id).path = s.primary) ↔ isSanitary s.name = true) ∧
      (isSanitary s.name = false → ∀ id ∈ t.members, (v.tab id).path ≠ s.primary) := by
  have houtcome := loadOutcome hs o w
  rw [hload] at houtcome
  cases houtcome with
  | complete hlist _ hadmits hfiles hloaded =>
    obtain ⟨n, hn, -⟩ := hadmits
    have hmem := hfiles.primary_mem_iff hs hpolicy ((Disk.mem_list_iff hlist).mp hn) hfile
    refine ⟨(hloaded.leads_iff hs hfiles.ordered).trans hmem, fun hnot id hid hpath => ?_⟩
    have hname : s.primary.name ∈ t.filenames v :=
      List.mem_map.mpr ⟨id, hid, (hloaded.path_eq_primary_iff hs hid).mp hpath⟩
    rw [hloaded.filenames_eq, hmem, hnot] at hname
    cases hname

/-- The set of a sketch in a folder with a blank in its name. -/
def spaced : TabSet :=
  ⟨⟨.root, ["my sketch", "my sketch.ino"]⟩, "my sketch", .memory, acceptsSanitary, []⟩

/-- A disk with the folder `/my sketch`, its main file and another tab. -/
def spacedDisk : Disk :=
  ((Disk.blank []).placeFile [] ["my sketch", "my sketch.ino"] [0x78]).placeFile []
    ["my sketch", "a.c"] [0x79]

/-- The set of this sketch loaded from the disk, and its tabs. -/
def loadedSpaced : Except Failure Unit × TabSet × Workspace Unit :=
  spaced.loadIn .asKept (Workspace.ofDisk spacedDisk true)

/-- A main file with a blank in its name is found and makes a set, but the other tab leads after a
load. -/
theorem load_spaced :
    primaryOf spacedDisk ⟨.root, ["my sketch"]⟩ = .ok (some spaced.primary) ∧
      ofPrimary spacedDisk spaced.primary .memory acceptsSanitary = .ok spaced ∧
      spacedDisk.isFile? spaced.primary = .ok true ∧ loadedSpaced.1 = .ok () ∧
      ∃ id, loadedSpaced.2.1.get 0 = .ok id ∧
        (loadedSpaced.2.2.tab id).path = ⟨.root, ["my sketch", "a.c"]⟩ := by
  have hname : splitExtension? spaced.primary.name sketchExtensions = some "my sketch" := by
    decide +kernel
  have hmade : ofPrimary spacedDisk spaced.primary .memory acceptsSanitary = .ok spaced := by
    rw [ofPrimary, Disk.absolute_of_isAbsolute spacedDisk (by decide)]
    simp only [hname]
    rfl
  exact ⟨by decide +kernel, hmade, by decide +kernel, by decide +kernel, 0, by decide +kernel⟩

/-- The main file of a sketch with a sanitary name leads the tabs. -/
theorem leads_loadIn_blink :
    blink.IsFormed ∧ (blink.loadIn .asKept (blinkOn "none")).1 = .ok () ∧
      (blinkOn "none").disk.isFile? blink.primary = .ok true ∧
      ∃ id, (blink.loadIn .asKept (blinkOn "none")).2.1.get 0 = .ok id ∧
        ((blink.loadIn .asKept (blinkOn "none")).2.2.tab id).path = blink.primary := by
  have hok : (blink.loadIn .asKept (blinkOn "none")).1 = .ok () := by decide +kernel
  have hfile : (blinkOn "none").disk.isFile? blink.primary = .ok true := by decide +kernel
  have hload : blink.loadIn .asKept (blinkOn "none") =
      (.ok (), (blink.loadIn .asKept (blinkOn "none")).2) := Prod.ext hok rfl
  obtain ⟨hleads, -⟩ := leads_loadIn_iff isFormed_blink rfl hload hfile
  exact ⟨isFormed_blink, hok, hfile, hleads.mpr (by decide)⟩

end TabSet

end Sketchbook
