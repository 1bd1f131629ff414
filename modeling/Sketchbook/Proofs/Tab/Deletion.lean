import Sketchbook.Proofs.Disk.Ways
import Sketchbook.Proofs.Tab.Opened
import Sketchbook.Proofs.Tab.Turn
import Sketchbook.Proofs.Workspace.Tabs

/-!
# What a deletion does

All that deleting a tab does to the disk is put together in `Tab.Deletes`. If the file cannot be
removed nothing happens. Otherwise only the file is removed, and what each folder is swept of in its
turn. A deletion that succeeds has left in every folder, of the entries whose names begin with that
of the file, only those that led to a folder when it was the turn of this folder.

These lead to a folder in the end as well, because what is swept leads to none, with one exception
(`Disk.OutOfReach`). A link to a folder is taken for something else, and swept, if the path of the
folder that holds it follows so many links that none are left to follow the link itself. Other links
may have led to a folder through it. Main statement: `Workspace.deletes_of_isOpened`.
-/

namespace Sketchbook

open Disk

variable {μ : Type} {o : ListingOrder} {d m e : Disk} {source name : String} {folder : Path}
  {place : Place}

/-! ### Entries that are swept -/

/-- The sweep of a folder, which is at the place, removes the entry of this name: it begins with the
name of the source, and its path leads to no folder. -/
structure Disk.Sweeps (d : Disk) (source : String) (folder : Path) (place : Place)
    (name : String) : Prop where
  find_folder : ∃ access, d.find .target folder = .ok (.entry place (.folder access))
  isPrefix : source.toList <+: name.toList
  isFolder?_eq : d.isFolder? (folder.child name) = .ok false
  namesEntry : d.NamesEntry (folder.child name) (place ++ [name])

/-- The entry of this name in a folder leads to a folder, but not along the path of the folder that
holds it: this path follows too many links already. -/
def Disk.OutOfReach (d : Disk) (folder : Path) (name : String) : Prop :=
  ∃ place access, d.find .target folder = .ok (.entry place (.folder access)) ∧
    d.EntersFolder place name ∧ d.find .target (folder.child name) = .error .linkLoop

/-- In the turn of a folder only what it is swept of is removed. -/
theorem sweeps_of_singleton (o : ListingOrder) (hdots : ¬ source.toList <+: ['.', '.']) (d : Disk)
    (folder : Path) :
    RemovesOnly (fun q => ∃ place name, q = place ++ [name] ∧ d.Sweeps source folder place name) d
      (sweepFolders o d source [folder]).2 := by
  rcases sweepFolders_singleton_cases o d source folder with
    ⟨fault, -, heq⟩ | ⟨-, heq⟩ | ⟨-, heq⟩
  · rw [heq]
    exact .refl _ d
  · rw [heq]
    exact .refl _ d
  · rw [heq]
    refine (removesOnly_sweepFolder o d source folder).mono ?_
    rintro q ⟨name, hbegins, hfile, n, hfind, hn⟩
    have hdown := Step.ofName_of_prefix hdots hbegins
    obtain ⟨place, access, hfolder, rfl, -⟩ := find_child_entry_cases hdown hfind
    exact ⟨place, name, rfl, ⟨access, hfolder⟩, hbegins, hfile, n, hfind, hn⟩

/-- If the turn of a folder succeeds, every entry in it that begins with the name of the source
leads to a folder, or is gone. -/
theorem isFolder?_of_singleton {access : Access} (hdots : ¬ source.toList <+: ['.', '.'])
    (hfolder : d.find .target folder = .ok (.entry place (.folder access)))
    (h : sweepFolders o d source [folder] = (.ok true, e)) (hbegins : source.toList <+: name.toList)
    (hleft : e.node? (place ++ [name]) ≠ none) : d.isFolder? (folder.child name) = .ok true := by
  have hreduced := (sweeps_of_singleton o hdots d folder).toReduced
  rw [h] at hreduced
  have hthere : d.exists? folder = .ok true := by simp [exists?, leadsTo, stat, hfolder]
  rcases sweepFolders_singleton_cases o d source folder with
    ⟨fault, hexists, -⟩ | ⟨hexists, -⟩ | ⟨-, heq⟩
  · rw [hthere] at hexists
    cases hexists
  · rw [hthere] at hexists
    cases hexists
  · have hsweep : sweepFolder o d source folder = (true, e) := by
      rw [heq, Prod.mk.injEq, Except.ok.injEq] at h
      exact Prod.ext h.1 h.2
    have hentry : d.HasEntry folder name := by
      refine ⟨place, access, hfolder, Option.isSome_iff_ne_none.mpr fun hnone => ?_⟩
      exact hleft (hreduced.node?_of_none hnone)
    rcases isFolder?_or_gone_of_sweepFolder hsweep hentry hbegins with hyes | ⟨q, hnames, hgone⟩
    · exact hyes
    · obtain ⟨n, hfind, -⟩ := hnames
      have hdown := Step.ofName_of_prefix hdots hbegins
      obtain ⟨place', access', hfolder', rfl, -⟩ := find_child_entry_cases hdown hfind
      rw [hfolder] at hfolder'
      cases hfolder'
      exact absurd hgone hleft

/-- What is swept is a dead end, unless it is out of reach. -/
theorem Disk.Sweeps.isDeadEnd (hdots : ¬ source.toList <+: ['.', '.'])
    (hreach : ¬ d.OutOfReach folder name) (h : d.Sweeps source folder place name) :
    d.IsDeadEnd (place ++ [name]) := by
  obtain ⟨access, hfolder⟩ := h.find_folder
  obtain ⟨n, hfind, hn⟩ := h.namesEntry
  refine ⟨fun n' hn' => ?_, fun place' name' heq henters => ?_⟩
  · obtain rfl : n = n' := Option.some.inj ((shows_of_find hfind).symm.trans hn')
    exact hn
  · obtain ⟨rfl, hname⟩ := List.append_inj' heq rfl
    obtain rfl := List.singleton_inj.mp hname
    have hdown := Step.ofName_of_prefix hdots h.isPrefix
    have hnul : holdsNul name = false :=
      (Path.hasNul_child_eq_false_iff.mp (hasNul_of_find hfind)).2
    rcases henters.isFolder?_child hfolder hdown hnul with hyes | hloop
    · rw [h.isFolder?_eq] at hyes
      cases hyes
    · exact hreach ⟨place, access, hfolder, henters, hloop⟩

/-- Where no entry is out of reach, the turn of a folder leaves every way to a folder. -/
theorem keepsFolders_singleton (o : ListingOrder) (hdots : ¬ source.toList <+: ['.', '.'])
    (hreach : ∀ name : String, source.toList <+: name.toList → ¬ d.OutOfReach folder name) :
    KeepsFolders d (sweepFolders o d source [folder]).2 := by
  refine keepsFolders_of_removesOnly ((sweeps_of_singleton o hdots d folder).mono ?_)
  rintro q ⟨place, name, rfl, hsweeps⟩
  exact hsweeps.isDeadEnd hdots (hreach name hsweeps.isPrefix)

namespace Tab

variable {t : Tab μ} {folders : List Path} {p : Path}

/-- The name of a file that could be removed has more than dots. -/
theorem IsOpened.not_prefix_dots (h : t.IsOpened) (hunlink : d.unlink t.path = .ok e) :
    ¬ t.filename.toList <+: ['.', '.'] := by
  obtain ⟨hparts, hdown⟩ := ofName_name_of_unlink h.isAbsolute_eq hunlink
  have hmem : t.path.name ∈ t.path.parts := by
    rw [← Path.child_parent_name hparts]
    simp
  exact Step.not_prefix_dots (h.isPathPart _ hmem).ne_empty hdown

/-! ### The turns of a deletion -/

/-- In the turn of some folder this is swept of the entry at the place. -/
def Sweeps (t : Tab μ) (o : ListingOrder) (d : Disk) (folders : List Path) (q : Place) : Prop :=
  ∃ folder m place name, t.Turn o d folders folder m ∧ q = place ++ [name] ∧
    m.Sweeps t.filename folder place name

/-- What is swept in some turn is swept if there is one folder more. -/
theorem Sweeps.concat {q : Place} (h : t.Sweeps o d folders q) : t.Sweeps o d
    (folders ++ [p]) q := by
  obtain ⟨folder, m, place, name, hturn, hswept⟩ := h
  exact ⟨folder, m, place, name, turn_concat_iff.mpr (.inl hturn), hswept⟩

/-- A deletion that succeeds has removed the file, whose name has more than dots. -/
theorem unlink_of_delete (h : t.delete o d folders = (.ok true, e)) :
    ∃ m, d.unlink t.path = .ok m := by
  unfold delete at h
  split at h
  · cases h
  · cases h
  · next m hunlink => exact ⟨m, hunlink⟩

/-- A deletion removes the file, and in each turn only what the folder is swept of. -/
theorem removesOnly_turns (h : t.IsOpened) (o : ListingOrder) (d : Disk) (folders : List Path) :
    RemovesOnly (fun q => d.NamesEntry t.path q ∨ t.Sweeps o d folders q) d
      (t.delete o d folders).2 := by
  induction folders using List.reverseRecOn with
  | nil =>
    refine (t.removesOnly_delete o d []).mono ?_
    rintro q (hfile | ⟨folder, hfolder, -⟩)
    · exact .inl hfile
    · cases hfolder
  | append_singleton folders last ih =>
    have hbefore := ih.mono fun q hq => hq.imp_right fun hswept => hswept.concat (p := last)
    rw [delete_append]
    rcases hdelete : t.delete o d folders with ⟨reply, m⟩
    rw [hdelete] at hbefore
    rcases reply with f | _ | _
    · exact hbefore
    · exact hbefore
    · obtain ⟨m', hunlink⟩ := unlink_of_delete hdelete
      refine hbefore.trans ((sweeps_of_singleton o (h.not_prefix_dots hunlink) m last).mono ?_)
      rintro q ⟨place, name, hq, hsweeps⟩
      exact .inr ⟨last, m, place, name, turn_concat_iff.mpr (.inr ⟨rfl, hdelete⟩), hq, hsweeps⟩

/-- With one folder more a deletion succeeds if it does without, and then the turn of this folder
does. -/
theorem delete_concat_cases (h : t.delete o d (folders ++ [p]) = (.ok true, e)) :
    ∃ m, t.delete o d folders = (.ok true, m) ∧ t.Turn o d (folders ++ [p]) p m ∧
      sweepFolders o m t.filename [p] = (.ok true, e) := by
  rw [delete_append] at h
  split at h
  · next m hbefore => exact ⟨m, hbefore, ⟨folders, [], rfl, hbefore⟩, h⟩
  · next hnot => exact absurd h (hnot e)

/-- A deletion that succeeds leaves in a folder, of the entries that begin with the name of the
file, only those that led to a folder in the turn of the folder. -/
theorem isFolder?_of_turn {access : Access} (h : t.IsOpened)
    (hdelete : t.delete o d folders = (.ok true, e)) (hturn : t.Turn o d folders folder m)
    (hfolder : m.find .target folder = .ok (.entry place (.folder access)))
    (hbegins : t.filename.toList <+: name.toList) (hleft : e.node? (place ++ [name]) ≠ none) :
    m.isFolder? (folder.child name) = .ok true := by
  obtain ⟨d', hunlink⟩ := unlink_of_delete hdelete
  obtain ⟨m', hcleared, hreduced⟩ := hturn.exists_cleared hdelete
  exact isFolder?_of_singleton (h.not_prefix_dots hunlink) hfolder hcleared hbegins
    fun hnone => hleft (hreduced.node?_of_none hnone)

/-- No entry that begins with the name of the file is out of reach in any turn. -/
def InReach (t : Tab μ) (o : ListingOrder) (d : Disk) (folders : List Path) : Prop :=
  ∀ folder m name, t.Turn o d folders folder m → t.filename.toList <+: name.toList →
    ¬ m.OutOfReach folder name

/-- If all is in reach every way to a folder is left from each turn on. -/
theorem keepsFolders_of_turn (h : t.IsOpened) (hdelete : t.delete o d folders = (.ok true, e))
    (hreach : t.InReach o d folders) (hturn : t.Turn o d folders folder m) : KeepsFolders m e := by
  obtain ⟨d', hunlink⟩ := unlink_of_delete hdelete
  have hdots := h.not_prefix_dots hunlink
  induction folders using List.reverseRecOn generalizing e with
  | nil =>
    obtain ⟨before, after, hnil, -⟩ := hturn
    simp at hnil
  | append_singleton folders last ih =>
    obtain ⟨m', hbefore, hlastTurn, hlast⟩ := delete_concat_cases hdelete
    have hstep := keepsFolders_singleton o hdots fun name => hreach last m' name hlastTurn
    rw [hlast] at hstep
    rcases turn_concat_iff.mp hturn with hturn | ⟨-, hnow⟩
    · have hreach' : t.InReach o d folders :=
        fun _ _ _ hearlier => hreach _ _ _ (turn_concat_iff.mpr (.inl hearlier))
      exact (ih hbefore hreach' hturn).trans hstep
    · rw [hbefore] at hnow
      cases hnow
      exact hstep

/-! ### The whole effect -/

/-- All that deleting a tab does to a disk, which is `e` afterwards. -/
structure Deletes (t : Tab μ) (o : ListingOrder) (d : Disk) (folders : List Path)
    (r : Except Failure Bool) (e : Disk) : Prop where
  /-- If the file cannot be removed nothing happens. -/
  refused : ∀ fault, d.unlink t.path = .error fault → r = .ok false ∧ e = d
  /-- A deletion that succeeds has removed the file, and it has come to the turn of every folder. -/
  removed : r = .ok true → (∃ place, d.NamesEntry t.path place ∧ e.node? place = none) ∧
    ∀ folder ∈ folders, ∃ m, t.Turn o d folders folder m
  /-- It has left in a folder, of the entries that begin with the name of the file, only those that
  led to a folder when it was the turn of the folder. -/
  left : r = .ok true → ∀ folder m place access name, t.Turn o d folders folder m →
    m.find .target folder = .ok (.entry place (.folder access)) →
    t.filename.toList <+: name.toList → e.node? (place ++ [name]) ≠ none →
    m.isFolder? (folder.child name) = .ok true
  /-- These still lead to a folder, unless some entry was out of reach in a turn. -/
  cleared : r = .ok true → t.InReach o d folders →
    ∀ folder m place access name, t.Turn o d folders folder m →
    m.find .target folder = .ok (.entry place (.folder access)) →
    t.filename.toList <+: name.toList → e.node? (place ++ [name]) ≠ none →
    e.isFolder? (folder.child name) = .ok true
  /-- Whatever the reply, only the file has been removed, and what the folders were swept of. -/
  removesOnly : RemovesOnly (fun q => d.NamesEntry t.path q ∨ t.Sweeps o d folders q) d e

/-- Deleting a tab does all this. -/
theorem IsOpened.deletes (h : t.IsOpened) (o : ListingOrder) (d : Disk) (folders : List Path) :
    t.Deletes o d folders (t.delete o d folders).1 (t.delete o d folders).2 where
  refused := by
    intro fault hunlink
    have hnul : fault ≠ .nulInPath := by
      rintro rfl
      rw [unlink_eq_nulInPath_iff, h.hasNul_eq] at hunlink
      cases hunlink
    rcases t.delete_cases o d folders with ⟨fault', hfault, hkept, hreply⟩ | ⟨d', hok, -⟩
    · rw [hunlink] at hfault
      cases hfault
      exact ⟨hreply hnul, hkept⟩
    · rw [hunlink] at hok
      cases hok
  removed := by
    intro hreply
    have hdelete : t.delete o d folders = (.ok true, (t.delete o d folders).2) :=
      Prod.ext hreply rfl
    obtain ⟨d', hunlink⟩ := unlink_of_delete hdelete
    obtain ⟨place, n, hfind, hn, hchange, -⟩ := unlink_cases hunlink
    exact ⟨⟨place, ⟨n, hfind, hn⟩, node?_delete hfind hn o hchange folders⟩,
      fun folder => exists_turn_of_delete hdelete⟩
  left := by
    intro hreply folder m place access name hturn hfolder hbegins hleft
    exact isFolder?_of_turn h (Prod.ext hreply rfl) hturn hfolder hbegins hleft
  cleared := by
    intro hreply hreach folder m place access name hturn hfolder hbegins hleft
    have hdelete : t.delete o d folders = (.ok true, (t.delete o d folders).2) :=
      Prod.ext hreply rfl
    have hyes := isFolder?_of_turn h hdelete hturn hfolder hbegins hleft
    exact (keepsFolders_of_turn h hdelete hreach hturn).isFolder?_child hfolder hyes
  removesOnly := removesOnly_turns h o d folders

end Tab

/-- Deleting a tab does to the disk what is said here, and it changes nothing else: no tab and no
message. -/
theorem Workspace.deletes_of_isOpened (o : ListingOrder) (w : Workspace μ) (id : TabId)
    (folders : List Path) (h : (w.tab id).IsOpened) :
    (w.tab id).Deletes o w.disk folders (w.delete o id folders).1 (w.delete o id folders).2.disk ∧
      (w.delete o id folders).2 = w.setDisk (w.delete o id folders).2.disk :=
  ⟨h.deletes o w.disk folders, rfl⟩

namespace Tab

/-! ### A link that is out of reach -/

/-- The disk with the file `/a.c`, the folders `/D`, `/E` and `/F`, and three links: from the first
folder to the link in the third, from there to the second, and from the root to itself. -/
def windingDisk : Disk :=
  (((((soleFile.put ["D"] (.folder .full)).put ["D", "a.c.x"] (.link "../F/a.c.y")).put ["E"]
    (.folder .full)).put ["F"] (.folder .full)).put ["F", "a.c.y"] (.link "../E")).put ["l"]
    (.link ".")

/-- The path of `/F` that goes through the root again and again, as often as links are followed. -/
def windingPath : Path :=
  ⟨.root, List.replicate maxLinks "l" ++ ["F"]⟩

/-- The workspace with this disk and the tab of the file. -/
def windingSpace : Workspace Unit :=
  ⟨windingDisk, [soleTab], [], false⟩

/-- The tab is deleted, and what it does to the disk is as it should be. -/
theorem deletes_windingSpace :
    (windingSpace.tab 0).IsOpened ∧
      (windingSpace.tab 0).Deletes .asKept windingSpace.disk [⟨.root, ["D"]⟩, windingPath]
        (windingSpace.delete .asKept 0 [⟨.root, ["D"]⟩, windingPath]).1
        (windingSpace.delete .asKept 0 [⟨.root, ["D"]⟩, windingPath]).2.disk ∧
      (windingSpace.delete .asKept 0 [⟨.root, ["D"]⟩, windingPath]).2 = windingSpace.setDisk
        (windingSpace.delete .asKept 0 [⟨.root, ["D"]⟩, windingPath]).2.disk := by
  have hload : load windingDisk ⟨.root, ["a.c"]⟩ none .memory = .ok (soleTab, []) := by
    decide +kernel
  have hopened : (windingSpace.tab 0).IsOpened := by
    have hcwd : windingDisk.cwd = [] := rfl
    refine isOpened_of_load (fun n hn => ?_) (by simp [hcwd]) hload
    obtain rfl := List.mem_singleton.mp hn
    exact ⟨by decide, by decide, by decide⟩
  exact ⟨hopened, windingSpace.deletes_of_isOpened .asKept 0 _ hopened⟩

/-- The link in `/F` leads to a folder but is swept, because the path to it has no link left. The
link in `/D` was passed over as leading to a folder, and in the end it leads nowhere. -/
theorem delete_leaves_link :
    (soleTab.delete .asKept windingDisk [⟨.root, ["D"]⟩, windingPath]).1 = .ok true ∧
      soleTab.Turn .asKept windingDisk [⟨.root, ["D"]⟩, windingPath] ⟨.root, ["D"]⟩
        (windingDisk.erase ["a.c"]) ∧
      (windingDisk.erase ["a.c"]).find .target ⟨.root, ["D"]⟩ =
        .ok (.entry ["D"] (.folder .full)) ∧
      soleTab.filename.toList <+: "a.c.x".toList ∧
      (soleTab.delete .asKept windingDisk [⟨.root, ["D"]⟩, windingPath]).2.node? ["D", "a.c.x"] =
        some (.link "../F/a.c.y") ∧
      (soleTab.delete .asKept windingDisk [⟨.root, ["D"]⟩, windingPath]).2.isFolder?
        ⟨.root, ["D", "a.c.x"]⟩ = .ok false := by
  refine ⟨by decide +kernel, ⟨[], [windingPath], rfl, by decide +kernel⟩, by decide +kernel,
    by decide, by decide +kernel, by decide +kernel⟩

end Tab

end Sketchbook
