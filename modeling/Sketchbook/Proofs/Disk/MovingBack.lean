import Sketchbook.Proofs.Disk.Moving

/-!
# Moving an entry back

An entry that has been moved to a free name in its folder can be moved back, and the disk is then
as it was (`Disk.RenamedWithin.exists_rename_back`). There is one exception, for a path of the
folder that leads through the entry itself (`Disk.PassesEntry`). Once the entry has been moved this
path leads nowhere, and the entry cannot be moved back along it
(`Disk.RenamedWithin.rename_back_eq_error`).
-/

namespace Sketchbook.Disk

variable {d e f : Disk} {p : Path} {place : Place} {n : Node}

/-- The path of the folder leads there through the entry of this name in the folder: without the
entry it does not lead to the folder. -/
def PassesEntry (d : Disk) (p : Path) (name : String) : Prop :=
  ∃ place access, d.find .target p = .ok (.entry place (.folder access)) ∧
    (d.erase (place ++ [name])).find .target p ≠ .ok (.entry place (.folder access))

/-! ### Walks on two disks with less than there was -/

/-- Whatever there was is gone from the disk `e`, or it is still there on both disks. -/
def Parted (d e f : Disk) : Prop :=
  ∀ q m, d.node? q = some m → e.node? q = none ∨ e.node? q = some m ∧ f.node? q = some m

/-- A folder that could be gone through is gone, or it still can on both disks. -/
theorem Parted.isOpen_cases (h : Parted d e f) {q : Place} (hopen : d.IsOpen q) :
    e.node? q = none ∨ e.IsOpen q ∧ f.IsOpen q := by
  obtain ⟨access, hnode, hexecute⟩ := hopen
  rcases h q _ hnode with hnone | ⟨he, hf⟩
  · exact .inl hnone
  · exact .inr ⟨⟨access, he, hexecute⟩, access, hf, hexecute⟩

/-- A walk that led to an entry finds nothing on the one disk, or it leads there on both. -/
theorem Leads.parted (hparted : Parted d e f) {links : Nat} {here : Place} {steps : List Step}
    (h : d.Leads .target links here steps (.entry place n)) :
    FindsNothing (e.walk .target links here steps) ∨
      e.Leads .target links here steps (.entry place n) ∧
        f.Leads .target links here steps (.entry place n) := by
  generalize hend : Spot.entry place n = spot at h
  -- at the first step to something that is gone nothing is found
  induction h with
  | @arrive links here m hn =>
    rcases hparted here m hn with hnone | ⟨he, hf⟩
    · exact .inl (findsNothing_of_none hnone _)
    · exact .inr ⟨.arrive he, .arrive hf⟩
  | @slash links here rest spot access hhere _ ih =>
    rcases hparted here _ hhere with hnone | ⟨he, hf⟩
    · exact .inl (findsNothing_of_none hnone _)
    · rw [walk_slash he]
      exact (ih hend).imp_right fun hrest => ⟨.slash he hrest.1, .slash hf hrest.2⟩
  | @stay links here rest spot hopen _ ih =>
    rcases hparted.isOpen_cases hopen with hnone | ⟨he, hf⟩
    · exact .inl (findsNothing_of_none hnone _)
    · obtain ⟨access, hhere, hexecute⟩ := id he
      rw [walk_here hhere hexecute]
      exact (ih hend).imp_right fun hrest => ⟨.stay he hrest.1, .stay hf hrest.2⟩
  | @up links here rest spot hopen _ ih =>
    rcases hparted.isOpen_cases hopen with hnone | ⟨he, hf⟩
    · exact .inl (findsNothing_of_none hnone _)
    · obtain ⟨access, hhere, hexecute⟩ := id he
      rw [walk_up hhere hexecute]
      exact (ih hend).imp_right fun hrest => ⟨.up he hrest.1, .up hf hrest.2⟩
  | vacant _ _ _ => cases hend
  | link _ _ haim _ => cases haim
  | @follow links here name target rest spot hopen hname hwriting hnext hfollow _ ih =>
    rcases hparted.isOpen_cases hopen with hnone | ⟨he, hf⟩
    · exact .inl (findsNothing_of_none hnone _)
    · rcases hparted _ _ hnext with hnone | ⟨hnextE, hnextF⟩
      · exact .inl (findsNothing_down he hname (by simp) hnone)
      · obtain ⟨access, hhere, hexecute⟩ := id he
        rw [walk_down_link hhere hexecute hname hwriting hnextE hfollow]
        exact (ih hend).imp_right fun hrest =>
          ⟨.follow he hname hwriting hnextE hfollow hrest.1,
            .follow hf hname hwriting hnextF hfollow hrest.2⟩
  | @down links here name rest spot m hopen hname hwriting hnext hm _ ih =>
    rcases hparted.isOpen_cases hopen with hnone | ⟨he, hf⟩
    · exact .inl (findsNothing_of_none hnone _)
    · rcases hparted _ _ hnext with hnone | ⟨hnextE, hnextF⟩
      · exact .inl (findsNothing_down he hname (by simp) hnone)
      · obtain ⟨access, hhere, hexecute⟩ := id he
        rw [walk_down hhere hexecute hname hwriting hnextE hm]
        exact (ih hend).imp_right fun hrest =>
          ⟨.down he hname hwriting hnextE hm hrest.1, .down hf hname hwriting hnextF hm hrest.2⟩

/-- An absolute path that led to an entry finds nothing on the one disk, or it leads there on
both. -/
theorem find_of_parted (hparted : Parted d e f) (habs : p.isAbsolute = true)
    (h : d.find .target p = .ok (.entry place n)) :
    FindsNothing (e.find .target p) ∨
      e.find .target p = .ok (.entry place n) ∧ f.find .target p = .ok (.entry place n) := by
  have hnul : p.hasNul = false := hasNul_of_find h
  rw [find_of_isAbsolute habs hnul, walk_eq_ok_iff] at h
  rw [find_of_isAbsolute habs hnul, find_of_isAbsolute habs hnul, walk_eq_ok_iff, walk_eq_ok_iff]
  exact h.parted hparted

/-! ### Renaming within a folder -/

/-- Where the path of the folder finds nothing no entry of it can be renamed. -/
theorem rename_eq_error_of_findsNothing {name : String} {q : Path}
    (hnothing : FindsNothing (d.find .target p)) (hdown : Step.ofName name = .down name)
    (hp : (p.child name).hasNul = false) (hq : q.hasNul = false) :
    ∃ fault, fault ≠ .nulInPath ∧ d.rename (p.child name) q = .error fault := by
  cases hfind : d.find .entry (p.child name) with
  | ok spot =>
    obtain ⟨folder, access, hfolder, -⟩ := find_child_cases hdown hfind
    rw [hfolder] at hnothing
    cases hnothing
  | error fault =>
    have hfault : fault ≠ .nulInPath := by
      rintro rfl
      rw [find_eq_nulInPath_iff, hp] at hfind
      cases hfind
    rw [rename, hp, hq, if_neg (by simp)]
    split
    · exact ⟨.busy, by simp, rfl⟩
    · exact ⟨fault, hfault, by rw [hfind]⟩

/-- What lets an entry be renamed lets its folder be changed. -/
theorem mayChange_of_move {source target : Place} (hne : target ≠ source)
    (h : d.move source n target = .ok e) : d.mayChange source.dropLast = true := by
  unfold move at h
  rw [if_neg hne] at h
  split at h
  · cases h
  · split at h
    · cases h
    · next hallowed =>
      simp only [Bool.or_eq_true, Bool.not_eq_true', not_or, Bool.not_eq_false] at hallowed
      exact hallowed.1.1

/-- What is no folder is moved to where there is nothing, if both folders may be changed. -/
theorem move_of_none {source target : Place} (hn : n.isFolder = false)
    (htarget : d.node? target = none) (hne : target ≠ source) (hnested : ¬ source <+: target)
    (hsource : d.mayChange source.dropLast = true)
    (hchange : d.mayChange target.dropLast = true) :
    d.move source n target = .ok (d.moveNode source target n) := by
  have hmay : mayMove n source target = true := by simp [mayMove, hn]
  have hapart : source.isPrefixOf target = false :=
    Bool.eq_false_iff.mpr fun h => hnested (List.isPrefixOf_iff_prefix.mp h)
  rw [move, if_neg hne, hapart, hsource, hchange, hmay, if_neg (by simp), if_neg (by simp)]
  cases n with
  | folder access => cases hn
  | file bytes access => simp [moveOnto, htarget]
  | link text => simp [moveOnto, htarget]

/-- The path of an entry with a name of its own ends in this name. -/
theorem endsInName_child {name : String} (hdown : Step.ofName name = .down name) :
    (p.child name).endsInName = true := by
  have hne : name ≠ ".." := by
    rintro rfl
    exact absurd hdown (by decide)
  simp [Path.endsInName, Path.child, hne]

/-- An entry that is no folder is renamed to a free name in its folder, if the folder may be
changed. -/
theorem rename_of_vacant {old new : String} (hold : Step.ofName old = .down old)
    (hnew : Step.ofName new = .down new)
    (hsource : d.find .entry (p.child old) = .ok (.entry (place ++ [old]) n))
    (htarget : d.find .entry (p.child new) = .ok (.vacant place new))
    (hn : n.isFolder = false) (hne : new ≠ old) (hchange : d.mayChange place = true) :
    d.rename (p.child old) (p.child new) =
      .ok (d.moveNode (place ++ [old]) (place ++ [new]) n) := by
  have hmove : d.move (place ++ [old]) n (place ++ [new]) =
      .ok (d.moveNode (place ++ [old]) (place ++ [new]) n) := by
    refine move_of_none hn (shows_of_find htarget) (by simpa using hne) ?_ ?_ ?_
    · intro hnested
      have heq := hnested.eq_of_length (by simp)
      exact hne (by simpa using heq.symm)
    · rw [List.dropLast_concat]
      exact hchange
    · rw [List.dropLast_concat]
      exact hchange
  rw [rename, hasNul_of_find hsource, hasNul_of_find htarget, endsInName_child hold,
    endsInName_child hnew, if_neg (by simp), if_neg (by simp), hsource, htarget]
  exact hmove

/-! ### The path of the folder once an entry has been moved -/

/-- When a node has been moved to where there was nothing, everything else is where it was, as it is
if the node is removed. -/
theorem Moved.parted {source target : Place} (h : Moved d e source target n)
    (hfree : d.node? target = none) (hne : source ≠ target) : Parted d e (d.erase source) := by
  intro q m hq
  by_cases hsource : q = source
  · left
    rw [h.node?_eq, hsource, if_neg hne, if_pos rfl]
  · have htarget : q ≠ target := by
      rintro rfl
      rw [hfree] at hq
      cases hq
    right
    rw [h.node?_of_ne hsource htarget, node?_erase, if_neg hsource]
    exact ⟨hq, hq⟩

/-- When a node has been moved to where there was nothing, the disk has more than if it had been
removed. -/
theorem Moved.reduced {source target : Place} (h : Moved d e source target n)
    (hfree : d.node? target = none) : Reduced e (d.erase source) := by
  refine ⟨h.cwd_eq.symm, h.lost_eq.symm, fun q => ?_⟩
  rw [node?_erase]
  split
  · exact .inr rfl
  · next hsource =>
    by_cases htarget : q = target
    · rw [htarget]
      exact .inr hfree
    · exact .inl (h.node?_of_ne hsource htarget).symm

/-- A node that has been moved to where there was nothing can be moved back, and everything is as it
was. -/
theorem Moved.same_moveNode {source target : Place} (h : Moved d e source target n)
    (hfree : d.node? target = none) : (e.moveNode target source n).Same d := by
  refine ⟨h.cwd_eq, h.lost_eq, fun q => ?_⟩
  rw [node?_moveNode]
  by_cases hsource : q = source
  · rw [if_pos hsource, hsource, h.source_eq]
  · rw [if_neg hsource]
    by_cases htarget : q = target
    · rw [if_pos htarget, htarget, hfree]
    · rw [if_neg htarget, h.node?_of_ne hsource htarget]

/-! ### Renaming an entry back -/

/-- An entry that is no folder has been renamed in the folder that the path leads to. The new name
was free. -/
structure RenamedWithin (d e : Disk) (p : Path) (old new : String) (folder : Place) (n : Node) :
    Prop where
  find_folder : ∃ access, d.find .target p = .ok (.entry folder (.folder access))
  find_old : d.find .entry (p.child old) = .ok (.entry (folder ++ [old]) n)
  find_new : d.find .entry (p.child new) = .ok (.vacant folder new)
  isFolder_eq : n.isFolder = false
  mayChange : d.mayChange folder = true
  moved : Moved d e (folder ++ [old]) (folder ++ [new]) n

variable {old new : String} {folder : Place}

/-- An entry that leads to no folder has been renamed to a free name in its folder, if renaming it
succeeds. -/
theorem exists_renamedWithin (hold : Step.ofName old = .down old)
    (hnew : Step.ofName new = .down new) (hne : new ≠ old)
    (hfile : d.isFolder? (p.child old) = .ok false) (hfree : ¬ d.HasEntry p new)
    (h : d.rename (p.child old) (p.child new) = .ok e) :
    ∃ folder n, RenamedWithin d e p old new folder n := by
  obtain ⟨folder, access, n, hfolder, hspot, hn, hmoved, -⟩ := moved_of_rename hold hnew hne hfile h
  have hvacant : d.node? (folder ++ [new]) = none := by
    rw [← Option.not_isSome_iff_eq_none]
    exact fun hsome => hfree ⟨folder, access, hfolder, hsome⟩
  obtain ⟨source, m, -, target, hsource, -, -, hmove⟩ := rename_cases h
  obtain ⟨folder', access', hfolder', rfl, hnode⟩ := find_child_entry_cases hold hsource
  rw [hfolder] at hfolder'
  cases hfolder'
  obtain rfl : m = n := Option.some.inj (hnode.symm.trans hmoved.source_eq)
  have hother : target ≠ folder ++ [old] := by
    rintro rfl
    rw [move, if_pos rfl] at hmove
    cases hmove
    have hgone := hmoved.node?_eq (folder ++ [old])
    rw [if_neg (by simpa using hne.symm), if_pos rfl, hnode] at hgone
    cases hgone
  have hchange := mayChange_of_move hother hmove
  rw [List.dropLast_concat] at hchange
  rw [spotIn_of_none hvacant] at hspot
  exact ⟨folder, m, ⟨access, hfolder⟩, hsource, hspot, hn, hchange, hmoved⟩

namespace RenamedWithin

variable (h : RenamedWithin d e p old new folder n)

include h

/-- There was nothing under the new name. -/
theorem node?_new : d.node? (folder ++ [new]) = none :=
  shows_of_find h.find_new

/-- The entry is in another place than before. -/
theorem ne_place : folder ++ [old] ≠ folder ++ [new] := by
  intro heq
  have hsome := h.moved.source_eq
  rw [heq, h.node?_new] at hsome
  cases hsome

variable (habs : p.isAbsolute = true)

include habs

/-- A path of the folder that leads through the entry finds nothing any more, and any other leads
there as before. -/
theorem find_cases :
    d.PassesEntry p old ∧ FindsNothing (e.find .target p) ∨
      ¬ d.PassesEntry p old ∧ e.find .target p = d.find .target p := by
  obtain ⟨access, hfolder⟩ := h.find_folder
  by_cases hpasses : d.PassesEntry p old
  · left
    refine ⟨hpasses, ?_⟩
    obtain ⟨place, access', hfind, hnot⟩ := hpasses
    rw [hfolder] at hfind
    cases hfind
    have hcases := find_of_parted (h.moved.parted h.node?_new h.ne_place) habs hfolder
    exact hcases.resolve_right fun hboth => hnot hboth.2
  · right
    have hkept : (d.erase (folder ++ [old])).find .target p =
        .ok (.entry folder (.folder access)) :=
      Classical.byContradiction fun hnot => hpasses ⟨folder, access, hfolder, hnot⟩
    rw [hfolder]
    exact ⟨hpasses, find_of_reduced (h.moved.reduced h.node?_new) hkept⟩

/-- If the path of the folder leads through the entry, the entry cannot be renamed back. -/
theorem rename_back_eq_error (hnew : Step.ofName new = .down new)
    (hpasses : d.PassesEntry p old) :
    ∃ fault, fault ≠ .nulInPath ∧ e.rename (p.child new) (p.child old) = .error fault := by
  rcases h.find_cases habs with ⟨-, hnothing⟩ | ⟨hnot, -⟩
  · exact rename_eq_error_of_findsNothing hnothing hnew (hasNul_of_find h.find_new)
      (hasNul_of_find h.find_old)
  · exact absurd hpasses hnot

/-- If the path of the folder does not lead through the entry, the entry can be renamed back, and
everything is as it was. -/
theorem exists_rename_back (hold : Step.ofName old = .down old)
    (hnew : Step.ofName new = .down new) (hpasses : ¬ d.PassesEntry p old) :
    ∃ f, e.rename (p.child new) (p.child old) = .ok f ∧ f.Same d := by
  obtain ⟨folder', access, hfolder, hexecute, hshortOld, hspot⟩ := find_child_cases hold h.find_old
  obtain ⟨-, -, -, -, hshortNew, -⟩ := find_child_cases hnew h.find_new
  obtain ⟨hplace, -⟩ := spotIn_eq_entry_iff.mp hspot.symm
  obtain rfl : folder = folder' := by simpa using hplace
  have hnulOld := (Path.hasNul_child_eq_false_iff.mp (hasNul_of_find h.find_old)).2
  have hnulNew := (Path.hasNul_child_eq_false_iff.mp (hasNul_of_find h.find_new)).2
  have hne : old ≠ new := by simpa using h.ne_place
  -- the path still leads to the folder, where the node is under the new name
  have hfolder' : e.find .target p = .ok (.entry folder (.folder access)) := by
    rcases h.find_cases habs with ⟨hyes, -⟩ | ⟨-, hsame⟩
    · exact absurd hyes hpasses
    · rw [hsame, hfolder]
  have hsource : e.find .entry (p.child new) = .ok (.entry (folder ++ [new]) n) := by
    rw [find_child hfolder' hnew hnulNew hexecute hshortNew, spotIn_of_some]
    rw [h.moved.node?_eq, if_pos rfl]
  have htarget : e.find .entry (p.child old) = .ok (.vacant folder old) := by
    rw [find_child hfolder' hold hnulOld hexecute hshortOld, spotIn_of_none]
    rw [h.moved.node?_eq, if_neg h.ne_place, if_pos rfl]
  have hchange : e.mayChange folder = true := by
    rw [Disk.mayChange, h.moved.node?_of_ne (by simp) (by simp)]
    exact h.mayChange
  exact ⟨_, rename_of_vacant hnew hold hsource htarget h.isFolder_eq hne hchange,
    h.moved.same_moveNode h.node?_new⟩

end RenamedWithin

end Sketchbook.Disk
