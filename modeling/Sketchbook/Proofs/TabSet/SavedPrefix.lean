import Sketchbook.Disk.Arrange
import Sketchbook.Proofs.TabSet.Save

/-!
# What a save leaves on the disk

The tabs that a save is to write are those that have been edited, each once, in the order in which
they first stand in the set (`TabSet.edited`). Whatever the disk does, the save has written the
first so many of them, one after the other, and has left the others as they were
(`TabSet.save_writes_prefix`). It fails only where a file cannot be written, and then the tabs that
are left begin with the one of this file. Be it that the file could be opened and does not get the
whole text, then it has lost what it held before.
-/

namespace Sketchbook

variable {μ : Type}

/-- From the first disk to the second the texts of tabs have been written to their files, one after
the other. Each time the path of the tab leads to a file with the bytes of the text, and nothing
else has changed. -/
inductive WritesTexts : Disk → List (Tab μ) → Disk → Prop
  | nil (d : Disk) : WritesTexts d [] d
  | cons {d m e : Disk} {t : Tab μ} {ts : List (Tab μ)} {place : Place} {bytes : List UInt8}
      {access : Access} (hencode : t.text.encode = .ok bytes)
      (hwritten : d.Written m t.path place bytes access) (hrest : WritesTexts m ts e) :
      WritesTexts d (t :: ts) e

namespace TabSet

/-! ### The tabs that are to be written -/

/-- The tabs of a list that have been edited, each once, in the order in which they come first. -/
def edited (w : Workspace μ) (ids : List TabId) : List TabId :=
  (ids.filter fun id => (w.tab id).dirty).eraseDups

/-- The tabs that are to be written are those of the list that have been edited. -/
theorem mem_edited_iff {w : Workspace μ} {ids : List TabId} {id : TabId} :
    id ∈ edited w ids ↔ id ∈ ids ∧ (w.tab id).dirty = true := by
  rw [edited, List.mem_eraseDups, List.mem_filter]

/-- A tab that has not been edited is passed over. -/
theorem edited_cons_of_clean {w : Workspace μ} {id : TabId} (h : (w.tab id).dirty = false)
    (ids : List TabId) : edited w (id :: ids) = edited w ids := by
  rw [edited, List.filter_cons_of_neg (by simp [h]), edited]

/-- Of one tab the mark has been taken away, and of the others nothing has changed. -/
structure Unmarks (w v : Workspace μ) (id : TabId) : Prop where
  tab_eq : v.tab id = { w.tab id with dirty := false }
  others : ∀ other, other ≠ id → v.tab other = w.tab other

/-- An edited tab that is written has its mark taken away. -/
theorem unmarks_of_write {w : Workspace μ} {id : TabId} (h : (w.tab id).dirty = true) (d : Disk) :
    Unmarks w ((w.setTab id { w.tab id with dirty := false }).setDisk d) id := by
  have hlt : id < w.tabs.length := by
    refine Nat.lt_of_not_le fun hle => ?_
    rw [Workspace.tab_of_length_le hle] at h
    cases h
  constructor
  · rw [Workspace.tab_setDisk, Workspace.tab_setTab, if_pos ⟨rfl, hlt⟩]
  · intro other hne
    rw [Workspace.tab_setDisk, Workspace.tab_setTab, if_neg fun hand => hne hand.1]

/-- A tab that has been edited comes first, and then those that are still edited when its mark has
been taken away. -/
theorem edited_cons_of_dirty {w v : Workspace μ} {id : TabId} (h : (w.tab id).dirty = true)
    (hunmarks : Unmarks w v id) (ids : List TabId) : edited w (id :: ids) = id :: edited v ids := by
  have hfilter : (ids.filter fun other => (w.tab other).dirty).filter (fun other => !other == id) =
      ids.filter fun other => (v.tab other).dirty := by
    rw [List.filter_filter]
    refine List.filter_congr fun other _ => ?_
    by_cases heq : other = id
    · subst heq
      simp [hunmarks.tab_eq]
    · simp [heq, hunmarks.others other heq]
  rw [edited, List.filter_cons_of_pos (by simpa using h), List.eraseDups_cons, hfilter, edited]

/-- If the first tab of a list has been edited, it is the first that is to be written. -/
theorem exists_edited_cons {w : Workspace μ} {id : TabId} (h : (w.tab id).dirty = true)
    (ids : List TabId) : ∃ rest, edited w (id :: ids) = id :: rest := by
  rw [edited, List.filter_cons_of_pos (by simpa using h), List.eraseDups_cons]
  exact ⟨_, rfl⟩

/-! ### The tabs that are written -/

/-- A save has written the first so many of the tabs that have been edited, and has left the others
as they were. It has done so with all of them, or the next one has failed. -/
structure SavedUpTo (room : Room) (w : Workspace μ) (ids written left : List TabId)
    (reply : Except WriteFailure Unit) (v : Workspace μ) : Prop where
  edited_eq : edited w ids = written ++ left
  written_eq : ∀ id ∈ written, v.tab id = { w.tab id with dirty := false }
  kept_eq : ∀ id, id ∉ written → v.tab id = w.tab id
  left_kept : ∀ id ∈ left, v.tab id = w.tab id
  reply_cases : reply = .ok () ∧ left = [] ∧ WritesTexts w.disk (written.map w.tab) v.disk ∨
    ∃ id rest m f, left = id :: rest ∧ WritesTexts w.disk (written.map w.tab) m ∧
      WriteOutcome room (w.tab id).text (w.tab id).path m (.error f) v.disk ∧ reply = .error f

namespace SavedUpTo

variable {room : Room} {w v v' : Workspace μ} {ids written left : List TabId}
  {reply : Except WriteFailure Unit} {id : TabId} {d : Disk}

/-- A tab without a mark is not to be written. -/
theorem not_mem_of_clean (h : SavedUpTo room w ids written left reply v)
    (hclean : (w.tab id).dirty = false) : id ∉ written ++ left := by
  rw [← h.edited_eq, mem_edited_iff]
  rintro ⟨-, hdirty⟩
  rw [hclean] at hdirty
  cases hdirty

/-- What is done after the first tab has been written, seen from before. -/
theorem cons (hdirty : (w.tab id).dirty = true)
    (hfirst : WriteOutcome room (w.tab id).text (w.tab id).path w.disk (.ok ()) v.disk)
    (hunmarks : Unmarks w v id) (h : SavedUpTo room v ids written left reply v') :
    SavedUpTo room w (id :: ids) (id :: written) left reply v' := by
  -- the tab that has been written is not to be written again
  have hnot : id ∉ written ++ left := h.not_mem_of_clean (by rw [hunmarks.tab_eq])
  have hsame : ∀ other ∈ written ++ left, v.tab other = w.tab other := by
    refine fun other hmem => hunmarks.others other ?_
    rintro rfl
    exact hnot hmem
  have hmap : written.map v.tab = written.map w.tab :=
    List.map_congr_left fun other hmem => hsame other (List.mem_append_left _ hmem)
  have hwrites : ∀ m, WritesTexts v.disk (written.map v.tab) m →
      WritesTexts w.disk ((id :: written).map w.tab) m := by
    intro m hrest
    rw [hmap] at hrest
    cases hfirst with
    | done hopen hencode hfits hwritten => exact .cons hencode hwritten hrest
  constructor
  case edited_eq => rw [edited_cons_of_dirty hdirty hunmarks, h.edited_eq, List.cons_append]
  case written_eq =>
    intro other hmem
    rcases List.mem_cons.mp hmem with rfl | hmem
    · rw [h.kept_eq _ fun hmem => hnot (List.mem_append_left _ hmem), hunmarks.tab_eq]
    · rw [h.written_eq other hmem, hsame other (List.mem_append_left _ hmem)]
  case kept_eq =>
    intro other hmem
    obtain ⟨hne, hmem⟩ := not_or.mp (mt List.mem_cons.mpr hmem)
    rw [h.kept_eq other hmem, hunmarks.others other hne]
  case left_kept =>
    intro other hmem
    rw [h.left_kept other hmem, hsame other (List.mem_append_right _ hmem)]
  case reply_cases =>
    rcases h.reply_cases with
      ⟨hreply, hleft, hrest⟩ | ⟨failed, rest, m, f, hleft, hrest, houtcome, hreply⟩
    · exact .inl ⟨hreply, hleft, hwrites _ hrest⟩
    · rw [hsame failed (by simp [hleft])] at houtcome
      exact .inr ⟨failed, rest, m, f, hleft, hwrites m hrest, houtcome, hreply⟩

/-- A tab that is left is still edited. -/
theorem dirty_of_mem_left (h : SavedUpTo room w ids written left reply v) (hid : id ∈ left) :
    (v.tab id).dirty = true := by
  have hedited : id ∈ edited w ids := h.edited_eq ▸ List.mem_append_right _ hid
  rw [h.left_kept id hid]
  exact (mem_edited_iff.mp hedited).2

/-- A save that does not fail leaves no tab to be written. -/
theorem left_eq_nil (h : SavedUpTo room w ids written left (.ok ()) v) : left = [] := by
  rcases h.reply_cases with ⟨-, hleft, -⟩ | ⟨failed, rest, m, f, -, -, -, hreply⟩
  · exact hleft
  · cases hreply

/-- After a save that does not fail no tab of the list is edited. -/
theorem dirty_eq_false (h : SavedUpTo room w ids written left (.ok ()) v) (hid : id ∈ ids) :
    (v.tab id).dirty = false := by
  by_cases hwritten : id ∈ written
  · rw [h.written_eq id hwritten]
  · rw [h.kept_eq id hwritten, ← Bool.not_eq_true]
    intro hstill
    have hedited : id ∈ edited w ids := mem_edited_iff.mpr ⟨hid, hstill⟩
    rw [h.edited_eq, h.left_eq_nil, List.append_nil] at hedited
    exact hwritten hedited

/-- No text changes, and only a tab that has been written loses its mark. -/
theorem text_eq (h : SavedUpTo room w ids written left reply v) (id : TabId) :
    (v.tab id).text = (w.tab id).text ∧
      ((w.tab id).dirty = true → (v.tab id).dirty = false → id ∈ written) := by
  by_cases hwritten : id ∈ written
  · rw [h.written_eq id hwritten]
    exact ⟨rfl, fun _ _ => hwritten⟩
  · rw [h.kept_eq id hwritten]
    refine ⟨rfl, fun hstill hclean => ?_⟩
    rw [hstill] at hclean
    cases hclean

end SavedUpTo

/-- Saving tabs writes the first so many of those that have been edited. -/
theorem exists_savedUpTo (room : Room) (w : Workspace μ) (ids : List TabId) :
    ∃ written left,
      SavedUpTo room w ids written left (saveEdited room w ids).1 (saveEdited room w ids).2 := by
  induction ids generalizing w with
  | nil =>
    exact ⟨[], [], rfl, by simp, fun _ _ => rfl, by simp, .inl ⟨rfl, rfl, .nil w.disk⟩⟩
  | cons id ids ih =>
    rw [saveEdited]
    cases hdirty : (w.tab id).dirty with
    | false =>
      rw [if_neg Bool.false_ne_true]
      obtain ⟨written, left, h⟩ := ih w
      exact ⟨written, left,
        { h with edited_eq := (edited_cons_of_clean hdirty ids).trans h.edited_eq }⟩
    | true =>
      obtain ⟨r, e, houtcome, hsave⟩ := w.save_outcome room id
      rw [if_pos rfl, hsave]
      cases r with
      | error f =>
        obtain ⟨rest, hrest⟩ := exists_edited_cons hdirty ids
        exact ⟨[], id :: rest, hrest, by simp, fun _ _ => rfl, fun _ _ => rfl,
          .inr ⟨id, rest, w.disk, f, rfl, .nil w.disk, houtcome, rfl⟩⟩
      | ok u =>
        obtain ⟨written, left, h⟩ := ih ((w.setTab id { w.tab id with dirty := false }).setDisk e)
        exact ⟨id :: written, left, h.cons hdirty houtcome (unmarks_of_write hdirty e)⟩

/-- A save writes the first so many of the tabs that have been edited, in order, and stops at a file
that cannot be written. If it stops nowhere no tab of the set is left edited, and those that it has
not come to still are. No text changes, and no mark goes away but that of a tab which has been
written. -/
theorem save_writes_prefix (room : Room) (s : TabSet) (w : Workspace μ) :
    ∃ written left,
      SavedUpTo room w s.members written left (s.save room w).1 (s.save room w).2 ∧
      ((s.save room w).1 = .ok () → ∀ id ∈ s.members, ((s.save room w).2.tab id).dirty = false) ∧
      (∀ id ∈ left, ((s.save room w).2.tab id).dirty = true) ∧
      ∀ id, ((s.save room w).2.tab id).text = (w.tab id).text ∧
        ((w.tab id).dirty = true → ((s.save room w).2.tab id).dirty = false → id ∈ written) := by
  obtain ⟨written, left, h⟩ := exists_savedUpTo room w s.members
  change SavedUpTo room w s.members written left (s.save room w).1 (s.save room w).2 at h
  refine ⟨written, left, h, ?_, fun _ => h.dirty_of_mem_left, h.text_eq⟩
  intro hdone id hid
  rw [hdone] at h
  exact h.dirty_eq_false hid

/-- A workspace with a file and its tab, which has been given a text that ends in half a character.
-/
def halfPair : Workspace Unit :=
  ⟨(Disk.blank []).placeFile [] ["a.c"] [0x78],
    [⟨⟨.root, ["a.c"]⟩, ⟨[.char 'B', .char '1', .surrogate 0]⟩, true, none, .memory⟩], [], true⟩

/-- The set with this tab. -/
def halfPairSet : TabSet :=
  ⟨⟨.root, ["B.ino"]⟩, "B", .memory, acceptsSanitary, [0]⟩

/-- A file has been opened for a text that has no bytes, and has lost those that it held. This is
not what comes of writing any of the tabs, nor of writing none. -/
theorem not_writesTexts_halfPair :
    (halfPairSet.save .ample halfPair).1 = .error (.brokenOff (.unencodable ⟨2, 1, 0⟩)) ∧
      halfPair.disk.readFile ⟨.root, ["a.c"]⟩ = .ok [0x78] ∧
      (halfPairSet.save .ample halfPair).2.disk.readFile ⟨.root, ["a.c"]⟩ = .ok [] ∧
      ¬ ∃ written left, edited halfPair halfPairSet.members = written ++ left ∧
        WritesTexts halfPair.disk (written.map halfPair.tab)
          (halfPairSet.save .ample halfPair).2.disk := by
  have hfull : halfPair.disk.readFile ⟨.root, ["a.c"]⟩ = .ok [0x78] := by rfl
  have hempty : (halfPairSet.save .ample halfPair).2.disk.readFile ⟨.root, ["a.c"]⟩ = .ok [] := by
    rfl
  refine ⟨rfl, hfull, hempty, ?_⟩
  rintro ⟨written, left, hsplit, hwrites⟩
  have hedited : edited halfPair halfPairSet.members = [0] := by decide +kernel
  cases written with
  | nil =>
    generalize (halfPairSet.save .ample halfPair).2.disk = d at hempty hwrites
    cases hwrites
    rw [hfull] at hempty
    cases hempty
  | cons id written =>
    obtain rfl : id = 0 := by
      rw [hedited] at hsplit
      exact (List.cons.inj hsplit).1.symm
    cases hwrites with
    | cons hencode => cases hencode

end TabSet

end Sketchbook
