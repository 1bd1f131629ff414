import Sketchbook.Proofs.Session.Event
import Sketchbook.Proofs.TabSet.Load
import Sketchbook.Proofs.TabSet.Save
import Sketchbook.Session.Operation

/-!
# The history of a session

`Session.history` records what the operations of a session do to the texts of its tabs: which tabs
they open, assign a text to, read again and write. An operation that fails only leaves what it has
done before it failed. In every session the mark of a tab is set exactly if its history says that
the tab has been edited since (`Session.dirty_iff_editedSince`). The invariant is
`Session.Recorded`.
-/

namespace Sketchbook.Session

variable {μ : Type}

/-- The event, provided that what it takes did not fail. -/
def unlessFailed {ε α : Type} (e : Event) : Except ε α → List Event
  | .ok _ => [e]
  | .error _ => []

/-- The tabs that an operation opens, which are those it adds to the workspace. -/
def openedBy (host : Host) (s : Session μ) (op : Operation μ) : List TabId :=
  s.workspace.nextIds ((s.performUnder host op).2.workspace.tabs.length - s.workspace.tabs.length)

/-- What an operation does to the texts of tabs. Only where there is a tab a text is assigned. -/
def events (host : Host) (s : Session μ) (op : Operation μ) : List Event :=
  match op with
  | .openTab .. | .load _ => (s.openedBy host op).map .opened
  | .edit id _ | .append id _ => if id < s.workspace.tabs.length then [.assigned id] else []
  | .reload id => unlessFailed (.reloaded id) (s.workspace.reload id).1
  | .save id => unlessFailed (.saved id) (s.workspace.save host.room id).1
  | .saveAll id =>
    match s.set? id with
    | none => []
    | some t => (TabSet.savedIn host.room s.workspace t.members).map .saved
  | _ => []

/-- What operations do, one after the other, to the texts of tabs. -/
def history (s : Session μ) : List (Host × Operation μ) → List Event
  | [] => []
  | (host, op) :: ops => s.events host op ++ (s.performUnder host op).2.history ops

/-! ### What is recorded -/

/-- The events are the history of the tabs: those that there are have been opened, and those that
are marked have been edited since. -/
structure Recorded (h : List Event) (w : Workspace μ) : Prop where
  opened : ∀ id, .opened id ∈ h ↔ id < w.tabs.length
  dirty : ∀ id, (w.tab id).dirty = true ↔ EditedSince h id

namespace Recorded

variable {h : List Event} {w w' : Workspace μ}

/-- Nothing is recorded of a workspace in which nothing has been opened. -/
theorem ofDisk (d : Disk) (hasConsole : Bool) :
    Recorded [] (.ofDisk d hasConsole : Workspace μ) where
  opened := fun id => by simp [Workspace.ofDisk]
  dirty := fun id => iff_of_false (by simp [Workspace.ofDisk, Workspace.tab, default])
    not_editedSince_nil

/-- There is nothing to record when there are the same tabs, with the same marks. -/
theorem of_same (r : Recorded h w) (hlength : w'.tabs.length = w.tabs.length)
    (hdirty : ∀ id, (w'.tab id).dirty = (w.tab id).dirty) : Recorded h w' where
  opened := fun id => by rw [hlength, r.opened]
  dirty := fun id => by rw [hdirty, r.dirty]

/-- A change of a tab that keeps its mark is not recorded. -/
theorem setTab_same (r : Recorded h w) (id : TabId) {t : Tab μ} (ht : t.dirty = (w.tab id).dirty) :
    Recorded h (w.setTab id t) := by
  refine r.of_same (w.length_tabs_setTab id t) fun other => ?_
  rw [Workspace.tab_setTab]
  split
  · next heq => rw [heq.1, ht]
  · rfl

/-- Messages are not recorded. -/
theorem tell (r : Recorded h w) (sink : Sink) (texts : List String) :
    Recorded h (w.tell sink texts) :=
  r.of_same (by simp) (by simp)

/-- What happens on the disk is not recorded. -/
theorem setDisk (r : Recorded h w) (d : Disk) : Recorded h (w.setDisk d) :=
  r.of_same rfl fun _ => rfl

/-- A tab that is given a text is marked. -/
theorem assign (r : Recorded h w) {id : TabId} (hid : id < w.tabs.length) {t : Tab μ}
    (ht : t.dirty = true) : Recorded (h ++ [.assigned id]) (w.setTab id t) where
  opened := fun other => by simp [r.opened]
  dirty := fun other => by
    rw [editedSince_concat, Workspace.tab_setTab]
    by_cases heq : other = id
    · subst heq
      simp [hid, ht, r.opened]
    · simp [heq, Ne.symm heq, Event.settles, r.dirty]

/-- A tab that is read or written is no longer marked. -/
theorem settle (r : Recorded h w) (id : TabId) {e : Event}
    (he : e = .reloaded id ∨ e = .saved id) {t : Tab μ} (ht : t.dirty = false) :
    Recorded (h ++ [e]) (w.setTab id t) where
  opened := fun other => by
    rcases he with rfl | rfl <;> simp [r.opened]
  dirty := fun other => by
    have hsettles : e.settles other = (id == other) := by
      rcases he with rfl | rfl <;> rfl
    have hassigned : e ≠ .assigned other := by
      rcases he with rfl | rfl <;> simp
    rw [editedSince_concat, hsettles, Workspace.tab_setTab]
    by_cases heq : other = id
    · subst heq
      by_cases hid : other < w.tabs.length
      · simp [hid, ht, hassigned]
      · -- there is no tab, and a blank one is not marked
        rw [if_neg (by simp [hid]), Workspace.tab_of_length_le (Nat.not_lt.mp hid)]
        simp [default, hassigned]
    · simp [heq, Ne.symm heq, hassigned, r.dirty]

/-- Tabs that are opened are not marked. -/
theorem append (r : Recorded h w) {tabs : List (Tab μ)} (htabs : w'.tabs = w.tabs ++ tabs)
    (hclean : ∀ t ∈ tabs, t.dirty = false) :
    Recorded (h ++ (w.nextIds tabs.length).map .opened) w' where
  opened := fun id => by
    have hlength : w'.tabs.length = w.tabs.length + tabs.length := by
      rw [htabs, List.length_append]
    have hmem : .opened id ∈ (w.nextIds tabs.length).map Event.opened ↔
        id ∈ w.nextIds tabs.length := by simp
    rw [List.mem_append, r.opened, hmem, Workspace.mem_nextIds, hlength]
    constructor
    · rintro (hid | ⟨-, hid⟩)
      · exact Nat.lt_add_right _ hid
      · exact hid
    · intro hid
      rcases Nat.lt_or_ge id w.tabs.length with hold | hnew
      · exact .inl hold
      · exact .inr ⟨hnew, hid⟩
  dirty := fun id => by
    rw [editedSince_append_opened, ← r.dirty, Workspace.mem_nextIds]
    by_cases hid : id < w.tabs.length
    · have hsame : w'.tab id = w.tab id := by
        simp [Workspace.tab, htabs, List.getD_eq_getElem?_getD, List.getElem?_append_left hid]
      rw [hsame]
      exact ⟨fun hdirty => ⟨hdirty, fun hnew => Nat.not_le.mpr hid hnew.1⟩, fun h => h.1⟩
    · have hold : (w.tab id).dirty = false := by
        rw [Workspace.tab_of_length_le (Nat.not_lt.mp hid)]
        rfl
      have hnew : (w'.tab id).dirty = false := by
        rw [Workspace.tab, htabs, List.getD_eq_getElem?_getD,
          List.getElem?_append_right (Nat.not_lt.mp hid)]
        cases hget : tabs[id - w.tabs.length]? with
        | none => rfl
        | some t => exact hclean t (List.mem_of_getElem? hget)
      simp [hold, hnew]

end Recorded

/-! ### Each operation is recorded -/

section Workspace

variable {w : Workspace μ} {h : List Event} (room : Room)

/-- Assigning a text is recorded, if there is a tab. -/
theorem recorded_assign (r : Recorded h w) (id : TabId) {t : Tab μ} (ht : t.dirty = true) :
    Recorded (h ++ if id < w.tabs.length then [.assigned id] else []) (w.setTab id t) := by
  split
  · next hid => exact r.assign hid ht
  · next hid =>
    rw [List.append_nil]
    refine r.of_same (w.length_tabs_setTab id t) fun other => ?_
    rw [Workspace.tab_setTab, if_neg fun heq => hid heq.2]

/-- Reading a tab again is recorded, unless it fails. -/
theorem recorded_reload (r : Recorded h w) (id : TabId) :
    Recorded (h ++ unlessFailed (.reloaded id) (w.reload id).1) (w.reload id).2 := by
  rcases w.reload_cases id with ⟨f, hreload⟩ | ⟨text, texts, hreload⟩
  · rw [hreload, unlessFailed, List.append_nil]
    exact r
  · rw [hreload]
    exact (r.settle id (.inl rfl) rfl).tell _ texts

/-- Writing a tab is recorded, unless it fails. -/
theorem recorded_save (r : Recorded h w) (id : TabId) :
    Recorded (h ++ unlessFailed (.saved id) (w.save room id).1) (w.save room id).2 := by
  rcases w.save_cases room id with ⟨f, d, hsave⟩ | ⟨d, hsave⟩
  · rw [hsave, unlessFailed, List.append_nil]
    exact r.setDisk d
  · rw [hsave]
    exact (r.settle id (.inr rfl) rfl).setDisk d

/-- There is nothing to record when a tab is written to another file. -/
theorem recorded_saveAs (r : Recorded h w) (id : TabId) (p : Path) :
    Recorded h (w.saveAs room id p).2 := by
  obtain ⟨reply, d, -, hsave⟩ := w.saveAs_outcome room id p
  rw [hsave]
  exact r.setDisk d

/-- There is nothing to record when the file of a tab is renamed. -/
theorem recorded_rename (r : Recorded h w) (id : TabId) (p : Path) :
    Recorded h (w.rename id p).2 := by
  rcases w.rename_cases id p with ⟨reply, -, hrename⟩ | ⟨target, d, -, -, hrename⟩
  · rw [hrename]
    exact r
  · rw [hrename]
    have hkept : Recorded h (w.setTab id { w.tab id with path := target }) := r.setTab_same id rfl
    exact hkept.setDisk d

/-- Saving tabs is recorded as writing those that are written. -/
theorem recorded_saveEdited (r : Recorded h w) (ids : List TabId) :
    Recorded (h ++ (TabSet.savedIn room w ids).map .saved) (TabSet.saveEdited room w ids).2 := by
  induction ids generalizing h w with
  | nil =>
    rw [TabSet.savedIn, List.map_nil, List.append_nil]
    exact r
  | cons id ids ih =>
    rw [TabSet.savedIn, TabSet.saveEdited]
    by_cases hdirty : (w.tab id).dirty = true
    · rw [if_pos hdirty, if_pos hdirty]
      have hsaved := recorded_save room r id
      generalize w.save room id = result at hsaved ⊢
      obtain ⟨reply, w'⟩ := result
      cases reply with
      | error f => exact hsaved
      | ok u =>
        have hrest := ih hsaved
        rwa [List.append_assoc] at hrest
    · rw [if_neg hdirty, if_neg hdirty]
      exact ih r

end Workspace

section Step

variable {s : Session μ} {h : List Event} (host : Host)

/-- An operation that adds tabs to the workspace, none of them marked, is recorded as opening
these. -/
theorem recorded_opened (r : Recorded h s.workspace) (op : Operation μ) {tabs : List (Tab μ)}
    (htabs : (s.performUnder host op).2.workspace.tabs = s.workspace.tabs ++ tabs)
    (hclean : ∀ t ∈ tabs, t.dirty = false) :
    Recorded (h ++ (s.openedBy host op).map .opened) (s.performUnder host op).2.workspace := by
  have hcount : (s.performUnder host op).2.workspace.tabs.length - s.workspace.tabs.length =
      tabs.length := by
    rw [htabs, List.length_append, Nat.add_sub_cancel_left]
  rw [openedBy, hcount]
  exact r.append htabs hclean

/-- Opening a tab is recorded, unless it fails. -/
theorem recorded_openTab (r : Recorded h s.workspace) (p : Path) (data : Option μ) (sink : Sink) :
    Recorded (h ++ (s.openedBy host (.openTab p data sink)).map .opened)
      (s.performUnder host (.openTab p data sink)).2.workspace := by
  have hperform : (s.performUnder host (.openTab p data sink)).2.workspace =
      (s.workspace.openTab p data sink).2 := rfl
  rcases s.workspace.openTab_cases p data sink with ⟨f, hopen⟩ | ⟨t, texts, hclean, hopen⟩
  · have htabs : (s.workspace.openTab p data sink).2.tabs = s.workspace.tabs ++ [] := by
      rw [hopen, List.append_nil]
    exact recorded_opened host r _ (by rw [hperform, htabs]) (by simp)
  · have htabs : (s.workspace.openTab p data sink).2.tabs = s.workspace.tabs ++ [t] := by
      rw [hopen, Workspace.tabs_tell, Workspace.tabs_addTabs]
    exact recorded_opened host r _ (by rw [hperform, htabs]) (by simpa using hclean)

/-- Loading a set is recorded as opening the tabs that are made, whatever comes of it. -/
theorem recorded_load (r : Recorded h s.workspace) (id : SetId) :
    Recorded (h ++ (s.openedBy host (.load id)).map .opened)
      (s.performUnder host (.load id)).2.workspace := by
  cases hset : s.set? id with
  | none =>
    have htabs : (s.performUnder host (.load id)).2.workspace.tabs = s.workspace.tabs ++ [] := by
      simp [performUnder, updateSet, hset]
    exact recorded_opened host r _ htabs (by simp)
  | some t =>
    obtain ⟨tabs, hclean, htabs⟩ := t.exists_tabs_loadIn host.order s.workspace
    refine recorded_opened host r _ ?_ hclean
    simp only [performUnder, updateSet, hset]
    exact htabs

/-- An operation on a set is recorded as what it does to the workspace, if there is the set. -/
theorem recorded_updateSet (r : Recorded h s.workspace) (id : SetId)
    {f : TabSet → Except Failure Reply × TabSet × Workspace μ}
    (hf : ∀ t, Recorded h (f t).2.2) : Recorded h (s.updateSet id f).2.workspace := by
  unfold updateSet
  cases s.set? id with
  | none => exact r
  | some t => exact hf t

/-- Saving a set is recorded as writing the tabs that are written. -/
theorem recorded_saveAll (r : Recorded h s.workspace) (id : SetId) :
    Recorded (h ++ s.events host (.saveAll id))
      (s.performUnder host (.saveAll id)).2.workspace := by
  cases hset : s.set? id with
  | none =>
    simp only [events, performUnder, updateSet, hset, List.append_nil]
    exact r
  | some t =>
    simp only [events, performUnder, updateSet, hset]
    exact recorded_saveEdited host.room r t.members

/-- An operation that makes no event is recorded as such. -/
theorem recorded_silent {w : Workspace μ} (op : Operation μ) (r : Recorded h w)
    (hsilent : s.events host op = []) : Recorded (h ++ s.events host op) w := by
  rw [hsilent, List.append_nil]
  exact r

/-- What an operation does to the texts of tabs is recorded. -/
theorem recorded_performUnder (r : Recorded h s.workspace) (op : Operation μ) :
    Recorded (h ++ s.events host op) (s.performUnder host op).2.workspace := by
  cases op with
  | openTab p data sink => exact recorded_openTab host r p data sink
  | edit id text => exact recorded_assign r id rfl
  | append id text => exact recorded_assign r id rfl
  | setMetadata id data => exact recorded_silent host _ (r.setTab_same id rfl) rfl
  | reload id => exact recorded_reload r id
  | save id => exact recorded_save host.room r id
  | saveAs id p => exact recorded_silent host _ (recorded_saveAs host.room r id p) rfl
  | rename id p => exact recorded_silent host _ (recorded_rename r id p) rfl
  | delete id folders => exact recorded_silent host _ (r.setDisk _) rfl
  | makeSet p sink accepts =>
    refine recorded_silent host _ ?_ rfl
    simp only [performUnder]
    split
    · exact r
    · exact r
  | load id => exact recorded_load host r id
  | saveAll id => exact recorded_saveAll host r id
  | sort id => exact recorded_silent host _ (recorded_updateSet r id fun _ => r) rfl
  | clear id => exact recorded_silent host _ (recorded_updateSet r id fun _ => r) rfl
  | add id tab => exact recorded_silent host _ (recorded_updateSet r id fun _ => r) rfl
  | moveToFront id tab => exact recorded_silent host _ (recorded_updateSet r id fun _ => r) rfl
  | replace id tab => exact recorded_silent host _ (recorded_updateSet r id fun _ => r) rfl
  | remove id tab =>
    refine recorded_silent host _ (recorded_updateSet r id fun t => ?_) rfl
    unfold TabSet.remove
    split
    · exact r
    · exact r.tell _ _

/-- A session is recorded by its history. -/
theorem recorded_performAll (r : Recorded h s.workspace) (ops : List (Host × Operation μ)) :
    Recorded (h ++ s.history ops) (s.performAll ops).workspace := by
  induction ops generalizing s h with
  | nil =>
    rw [history, List.append_nil]
    exact r
  | cons step ops ih =>
    have hrest := ih (recorded_performUnder step.1 r step.2)
    rwa [List.append_assoc] at hrest

end Step

/-- In every session a tab is marked exactly if its text was assigned after it was opened, and it
was neither read nor written since. When a set is saved, a tab to which no text has been assigned
since it was opened is not written, and plays no part at all. -/
theorem dirty_iff_editedSince (d : Disk) (hasConsole : Bool) (ops : List (Host × Operation μ))
    (id : TabId) :
    let s := (ofDisk d hasConsole : Session μ).performAll ops
    let h := (ofDisk d hasConsole : Session μ).history ops
    ((s.workspace.tab id).dirty = true ↔ EditedSince h id) ∧
      ∀ before after, h = before ++ .opened id :: after → .assigned id ∉ after →
        ∀ (t : TabSet) (room : Room), id ∉ TabSet.savedIn room s.workspace t.members ∧
          t.save room s.workspace =
            TabSet.save room { t with members := t.members.filter (· != id) } s.workspace := by
  intro s h
  have hrecorded : Recorded h s.workspace := by
    have hstart : Recorded [] (ofDisk d hasConsole : Session μ).workspace := .ofDisk d hasConsole
    simpa using recorded_performAll hstart ops
  refine ⟨hrecorded.dirty id, fun before after hsplit hafter t room => ?_⟩
  have hclean : (s.workspace.tab id).dirty = false := by
    rw [← Bool.not_eq_true, hrecorded.dirty id]
    exact not_editedSince_of_opened hsplit hafter
  exact ⟨TabSet.not_mem_savedIn hclean t.members, TabSet.saveEdited_filter hclean t.members⟩

/-- A tab is opened for a file that is not there, and another one for a file that is. The other one
is edited. -/
def openBothEditOne : List (Host × Operation Unit) :=
  [(.plain, .openTab ⟨.root, ["B", "b.c"]⟩ none .memory),
    (.plain, .openTab ⟨.root, ["B", "0.c"]⟩ none .memory), (.plain, .edit 1 "text")]

/-- When the set of both tabs is saved only the edited one is written. -/
theorem save_skips_unread :
    let s := (ofDisk (TabSet.blinkOn "none").disk true).performAll openBothEditOne
    TabSet.savedIn .ample s.workspace [0, 1] = [1] ∧
      TabSet.save .ample { TabSet.blink with members := [0, 1] } s.workspace =
        TabSet.save .ample { TabSet.blink with members := [1] } s.workspace := by
  intro s
  have hhistory : (ofDisk (TabSet.blinkOn "none").disk true).history openBothEditOne =
      [] ++ .opened 0 :: [.opened 1, .assigned 1] := by decide +kernel
  have hskipped := (dirty_iff_editedSince (TabSet.blinkOn "none").disk true openBothEditOne 0).2
    [] [.opened 1, .assigned 1] hhistory (by decide) { TabSet.blink with members := [0, 1] } .ample
  exact ⟨by decide +kernel, hskipped.2⟩

end Sketchbook.Session
