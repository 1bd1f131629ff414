import Sketchbook.Proofs.Command.Steps
import Sketchbook.Proofs.Workspace.Operations
import Sketchbook.Session.Operation

/-!
# Operations on the file of a tab

The file of a tab can be read again, written, written to another path and renamed. Whatever the
host, the disk, the tab and the path, such an operation has either succeeded, and then it has
changed no more of the tab than it is for, or it has failed, and then nothing at all has changed
(`Session.performUnder_onFile`). There is one more thing that can come of writing: the file has been
opened, and the text does not get into it as a whole. Then the tab is as it was, and the file is
not. A tab of a sketch that could not be renamed has not changed either, nor has any other tab or
the order of the set. Main statement: `Session.onFile_allOrNothing`.
-/

namespace Sketchbook

variable {μ : Type}

/-- The operation reads the file of this tab again, writes it, writes it to another path, or renames
it. -/
inductive Operation.IsOnFile (id : TabId) : Operation μ → Prop
  | reload : IsOnFile id (.reload id)
  | save : IsOnFile id (.save id)
  | saveAs (p : Path) : IsOnFile id (.saveAs id p)
  | rename (p : Path) : IsOnFile id (.rename id p)

/-- What an operation on a file may make of a tab. Reading gives it a text and takes the mark away,
writing takes the mark away, and renaming gives it a path. Everything else stays. -/
def Operation.MayTurn : Operation μ → Tab μ → Tab μ → Prop
  | .reload _, t, u => u = { t with text := u.text, dirty := false }
  | .save _, t, u => u = { t with dirty := false }
  | .rename _ _, t, u => u = { t with path := u.path }
  | _, t, u => u = t

/-- The path that an operation writes the text of a tab to. -/
def Operation.target? (t : Tab μ) : Operation μ → Option Path
  | .save _ => some t.path
  | .saveAs _ p => some p
  | _ => none

/-- Whether an operation has done what it is for: it has not failed, the disk has not refused it,
and no text has been broken off. -/
def Reply.isSuccess : Except Failure Reply → Bool
  | .ok (.flag b) => b
  | .ok (.brokenOff _) => false
  | .ok _ => true
  | .error _ => false

namespace Session

/-- What has become of a session once an operation on the file of a tab has succeeded. -/
structure Turned (op : Operation μ) (id : TabId) (s t : Session μ) : Prop where
  tab : op.MayTurn (s.workspace.tab id) (t.workspace.tab id)
  others : ∀ other, other ≠ id → t.workspace.tab other = s.workspace.tab other
  sets_eq : t.sets = s.sets
  disk_eq : op = .reload id → t.workspace.disk = s.workspace.disk

/-- What has become of a session once a file has been opened to write a text to it, and the text has
been broken off: only a part of it is in the file, and but for this nothing has changed. -/
structure BrokenOff (room : Room) (b : Breakage) (text : Text) (p : Path) (s t : Session μ) :
    Prop where
  written : ∃ place m part access, s.workspace.disk.openEmptied p = .ok (place, m) ∧
    text.BreaksOff (room m place) b part ∧
    s.workspace.disk.Written t.workspace.disk p place part access
  kept : t = s.withWorkspace (s.workspace.setDisk t.workspace.disk)

/-- An operation that puts a tab in place of the old one turns the session, if it may turn the old
tab into this one. -/
theorem turned_of_setTab {s : Session μ} {w : Workspace μ} {id : TabId} {op : Operation μ}
    {t : Tab μ} (ht : op.MayTurn (s.workspace.tab id) t)
    (htab : ∀ other, w.tab other = (s.workspace.setTab id t).tab other)
    (hdisk : op = .reload id → w.disk = s.workspace.disk) :
    Turned op id s (s.withWorkspace w) where
  tab := by
    show op.MayTurn _ (w.tab id)
    rw [htab, Workspace.tab_setTab]
    by_cases hid : id < s.workspace.tabs.length
    · rwa [if_pos ⟨rfl, hid⟩]
    · -- there is no tab, and every operation may leave the blank one as it is
      rw [if_neg fun h => hid h.2, Workspace.tab_of_length_le (Nat.not_lt.mp hid)]
      cases op <;> rfl
  others := fun other hne => by
    show w.tab other = _
    rw [htab, Workspace.tab_setTab, if_neg fun h => hne h.1]
  sets_eq := rfl
  disk_eq := hdisk

/-- All that can come of an operation on the file of a tab, with the reply and the session that it
leaves. -/
inductive OnFileOutcome (room : Room) (op : Operation μ) (id : TabId) (s : Session μ) :
    Except Failure Reply × Session μ → Prop
  | done {reply : Except Failure Reply} {t : Session μ} (hsuccess : Reply.isSuccess reply = true)
      (hturned : Turned op id s t) : OnFileOutcome room op id s (reply, t)
  | kept {reply : Except Failure Reply}
      (hreply : reply = .ok (.flag false) ∨ ∃ f, reply = .error f) :
      OnFileOutcome room op id s (reply, s)
  | brokenOff {b : Breakage} {p : Path} {t : Session μ}
      (htarget : op.target? (s.workspace.tab id) = some p)
      (hbroken : BrokenOff room b (s.workspace.tab id).text p s t) :
      OnFileOutcome room op id s (.ok (.brokenOff b), t)

namespace OnFileOutcome

variable {room : Room} {op : Operation μ} {id : TabId} {s : Session μ}
  {r : Except Failure Reply × Session μ}

theorem turned_of_isSuccess (h : OnFileOutcome room op id s r)
    (hsuccess : Reply.isSuccess r.1 = true) : Turned op id s r.2 := by
  cases h with
  | done _ hturned => exact hturned
  | kept hreply => rcases hreply with rfl | ⟨f, rfl⟩ <;> cases hsuccess
  | brokenOff => cases hsuccess

/-- Where no text is broken off an operation that does not succeed changes nothing. -/
theorem eq_of_not_isSuccess (h : OnFileOutcome room op id s r)
    (hfailed : Reply.isSuccess r.1 = false) (hwhole : ∀ b, r.1 ≠ .ok (.brokenOff b)) :
    r.2 = s := by
  cases h with
  | done hsuccess => exact absurd hsuccess (by simp [hfailed])
  | kept => rfl
  | brokenOff => exact absurd rfl (hwhole _)

theorem exists_of_brokenOff (h : OnFileOutcome room op id s r) {b : Breakage}
    (hreply : r.1 = .ok (.brokenOff b)) : ∃ p, op.target? (s.workspace.tab id) = some p ∧
      BrokenOff room b (s.workspace.tab id).text p s r.2 := by
  cases h with
  | done hsuccess =>
    obtain rfl := hreply
    cases hsuccess
  | kept hkept => rcases hkept with rfl | ⟨f, rfl⟩ <;> cases hreply
  | brokenOff htarget hbroken =>
    cases hreply
    exact ⟨_, htarget, hbroken⟩

end OnFileOutcome

/-- A text that is not written has not been broken off, and nothing has changed, or the file had
been opened. -/
theorem onFileOutcome_of_not_written {room : Room} {op : Operation μ} {id : TabId} {s : Session μ}
    {p : Path} {f : WriteFailure} {e : Disk}
    (htarget : op.target? (s.workspace.tab id) = some p)
    (houtcome : WriteOutcome room (s.workspace.tab id).text p s.workspace.disk (.error f) e) :
    OnFileOutcome room op id s
      (Reply.ofWrite (.error f), s.withWorkspace (s.workspace.setDisk e)) := by
  cases houtcome with
  | refused hopen => exact .kept (.inr ⟨_, rfl⟩)
  | brokenOff hopen hbreaks hwritten =>
    exact .brokenOff htarget ⟨⟨_, _, _, _, hopen, hbreaks, hwritten⟩, rfl⟩

/-- Whatever the host, an operation on the file of a tab turns the session as it is for, or it fails
and leaves it as it was, or a text is broken off. -/
theorem performUnder_onFile (host : Host) (s : Session μ) {id : TabId} {op : Operation μ}
    (h : op.IsOnFile id) : OnFileOutcome host.room op id s (s.performUnder host op) := by
  cases h with
  | reload =>
    rw [performUnder]
    rcases s.workspace.reload_cases id with ⟨f, hreload⟩ | ⟨text, texts, hreload⟩
    · rw [hreload]
      exact .kept (.inr ⟨f, rfl⟩)
    · rw [hreload]
      have ht : (Operation.reload id).MayTurn (s.workspace.tab id)
          { s.workspace.tab id with text := text, dirty := false } := rfl
      exact .done rfl (turned_of_setTab ht (by simp) (by simp))
  | save =>
    rw [performUnder]
    obtain ⟨r, e, houtcome, hsave⟩ := s.workspace.save_outcome host.room id
    rw [hsave]
    cases r with
    | error f => exact onFileOutcome_of_not_written rfl houtcome
    | ok u =>
      have ht : (Operation.save id).MayTurn (s.workspace.tab id)
          { s.workspace.tab id with dirty := false } := rfl
      exact .done rfl (turned_of_setTab ht (by simp) (by simp))
  | saveAs p =>
    rw [performUnder]
    obtain ⟨r, e, houtcome, hsave⟩ := s.workspace.saveAs_outcome host.room id p
    rw [hsave]
    cases r with
    | error f => exact onFileOutcome_of_not_written rfl houtcome
    | ok u => exact .done rfl ⟨rfl, fun _ _ => rfl, rfl, by simp⟩
  | rename p =>
    rw [performUnder]
    rcases s.workspace.rename_cases id p with ⟨r, hr, hrename⟩ | ⟨target, d, -, -, hrename⟩
    · rw [hrename]
      rcases r with f | b
      · exact .kept (.inr ⟨f, rfl⟩)
      · cases b with
        | true => exact absurd rfl hr
        | false => exact .kept (.inl rfl)
    · rw [hrename]
      have ht : (Operation.rename id p).MayTurn (s.workspace.tab id)
          { s.workspace.tab id with path := target } := rfl
      exact .done rfl (turned_of_setTab ht (by simp) (by simp))

/-- Whatever an operation on the file of a tab does to it, it has succeeded and keeps to the fields
that it is for, or it has failed and nothing has changed, or the file had been opened and its text
was broken off, and then the file is all that has changed. Where a tab of a sketch could not be
renamed the disk, all tabs and the order of the set are as they were. -/
theorem onFile_allOrNothing :
    (∀ (host : Host) (s : Session μ) (id : TabId) (op : Operation μ), op.IsOnFile id →
      OnFileOutcome host.room op id s (s.performUnder host op)) ∧
    (∀ (s : TabSet) (w : Workspace μ) (old new : String),
      (s.renameTab w old new).1 ≠ .ok (.ok ()) → (s.renameTab w old new).2 = (s, w)) ∧
    ∀ (p q : Command.Progress) (old new : String), Command.renameStep p old new = .goOn false q →
      q.set = p.set ∧ q.workspace.disk = p.workspace.disk ∧
        ∀ id, q.workspace.tab id = p.workspace.tab id := by
  refine ⟨fun host s id op h => s.performUnder_onFile host h, fun s w old new hnot => ?_,
    fun p q old new h => ?_⟩
  · rcases s.renameTab_cases w old new with ⟨t, v, hdone⟩ | ⟨r, -, hkept⟩
    · exact absurd (congrArg Prod.fst hdone) hnot
    · rw [hkept]
  · rcases Command.renameStep_cases p old new with ⟨t, w, -, r, hdone, -, -⟩ | ⟨hdisk, hkept⟩
    · rw [h] at hdone
      cases hdone
    · obtain ⟨hset, htab⟩ := hkept false q h
      rw [h] at hdisk
      exact ⟨hset, hdisk, htab⟩

/-- A run on the folder `/B`, whose tabs have been loaded, and which may not be changed any more. -/
def fixedRun : Command.Progress :=
  let w := TabSet.loadedBlink.2
  ⟨TabSet.loadedBlink.1, w.setDisk (w.disk.permit [] ["B"] ⟨true, false, true⟩), ""⟩

/-- A text that ends in half a character. -/
def halvedText : Text :=
  ⟨[.char 'x', .surrogate (Fin.last 0x7ff)]⟩

/-- A session with the tabs of this run, one of which has been given this text. -/
def fixedSession : Session Unit :=
  ⟨fixedRun.workspace.edit 2 halvedText, []⟩

/-- Whether an action was refused and the run goes on. -/
def isRefused : Command.Turn → Bool
  | .goOn false _ => true
  | _ => false

theorem exists_of_isRefused {t : Command.Turn} (h : isRefused t = true) :
    ∃ q, t = .goOn false q := by
  unfold isRefused at h
  split at h
  · exact ⟨_, rfl⟩
  · cases h

/-- In a folder that may not be changed the file of a tab is not renamed, and nothing changes. A tab
is written, and only its mark goes away. Of a tab that holds half a character nothing is written,
and all that it had in its file is lost. -/
theorem onFile_allOrNothing_fixed :
    (Operation.rename 1 ⟨.root, ["B", "b.c"]⟩ : Operation Unit).IsOnFile 1 ∧
      (fixedSession.performUnder .plain (.rename 1 ⟨.root, ["B", "b.c"]⟩)).2 = fixedSession ∧
      (Operation.save 0 : Operation Unit).IsOnFile 0 ∧
      Turned (.save 0) 0 fixedSession (fixedSession.performUnder .plain (.save 0)).2 ∧
      (Operation.save 2 : Operation Unit).IsOnFile 2 ∧
      BrokenOff .ample (.unencodable ⟨1, 1, Fin.last 0x7ff⟩) halvedText ⟨.root, ["B", "B.ino"]⟩
        fixedSession (fixedSession.performUnder .plain (.save 2)).2 ∧
      ∃ q, Command.renameStep fixedRun "0.c" "b.c" = .goOn false q ∧ q.set = fixedRun.set ∧
        q.workspace.disk = fixedRun.workspace.disk := by
  have hrename : (Operation.rename 1 ⟨.root, ["B", "b.c"]⟩ : Operation Unit).IsOnFile 1 :=
    .rename _
  have hrefused : isRefused (Command.renameStep fixedRun "0.c" "b.c") = true := by
    decide +kernel
  have hkept : (fixedSession.performUnder .plain (.rename 1 ⟨.root, ["B", "b.c"]⟩)).1 =
      .ok (.flag false) := by decide +kernel
  have hdone : (fixedSession.performUnder .plain (.save 0)).1 = .ok .done := by decide +kernel
  have hbroken : (fixedSession.performUnder .plain (.save 2)).1 =
      .ok (.brokenOff (.unencodable ⟨1, 1, Fin.last 0x7ff⟩)) := by decide +kernel
  have htext : (fixedSession.workspace.tab 2).text = halvedText := by decide +kernel
  have hpath : (fixedSession.workspace.tab 2).path = ⟨.root, ["B", "B.ino"]⟩ := by decide +kernel
  obtain ⟨q, hq⟩ := exists_of_isRefused hrefused
  obtain ⟨honFile, -, hstep⟩ := onFile_allOrNothing (μ := Unit)
  obtain ⟨hset, hdisk, -⟩ := hstep fixedRun q "0.c" "b.c" hq
  refine ⟨hrename, ?_, .save, ?_, .save, ?_, q, hq, hset, hdisk⟩
  · exact (honFile .plain fixedSession 1 _ hrename).eq_of_not_isSuccess (by rw [hkept]; rfl)
      (by simp [hkept])
  · exact (honFile .plain fixedSession 0 _ .save).turned_of_isSuccess (by rw [hdone]; rfl)
  · obtain ⟨p, htarget, hbreaks⟩ :=
      (honFile .plain fixedSession 2 _ .save).exists_of_brokenOff hbroken
    cases htarget
    rw [htext, hpath] at hbreaks
    exact hbreaks

end Session

end Sketchbook
