import Sketchbook.Proofs.Disk.Writing
import Sketchbook.Tab.Disk

/-!
# What the steps of an operation come to

For each operation on the file of a tab, all that its steps can have done to the desk by the time
they end. The steps do not take back what they have done before they fail, so that it has to be
shown where a failure leaves the desk as it was: reading and renaming always do
(`Tab.run_reload`, `Tab.run_rename`), and writing does where the file cannot be opened. A file that
has been opened and does not get the whole text is left with a part of it
(`WriteOutcome`).
-/

namespace Sketchbook

variable {μ : Type}

/-- Only this part of the bytes of a text comes to be written, for this reason, if so many first
ones fit. -/
inductive Text.BreaksOff (t : Text) (fits : List UInt8 → Nat) : Breakage → List UInt8 → Prop
  | unencodable {s : Stretch} (h : t.encode = .error s) : BreaksOff t fits (.unencodable s) []
  | noRoom {bytes : List UInt8} (h : t.encode = .ok bytes) (hfits : fits bytes < bytes.length) :
      BreaksOff t fits .noRoom (bytes.take (fits bytes))

/-- What comes of writing a text to the file at a path of a disk, and the disk that it leaves. If
the file cannot be opened nothing has changed. If it can, it has the bytes of the text in the end,
or a part of them. -/
inductive WriteOutcome (room : Room) (text : Text) (p : Path) (d : Disk) :
    Except WriteFailure Unit → Disk → Prop
  | refused {fault : Fault} (hopen : d.openEmptied p = .error fault) :
      WriteOutcome room text p d (.error (.refused (.disk fault p))) d
  | brokenOff {place : Place} {m e : Disk} {b : Breakage} {part : List UInt8} {access : Access}
      (hopen : d.openEmptied p = .ok (place, m)) (hbreaks : text.BreaksOff (room m place) b part)
      (hwritten : d.Written e p place part access) :
      WriteOutcome room text p d (.error (.brokenOff b)) e
  | done {place : Place} {m e : Disk} {bytes : List UInt8} {access : Access}
      (hopen : d.openEmptied p = .ok (place, m)) (hencode : text.encode = .ok bytes)
      (hfits : bytes.length ≤ room m place bytes) (hwritten : d.Written e p place bytes access) :
      WriteOutcome room text p d (.ok ()) e

/-- Only a text of characters has bytes, those of the characters. -/
theorem Text.exists_of_encode {t : Text} {bytes : List UInt8} (h : t.encode = .ok bytes) :
    ∃ s, t = ofString s ∧ bytes = Utf8.encode s := by
  have hchars : ∀ (ls : List Letter) (n : Nat), stretchAfter n ls = none →
      ls = (ls.filterMap Letter.char?).map Letter.char := by
    intro ls
    induction ls with
    | nil => exact fun _ _ => rfl
    | cons l ls ih =>
      intro n hnone
      cases l with
      | char c => exact congrArg _ (ih (n + 1) hnone)
      | surrogate k => cases hnone
  unfold encode at h
  split at h
  · cases h
  · next hnone =>
    cases h
    refine ⟨String.ofList (t.letters.filterMap Letter.char?), ?_, ?_⟩
    · cases t with
      | mk ls => rw [ofString, String.toList_ofList, ← hchars ls 0 hnone]
    · rw [Utf8.encode, String.toList_ofList]

namespace Steps

variable {room : Room} {text : Text} {p : Path}

/-- A text that has bytes is written, to a file that can be opened, as far as there is room. -/
theorem run_saveText_of_encode {desk : Desk μ} {place : Place} {m : Disk} {bytes : List UInt8}
    (hopen : desk.disk.openEmptied p = .ok (place, m)) (hencode : text.encode = .ok bytes) :
    (saveText room text p).run desk =
      (if room m place bytes < bytes.length then .error (.brokenOff .noRoom) else .ok (),
        { desk with disk := m.fill place (bytes.take (room m place bytes)) }) := by
  by_cases hfits : room m place bytes < bytes.length
  · simp [saveText, openEmptied, hopen, write, hencode, hfits]
  · simp [saveText, openEmptied, hopen, write, hencode, hfits]

/-- Writing a text changes nothing on the desk but the disk. -/
theorem run_saveText (room : Room) (text : Text) (p : Path) (desk : Desk μ) :
    ∃ r e, WriteOutcome room text p desk.disk r e ∧
      (saveText room text p).run desk = (r, { desk with disk := e }) := by
  cases hopen : desk.disk.openEmptied p with
  | error fault => exact ⟨_, _, .refused hopen, by simp [saveText, openEmptied, hopen]⟩
  | ok opened =>
    obtain ⟨place, m⟩ := opened
    have hwritten := Disk.written_of_openEmptied hopen
    cases hencode : text.encode with
    | error s =>
      obtain ⟨access, hempty⟩ := hwritten []
      rw [Disk.fill_nil_of_openEmptied hopen] at hempty
      refine ⟨_, m, .brokenOff hopen (.unencodable hencode) hempty, ?_⟩
      simp [saveText, openEmptied, hopen, write, hencode]
    | ok bytes =>
      obtain ⟨access, hpart⟩ := hwritten (bytes.take (room m place bytes))
      refine ⟨_, _, ?_, run_saveText_of_encode hopen hencode⟩
      by_cases hfits : room m place bytes < bytes.length
      · rw [if_pos hfits]
        exact .brokenOff hopen (.noRoom hencode hfits) hpart
      · have hroom : bytes.length ≤ room m place bytes := Nat.not_lt.mp hfits
        rw [if_neg hfits, List.take_of_length_le hroom]
        rw [List.take_of_length_le hroom] at hpart
        exact .done hopen hencode hroom hpart

/-- A text has been written to the file at a path exactly if it is one of characters, there was room
for its bytes, and `Disk.writeFile` writes these. -/
theorem run_saveText_eq_ok_iff {desk desk' : Desk μ} :
    (saveText room text p).run desk = (.ok (), desk') ↔
      ∃ s e, text = .ofString s ∧
        (∀ place m, desk.disk.openEmptied p = .ok (place, m) →
          (Utf8.encode s).length ≤ room m place (Utf8.encode s)) ∧
        desk.disk.writeFile p (Utf8.encode s) = .ok e ∧ desk' = { desk with disk := e } := by
  cases hopen : desk.disk.openEmptied p with
  | error fault => simp [saveText, openEmptied, Disk.writeFile, hopen]
  | ok opened =>
    obtain ⟨place, m⟩ := opened
    have hwrite : ∀ s, desk.disk.writeFile p (Utf8.encode s) =
        .ok (m.fill place (Utf8.encode s)) := by
      simp [Disk.writeFile, hopen]
    have hrun : ∀ s, (saveText room (.ofString s) p).run desk = _ := fun s =>
      run_saveText_of_encode hopen (Text.encode_ofString s)
    constructor
    · intro h
      cases hencode : text.encode with
      | error stretch => simp [saveText, openEmptied, hopen, write, hencode] at h
      | ok bytes =>
        obtain ⟨s, rfl, rfl⟩ := Text.exists_of_encode hencode
        rw [hrun] at h
        split at h
        · cases h
        · next hfits =>
          have hroom := Nat.not_lt.mp hfits
          rw [List.take_of_length_le hroom] at h
          cases h
          exact ⟨s, _, rfl, by simpa using hroom, hwrite s, rfl⟩
    · rintro ⟨s, e, rfl, hroom, hdone, rfl⟩
      have hfits := hroom place m rfl
      rw [hwrite] at hdone
      cases hdone
      rw [hrun, if_neg (Nat.not_lt.mpr hfits), List.take_of_length_le hfits]

end Steps

namespace Tab

/-- Where the file cannot be read nothing has changed. Otherwise the tab has the text of the bytes
of the file, and is not marked. -/
theorem run_reload (desk : Desk μ) :
    reload.run desk = match desk.disk.readFile desk.tab.path with
      | .error fault => (.error (.disk fault desk.tab.path), desk)
      | .ok bytes => (.ok (), { desk with
          tab := { desk.tab with text := Utf8.decode bytes, dirty := false }
          texts := desk.texts ++
            if isDamaged (Utf8.decode bytes) then [damageWarning desk.tab.filename] else [] }) := by
  cases hread : desk.disk.readFile desk.tab.path with
  | error fault => simp [reload, hread, Failure.ofDisk]
  | ok bytes =>
    by_cases hdamaged : isDamaged (Utf8.decode bytes) = true
    · simp [reload, hread, Failure.ofDisk, hdamaged]
    · simp [reload, hread, Failure.ofDisk, hdamaged]

/-- A tab that is made for a file has the text of its bytes, or none if it cannot be read. -/
theorem loadAt_eq (d : Disk) (p : Path) (data : Option μ) (sink : Sink) :
    loadAt d p data sink = match d.readFile p with
      | .ok bytes => .ok (⟨p, Utf8.decode bytes, false, data, sink⟩,
          if isDamaged (Utf8.decode bytes) then [damageWarning p.name] else [])
      | .error .nulInPath => .error (.disk .nulInPath p)
      | .error _ => .ok (⟨p, "", false, data, sink⟩, [unreadableWarning p.name]) := by
  rw [loadAt, run_reload]
  cases d.readFile p with
  | ok bytes => rfl
  | error fault => cases fault <;> rfl

/-- The tab has the new path, made absolute, where the disk lets its file be renamed. Otherwise
nothing has changed. -/
theorem run_rename (p : Path) (desk : Desk μ) :
    (rename p).run desk = match desk.disk.absolute p with
      | .error f => (.error f, desk)
      | .ok target => match desk.disk.rename desk.tab.path target with
        | .error .nulInPath => (.error (.disk .nulInPath target), desk)
        | .error _ => (.ok false, desk)
        | .ok d =>
          (.ok true, { desk with tab := { desk.tab with path := target }, disk := d }) := by
  cases habsolute : desk.disk.absolute p with
  | error f => simp [rename, habsolute]
  | ok target =>
    cases hrename : desk.disk.rename desk.tab.path target with
    | error fault => cases fault <;> simp [rename, habsolute, hrename]
    | ok d => simp [rename, habsolute, hrename, -bind_pure_comp]

/-- A tab that is written to its file loses its mark, unless this fails. -/
theorem run_save (room : Room) (desk : Desk μ) :
    ∃ r e, WriteOutcome room desk.tab.text desk.tab.path desk.disk r e ∧
      (save room).run desk = match r with
        | .ok () => (.ok (), { desk with tab := { desk.tab with dirty := false }, disk := e })
        | .error f => (.error f, { desk with disk := e }) := by
  obtain ⟨r, e, houtcome, hrun⟩ :=
    Steps.run_saveText room desk.tab.text desk.tab.path desk
  refine ⟨r, e, houtcome, ?_⟩
  cases r with
  | error f => simp [save, hrun]
  | ok u => simp [save, hrun]

/-- A tab that is written to another file stays as it is. -/
theorem run_saveAs (room : Room) (p : Path) (desk : Desk μ) :
    ∃ r e, WriteOutcome room desk.tab.text p desk.disk r e ∧
      (saveAs room p).run desk = (r, { desk with disk := e }) := by
  obtain ⟨r, e, houtcome, hrun⟩ := Steps.run_saveText room desk.tab.text p desk
  exact ⟨r, e, houtcome, by simp [saveAs, hrun]⟩

end Tab

end Sketchbook
