import Sketchbook.Disk.Arrange
import Sketchbook.Proofs.Text.Utf8
import Sketchbook.Proofs.Workspace.Operations

/-!
# What is lost by reading a file and writing it back

A tab that is read from a file holds the text that its bytes stand for. Where not all of them stand
for characters the text cannot be written back as it was, and a warning tells so. It also comes for
a file that holds replacement characters of its own. Without a warning nothing is lost
(`Workspace.reload_lossless`).
-/

namespace Sketchbook

variable {μ : Type}

/-- The text of bytes counts as damaged if they are not well formed, or hold a replacement
character. -/
theorem Tab.isDamaged_decode_iff {bytes : List UInt8} :
    isDamaged (Utf8.decode bytes) = true ↔
      ¬ Utf8.WellFormed bytes ∨ Utf8.encodeChar Utf8.replacement <:+: bytes := by
  rw [isDamaged, List.contains_iff_mem, Utf8.toList_decode, Utf8.mem_decodeChars_replacement_iff]

/-- Bytes are the same after they have been read and written exactly if they are well formed. -/
theorem Utf8.encode_decode_eq_iff {bytes : List UInt8} :
    encode (decode bytes) = bytes ↔ WellFormed bytes := by
  rw [encode, toList_decode, encodeChars_decodeChars_eq_iff]

namespace Workspace

variable {w : Workspace μ} {id : TabId} {bytes : List UInt8}

/-- A workspace once a tab has been given the text of these bytes, and messages have been written
about it. -/
def reloaded (w : Workspace μ) (id : TabId) (bytes : List UInt8) (texts : List String) :
    Workspace μ :=
  (w.setTab id { w.tab id with text := Utf8.decode bytes, dirty := false }).tell
    (w.tab id).sink texts

/-- A tab that is read again gets the text of the bytes of its file. There is a warning exactly if
they are not well formed or hold a replacement character. -/
theorem exists_reloaded (hread : w.disk.readFile (w.tab id).path = .ok bytes) :
    ∃ texts, Tab.reload.run ⟨w.tab id, w.disk, []⟩ =
        (.ok (), ⟨{ w.tab id with text := Utf8.decode bytes, dirty := false }, w.disk, texts⟩) ∧
      w.reload id = (.ok (), w.reloaded id bytes texts) ∧
      (Tab.damageWarning (w.tab id).filename ∈ texts ↔
        ¬ Utf8.WellFormed bytes ∨ Utf8.encodeChar Utf8.replacement <:+: bytes) := by
  rw [Tab.run_reload, reload_eq, hread, ← Tab.isDamaged_decode_iff]
  refine ⟨_, rfl, rfl, ?_⟩
  rw [List.nil_append]
  split
  · next hdamaged => simp [hdamaged]
  · next hdamaged => simp [hdamaged]

/-- All that can come of saving a tab that holds the text of the bytes of its file: the file cannot
be opened, it gets a part of the text because no more fits, or it has the bytes of the text. -/
theorem save_reloaded (hid : id < w.tabs.length) (bytes : List UInt8) (room : Room)
    (texts : List String) :
    ∃ r e, WriteOutcome room (Utf8.decode bytes) (w.tab id).path w.disk r e ∧
      ((w.reloaded id bytes texts).save room id).1 = r ∧
      ((w.reloaded id bytes texts).save room id).2.disk = e := by
  have hdisk : (w.reloaded id bytes texts).disk = w.disk := by simp [reloaded]
  have htab : (w.reloaded id bytes texts).tab id =
      { w.tab id with text := Utf8.decode bytes, dirty := false } := by
    rw [reloaded, tab_tell, tab_setTab, if_pos ⟨rfl, hid⟩]
  obtain ⟨r, e, houtcome, hsave⟩ := (w.reloaded id bytes texts).save_outcome room id
  rw [htab, hdisk] at houtcome
  refine ⟨r, e, houtcome, ?_⟩
  rw [hsave]
  cases r <;> exact ⟨rfl, rfl⟩

section Reloaded

variable (hid : id < w.tabs.length) (hread : w.disk.readFile (w.tab id).path = .ok bytes)
  {texts : List String}

include hid

/-- Where there is room for everything a save after the reading fails only if the file cannot be
opened. -/
theorem save_ample_reloaded :
    ((w.reloaded id bytes texts).save .ample id).1 =
      match w.disk.openEmptied (w.tab id).path with
      | .error fault => .error (.refused (.disk fault (w.tab id).path))
      | .ok _ => .ok () := by
  obtain ⟨r, e, houtcome, hreply, -⟩ := save_reloaded hid bytes .ample texts
  rw [hreply]
  cases houtcome with
  | refused hopen => rw [hopen]
  | brokenOff hopen hbreaks hwritten =>
    cases hbreaks with
    | unencodable hencode =>
      rw [Text.encode_ofString] at hencode
      cases hencode
    | noRoom hencode hfits => exact absurd hfits (Nat.lt_irrefl _)
  | done hopen hencode hfits hwritten => rw [hopen]

include hread

/-- A save after the reading that succeeds leaves the bytes of the text in the file. -/
theorem readFile_save_reloaded {room : Room} {v : Workspace μ}
    (h : (w.reloaded id bytes texts).save room id = (.ok (), v)) :
    v.disk.readFile (w.tab id).path = .ok (Utf8.encode (Utf8.decode bytes)) := by
  obtain ⟨r, e, houtcome, hreply, hdisk⟩ := save_reloaded hid bytes room texts
  rw [h] at hreply hdisk
  subst hreply
  change v.disk = e at hdisk
  rw [hdisk]
  cases houtcome with
  | done hopen hencode hfits hwritten =>
    rw [Text.encode_ofString, Except.ok.injEq] at hencode
    rw [hwritten.readFile_eq hread, hencode]

/-- If the bytes are well formed a save after the reading changes nothing of the disk, unless no
more fits on it. -/
theorem same_save_reloaded (hbytes : Utf8.WellFormed bytes) {room : Room}
    (hwhole : ∀ b, ((w.reloaded id bytes texts).save room id).1 ≠ .error (.brokenOff b)) :
    ((w.reloaded id bytes texts).save room id).2.disk.Same w.disk := by
  obtain ⟨r, e, houtcome, hreply, hdisk⟩ := save_reloaded hid bytes room texts
  rw [hdisk]
  cases houtcome with
  | refused hopen => exact ⟨rfl, rfl, fun _ => rfl⟩
  | brokenOff hopen hbreaks hwritten => exact absurd hreply (hwhole _)
  | done hopen hencode hfits hwritten =>
    rw [Text.encode_ofString, Except.ok.injEq, Utf8.encode_decode_eq_iff.mpr hbytes] at hencode
    subst hencode
    exact hwritten.same hread

end Reloaded

/-- Reading the file of a tab gives the text of its bytes, and a save after it that succeeds leaves
the bytes of this text in the file, which are those that were read exactly if these are well formed.
There is a warning exactly if they are not, or hold a replacement character, and without a warning
the disk is unchanged once the tab is saved, be it that the file cannot be opened. Where there is
room for everything a save fails for no other reason. -/
theorem reload_lossless (hid : id < w.tabs.length)
    (hread : w.disk.readFile (w.tab id).path = .ok bytes) :
    (Utf8.encode (Utf8.decode bytes) = bytes ↔ Utf8.WellFormed bytes) ∧
      ∃ texts,
        Tab.reload.run ⟨w.tab id, w.disk, []⟩ =
          (.ok (), ⟨{ w.tab id with text := Utf8.decode bytes, dirty := false }, w.disk, texts⟩) ∧
        w.reload id = (.ok (), w.reloaded id bytes texts) ∧
        (Tab.damageWarning (w.tab id).filename ∈ texts ↔
          ¬ Utf8.WellFormed bytes ∨ Utf8.encodeChar Utf8.replacement <:+: bytes) ∧
        (∀ room v, (w.reload id).2.save room id = (.ok (), v) →
          v.disk.readFile (w.tab id).path = .ok (Utf8.encode (Utf8.decode bytes)) ∧
          (v.disk.readFile (w.tab id).path = .ok bytes ↔ Utf8.WellFormed bytes)) ∧
        (Tab.damageWarning (w.tab id).filename ∉ texts →
          ∀ room, (∀ b, ((w.reload id).2.save room id).1 ≠ .error (.brokenOff b)) →
            ((w.reload id).2.save room id).2.disk.Same w.disk) ∧
        ((w.reload id).2.save .ample id).1 = match w.disk.openEmptied (w.tab id).path with
          | .error fault => .error (.refused (.disk fault (w.tab id).path))
          | .ok _ => .ok () := by
  obtain ⟨texts, hrun, hreload, hwarning⟩ := exists_reloaded hread
  refine ⟨Utf8.encode_decode_eq_iff, texts, hrun, hreload, hwarning, ?_⟩
  rw [hreload]
  refine ⟨fun room v hsave => ?_, fun hsilent room => ?_, save_ample_reloaded hid⟩
  · have hafter := readFile_save_reloaded hid hread hsave
    rw [hafter]
    exact ⟨rfl, by rw [Except.ok.injEq, Utf8.encode_decode_eq_iff]⟩
  · rw [hwarning, not_or, Classical.not_not] at hsilent
    exact same_save_reloaded hid hread hsilent.1

/-- A workspace with a tab for a file that begins with a byte-order mark and has line breaks of
three kinds. -/
def marked : Workspace Unit :=
  ⟨(Disk.blank []).placeFile [] ["a.c"] [0xef, 0xbb, 0xbf, 0x61, 0x0d, 0x0a, 0x0d, 0x61, 0x0a],
    [⟨⟨.root, ["a.c"]⟩, "", true, none, .memory⟩], [], true⟩

/-- The file with the byte-order mark is unchanged once it has been read and saved, and the save
succeeds. -/
theorem same_save_reload_marked :
    0 < marked.tabs.length ∧ marked.disk.readFile (marked.tab 0).path =
        .ok [0xef, 0xbb, 0xbf, 0x61, 0x0d, 0x0a, 0x0d, 0x61, 0x0a] ∧
      ((marked.reload 0).2.save .ample 0).1 = .ok () ∧
      ((marked.reload 0).2.save .ample 0).2.disk.Same marked.disk := by
  have hid : 0 < marked.tabs.length := by decide
  have hread : marked.disk.readFile (marked.tab 0).path =
      .ok [0xef, 0xbb, 0xbf, 0x61, 0x0d, 0x0a, 0x0d, 0x61, 0x0a] := rfl
  have hbytes : Utf8.WellFormed [0xef, 0xbb, 0xbf, 0x61, 0x0d, 0x0a, 0x0d, 0x61, 0x0a] :=
    Utf8.isWellFormed_iff.mp (by decide)
  have hinfix : ¬ Utf8.encodeChar Utf8.replacement <:+:
      [0xef, 0xbb, 0xbf, 0x61, 0x0d, 0x0a, 0x0d, 0x61, 0x0a] := by
    decide
  obtain ⟨-, texts, -, -, hwarning, -, hsame, hample⟩ := reload_lossless hid hread
  have hsilent : Tab.damageWarning (marked.tab 0).filename ∉ texts := by
    rw [hwarning]
    rintro (h | h)
    · exact h hbytes
    · exact hinfix h
  have hdone : ((marked.reload 0).2.save .ample 0).1 = .ok () := hample
  refine ⟨hid, hread, hdone, hsame hsilent .ample fun b hb => ?_⟩
  rw [hdone] at hb
  cases hb

end Workspace

end Sketchbook
