import Mathlib.Algebra.Group.Nat.Defs
import Mathlib.Data.List.Count
import Sketchbook.Disk.Arrange
import Sketchbook.Proofs.Tab.Steps

/-!
# Damage stays where it is

Bytes that stand for no character are replaced when they are read. Text on either side of them is
read as it was written: no byte that begins a character is ever due inside of another, so that
reading finds its way back with the first of them. Nor is a line break lost or made up, because none
of the bytes of a longer sequence is one, and no such sequence is read as a character of ASCII. What
this means for a tab is said by `Tab.reload_damaged`.
-/

namespace Sketchbook.Utf8

/-! ### The states that reading can come to -/

/-- No byte below those behind the first of a sequence is due, and the character that has been begun
lies outside ASCII even if the lowest bytes that are due complete it. -/
def State.OutsideAscii : State → Prop
  | .start => True
  | .inside bits low _ left => 0x80 ≤ low ∧ 0x80 ≤ (bits * 64 + (low - 0x80)) * 64 ^ left

/-- The lowest first two bytes of each row begin a character outside ASCII. -/
theorem row_outsideAscii : ∀ r ∈ rows,
    0x80 ≤ ((r.first - lead r.more) * 64 + (r.low - 0x80)) * 64 ^ r.more := by
  decide

/-- A byte is a character of ASCII, or it begins one outside ASCII after a row of the table, or it
begins none. -/
theorem begin_cases (b : UInt8) :
    (b.toNat ≤ 0x7f ∧ begin b = ([Char.ofNat b.toNat], .start)) ∨
      0x7f < b.toNat ∧
        ((∃ r ∈ rows, r.first ≤ b.toNat ∧
          begin b = ([], .inside (b.toNat - lead r.more) r.low r.high r.more)) ∨
        begin b = ([replacement], .start)) := by
  by_cases hascii : b.toNat ≤ 0x7f
  · exact .inl ⟨hascii, begin_of_ascii hascii⟩
  · refine .inr ⟨by omega, ?_⟩
    by_cases hrow : ∃ r ∈ rows, r.first ≤ b.toNat ∧ b.toNat ≤ r.last
    · obtain ⟨r, hr, hb⟩ := hrow
      exact .inl ⟨r, hr, hb.1, begin_of_row hr hb⟩
    · exact .inr (begin_of_no_row hascii (by simpa using hrow))

theorem outsideAscii_begin (b : UInt8) : (begin b).2.OutsideAscii := by
  rcases begin_cases b with ⟨-, hbegin⟩ | ⟨-, ⟨r, hr, hb, hbegin⟩ | hbegin⟩
  · rw [hbegin]
    trivial
  · rw [hbegin]
    refine ⟨(row_bounds r hr).2.1, Nat.le_trans (row_outsideAscii r hr) ?_⟩
    apply Nat.mul_le_mul_right
    omega
  · rw [hbegin]
    trivial

/-- Reading goes on to states of which this holds. -/
theorem outsideAscii_step {s : State} (hs : s.OutsideAscii) (b : UInt8) :
    (step s b).2.OutsideAscii := by
  cases s with
  | start => exact outsideAscii_begin b
  | inside bits low high left =>
    obtain ⟨hlow, hbits⟩ := hs
    by_cases hb : low ≤ b.toNat ∧ b.toNat ≤ high
    · cases left with
      | zero => simp [step, hb, State.OutsideAscii]
      | succ left =>
        simp only [step, hb, and_self, if_true]
        refine ⟨Nat.le_refl _, Nat.le_trans hbits ?_⟩
        rw [Nat.pow_succ', ← Nat.mul_assoc]
        apply Nat.mul_le_mul_right
        omega
    · simp only [step, hb, if_false]
      exact outsideAscii_begin b

/-! ### Text behind the damage -/

/-- The first byte of a character may not stand further behind in a sequence. -/
theorem exists_encodeChar_cons (c : Char) : ∃ b bs, encodeChar c = b :: bs ∧ ¬ IsTail b := by
  by_cases hascii : c.toNat < 0x80
  · refine ⟨byte c.toNat, [], by simp [encodeChar, hascii], ?_⟩
    rw [IsTail, toNat_byte (by omega)]
    omega
  · obtain ⟨r, hr, hmore, hfirst, -⟩ := exists_row (by omega) (toNat_valid c)
    have hlast : r.last ≤ 0xff := (row_bounds r hr).1
    have habove : ∀ r ∈ rows, 0xbf < r.first := by decide
    have hlead : 0xbf < r.first := habove r hr
    refine ⟨_, _, encodeChar_eq (by omega), ?_⟩
    rw [IsTail, toNat_byte (by omega)]
    omega

/-- A byte that may not stand further behind in a sequence breaks off the character that has been
begun, and is read as if there were none. -/
theorem decodeFrom_of_not_isTail {s : State} (hbelow : s.DueBelow) (hs : s.OutsideAscii) {b : UInt8}
    (hb : ¬ IsTail b) (bs : List UInt8) :
    decodeFrom s (b :: bs) = finish s ++ decodeFrom .start (b :: bs) := by
  cases s with
  | start => rfl
  | inside bits low high left =>
    have hlow : 0x80 ≤ low := hs.1
    have hhigh : high ≤ 0xbf := hbelow
    have hdue : ¬ (low ≤ b.toNat ∧ b.toNat ≤ high) := by
      unfold IsTail at hb
      omega
    simp [decodeFrom, step, finish, hdue]

/-- Text is read as it was written, once the character that has been begun is given up. -/
theorem decodeFrom_encodeChars {s : State} (hbelow : s.DueBelow) (hs : s.OutsideAscii)
    (cs : List Char) : decodeFrom s (encodeChars cs) = finish s ++ cs := by
  cases cs with
  | nil => exact (List.append_nil _).symm
  | cons c cs =>
    obtain ⟨b, bs, hc, hb⟩ := exists_encodeChar_cons c
    have hbytes : encodeChars (c :: cs) = b :: (bs ++ encodeChars cs) := by
      rw [encodeChars, List.flatMap_cons, hc]
      rfl
    rw [hbytes, decodeFrom_of_not_isTail hbelow hs hb, ← hbytes]
    exact congrArg (finish s ++ ·) (decodeChars_encodeChars (c :: cs))

/-- Text behind any bytes is read as it was written. -/
theorem decodeFrom_append_encodeChars {s : State} (hbelow : s.DueBelow) (hs : s.OutsideAscii)
    (bs : List UInt8) (cs : List Char) :
    decodeFrom s (bs ++ encodeChars cs) = decodeFrom s bs ++ cs := by
  -- by induction on the bytes, for every state that reading may be in behind them
  induction bs generalizing s with
  | nil => exact decodeFrom_encodeChars hbelow hs cs
  | cons b bs ih =>
    rw [List.cons_append, decodeFrom, decodeFrom,
      ih (dueBelow_step hbelow b) (outsideAscii_step hs b), List.append_assoc]

/-- Text in front of any bytes is read as it was written. -/
theorem decodeFrom_encodeChars_append (cs : List Char) (bs : List UInt8) :
    decodeFrom .start (encodeChars cs ++ bs) = cs ++ decodeFrom .start bs := by
  induction cs with
  | nil => rfl
  | cons c cs ih =>
    have hbytes : encodeChars (c :: cs) = encodeChar c ++ encodeChars cs := List.flatMap_cons
    rw [hbytes, List.append_assoc, decodeFrom_encodeChar, ih]
    rfl

/-! ### Line breaks -/

/-- Only the code point of a line break is that of one: a number that is no code point stands for
the NUL character. -/
theorem ofNat_eq_lineBreak_iff {n : Nat} : Char.ofNat n = '\n' ↔ n = 0x0a := by
  constructor
  · intro h
    have htoNat : (Char.ofNat n).toNat = 0x0a := by rw [h]; rfl
    by_cases hn : n < 0xd800 ∨ 0xdfff < n ∧ n < 0x110000
    · rw [← toNat_ofNat hn, htoNat]
    · rw [Char.ofNat, dif_neg hn] at htoNat
      cases htoNat
  · rintro rfl
    rfl

/-- The byte of a line break is settled at once, where a character may begin, and no other byte is
read as one. -/
theorem count_begin (b : UInt8) : (begin b).1.count '\n' = [b].count 0x0a := by
  rcases begin_cases b with ⟨-, hbegin⟩ | ⟨hb, hbegin⟩
  · have hiff : Char.ofNat b.toNat = '\n' ↔ b = 0x0a := by
      rw [ofNat_eq_lineBreak_iff, ← UInt8.toNat_inj]
      rfl
    rw [hbegin, List.count_singleton, List.count_singleton]
    simp only [beq_iff_eq, hiff]
  · have hne : b ≠ 0x0a := by
      rintro rfl
      exact absurd hb (by decide)
    rcases hbegin with ⟨r, -, -, hbegin⟩ | hbegin
    · simp [hbegin, hne]
    · have hreplacement : replacement ≠ '\n' := by decide
      simp [hbegin, hne, hreplacement]

/-- With each byte just as many line breaks are read as the byte is one. -/
theorem count_step {s : State} (hs : s.OutsideAscii) (b : UInt8) :
    (step s b).1.count '\n' = [b].count 0x0a := by
  cases s with
  | start => exact count_begin b
  | inside bits low high left =>
    obtain ⟨hlow, hbits⟩ := hs
    by_cases hb : low ≤ b.toNat ∧ b.toNat ≤ high
    · -- the byte is due, so it is none of ASCII, and neither is the character that it may complete
      have hne : b ≠ 0x0a := by
        rintro rfl
        have hten : low ≤ 0x0a := hb.1
        omega
      cases left with
      | zero =>
        have hcode : bits * 64 + (b.toNat - 0x80) ≠ 0x0a := by omega
        have hchar : Char.ofNat (bits * 64 + (b.toNat - 0x80)) ≠ '\n' :=
          mt ofNat_eq_lineBreak_iff.mp hcode
        simp [step, hb, hne, hchar]
      | succ left => simp [step, hb, hne]
    · have hreplacement : replacement ≠ '\n' := by decide
      simp only [step, hb, if_false, List.count_cons_of_ne hreplacement]
      exact count_begin b

/-- As many line breaks are read as there are bytes of one. -/
theorem count_decodeFrom {s : State} (hs : s.OutsideAscii) (bs : List UInt8) :
    (decodeFrom s bs).count '\n' = bs.count 0x0a := by
  induction bs generalizing s with
  | nil =>
    cases s with
    | start => rfl
    | inside => rfl
  | cons b bs ih =>
    rw [decodeFrom, List.count_append, count_step hs, ih (outsideAscii_step hs b),
      ← List.count_append, List.singleton_append]

/-- Bytes between two texts are read as they are read alone, and the texts as they were written. -/
theorem decode_surrounded (front back : String) (bytes : List UInt8) :
    decode (encode front ++ bytes ++ encode back) = front ++ decode bytes ++ back := by
  have hback : decodeFrom .start (bytes ++ encodeChars back.toList) =
      decodeFrom .start bytes ++ back.toList :=
    decodeFrom_append_encodeChars (s := .start) trivial trivial bytes back.toList
  rw [← String.toList_inj, toList_decode, decodeChars, encode, encode, List.append_assoc,
    decodeFrom_encodeChars_append, hback, String.toList_append, String.toList_append,
    toList_decode, List.append_assoc]
  rfl

/-- A text has as many line breaks as there are bytes of one where it was read. -/
theorem lineBreaks_decode (bytes : List UInt8) : lineBreaks (decode bytes) = bytes.count 0x0a := by
  have hchars : lineBreaks (decode bytes) = (decodeChars bytes).count '\n' := by
    rw [lineBreaks, Text.ofString, toList_decode]
    exact List.count_map_of_injective _ _ (fun _ _ h => Letter.char.inj h) _
  rw [hchars]
  exact count_decodeFrom (s := .start) trivial bytes

end Sketchbook.Utf8

namespace Sketchbook

theorem lineBreaks_append (s t : Text) : lineBreaks (s ++ t) = lineBreaks s + lineBreaks t :=
  List.count_append

namespace Tab

variable {μ : Type}

/-- Whatever bytes stand between two texts, they are read as they are read alone and the texts as
they were written, and as many line breaks are read of them as they have bytes of one. A tab that is
read from a file of such bytes has this text and this number of line breaks. -/
theorem reload_damaged (front back : String) (bytes : List UInt8) :
    Utf8.decode (Utf8.encode front ++ bytes ++ Utf8.encode back) =
        front ++ Utf8.decode bytes ++ back ∧
      lineBreaks (Utf8.decode bytes) = bytes.count 0x0a ∧
      ∀ (d : Disk) (t : Tab μ),
        d.readFile t.path = .ok (Utf8.encode front ++ bytes ++ Utf8.encode back) →
        ∃ t' texts, reload.run ⟨t, d, []⟩ = (.ok (), ⟨t', d, texts⟩) ∧
          t'.text = front ++ Utf8.decode bytes ++ back ∧
          t'.lines = lineBreaks front + bytes.count 0x0a + lineBreaks back := by
  have htext := Utf8.decode_surrounded front back bytes
  have hbreaks := Utf8.lineBreaks_decode bytes
  refine ⟨htext, hbreaks, ?_⟩
  intro d t hread
  have htext' : Text.ofString (Utf8.decode (Utf8.encode front ++ bytes ++ Utf8.encode back)) =
      front ++ Utf8.decode bytes ++ back := by
    rw [htext, Text.ofString_append, Text.ofString_append]
  rw [run_reload]
  simp only [hread]
  refine ⟨_, _, rfl, htext', ?_⟩
  change lineBreaks (Utf8.decode _) = _
  rw [htext', lineBreaks_append, lineBreaks_append, hbreaks]

/-- A file in which a character of four bytes is broken off by the end of the line. -/
def brokenOff : Disk :=
  (Disk.blank []).placeFile [] ["a.c"] [0x61, 0x0a, 0xf0, 0x9f, 0x98, 0x0a, 0x62]

/-- The line break that breaks off a character is read as one, and one character is replaced. -/
theorem reload_damaged_brokenOff :
    brokenOff.readFile ⟨.root, ["a.c"]⟩ =
        .ok (Utf8.encode "a\n" ++ [0xf0, 0x9f, 0x98] ++ Utf8.encode "\nb") ∧
      ∃ t' texts, (reload : Steps Unit Failure Unit).run
            ⟨⟨⟨.root, ["a.c"]⟩, "", false, none, .memory⟩, brokenOff, []⟩ =
          (.ok (), ⟨t', brokenOff, texts⟩) ∧
        t'.text = "a\n\ufffd\nb" ∧ t'.lines = 2 := by
  have hread : brokenOff.readFile ⟨.root, ["a.c"]⟩ =
      .ok (Utf8.encode "a\n" ++ [0xf0, 0x9f, 0x98] ++ Utf8.encode "\nb") := rfl
  obtain ⟨-, -, hreload⟩ := reload_damaged (μ := Unit) "a\n" "\nb" [0xf0, 0x9f, 0x98]
  obtain ⟨t', texts, hok, htext, hlines⟩ :=
    hreload brokenOff ⟨⟨.root, ["a.c"]⟩, "", false, none, .memory⟩ hread
  exact ⟨hread, t', texts, hok, htext.trans (by decide +kernel), hlines.trans (by decide)⟩

end Tab

end Sketchbook
