import Sketchbook.Text.Utf8

/-!
# Well-formed bytes

Which bytes are those of a text is said by the table of well-formed sequences of the Unicode
standard, without reference to reading or writing (`Utf8.WellFormed`). What is written is read back
as it was (`Utf8.decodeChars_encodeChars`), bytes can be written back as they were exactly if they
are well formed (`Utf8.encodeChars_decodeChars_eq_iff`), and where they are not, a replacement
character is read (`Utf8.mem_decodeChars_replacement_iff`).
-/

namespace Sketchbook.Utf8

/-- Whether the byte may stand behind the second one of a sequence. -/
def IsTail (b : UInt8) : Prop :=
  0x80 ≤ b.toNat ∧ b.toNat ≤ 0xbf

/-- A row of the table of well-formed sequences: the range of the first byte, that of the second,
and the number of bytes that follow these two. -/
structure Row where
  first : Nat
  last : Nat
  low : Nat
  high : Nat
  more : Nat

/-- The rows for the sequences of two bytes and more. -/
def rows : List Row := [
    ⟨0xc2, 0xdf, 0x80, 0xbf, 0⟩,
    ⟨0xe0, 0xe0, 0xa0, 0xbf, 1⟩, ⟨0xe1, 0xec, 0x80, 0xbf, 1⟩, ⟨0xed, 0xed, 0x80, 0x9f, 1⟩,
    ⟨0xee, 0xef, 0x80, 0xbf, 1⟩,
    ⟨0xf0, 0xf0, 0x90, 0xbf, 2⟩, ⟨0xf1, 0xf3, 0x80, 0xbf, 2⟩, ⟨0xf4, 0xf4, 0x80, 0x8f, 2⟩]

/-- What all rows have in common: the first byte is a byte, and the second lies where those behind
it do. -/
theorem row_bounds : ∀ r ∈ rows, r.last ≤ 0xff ∧ 0x80 ≤ r.low ∧ r.high ≤ 0xbf := by
  decide

/-- The well-formed sequences of bytes for one character. -/
inductive Sequence : List UInt8 → Prop
  /-- A byte of ASCII. -/
  | ascii {a : UInt8} (ha : a.toNat ≤ 0x7f) : Sequence [a]
  /-- A sequence after a row of the table. -/
  | ofRow {r : Row} {a b : UInt8} {tails : List UInt8} (hr : r ∈ rows)
      (ha : r.first ≤ a.toNat ∧ a.toNat ≤ r.last) (hb : r.low ≤ b.toNat ∧ b.toNat ≤ r.high)
      (hlength : tails.length = r.more) (htails : ∀ t ∈ tails, IsTail t) :
      Sequence (a :: b :: tails)

/-- Bytes that are well-formed sequences one after the other. -/
inductive WellFormed : List UInt8 → Prop
  | nil : WellFormed []
  | append {sequence bs : List UInt8} (h : Sequence sequence) (hbs : WellFormed bs) :
      WellFormed (sequence ++ bs)

theorem WellFormed.append_wellFormed {as bs : List UInt8} (has : WellFormed as)
    (hbs : WellFormed bs) : WellFormed (as ++ bs) := by
  induction has with
  | nil => exact hbs
  | append h _ ih =>
    rw [List.append_assoc]
    exact .append h ih

/-! ### Reading one byte after the other -/

theorem toNat_byte {n : Nat} (h : n < 256) : (byte n).toNat = n := by
  simp [byte, Nat.mod_eq_of_lt h]

theorem byte_eq {n : Nat} {b : UInt8} (h : n = b.toNat) : byte n = b := by
  simp [byte, h]

theorem decodeFrom_start_cons (b : UInt8) (bs : List UInt8) :
    decodeFrom .start (b :: bs) = (begin b).1 ++ decodeFrom (begin b).2 bs := rfl

/-- The last byte that is due completes a character. -/
theorem decodeFrom_inside_zero {bits low high : Nat} {b : UInt8}
    (h : low ≤ b.toNat ∧ b.toNat ≤ high) (bs : List UInt8) :
    decodeFrom (.inside bits low high 0) (b :: bs) =
      Char.ofNat (bits * 64 + (b.toNat - 0x80)) :: decodeFrom .start bs := by
  simp [decodeFrom, step, h]

/-- A byte that is due adds its bits, if more are due after it. -/
theorem decodeFrom_inside_succ {bits low high left : Nat} {b : UInt8}
    (h : low ≤ b.toNat ∧ b.toNat ≤ high) (bs : List UInt8) :
    decodeFrom (.inside bits low high (left + 1)) (b :: bs) =
      decodeFrom (.inside (bits * 64 + (b.toNat - 0x80)) 0x80 0xbf left) bs := by
  simp [decodeFrom, step, h]

/-- If nothing is replaced, the next byte is one that is due. -/
theorem isDue_of_not_mem {bits low high left : Nat} {b : UInt8} {bs : List UInt8}
    (h : replacement ∉ decodeFrom (.inside bits low high left) (b :: bs)) :
    low ≤ b.toNat ∧ b.toNat ≤ high := by
  refine Decidable.byContradiction fun hb => h ?_
  simp [decodeFrom, step, hb]

/-- The first byte of a sequence with all its own bits unset, by the number of bytes that follow the
first two. -/
def lead : Nat → Nat
  | 0 => 0xc0
  | 1 => 0xe0
  | _ => 0xf0

theorem begin_of_ascii {b : UInt8} (h : b.toNat ≤ 0x7f) :
    begin b = ([Char.ofNat b.toNat], .start) := by
  have hlt : b.toNat < 0x80 := by omega
  simp [begin, hlt]

/-- The first byte of a sequence of two bytes and more begins a character by its row. -/
theorem begin_of_row {r : Row} (hr : r ∈ rows) {b : UInt8}
    (h : r.first ≤ b.toNat ∧ b.toNat ≤ r.last) :
    begin b = ([], .inside (b.toNat - lead r.more) r.low r.high r.more) := by
  simp only [rows, List.mem_cons, List.not_mem_nil, or_false] at hr
  rcases hr with rfl | rfl | rfl | rfl | rfl | rfl | rfl | rfl <;>
    simp only [begin, lead] at h ⊢ <;> grind

/-- Every other byte begins no character, and is replaced. -/
theorem begin_of_no_row {b : UInt8} (hascii : ¬ b.toNat ≤ 0x7f)
    (hrow : ∀ r ∈ rows, ¬ (r.first ≤ b.toNat ∧ b.toNat ≤ r.last)) :
    begin b = ([replacement], .start) := by
  simp only [rows, List.forall_mem_cons, List.not_mem_nil, false_implies, implies_true,
    and_true] at hrow
  simp only [begin]
  grind

/-! ### What is read without a replacement is well formed -/

/-- If nothing is replaced, the bytes that are due are there. -/
theorem exists_tails_of_not_mem {bits low high left : Nat} {bs : List UInt8}
    (h : replacement ∉ decodeFrom (.inside bits low high left) bs) :
    ∃ b tails rest, bs = b :: (tails ++ rest) ∧ (low ≤ b.toNat ∧ b.toNat ≤ high) ∧
      tails.length = left ∧ (∀ t ∈ tails, IsTail t) ∧
      replacement ∉ decodeFrom .start rest := by
  induction left generalizing bits low high bs with
  | zero =>
    cases bs with
    | nil => simp [decodeFrom, finish] at h
    | cons b bs =>
      have hb := isDue_of_not_mem h
      rw [decodeFrom_inside_zero hb] at h
      exact ⟨b, [], bs, rfl, hb, rfl, by simp, fun hmem => h (List.mem_cons_of_mem _ hmem)⟩
  | succ left ih =>
    cases bs with
    | nil => simp [decodeFrom, finish] at h
    | cons b bs =>
      have hb := isDue_of_not_mem h
      rw [decodeFrom_inside_succ hb] at h
      obtain ⟨t, tails, rest, rfl, ht, hlength, htails, hrest⟩ := ih h
      refine ⟨b, t :: tails, rest, rfl, hb, by simp [hlength], ?_, hrest⟩
      exact List.forall_mem_cons.mpr ⟨ht, htails⟩

/-- Where bytes are read without a replacement, they are none or begin with a sequence. -/
theorem exists_sequence_of_not_mem {b : UInt8} {bs : List UInt8}
    (h : replacement ∉ decodeFrom .start (b :: bs)) :
    ∃ sequence rest, b :: bs = sequence ++ rest ∧ Sequence sequence ∧
      rest.length < (b :: bs).length ∧ replacement ∉ decodeFrom .start rest := by
  rw [decodeFrom_start_cons] at h
  by_cases hascii : b.toNat ≤ 0x7f
  · rw [begin_of_ascii hascii] at h
    exact ⟨[b], bs, rfl, .ascii hascii, by simp, fun hmem => h (List.mem_append_right _ hmem)⟩
  · by_cases hrow : ∃ r ∈ rows, r.first ≤ b.toNat ∧ b.toNat ≤ r.last
    · obtain ⟨r, hr, hb⟩ := hrow
      rw [begin_of_row hr hb, List.nil_append] at h
      obtain ⟨c, tails, rest, rfl, hc, hlength, htails, hrest⟩ := exists_tails_of_not_mem h
      refine ⟨b :: c :: tails, rest, rfl, .ofRow hr hb hc hlength htails, ?_, hrest⟩
      simp only [List.length_cons, List.length_append]
      omega
    · rw [begin_of_no_row hascii (by simpa using hrow)] at h
      exact absurd (List.mem_cons_self ..) h

/-- Bytes that are read without a replacement are well formed. -/
theorem wellFormed_of_not_mem {bs : List UInt8} (h : replacement ∉ decodeChars bs) :
    WellFormed bs := by
  induction hlength : bs.length using Nat.strongRecOn generalizing bs with
  | ind length ih =>
    cases bs with
    | nil => exact .nil
    | cons b bs =>
      obtain ⟨sequence, rest, hsplit, hsequence, hshorter, hrest⟩ :=
        exists_sequence_of_not_mem h
      rw [hsplit]
      exact .append hsequence (ih _ (hlength ▸ hshorter) hrest rfl)

/-! ### The bytes of one character -/

/-- A code point without its lowest bits, six of them for each of so many bytes. -/
def upper (n : Nat) : Nat → Nat
  | 0 => n
  | k + 1 => upper n k / 64

/-- The last bytes of the character with this code point, so many of them: each has six bits. -/
def tailBytes (n : Nat) : Nat → List UInt8
  | 0 => []
  | k + 1 => byte (0x80 + upper n k % 64) :: tailBytes n k

/-- The number of bytes that follow the first two of the character with this code point. -/
def moreOf (n : Nat) : Nat :=
  if n < 0x800 then 0 else if n < 0x10000 then 1 else 2

/-- Outside ASCII the bytes of a character are a first one with its upper bits and six bits in each
of the others. -/
theorem encodeChar_eq {c : Char} (h : 0x80 ≤ c.toNat) :
    encodeChar c = byte (lead (moreOf c.toNat) + upper c.toNat (moreOf c.toNat + 1)) ::
      tailBytes c.toNat (moreOf c.toNat + 1) := by
  have hascii : ¬ c.toNat < 0x80 := by omega
  unfold moreOf
  by_cases htwo : c.toNat < 0x800
  · simp [encodeChar, tailBytes, upper, lead, hascii, htwo]
  · by_cases hthree : c.toNat < 0x10000
    · simp [encodeChar, tailBytes, upper, lead, hascii, htwo, hthree, Nat.div_div_eq_div_mul]
    · simp [encodeChar, tailBytes, upper, lead, hascii, htwo, hthree, Nat.div_div_eq_div_mul]

/-- The code point of a character lies outside the surrogates. -/
theorem toNat_valid (c : Char) : c.toNat < 0xd800 ∨ 0xdfff < c.toNat ∧ c.toNat < 0x110000 :=
  c.valid

/-- The first two bytes of a character are after a row of the table. -/
theorem exists_row {n : Nat} (hascii : 0x80 ≤ n)
    (hvalid : n < 0xd800 ∨ 0xdfff < n ∧ n < 0x110000) :
    ∃ r ∈ rows, r.more = moreOf n ∧
      (r.first ≤ lead (moreOf n) + upper n (moreOf n + 1) ∧
        lead (moreOf n) + upper n (moreOf n + 1) ≤ r.last) ∧
      (r.low ≤ 0x80 + upper n (moreOf n) % 64 ∧ 0x80 + upper n (moreOf n) % 64 ≤ r.high) := by
  -- with the number of bytes fixed, which row it is is a matter of bounds
  unfold moreOf
  by_cases htwo : n < 0x800
  · simp [rows, lead, upper, htwo]
    omega
  · by_cases hthree : n < 0x10000
    · simp [rows, lead, upper, htwo, hthree]
      omega
    · simp [rows, lead, upper, htwo, hthree]
      omega

/-! ### What is written is read back -/

/-- The six bits of a byte complete those above them. -/
theorem upper_succ_add (n k : Nat) :
    upper n (k + 1) * 64 + (0x80 + upper n k % 64 - 0x80) = upper n k := by
  rw [upper]
  omega

/-- A byte behind the first one keeps its bits. -/
theorem toNat_tailByte (n : Nat) : (byte (0x80 + n % 64)).toNat = 0x80 + n % 64 :=
  toNat_byte (by omega)

/-- The last bytes of a character complete it, once its upper bits have been read. -/
theorem decodeFrom_tailBytes {k n low high : Nat}
    (h : low ≤ 0x80 + upper n k % 64 ∧ 0x80 + upper n k % 64 ≤ high) (bs : List UInt8) :
    decodeFrom (.inside (upper n (k + 1)) low high k) (tailBytes n (k + 1) ++ bs) =
      Char.ofNat n :: decodeFrom .start bs := by
  induction k generalizing low high with
  | zero =>
    rw [tailBytes, List.cons_append, decodeFrom_inside_zero (by rwa [toNat_tailByte]),
      toNat_tailByte, upper_succ_add]
    rfl
  | succ k ih =>
    rw [tailBytes, List.cons_append, decodeFrom_inside_succ (by rwa [toNat_tailByte]),
      toNat_tailByte, upper_succ_add]
    exact ih ⟨by omega, by omega⟩

/-- The bytes of a character are read as this character. -/
theorem decodeFrom_encodeChar (c : Char) (bs : List UInt8) :
    decodeFrom .start (encodeChar c ++ bs) = c :: decodeFrom .start bs := by
  by_cases hascii : c.toNat < 0x80
  · have ha : (byte c.toNat).toNat = c.toNat := toNat_byte (by omega)
    have hone : encodeChar c = [byte c.toNat] := by simp [encodeChar, hascii]
    rw [hone, List.singleton_append, decodeFrom_start_cons, begin_of_ascii (by omega), ha,
      Char.ofNat_toNat]
    rfl
  · obtain ⟨r, hr, hmore, hfirst, hsecond⟩ := exists_row (by omega) (toNat_valid c)
    have hlast : r.last ≤ 0xff := (row_bounds r hr).1
    rw [encodeChar_eq (by omega), ← hmore]
    rw [← hmore] at hfirst hsecond
    have hlead : (byte (lead r.more + upper c.toNat (r.more + 1))).toNat =
        lead r.more + upper c.toNat (r.more + 1) := toNat_byte (by omega)
    rw [List.cons_append, decodeFrom_start_cons, begin_of_row hr (by rwa [hlead]), hlead,
      Nat.add_sub_cancel_left, List.nil_append, decodeFrom_tailBytes hsecond, Char.ofNat_toNat]

/-- A text that is written is read back as it was. -/
theorem decodeChars_encodeChars (cs : List Char) : decodeChars (encodeChars cs) = cs := by
  induction cs with
  | nil => rfl
  | cons c cs ih =>
    have hsplit : encodeChars (c :: cs) = encodeChar c ++ encodeChars cs := rfl
    rw [decodeChars, hsplit, decodeFrom_encodeChar]
    exact congrArg (c :: ·) ih

@[simp] theorem decode_encode (s : String) : decode (encode s) = s := by
  rw [decode, encode, decodeChars_encodeChars, String.ofList_toList]

/-! ### Well-formed bytes are those of a text -/

/-- The code point of a number that is one. -/
theorem toNat_ofNat {n : Nat} (h : n < 0xd800 ∨ 0xdfff < n ∧ n < 0x110000) :
    (Char.ofNat n).toNat = n := by
  have hvalid : n.isValidChar := h
  rw [Char.ofNat, dif_pos hvalid]
  rfl

/-- The number with six more bits for each of the bytes. -/
def withTails (n : Nat) (tails : List UInt8) : Nat :=
  tails.foldl (fun m t => m * 64 + (t.toNat - 0x80)) n

theorem withTails_cons (n : Nat) (t : UInt8) (tails : List UInt8) :
    withTails n (t :: tails) = withTails (n * 64 + (t.toNat - 0x80)) tails := by
  rw [withTails, List.foldl_cons, ← withTails]

/-- The upper bits of such a number are those that it was made from, and the others are in the bytes
it was made from. -/
theorem withTails_eq {tails : List UInt8} (htails : ∀ t ∈ tails, IsTail t) (n : Nat) :
    upper (withTails n tails) tails.length = n ∧
      tailBytes (withTails n tails) tails.length = tails := by
  induction tails generalizing n with
  | nil => exact ⟨rfl, rfl⟩
  | cons t tails ih =>
    obtain ⟨ht, htails⟩ := List.forall_mem_cons.mp htails
    obtain ⟨hupper, hlower⟩ := ih htails (n * 64 + (t.toNat - 0x80))
    unfold IsTail at ht
    have hbyte : byte (0x80 + (n * 64 + (t.toNat - 0x80)) % 64) = t := byte_eq (by omega)
    rw [withTails_cons, List.length_cons, upper, tailBytes, hupper, hlower, hbyte]
    exact ⟨by omega, rfl⟩

/-- A number with the upper bits of two bytes after a row is a code point, for which as many bytes
are due as in the row. -/
theorem codePoint_of_row {r : Row} (hr : r ∈ rows) {a b n : Nat} (ha : r.first ≤ a ∧ a ≤ r.last)
    (hb : r.low ≤ b ∧ b ≤ r.high)
    (hn : upper n r.more = (a - lead r.more) * 64 + (b - 0x80)) :
    lead r.more ≤ a ∧ 0x80 ≤ n ∧ (n < 0xd800 ∨ 0xdfff < n ∧ n < 0x110000) ∧
      moreOf n = r.more := by
  have hrange : lead r.more ≤ a ∧ (r.more = 0 ∧ 0x80 ≤ n ∧ n < 0x800 ∨
      r.more = 1 ∧ 0x800 ≤ n ∧ n < 0x10000 ∧ (n < 0xd800 ∨ 0xdfff < n) ∨
      r.more = 2 ∧ 0x10000 ≤ n ∧ n < 0x110000) := by
    simp only [rows, List.mem_cons, List.not_mem_nil, or_false] at hr
    rcases hr with rfl | rfl | rfl | rfl | rfl | rfl | rfl | rfl <;>
      simp [lead, upper] at ha hb hn ⊢ <;> omega
  obtain ⟨hlead,
    ⟨hmore, hlow, hhigh⟩ | ⟨hmore, hlow, hhigh, hvalid⟩ | ⟨hmore, hlow, hhigh⟩⟩ := hrange
  · exact ⟨hlead, by omega, by omega, by rw [moreOf, if_pos hhigh, hmore]⟩
  · exact ⟨hlead, by omega, by omega, by rw [moreOf, if_neg (by omega), if_pos hhigh, hmore]⟩
  · refine ⟨hlead, by omega, by omega, ?_⟩
    rw [moreOf, if_neg (by omega), if_neg (by omega), hmore]

/-- Every sequence of the table is that of a character. -/
theorem exists_encodeChar_of_sequence {sequence : List UInt8} (h : Sequence sequence) :
    ∃ c, encodeChar c = sequence := by
  cases h with
  | @ascii a ha =>
    have htoNat : (Char.ofNat a.toNat).toNat = a.toNat := toNat_ofNat (by omega)
    have hlt : a.toNat < 0x80 := by omega
    exact ⟨Char.ofNat a.toNat, by simp [encodeChar, htoNat, hlt, byte]⟩
  | @ofRow r a b tails hr ha hb hlength htails =>
    have hbounds : 0x80 ≤ r.low ∧ r.high ≤ 0xbf := (row_bounds r hr).2
    have htail : IsTail b := ⟨by omega, by omega⟩
    obtain ⟨hfirst, hbytes⟩ :=
      withTails_eq (List.forall_mem_cons.mpr ⟨htail, htails⟩) (a.toNat - lead r.more)
    obtain ⟨hupper, -⟩ := withTails_eq htails ((a.toNat - lead r.more) * 64 + (b.toNat - 0x80))
    rw [List.length_cons, hlength, withTails_cons] at hfirst hbytes
    rw [hlength] at hupper
    generalize withTails ((a.toNat - lead r.more) * 64 + (b.toNat - 0x80)) tails = n at *
    obtain ⟨hlead, hlow, hvalid, hmore⟩ := codePoint_of_row hr ha hb hupper
    have htoNat : (Char.ofNat n).toNat = n := toNat_ofNat hvalid
    have hbyte : byte (lead r.more + (a.toNat - lead r.more)) = a := byte_eq (by omega)
    refine ⟨Char.ofNat n, ?_⟩
    rw [encodeChar_eq (by omega), htoNat, hmore, hfirst, hbytes, hbyte]

/-- The bytes of a character are well formed. -/
theorem wellFormed_encodeChar (c : Char) : WellFormed (encodeChar c) := by
  by_cases hc : c = replacement
  · -- the replacement character may stand in a text as any other
    have hsequence : Sequence [0xef, 0xbf, 0xbd] :=
      .ofRow (r := ⟨0xee, 0xef, 0x80, 0xbf, 1⟩) (by simp [rows]) (by decide) (by decide) rfl
        (by simp [IsTail])
    rw [hc]
    exact .append hsequence .nil
  · apply wellFormed_of_not_mem
    have hread : decodeChars (encodeChar c) = [c] := by
      simpa [decodeChars, decodeFrom, finish] using decodeFrom_encodeChar c []
    rw [hread, List.mem_singleton]
    exact Ne.symm hc

/-- The bytes of a text are well formed. -/
theorem wellFormed_encodeChars (cs : List Char) : WellFormed (encodeChars cs) := by
  induction cs with
  | nil => exact .nil
  | cons c cs ih => exact (wellFormed_encodeChar c).append_wellFormed ih

/-- Bytes are well formed exactly if they are those of a text. -/
theorem wellFormed_iff {bs : List UInt8} : WellFormed bs ↔ ∃ cs, encodeChars cs = bs := by
  constructor
  · intro h
    induction h with
    | nil => exact ⟨[], rfl⟩
    | append h _ ih =>
      obtain ⟨c, rfl⟩ := exists_encodeChar_of_sequence h
      obtain ⟨cs, rfl⟩ := ih
      exact ⟨c :: cs, rfl⟩
  · rintro ⟨cs, rfl⟩
    exact wellFormed_encodeChars cs

/-- Bytes are the same after they have been read and written exactly if they are well formed. -/
theorem encodeChars_decodeChars_eq_iff {bs : List UInt8} :
    encodeChars (decodeChars bs) = bs ↔ WellFormed bs := by
  rw [wellFormed_iff]
  constructor
  · intro h
    exact ⟨decodeChars bs, h⟩
  · rintro ⟨cs, rfl⟩
    rw [decodeChars_encodeChars]

theorem isWellFormed_iff {bs : List UInt8} : isWellFormed bs = true ↔ WellFormed bs := by
  rw [isWellFormed, beq_iff_eq, encodeChars_decodeChars_eq_iff]

/-! ### Where a replacement character is read -/

/-- No byte above those behind the first of a sequence is due. -/
def State.DueBelow : State → Prop
  | .start => True
  | .inside _ _ high _ => high ≤ 0xbf

theorem dueBelow_begin (b : UInt8) : (begin b).2.DueBelow := by
  simp only [begin]
  grind [State.DueBelow]

/-- Reading goes on to states in which no byte above them is due. -/
theorem dueBelow_step {s : State} (hs : s.DueBelow) (b : UInt8) : (step s b).2.DueBelow := by
  cases s with
  | start => exact dueBelow_begin b
  | inside bits low high left =>
    by_cases hb : low ≤ b.toNat ∧ b.toNat ≤ high
    · cases left with
      | zero => simp [step, hb, State.DueBelow]
      | succ left => simp [step, hb, State.DueBelow]
    · simp only [step, hb, if_false]
      exact dueBelow_begin b

/-- The bytes of a replacement character are read as one, whatever comes before them: either it
stands for itself, or for the character that its first byte breaks off. -/
theorem replacement_mem_decodeFrom {s : State} (hs : s.DueBelow) (front back : List UInt8) :
    replacement ∈ decodeFrom s (front ++ (encodeChar replacement ++ back)) := by
  induction front generalizing s with
  | nil =>
    cases s with
    | start =>
      rw [List.nil_append, decodeFrom_encodeChar]
      exact List.mem_cons_self ..
    | inside bits low high left =>
      refine Decidable.byContradiction fun h => ?_
      have hdue : low ≤ 0xef ∧ 0xef ≤ high := isDue_of_not_mem (b := 0xef) h
      have hhigh : high ≤ 0xbf := hs
      omega
  | cons b front ih => exact List.mem_append_right _ (ih (dueBelow_step hs b))

/-- A replacement character is read from bytes exactly if they are not well formed or hold the
bytes of one. -/
theorem mem_decodeChars_replacement_iff {bs : List UInt8} :
    replacement ∈ decodeChars bs ↔ ¬ WellFormed bs ∨ encodeChar replacement <:+: bs := by
  constructor
  · intro hmem
    by_cases hbs : WellFormed bs
    · obtain ⟨cs, rfl⟩ := wellFormed_iff.mp hbs
      rw [decodeChars_encodeChars] at hmem
      obtain ⟨front, back, rfl⟩ := List.append_of_mem hmem
      refine .inr ⟨encodeChars front, encodeChars back, ?_⟩
      rw [encodeChars_append, List.append_assoc]
      rfl
    · exact .inl hbs
  · rintro (hbs | ⟨front, back, rfl⟩)
    · exact Decidable.byContradiction fun hmem => hbs (wellFormed_of_not_mem hmem)
    · rw [List.append_assoc]
      exact replacement_mem_decodeFrom (s := .start) trivial front back

end Sketchbook.Utf8
