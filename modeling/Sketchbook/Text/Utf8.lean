/-!
# UTF-8

Texts as bytes. `encode` writes each character in one to four bytes. `decode` reads any bytes:
every maximal run of bytes that begins a character but does not complete one, and every byte
that begins none, is read as one replacement character. Reading is a machine with the states
`Utf8.State`, fed one byte at a time by `Utf8.step`.
-/

namespace Sketchbook.Utf8

/-- The character that stands for bytes that could not be read. -/
def replacement : Char := '\ufffd'

/-- The byte of a number below 256. -/
def byte (n : Nat) : UInt8 := UInt8.ofNat n

/-- The bytes of a character. -/
def encodeChar (c : Char) : List UInt8 :=
  let n := c.toNat
  if n < 0x80 then [byte n]
  else if n < 0x800 then [byte (0xc0 + n / 64), byte (0x80 + n % 64)]
  else if n < 0x10000 then
    [byte (0xe0 + n / 4096), byte (0x80 + n / 64 % 64), byte (0x80 + n % 64)]
  else
    [byte (0xf0 + n / 262144), byte (0x80 + n / 4096 % 64), byte (0x80 + n / 64 % 64),
      byte (0x80 + n % 64)]

/-- The bytes of a sequence of characters. -/
def encodeChars (cs : List Char) : List UInt8 :=
  cs.flatMap encodeChar

/-- The bytes of a text. -/
def encode (s : String) : List UInt8 :=
  encodeChars s.toList

/-- Where reading stands between two bytes. -/
inductive State
  /-- No character has been begun. -/
  | start
  /-- A character has been begun: its bits so far are `bits`, the next byte must lie from `low`
  to `high`, and after it `left` more bytes are due. -/
  | inside (bits low high left : Nat)
  deriving DecidableEq, Repr

/-- Reads a byte where a character may begin. -/
def begin (b : UInt8) : List Char × State :=
  let n := b.toNat
  if n < 0x80 then ([Char.ofNat n], .start)
  else if 0xc2 ≤ n ∧ n ≤ 0xdf then ([], .inside (n - 0xc0) 0x80 0xbf 0)
  else if n = 0xe0 then ([], .inside 0 0xa0 0xbf 1)
  else if n = 0xed then ([], .inside 0xd 0x80 0x9f 1)
  else if 0xe1 ≤ n ∧ n ≤ 0xef then ([], .inside (n - 0xe0) 0x80 0xbf 1)
  else if n = 0xf0 then ([], .inside 0 0x90 0xbf 2)
  else if 0xf1 ≤ n ∧ n ≤ 0xf3 then ([], .inside (n - 0xf0) 0x80 0xbf 2)
  else if n = 0xf4 then ([], .inside 4 0x80 0x8f 2)
  else ([replacement], .start)

/-- Reads one byte: the characters that are settled by it, and the state after it. -/
def step : State → UInt8 → List Char × State
  | .start, b => begin b
  | .inside bits low high left, b =>
    let n := b.toNat
    if low ≤ n ∧ n ≤ high then
      match left with
      | 0 => ([Char.ofNat (bits * 64 + (n - 0x80))], .start)
      | k + 1 => ([], .inside (bits * 64 + (n - 0x80)) 0x80 0xbf k)
    else (replacement :: (begin b).1, (begin b).2)

/-- What is read at the end of the bytes: a character left unfinished is replaced. -/
def finish : State → List Char
  | .start => []
  | .inside .. => [replacement]

/-- The characters read from the bytes on, beginning in the given state. -/
def decodeFrom : State → List UInt8 → List Char
  | s, [] => finish s
  | s, b :: bs => (step s b).1 ++ decodeFrom (step s b).2 bs

/-- The characters read from bytes. -/
def decodeChars (bs : List UInt8) : List Char :=
  decodeFrom .start bs

/-- The text read from bytes. -/
def decode (bs : List UInt8) : String :=
  String.ofList (decodeChars bs)

/-- Whether the bytes are those of some text. -/
def isWellFormed (bs : List UInt8) : Bool :=
  encodeChars (decodeChars bs) == bs

@[simp] theorem toList_decode (bs : List UInt8) : (decode bs).toList = decodeChars bs := by
  simp [decode]

theorem encodeChars_append (cs ds : List Char) :
    encodeChars (cs ++ ds) = encodeChars cs ++ encodeChars ds := by
  simp [encodeChars]

end Sketchbook.Utf8
