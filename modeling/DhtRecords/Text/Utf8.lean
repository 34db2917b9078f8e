/-
Text as UTF-8 bytes.

`encode` and `decode?` are exact inverses of one another. `decodeReplacing`
also reads bytes that are no text: each maximal part that could not be
completed to a character becomes one replacement character.
-/

import DhtRecords.Bytes

namespace DhtRecords.Utf8

/-- The UTF-8 bytes of a text. -/
def encode (text : String) : Bytes := text.toByteArray.data.toList

/-- The text whose UTF-8 bytes these are. -/
def decode? (bytes : Bytes) : Option String := String.fromUTF8? ⟨bytes.toArray⟩

/-- What replaces bytes that are no text. -/
def replacement : Char := Char.ofNat 0xfffd

/-- How many bytes follow a first byte, and the range of the first of them; `none` for a byte that
begins no character of several bytes. -/
def continuation? (first : UInt8) : Option (Nat × UInt8 × UInt8) :=
  if 0xc2 ≤ first ∧ first ≤ 0xdf then some (1, 0x80, 0xbf)
  else if first = 0xe0 then some (2, 0xa0, 0xbf)
  else if first = 0xed then some (2, 0x80, 0x9f)
  else if 0xe1 ≤ first ∧ first ≤ 0xef then some (2, 0x80, 0xbf)
  else if first = 0xf0 then some (3, 0x90, 0xbf)
  else if 0xf1 ≤ first ∧ first ≤ 0xf3 then some (3, 0x80, 0xbf)
  else if first = 0xf4 then some (3, 0x80, 0x8f)
  else none

/-- The longest run of at most `count` continuation bytes, the first of them within the range. -/
def following : Nat → UInt8 → UInt8 → Bytes → Bytes
  | 0, _, _, _ => []
  | _, _, _, [] => []
  | count + 1, low, high, byte :: rest =>
    if low ≤ byte ∧ byte ≤ high then byte :: following count 0x80 0xbf rest else []

/-- The number that the payload bits of a character's bytes spell. -/
def scalar (first : UInt8) (more : Bytes) : Nat :=
  let lead := match more.length with
    | 1 => first.toNat % 32
    | 2 => first.toNat % 16
    | _ => first.toNat % 8
  more.foldl (fun value byte => value * 64 + byte.toNat % 64) lead

/-- The first character of a byte string that starts with `first`, and the number of bytes after
`first` that it takes. -/
def readChar (first : UInt8) (rest : Bytes) : Char × Nat :=
  if first < 0x80 then (Char.ofNat first.toNat, 0)
  else match continuation? first with
    | none => (replacement, 0)
    | some (count, low, high) =>
      let more := following count low high rest
      (if more.length = count then Char.ofNat (scalar first more) else replacement, more.length)

/-- The characters of any bytes, `size` being at least their number. -/
def readChars : Nat → Bytes → List Char
  | 0, _ => []
  | _, [] => []
  | size + 1, first :: rest =>
    let (c, count) := readChar first rest
    c :: readChars size (rest.drop count)

/-- The text of any bytes: well-formed bytes are read as they are, and in others every maximal part
of a character that breaks off becomes one replacement character. -/
def decodeReplacing (bytes : Bytes) : String :=
  (decode? bytes).getD (String.ofList (readChars bytes.length bytes))

/-- A text's bytes are read back. -/
theorem decode?_encode (text : String) : decode? (encode text) = some text := by
  have bytes : (⟨(encode text).toArray⟩ : ByteArray) = text.toByteArray := by simp [encode]
  rw [decode?, bytes]
  simp [String.fromUTF8?, String.fromUTF8, text.isValidUTF8]

/-- The bytes of a text are those it was read from. -/
theorem encode_of_decode? {bytes : Bytes} {text : String} (read : decode? bytes = some text) :
    encode text = bytes := by
  simp only [decode?, String.fromUTF8?] at read
  split at read
  · cases read
    simp [encode, String.fromUTF8]
  · cases read

theorem decodeReplacing_encode (text : String) : decodeReplacing (encode text) = text := by
  simp [decodeReplacing, decode?_encode]

/-- Different texts have different bytes. -/
theorem encode_injective {s t : String} (h : encode s = encode t) : s = t := by
  have := decode?_encode s
  rw [h, decode?_encode t] at this
  exact (Option.some.inj this).symm

end DhtRecords.Utf8
