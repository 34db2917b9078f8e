/-
Bytes in hexadecimal.

`encode` writes two lower-case digits a byte. `decode` is lenient: the case
of a digit is free and blanks may stand between bytes, never inside one. It
refuses any other text with the index of the character that is wrong.
-/

import DhtRecords.Bytes
import DhtRecords.Text.Blank

namespace DhtRecords.Hex

open Text (isAsciiBlank)

/-- The lower-case digit of a value below sixteen. -/
def digit (value : Nat) : Char := Char.ofNat (if value < 10 then 48 + value else 87 + value)

/-- The value of a digit of either case. -/
def digit? (c : Char) : Option Nat :=
  if '0' ≤ c ∧ c ≤ '9' then some (c.toNat - 48)
  else if 'a' ≤ c ∧ c ≤ 'f' then some (c.toNat - 87)
  else if 'A' ≤ c ∧ c ≤ 'F' then some (c.toNat - 55)
  else none

/-- The two digits of a byte. -/
def encodeByte (byte : UInt8) : List Char := [digit (byte.toNat / 16), digit (byte.toNat % 16)]

/-- The digits of a byte string. -/
def encode (bytes : Bytes) : String := String.ofList (bytes.flatMap encodeByte)

/-- Reads seven-bit text from index `start` on. -/
def decodeFrom (start : Nat) : List Char → Except Nat Bytes
  | [] => .ok []
  | [c] =>
    if isAsciiBlank c then .ok []
    else match digit? c with
      | none => .error start
      | some _ => .error (start + 1)
  | c :: d :: rest =>
    if isAsciiBlank c then decodeFrom (start + 1) (d :: rest)
    else match digit? c, digit? d with
      | none, _ => .error start
      | some _, none => .error (start + 1)
      | some high, some low =>
        (decodeFrom (start + 2) rest).map (UInt8.ofNat (16 * high + low) :: ·)

/-- Reads a byte string, or says which character is wrong: the first that is beyond the seven-bit
range, if there is one. -/
def decode (text : String) : Except Nat Bytes :=
  match text.toList.findIdx? (fun c => 128 ≤ c.toNat) with
  | some index => .error index
  | none => decodeFrom 0 text.toList

theorem digit?_digit : ∀ value, value < 16 → digit? (digit value) = some value := by decide

/-- No digit is a blank. -/
theorem isAsciiBlank_digit : ∀ value, value < 16 → isAsciiBlank (digit value) = false := by decide

/-- A written byte is read back. -/
theorem decodeFrom_encodeByte_append (start : Nat) (byte : UInt8) (rest : List Char) :
    decodeFrom start (encodeByte byte ++ rest) = (decodeFrom (start + 2) rest).map (byte :: ·) := by
  have high : byte.toNat / 16 < 16 := by have := byte.toNat_lt; omega
  have low : byte.toNat % 16 < 16 := Nat.mod_lt _ (by decide)
  have value : UInt8.ofNat (16 * (byte.toNat / 16) + byte.toNat % 16) = byte := by
    rw [Nat.div_add_mod]; simp
  simp [encodeByte, decodeFrom, isAsciiBlank_digit _ high, digit?_digit _ high, digit?_digit _ low,
    value]

theorem decodeFrom_flatMap_encodeByte (start : Nat) (bytes : Bytes) :
    decodeFrom start (bytes.flatMap encodeByte) = .ok bytes := by
  induction bytes generalizing start with
  | nil => rfl
  | cons byte rest ih =>
    rw [List.flatMap_cons, decodeFrom_encodeByte_append, ih]
    rfl

end DhtRecords.Hex
