/-
Byte strings and the fixed-width numbers written in them.

A byte string is a list, so that codecs recurse on it. `writeBig` and
`writeLittle` lay a number out in a given count of bytes, most and least
significant byte first; `readBig` and `readLittle` read it back.
-/

namespace DhtRecords

/-- A byte string. -/
abbrev Bytes := List UInt8

namespace Bytes

/-- The number whose base-256 digits are the bytes, most significant first. -/
def readBig (bytes : Bytes) : Nat :=
  bytes.foldl (fun value byte => value * 256 + byte.toNat) 0

/-- The number whose base-256 digits are the bytes, least significant first. -/
def readLittle : Bytes → Nat
  | [] => 0
  | byte :: rest => byte.toNat + 256 * readLittle rest

/-- The lowest `width` base-256 digits of a number, most significant first. -/
def writeBig : Nat → Nat → Bytes
  | 0, _ => []
  | width + 1, value => writeBig width (value / 256) ++ [UInt8.ofNat (value % 256)]

/-- The lowest `width` base-256 digits of a number, least significant first. -/
def writeLittle : Nat → Nat → Bytes
  | 0, _ => []
  | width + 1, value => UInt8.ofNat (value % 256) :: writeLittle width (value / 256)

@[simp] theorem length_writeBig (width value : Nat) : (writeBig width value).length = width := by
  induction width generalizing value with
  | zero => rfl
  | succ width ih => simp [writeBig, ih]

@[simp] theorem length_writeLittle (width value : Nat) :
    (writeLittle width value).length = width := by
  induction width generalizing value with
  | zero => rfl
  | succ width ih => simp [writeLittle, ih]

theorem readBig_append_singleton (bytes : Bytes) (byte : UInt8) :
    readBig (bytes ++ [byte]) = readBig bytes * 256 + byte.toNat := by
  simp [readBig]

/-- A number that fits is read back as it was written. -/
theorem readBig_writeBig (width value : Nat) (fits : value < Nat.pow 256 width) :
    readBig (writeBig width value) = value := by
  induction width generalizing value with
  | zero => simp at fits; simp [writeBig, readBig, fits]
  | succ width ih =>
    have below : value / 256 < Nat.pow 256 width := by
      rw [Nat.div_lt_iff_lt_mul (by decide)]
      simpa [Nat.pow_succ] using fits
    rw [writeBig, readBig_append_singleton, ih _ below]
    have digit : (UInt8.ofNat (value % 256)).toNat = value % 256 := by
      simp
    omega

end Bytes

end DhtRecords
