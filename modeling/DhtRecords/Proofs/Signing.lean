/-
What a signature covers.

The bytes under a signature name salt, number and value one after the other:
texts of any bytes stand behind their length, and lengths and numbers end at the
first byte that belongs to no numeral. So each part can be read off whatever
follows it (`numeral_append_inj`, `counted_append_inj`), and different items have
different buffers (`signingBuffer_eq_iff`). What is a signature of two items is
one of two messages (`signed_apart`).
-/

import DhtRecords.Item
import DhtRecords.Proofs.Names
import Mathlib.Data.List.Basic
import Mathlib.Tactic.Common

namespace DhtRecords.Item

/-! ### Numerals -/

theorem ascii_append (first second : String) :
    ascii (first ++ second) = ascii first ++ ascii second := by
  simp [ascii]

/-- The bytes of numerals: the minus sign and the digits. -/
def IsNumeralByte (byte : UInt8) : Prop := byte = 45 ∨ 48 ≤ byte.toNat ∧ byte.toNat ≤ 57

theorem toNat_of_sign_or_digit {c : Char} (numeral : c = '-' ∨ c.isDigit = true) :
    c.toNat = 45 ∨ 48 ≤ c.toNat ∧ c.toNat ≤ 57 := by
  rcases numeral with rfl | digit
  · exact .inl rfl
  · exact .inr (toNat_of_isDigit digit)

theorem isNumeralByte_of_mem {number : Int} {byte : UInt8} (member : byte ∈ ascii (toString number)) :
    IsNumeralByte byte := by
  obtain ⟨c, among, rfl⟩ := List.mem_map.mp member
  rcases toNat_of_sign_or_digit (sign_or_digit among) with sign | digit
  · exact .inl (by rw [sign]; rfl)
  · refine .inr ?_
    rw [UInt8.toNat_ofNat', Nat.mod_eq_of_lt (by omega)]
    exact digit

/-- Integers are told apart by their numerals. -/
theorem toString_injective {first second : Int} (same : toString first = toString second) :
    first = second := by
  rw [Int.toString_eq_repr, Int.toString_eq_repr, Int.repr_eq_if, Int.repr_eq_if] at same
  have unsigned (n m : Nat) : n.repr ≠ "-" ++ m.repr := by
    intro same
    have sign : '-' ∈ n.repr.toList := by
      rw [same, String.toList_append]
      exact List.mem_append_left _ (List.mem_singleton_self _)
    rw [Nat.toList_repr] at sign
    cases Nat.isDigit_of_mem_toDigits (by decide) (by decide) sign
  split at same <;> split at same
  · have sizes := digits_injective same
    omega
  · exact absurd same (unsigned _ _)
  · exact absurd same.symm (unsigned _ _)
  · have sizes := digits_injective ((String.append_right_inj _).mp same)
    omega

/-- Integers are told apart by the bytes of their numerals. -/
theorem ascii_toString_inj {first second : Int} (same : ascii (toString first) = ascii (toString second)) :
    first = second := by
  have codes (number : Int) : (ascii (toString number)).map (fun byte => Char.ofNat byte.toNat)
      = (toString number).toList := by
    rw [ascii, List.map_map]
    refine (List.map_congr_left fun c member => ?_).trans (List.map_id _)
    have bound := toNat_of_sign_or_digit (sign_or_digit member)
    rw [Function.comp_apply, UInt8.toNat_ofNat', Nat.mod_eq_of_lt (by omega), Char.ofNat_toNat, id]
  refine toString_injective (String.toList_injective ?_)
  rw [← codes first, ← codes second, same]

/-- A numeral ends at the first byte that belongs to none. -/
theorem numeral_append_inj {first second : Int} {mark : UInt8} (outside : ¬ IsNumeralByte mark)
    {rest rest' : Bytes} :
    ascii (toString first) ++ mark :: rest = ascii (toString second) ++ mark :: rest' ↔
      first = second ∧ rest = rest' := by
  have absent (number : Int) : mark ∉ ascii (toString number) :=
    fun member => outside (isNumeralByte_of_mem member)
  constructor
  · intro same
    obtain ⟨numerals, rests⟩ := append_mark_inj (absent first) (absent second) same
    exact ⟨ascii_toString_inj numerals, rests⟩
  · rintro ⟨rfl, rfl⟩
    rfl

/-! ### Buffers -/

/-- A byte string that stands after its length can be read off whatever follows it. -/
theorem counted_append_inj {first second rest rest' : Bytes} :
    counted first ++ rest = counted second ++ rest' ↔ first = second ∧ rest = rest' := by
  have unfolded (bytes rest : Bytes) : counted bytes ++ rest
      = ascii (toString (bytes.length : Int)) ++ 58 :: (bytes ++ rest) := by
    rw [counted, ascii_append, List.append_assoc, List.append_assoc]
    rfl
  rw [unfolded, unfolded, numeral_append_inj (by unfold IsNumeralByte; decide)]
  constructor
  · rintro ⟨lengths, bytes⟩
    exact List.append_inj bytes (Int.ofNat_inj.mp lengths)
  · rintro ⟨rfl, rfl⟩
    exact ⟨rfl, rfl⟩

/-- What the buffer of an item has after its salt. -/
def numbered (value : Bytes) (sequence : Int) : Bytes :=
  ascii "3:seqi" ++ (ascii (toString sequence) ++ 101 :: (ascii "1:v" ++ counted value))

theorem numbered_inj {value value' : Bytes} {sequence sequence' : Int} :
    numbered value sequence = numbered value' sequence' ↔ value = value' ∧ sequence = sequence' := by
  rw [numbered, numbered, List.append_cancel_left_eq,
    numeral_append_inj (by unfold IsNumeralByte; decide), List.append_cancel_left_eq]
  have values : counted value = counted value' ↔ value = value' := by
    have alone : counted value ++ [] = counted value' ++ [] ↔ value = value' ∧ [] = [] := counted_append_inj
    simpa using alone
  rw [values, and_comm]

/-- A buffer is the salt behind a mark and its length, unless it is empty, and the rest of the item. -/
theorem signingBuffer_eq (value : Bytes) (salt : String) (sequence : Int) :
    signingBuffer value salt sequence =
      if Utf8.encode salt = [] then numbered value sequence
      else ascii "4:salt" ++ (counted (Utf8.encode salt) ++ numbered value sequence) := by
  have tail : ascii ("3:seqi" ++ toString sequence ++ "e1:v") ++ counted value
      = numbered value sequence := by
    rw [numbered, ascii_append, ascii_append, List.append_assoc, List.append_assoc]
    rfl
  rw [signingBuffer, List.append_assoc, tail]
  simp only [List.isEmpty_iff]
  split
  · rfl
  · rw [List.append_assoc]

/-- A buffer without a salt begins otherwise than one with a salt. -/
theorem numbered_ne_salted (value : Bytes) (sequence : Int) (rest : Bytes) :
    numbered value sequence ≠ ascii "4:salt" ++ rest := by
  intro same
  cases List.head_eq_of_cons_eq same

/-- Different items have different buffers. -/
theorem signingBuffer_eq_iff {value value' : Bytes} {salt salt' : String} {sequence sequence' : Int} :
    signingBuffer value salt sequence = signingBuffer value' salt' sequence' ↔
      (value, salt, sequence) = (value', salt', sequence') := by
  simp only [Prod.mk.injEq]
  constructor
  · intro same
    rw [signingBuffer_eq, signingBuffer_eq] at same
    split at same <;> split at same
    · next empty empty' =>
      obtain ⟨values, sequences⟩ := numbered_inj.mp same
      exact ⟨values, Utf8.encode_injective (empty.trans empty'.symm), sequences⟩
    · exact absurd same (numbered_ne_salted _ _ _)
    · exact absurd same.symm (numbered_ne_salted _ _ _)
    · obtain ⟨salts, rests⟩ := counted_append_inj.mp (List.append_cancel_left same)
      obtain ⟨values, sequences⟩ := numbered_inj.mp rests
      exact ⟨values, Utf8.encode_injective salts, sequences⟩
  · rintro ⟨rfl, rfl, rfl⟩
    rfl

/-! ### Signatures -/

theorem writeBuffer_eq_ok {value covered : Bytes} {salt : String} {sequence : Int}
    (written : writeBuffer value salt sequence = .ok covered) :
    covered = signingBuffer value salt sequence := by
  unfold writeBuffer at written
  split at written
  · cases written
  · exact (Except.ok.inj written).symm

/-- A signature is made over the buffer of its item. -/
theorem sign_eq_ok {value publicKey privateKey signature : Bytes} {salt : String} {sequence : Int}
    (signed : sign value salt sequence publicKey privateKey = .ok signature) :
    ∃ covered, writeBuffer value salt sequence = .ok covered ∧
      signature = Ed25519.sign privateKey publicKey covered := by
  unfold sign at signed
  split at signed
  · cases signed
  · cases written : writeBuffer value salt sequence with
    | error error =>
      rw [written] at signed
      cases signed
    | ok covered =>
      rw [written] at signed
      exact ⟨covered, rfl, (Except.ok.inj signed).symm⟩

/-- A signature that passes for an item passes for its buffer. -/
theorem verify_eq_true {value publicKey signature : Bytes} {salt : String} {sequence : Int}
    (passes : verify value salt sequence publicKey signature = true) :
    Ed25519.verify publicKey (signingBuffer value salt sequence) signature = true := by
  unfold verify at passes
  split at passes
  · cases passes
  · next covered written => rwa [writeBuffer_eq_ok written] at passes

/-- Different items have different buffers. So what a signature was made over is the buffer of one item
only, and a signature that passes for two items is one of two different messages. -/
theorem signed_apart (value value' : Bytes) (salt salt' : String) (sequence sequence' : Int) :
    (signingBuffer value salt sequence = signingBuffer value' salt' sequence' ↔
      (value, salt, sequence) = (value', salt', sequence')) ∧
    (∀ publicKey privateKey signature,
      sign value salt sequence publicKey privateKey = .ok signature →
      ∃ covered, writeBuffer value salt sequence = .ok covered ∧
        signature = Ed25519.sign privateKey publicKey covered ∧
        (writeBuffer value' salt' sequence' = .ok covered →
          (value, salt, sequence) = (value', salt', sequence'))) ∧
    ∀ publicKey signature, verify value salt sequence publicKey signature = true →
      verify value' salt' sequence' publicKey signature = true →
      (value, salt, sequence) ≠ (value', salt', sequence') →
      ∃ message message', message ≠ message' ∧ Ed25519.verify publicKey message signature = true ∧
        Ed25519.verify publicKey message' signature = true := by
  refine ⟨signingBuffer_eq_iff, fun publicKey privateKey signature signed => ?_,
    fun publicKey signature passes passes' differs => ?_⟩
  · obtain ⟨covered, written, made⟩ := sign_eq_ok signed
    refine ⟨covered, written, made, fun written' => signingBuffer_eq_iff.mp ?_⟩
    rw [← writeBuffer_eq_ok written, ← writeBuffer_eq_ok written']
  · exact ⟨_, _, mt signingBuffer_eq_iff.mp differs, verify_eq_true passes, verify_eq_true passes'⟩

end DhtRecords.Item
