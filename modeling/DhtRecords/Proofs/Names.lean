/-
Names of items, and what digests tell apart.

Items are correlated by the digests of their names, so two items can be taken
for each other only if the digests of different names are the same, or if keys
of different lengths make one name. `CollisionFree` rules the first out for the
byte strings that occur. Numbers are told apart by their digits, and what stands
behind the last colon of a salt is a number, so the salts of items differ with
the operation and with the slot (`names_apart`).
-/

import DhtRecords.Digest
import DhtRecords.Record.Salt
import Mathlib.Data.Set.Function
import Mathlib.Tactic.Common

namespace DhtRecords

/-! ### Digests -/

theorem Hex.encode_injective {a b : Bytes} (same : Hex.encode a = Hex.encode b) : a = b := by
  have digits : a.flatMap Hex.encodeByte = b.flatMap Hex.encodeByte := String.ofList_injective same
  have read := Hex.decodeFrom_flatMap_encodeByte 0 a
  rw [digits, Hex.decodeFrom_flatMap_encodeByte] at read
  cases read
  rfl

/-- Whether no two of these byte strings have the same digest. -/
def CollisionFree (inputs : Set Bytes) : Prop := Set.InjOn Sha256.hash inputs

theorem CollisionFree.eq_of_contentHash {inputs : Set Bytes} (free : CollisionFree inputs)
    {a b : Bytes} (left : a ∈ inputs) (right : b ∈ inputs) (same : contentHash a = contentHash b) :
    a = b :=
  free left right (Hex.encode_injective same)

theorem contentHash_ne_empty (content : Bytes) : contentHash content ≠ "" := by
  intro empty
  have none : Sha256.hash content = [] := Hex.encode_injective empty
  have length := Sha256.length_hash content
  rw [none] at length
  cases length

/-! ### Items -/

/-- Keys of one length tell the owner and the salt of a name. -/
theorem itemName_injective {owner owner' : Bytes} {salt salt' : String}
    (length : owner.length = owner'.length) (same : itemName owner salt = itemName owner' salt') :
    owner = owner' ∧ salt = salt' := by
  obtain ⟨owners, salts⟩ := List.append_inj same length
  exact ⟨owners, Utf8.encode_injective salts⟩

theorem CollisionFree.eq_of_infoHash {inputs : Set Bytes} (free : CollisionFree inputs)
    {owner owner' : Bytes} {salt salt' : String} (length : owner.length = owner'.length)
    (left : itemName owner salt ∈ inputs) (right : itemName owner' salt' ∈ inputs)
    (same : infoHash owner salt = infoHash owner' salt') : owner = owner' ∧ salt = salt' :=
  itemName_injective length (free.eq_of_contentHash left right same)

/-! ### Numerals -/

/-- Natural numbers are told apart by their digits. -/
theorem digits_injective {number number' : Nat} (same : number.repr = number'.repr) :
    number = number' := by
  have digits := congrArg String.toList same
  rw [Nat.toList_repr, Nat.toList_repr] at digits
  rw [← @Nat.ofDigitChars_ten_toDigits number, digits, Nat.ofDigitChars_ten_toDigits]

/-- The codes of digits. -/
theorem toNat_of_isDigit {c : Char} (digit : c.isDigit = true) : 48 ≤ c.toNat ∧ c.toNat ≤ 57 :=
  Char.isDigit_iff_toNat.mp digit

/-- An integer is written as the digits of its size, after a sign if it is negative. -/
theorem toList_toString (value : Int) : (toString value).toList =
    if value < 0 then '-' :: Nat.toDigits 10 value.natAbs else Nat.toDigits 10 value.natAbs := by
  rw [Int.toString_eq_repr, Int.repr_eq_if]
  split
  · next natural =>
    have size : value.toNat = value.natAbs := by omega
    rw [Nat.toList_repr, if_neg (by omega), size]
  · next negative =>
    have size : (-value).toNat = value.natAbs := by omega
    rw [String.toList_append, Nat.toList_repr, if_pos (by omega), size]
    rfl

/-- The characters of an integer are digits, but for its sign. -/
theorem sign_or_digit {number : Int} {c : Char} (member : c ∈ (toString number).toList) :
    c = '-' ∨ c.isDigit = true := by
  have digit {n : Nat} (among : c ∈ Nat.toDigits 10 n) : c.isDigit = true :=
    Nat.isDigit_of_mem_toDigits (by decide) (by decide) among
  rw [toList_toString] at member
  split at member
  · rcases List.mem_cons.mp member with sign | among
    · exact .inl sign
    · exact .inr (digit among)
  · exact .inr (digit member)

/-! ### Salts -/

/-- Lists that do not have a mark can be read off in front of it. -/
theorem append_mark_inj {α : Type*} {first second rest rest' : List α} {mark : α}
    (absent : mark ∉ first) (absent' : mark ∉ second)
    (same : first ++ mark :: rest = second ++ mark :: rest') : first = second ∧ rest = rest' := by
  rcases List.append_eq_append_iff.mp same with ⟨more, rfl, tails⟩ | ⟨more, rfl, tails⟩
  · cases more with
    | nil => exact ⟨(List.append_nil first).symm, (List.cons.inj tails).2⟩
    | cons element more =>
      rw [(List.cons.inj tails).1] at absent'
      exact absurd (List.mem_append_right _ (List.mem_cons_self ..)) absent'
  · cases more with
    | nil => exact ⟨List.append_nil second, ((List.cons.inj tails).2).symm⟩
    | cons element more =>
      rw [(List.cons.inj tails).1] at absent
      exact absurd (List.mem_append_right _ (List.mem_cons_self ..)) absent

/-- The salt of a record's item: its header is in slot 0, its chunks are in the slots after it. -/
def slotSalt (operation : String) : Nat → String
  | 0 => headerSalt operation
  | position + 1 => chunkSalt operation position

/-- A salt read backwards: the digits of the slot, and the operation behind a colon. -/
theorem reverse_slotSalt (operation : String) (slot : Nat) : (slotSalt operation slot).toList.reverse =
    slot.repr.toList.reverse ++ ':' :: operation.toList.reverse := by
  cases slot with
  | zero =>
    rw [slotSalt, headerSalt, String.toList_append, List.reverse_append]
    rfl
  | succ position =>
    have written : slotSalt operation (position + 1)
        = operation ++ ":" ++ (position + 1).repr := rfl
    rw [written, String.toList_append, String.toList_append, List.reverse_append, List.reverse_append]
    rfl

/-- A salt tells the operation and the slot, whatever the operation is: the last colon stands in front
of the slot. -/
theorem slotSalt_injective {operation operation' : String} {slot slot' : Nat}
    (same : slotSalt operation slot = slotSalt operation' slot') :
    operation = operation' ∧ slot = slot' := by
  have absent (number : Nat) : ':' ∉ number.repr.toList.reverse := by
    intro among
    rw [List.mem_reverse, Nat.toList_repr] at among
    cases Nat.isDigit_of_mem_toDigits (by decide) (by decide) among
  have backwards := congrArg (List.reverse ∘ String.toList) same
  rw [Function.comp_apply, Function.comp_apply, reverse_slotSalt, reverse_slotSalt] at backwards
  obtain ⟨digits, operations⟩ := append_mark_inj (absent slot) (absent slot') backwards
  exact ⟨String.toList_injective (List.reverse_inj.mp operations),
    digits_injective (String.toList_injective (List.reverse_inj.mp digits))⟩

theorem chunkSalt_injective {operation : String} {position position' : Nat}
    (same : chunkSalt operation position = chunkSalt operation position') : position = position' :=
  Nat.succ_injective
    (@slotSalt_injective operation operation (position + 1) (position' + 1) same).2

theorem headerSalt_ne_chunkSalt (operation : String) (position : Nat) :
    headerSalt operation ≠ chunkSalt operation position := fun same =>
  absurd (@slotSalt_injective operation operation 0 (position + 1) same).2 (Nat.zero_ne_add_one _)

/-- Items of different owners, operations or slots have different names, and are correlated under
different keys unless the digests of their two names are the same. -/
theorem names_apart (operation operation' : String) (slot slot' : Nat) :
    (slotSalt operation slot = slotSalt operation' slot' ↔ operation = operation' ∧ slot = slot') ∧
    ∀ owner owner' : Bytes, owner.length = 32 → owner'.length = 32 →
      (∀ salt salt', itemName owner salt = itemName owner' salt' ↔ owner = owner' ∧ salt = salt') ∧
      (CollisionFree {itemName owner (slotSalt operation slot),
          itemName owner' (slotSalt operation' slot')} →
        (infoHash owner (slotSalt operation slot) = infoHash owner' (slotSalt operation' slot') ↔
          owner = owner' ∧ operation = operation' ∧ slot = slot')) := by
  refine ⟨⟨slotSalt_injective, ?_⟩, fun owner owner' length length' => ?_⟩
  · rintro ⟨rfl, rfl⟩
    rfl
  · have lengths : owner.length = owner'.length := length.trans length'.symm
    refine ⟨fun salt salt' => ⟨itemName_injective lengths, ?_⟩, fun free => ⟨fun same => ?_, ?_⟩⟩
    · rintro ⟨rfl, rfl⟩
      rfl
    · obtain ⟨owners, salts⟩ := free.eq_of_infoHash lengths (.inl rfl) (.inr rfl) same
      exact ⟨owners, slotSalt_injective salts⟩
    · rintro ⟨rfl, rfl, rfl⟩
      rfl

/-- The header of "a:1" and the chunk of "a" in slot 10 both have a one and a nought after a colon, and
their keys differ. -/
theorem colons_apart : slotSalt "a:1" 0 = "a:1:0" ∧ slotSalt "a" 10 = "a:10" ∧
    infoHash (List.replicate 32 7) (slotSalt "a:1" 0) ≠
      infoHash (List.replicate 32 7) (slotSalt "a" 10) := by
  obtain ⟨-, -, keys⟩ := (names_apart "a:1" "a" 0 10).imp_right fun owners =>
    owners (List.replicate 32 7) (List.replicate 32 7) (by decide) (by decide)
  have free : CollisionFree {itemName (List.replicate 32 7) (slotSalt "a:1" 0),
      itemName (List.replicate 32 7) (slotSalt "a" 10)} :=
    Set.injOn_pair.mpr fun same => absurd same (by decide +kernel)
  exact ⟨by decide, by decide, fun same => absurd ((keys free).mp same).2.1 (by decide)⟩

end DhtRecords
