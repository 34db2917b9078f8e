/-
Spellings of keys in hexadecimal.

Two hexadecimal texts spell the same bytes if they differ in the case of digits and in
blanks around pairs of them (`Hex.Respells`). Reading is indifferent to that
(`Hex.decode_of_respells`), so a pair of keys is read back from however it is
written.
-/

import DhtRecords.KeyPair.Basic

namespace DhtRecords

namespace Hex

open Text (isAsciiBlank)

/-- Whether a text is another one with digits of either case, and with blanks around pairs of digits. -/
inductive Respells : List Char → List Char → Prop
  | nil : Respells [] []
  | blank {c : Char} {text original : List Char} :
      isAsciiBlank c = true → Respells text original → Respells (c :: text) original
  | pair {high low : Char} {text original : List Char} :
      Respells text original →
      Respells (high :: low :: text) (high.toLower :: low.toLower :: original)

theorem digit_lt : ∀ value, value < 16 → (digit value).toNat < 128 := by decide

theorem digit?_of_toLower_ofNat : ∀ n, n < 128 → ∀ value, value < 16 →
    (Char.ofNat n).toLower = digit value →
    digit? (Char.ofNat n) = some value ∧ isAsciiBlank (Char.ofNat n) = false := by
  decide

/-- A digit of either case has the value of the lower-case one. -/
theorem digit?_of_toLower {c : Char} {value : Nat} (small : value < 16)
    (same : c.toLower = digit value) :
    c.toNat < 128 ∧ digit? c = some value ∧ isAsciiBlank c = false := by
  have sevenBit : c.toNat < 128 := by
    by_cases upper : c.val ≥ 'A'.val ∧ c.val ≤ 'Z'.val
    · have last : c.toNat ≤ 90 := UInt32.le_iff_toNat_le.mp upper.2
      omega
    · have kept : c.toLower = c := dif_neg upper
      rw [← kept, same]
      exact digit_lt value small
  have found := digit?_of_toLower_ofNat c.toNat sevenBit value small
  rw [Char.ofNat_toNat] at found
  exact ⟨sevenBit, found same⟩

/-- A blank in front of a text is skipped. -/
theorem decodeFrom_blank {c : Char} (blank : isAsciiBlank c = true) (start : Nat) (text : List Char) :
    decodeFrom start (c :: text) = decodeFrom (start + 1) text := by
  cases text with
  | nil => simp [decodeFrom, blank]
  | cons d rest => simp [decodeFrom, blank]

theorem decodeFrom_of_respells {text : List Char} {bytes : Bytes}
    (respells : Respells text (bytes.flatMap encodeByte)) (start : Nat) :
    decodeFrom start text = .ok bytes ∧ ∀ c ∈ text, c.toNat < 128 := by
  generalize spelled : bytes.flatMap encodeByte = original at respells
  induction respells generalizing bytes start with
  | nil =>
    cases bytes with
    | nil => exact ⟨rfl, nofun⟩
    | cons byte rest => cases spelled
  | @blank c text original blank _ ih =>
    obtain ⟨read, sevenBit⟩ := ih (start + 1) spelled
    refine ⟨(decodeFrom_blank blank start text).trans read, List.forall_mem_cons.mpr ⟨?_, sevenBit⟩⟩
    simp only [isAsciiBlank, Bool.or_eq_true, Bool.and_eq_true, decide_eq_true_eq, beq_iff_eq] at blank
    rcases blank with control | rfl
    · omega
    · decide
  | @pair high low text original _ ih =>
    cases bytes with
    | nil => cases spelled
    | cons byte rest =>
      rw [List.flatMap_cons, encodeByte, List.cons_append, List.cons_append, List.nil_append,
        List.cons.injEq, List.cons.injEq] at spelled
      obtain ⟨first, second, spelled⟩ := spelled
      have bound := byte.toNat_lt
      obtain ⟨highBound, highDigit, highInk⟩ := digit?_of_toLower (by omega) first.symm
      obtain ⟨lowBound, lowDigit, -⟩ := digit?_of_toLower (Nat.mod_lt _ (by decide)) second.symm
      obtain ⟨read, sevenBit⟩ := ih (start + 2) spelled
      have value : UInt8.ofNat (16 * (byte.toNat / 16) + byte.toNat % 16) = byte := by
        rw [Nat.div_add_mod]
        simp
      refine ⟨?_, List.forall_mem_cons.mpr ⟨highBound, List.forall_mem_cons.mpr ⟨lowBound, sevenBit⟩⟩⟩
      simp [decodeFrom, highInk, highDigit, lowDigit, read, value, Except.map]

/-- However bytes are spelled, they are read back. -/
theorem decode_of_respells {text : String} {bytes : Bytes}
    (respells : Respells text.toList (encode bytes).toList) : decode text = .ok bytes := by
  rw [encode, String.toList_ofList] at respells
  obtain ⟨read, sevenBit⟩ := decodeFrom_of_respells respells 0
  have none : text.toList.findIdx? (fun c => 128 ≤ c.toNat) = none :=
    List.findIdx?_eq_none_iff.mpr fun c member =>
      decide_eq_false (Nat.not_le.mpr (sevenBit c member))
  rw [decode, none, read]

/-- Digits that are changed by no more than their case spell the same bytes. -/
theorem respells_map {change : Char → Char}
    (lower : ∀ value, value < 16 → (change (digit value)).toLower = digit value) (bytes : Bytes) :
    Respells ((bytes.flatMap encodeByte).map change) (bytes.flatMap encodeByte) := by
  induction bytes with
  | nil => exact .nil
  | cons byte rest ih =>
    have bound := byte.toNat_lt
    have high := lower (byte.toNat / 16) (by omega)
    have low := lower (byte.toNat % 16) (Nat.mod_lt _ (by decide))
    have pair := @Respells.pair (change (digit (byte.toNat / 16)))
      (change (digit (byte.toNat % 16))) _ _ ih
    rwa [high, low] at pair

/-- Bytes are read back as they are written. -/
theorem decode_encode (bytes : Bytes) : decode (encode bytes) = .ok bytes := by
  refine decode_of_respells ?_
  have same : Respells ((bytes.flatMap encodeByte).map id) (bytes.flatMap encodeByte) :=
    respells_map (by decide) bytes
  rw [List.map_id] at same
  rwa [encode, String.toList_ofList]

end Hex

namespace KeyPair

theorem readKey_encode (key : Bytes) : readKey (Hex.encode key) = .ok key :=
  congrArg (Except.mapError KeyError.notHex) (Hex.decode_encode key)

/-- A pair is read back from its keys in hexadecimal. -/
theorem ofHex_encode (pair : KeyPair) :
    ofHex (Hex.encode pair.publicKey) (Hex.encode pair.seed) = .ok pair := by
  have again : ofPrivate pair.seed = .ok pair := by
    rw [ofPrivate, dif_pos pair.seed_length]
    exact congrArg Except.ok (eq_of_seed_eq rfl)
  unfold ofHex
  rw [readKey_encode, readKey_encode]
  simp only [bind, Except.bind, again, if_true]
  rfl

end KeyPair

end DhtRecords
