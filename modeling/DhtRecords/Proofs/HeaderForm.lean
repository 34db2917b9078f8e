/-
Headers are read back from their forms.

Integers, truth values and texts are written in one of the grammar's forms,
and a header's form is a map of five of them. A header that has a form is
therefore what is read from it (`decode?_of_encode?`), and it has one just if
its numbers and texts are in range (`isSome_encode?`).
-/

import DhtRecords.Proofs.Grammar
import DhtRecords.Record.Header

namespace DhtRecords

namespace Msgpack

/-! ### What is written is a form -/

/-- A negative number is written as its complement. -/
theorem HeadForm.below {code : UInt8} {width : Nat} {value : Int}
    (known : (code, width) ∈ [(0xd0, 1), (0xd1, 2), (0xd2, 4), (0xd3, 8)]) (small : value < 0)
    (fits : -(Nat.pow 2 (8 * width - 1) : Nat) ≤ value) :
    HeadForm (.done (.int value))
      (code :: Bytes.writeBig width (value + (Nat.pow 2 (8 * width) : Nat)).toNat) := by
  have same : complement width value = (value + (Nat.pow 2 (8 * width) : Nat)).toNat := by
    rw [complement, if_neg (by omega)]
  rw [← same]
  exact .integer known ⟨fits, by omega⟩

theorem headForm_of_writeInt? {value : Int} {bytes : Bytes}
    (written : writeInt? value = some bytes) : HeadForm (.done (.int value)) bytes := by
  unfold writeInt? at written
  by_cases positive : 0 ≤ value
  · obtain ⟨size, rfl⟩ := Int.eq_ofNat_of_zero_le positive
    simp only [Int.toNat_natCast, positive, if_true] at written
    repeat' split at written
    · next small =>
      cases written
      exact .small small
    · cases written
      exact .natural (by decide) (by simpa using ‹_›)
    · cases written
      exact .natural (by decide) (by simpa using ‹_›)
    · cases written
      exact .natural (by decide) (by simpa using ‹_›)
    · cases written
      exact .natural (by decide) (by simpa using ‹_›)
    · cases written
  · simp only [positive, if_false] at written
    repeat' split at written
    · next small =>
      cases written
      obtain ⟨size, same⟩ := Int.eq_ofNat_of_zero_le (a := -value) (by omega)
      obtain rfl : value = -size := by omega
      have code : (-(size : Int) + 0x100).toNat = 0x100 - size := by omega
      rw [code]
      exact .negative (by omega) (by omega)
    · cases written
      exact .below (by decide) (by omega) (by simpa using ‹_›)
    · cases written
      exact .below (by decide) (by omega) (by simpa using ‹_›)
    · cases written
      exact .below (by decide) (by omega) (by simpa using ‹_›)
    · cases written
      exact .below (by decide) (by omega) (by simpa using ‹_›)
    · cases written

theorem isSome_writeInt? {value : Int} : (writeInt? value).isSome ↔
    -0x8000000000000000 ≤ value ∧ value < 0x10000000000000000 := by
  unfold writeInt?
  dsimp only
  constructor
  · intro written
    repeat' split at written
    all_goals first | omega | cases written
  · intro fits
    repeat' split
    all_goals first | rfl | omega

theorem form_of_writeText? {room : Nat} {content : String} {bytes : Bytes}
    (written : writeText? content = some bytes) : Form room (.text content) bytes := by
  unfold writeText? at written
  simp only at written
  repeat' split at written
  · next short =>
    cases written
    exact .text (.shortText short)
  · cases written
    exact .text (.text (by decide) (by simpa using ‹_›))
  · cases written
    exact .text (.text (by decide) (by simpa using ‹_›))
  · cases written
    exact .text (.text (by decide) (by simpa using ‹_›))
  · cases written

theorem isSome_writeText? {content : String} :
    (writeText? content).isSome ↔ (Utf8.encode content).length < 0x100000000 := by
  unfold writeText?
  dsimp only
  constructor
  · intro written
    repeat' split at written
    all_goals first | omega | cases written
  · intro fits
    repeat' split
    all_goals rfl

end Msgpack

namespace Whole

/-- The value that stands for a whole number. -/
def toValue : Whole → Msgpack.Value
  | int value => .int value
  | bool value => .bool value

/-- Whether a whole number has a form. -/
def InRange : Whole → Prop
  | int value => -0x8000000000000000 ≤ value ∧ value < 0x10000000000000000
  | bool _ => True

end Whole

namespace Header

open Msgpack

theorem whole?_toValue (whole : Whole) : whole? whole.toValue = some whole := by
  cases whole <;> rfl

theorem form_of_writeWhole? {room : Nat} {whole : Whole} {bytes : Bytes}
    (written : writeWhole? whole = some bytes) : Form room whole.toValue bytes := by
  cases whole with
  | int value => exact .done (headForm_of_writeInt? written)
  | bool value =>
    cases written
    exact .done (.bool value)

theorem isSome_writeWhole? {whole : Whole} : (writeWhole? whole).isSome ↔ whole.InRange := by
  cases whole with
  | int value => exact isSome_writeInt?
  | bool value => exact ⟨fun _ => trivial, fun _ => rfl⟩

/-- The entries of a header's form. -/
def fields (header : Header) : List (Value × Value) := [
  (.text "v", header.version.toValue), (.text "op", .text header.operation),
  (.text "n", header.chunks.toValue), (.text "size", header.size.toValue),
  (.text "digest", .text header.digest)]

theorem ofEntries?_fields (header : Header) (natural : 0 ≤ header.chunks.value) :
    ofEntries? header.fields = some header := by
  have counted : ¬ header.chunks.value < 0 := by omega
  simp [ofEntries?, fields, last?, whole?_toValue, text?, counted]

/-- A header's form is a map of its fields. -/
theorem form_of_encode? {header : Header} {bytes : Bytes} (written : header.encode? = some bytes) :
    Form maxDepth (.map header.fields) bytes := by
  simp only [encode?, Option.bind_eq_bind, Option.bind_eq_some_iff, Option.pure_def,
    Option.some_inj] at written
  obtain ⟨_, ⟨versionKey, writtenVersionKey, version, writtenVersion, rfl⟩,
    _, ⟨operationKey, writtenOperationKey, operation, writtenOperation, rfl⟩,
    _, ⟨chunksKey, writtenChunksKey, chunks, writtenChunks, rfl⟩,
    _, ⟨sizeKey, writtenSizeKey, size, writtenSize, rfl⟩,
    _, ⟨digestKey, writtenDigestKey, digest, writtenDigest, rfl⟩, rfl⟩ := written
  have entries : EntryForms 1023 header.fields _ :=
    .cons rfl (form_of_writeText? writtenVersionKey) (form_of_writeWhole? writtenVersion) <|
    .cons rfl (form_of_writeText? writtenOperationKey) (form_of_writeText? writtenOperation) <|
    .cons rfl (form_of_writeText? writtenChunksKey) (form_of_writeWhole? writtenChunks) <|
    .cons rfl (form_of_writeText? writtenSizeKey) (form_of_writeWhole? writtenSize) <|
    .cons rfl (form_of_writeText? writtenDigestKey) (form_of_writeText? writtenDigest) .nil
  have head : HeadForm (.map header.fields.length) [0x85] := .shortMap (show 5 < 0x10 by decide)
  have form : Form maxDepth (.map header.fields) _ := .map head entries
  simpa only [List.append_assoc, List.append_nil, List.cons_append, List.nil_append] using form

/-- A header that has a form is what is read from it. -/
theorem decode?_of_encode? {header : Header} {bytes : Bytes} (natural : 0 ≤ header.chunks.value)
    (written : header.encode? = some bytes) : decode? bytes = some header := by
  have read : read? bytes = some (.map header.fields) :=
    read?_eq_some_iff.mpr (form_of_encode? written)
  rw [decode?, read]
  exact ofEntries?_fields header natural

/-! ### The headers that have a form -/

/-- Whether every field of a header has a form. -/
structure InRange (header : Header) : Prop where
  version : header.version.InRange
  operation : (Utf8.encode header.operation).length < 0x100000000
  chunks : header.chunks.InRange
  size : header.size.InRange
  digest : (Utf8.encode header.digest).length < 0x100000000

theorem isSome_encode? {header : Header} : header.encode?.isSome ↔ header.InRange := by
  have key {name : String} (short : (Utf8.encode name).length < 0x100000000) :
      ∃ bytes, writeText? name = some bytes :=
    Option.isSome_iff_exists.mp (isSome_writeText?.mpr short)
  obtain ⟨versionKey, writtenVersionKey⟩ := @key "v" (by decide)
  obtain ⟨operationKey, writtenOperationKey⟩ := @key "op" (by decide)
  obtain ⟨chunksKey, writtenChunksKey⟩ := @key "n" (by decide)
  obtain ⟨sizeKey, writtenSizeKey⟩ := @key "size" (by decide)
  obtain ⟨digestKey, writtenDigestKey⟩ := @key "digest" (by decide)
  constructor
  · intro written
    obtain ⟨bytes, written⟩ := Option.isSome_iff_exists.mp written
    simp only [encode?, Option.bind_eq_bind, Option.bind_eq_some_iff, Option.pure_def,
      Option.some_inj] at written
    obtain ⟨_, ⟨_, _, version, writtenVersion, rfl⟩, _, ⟨_, _, operation, writtenOperation, rfl⟩,
      _, ⟨_, _, chunks, writtenChunks, rfl⟩, _, ⟨_, _, size, writtenSize, rfl⟩,
      _, ⟨_, _, digest, writtenDigest, rfl⟩, rfl⟩ := written
    exact {
      version := isSome_writeWhole?.mp (Option.isSome_of_eq_some writtenVersion)
      operation := isSome_writeText?.mp (Option.isSome_of_eq_some writtenOperation)
      chunks := isSome_writeWhole?.mp (Option.isSome_of_eq_some writtenChunks)
      size := isSome_writeWhole?.mp (Option.isSome_of_eq_some writtenSize)
      digest := isSome_writeText?.mp (Option.isSome_of_eq_some writtenDigest) }
  · intro inRange
    obtain ⟨version, writtenVersion⟩ :=
      Option.isSome_iff_exists.mp (isSome_writeWhole?.mpr inRange.version)
    obtain ⟨operation, writtenOperation⟩ :=
      Option.isSome_iff_exists.mp (isSome_writeText?.mpr inRange.operation)
    obtain ⟨chunks, writtenChunks⟩ :=
      Option.isSome_iff_exists.mp (isSome_writeWhole?.mpr inRange.chunks)
    obtain ⟨size, writtenSize⟩ := Option.isSome_iff_exists.mp (isSome_writeWhole?.mpr inRange.size)
    obtain ⟨digest, writtenDigest⟩ :=
      Option.isSome_iff_exists.mp (isSome_writeText?.mpr inRange.digest)
    simp [encode?, *]

/-- A header in range has a form, and if its chunk count is not negative, it is read back from it. -/
theorem decode?_encode? {header : Header} (inRange : header.InRange)
    (natural : 0 ≤ header.chunks.value) :
    ∃ bytes, header.encode? = some bytes ∧ decode? bytes = some header := by
  obtain ⟨bytes, written⟩ := Option.isSome_iff_exists.mp (isSome_encode?.mpr inRange)
  exact ⟨bytes, written, decode?_of_encode? natural written⟩

/-- The extreme numbers, a truth value for the count, and texts of several bytes a character. -/
theorem decode?_encode?_extreme :
    let header : Header := {
      operation := "naïve 木 𝄞"
      chunks := .bool true
      size := .int 0xffffffffffffffff
      digest := "ß"
      version := .int (-0x8000000000000000) }
    header.InRange ∧ 0 ≤ header.chunks.value ∧
      ∃ bytes, header.encode? = some bytes ∧ decode? bytes = some header := by
  intro header
  have inRange : header.InRange := {
    version := ⟨by decide, by decide⟩
    operation := by decide
    chunks := trivial
    size := ⟨by decide, by decide⟩
    digest := by decide }
  have natural : 0 ≤ header.chunks.value := by decide
  exact ⟨inRange, natural, decode?_encode? inRange natural⟩

end Header

end DhtRecords
