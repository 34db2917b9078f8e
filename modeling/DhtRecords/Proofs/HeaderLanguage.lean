/-
The language of headers.

A byte string is a header just if it is one form of a map, with nothing left
over, whose last value under `n` is a natural number or a truth value and
whose last value under `op` is a text. Which header it is depends on the last
values under five keys alone: size, digest and version fall back to their
defaults if there is no last value, or one of another type.

`read?_eq_some_iff` says what a form is; this module adds what the entries of
a map describe (`ofEntries?_eq_some_iff`).
-/

import DhtRecords.Proofs.HeaderForm

namespace DhtRecords.Header

open Msgpack

/-! ### Last values -/

/-- Whether a value is the last one under a text key. -/
def IsLast (entries : List (Value × Value)) (key : String) (value : Value) : Prop :=
  ∃ early late, entries = early ++ (.text key, value) :: late ∧ ∀ entry ∈ late, entry.1 ≠ .text key

theorem last?_eq_some_iff {entries : List (Value × Value)} {key : String} {value : Value} :
    last? entries key = some value ↔ IsLast entries key value := by
  obtain ⟨test, same, isKey⟩ : ∃ test : Value × Value → Bool,
      last? entries key = (entries.reverse.find? test).map Prod.snd ∧
        ∀ entry, test entry = true ↔ entry.1 = .text key := by
    refine ⟨_, rfl, fun entry => ?_⟩
    split
    · next same => simp [same]
    · next other => simpa using fun same => other key same
  rw [same, Option.map_eq_some_iff]
  constructor
  · rintro ⟨⟨name, value⟩, found, rfl⟩
    obtain ⟨named, late, early, split, others⟩ := List.find?_eq_some_iff_append.mp found
    obtain rfl : name = .text key := (isKey _).mp named
    refine ⟨early.reverse, late.reverse, ?_, ?_⟩
    · have reversed := congrArg List.reverse split
      simpa using reversed
    · intro entry member same
      have other := others entry (List.mem_reverse.mp member)
      rw [Bool.not_eq_true', ← Bool.not_eq_true] at other
      exact other ((isKey entry).mpr same)
  · rintro ⟨early, late, rfl, others⟩
    refine ⟨(.text key, value), List.find?_eq_some_iff_append.mpr ?_, rfl⟩
    refine ⟨(isKey (.text key, value)).mpr rfl, late.reverse, early.reverse, by simp, ?_⟩
    intro entry member
    rw [Bool.not_eq_true', ← Bool.not_eq_true]
    exact fun same => others entry (List.mem_reverse.mp member) ((isKey entry).mp same)

/-- Whether a field has so much content: the last value under its key if that has the field's form,
and the fallback if no last value has. -/
def Declares {α : Type} (entries : List (Value × Value)) (key : String) (form : α → Value)
    (fallback content : α) : Prop :=
  IsLast entries key (form content) ∨
    (∀ other, ¬ IsLast entries key (form other)) ∧ content = fallback

theorem getD_last?_eq_iff {α : Type} {entries : List (Value × Value)} {key : String}
    {read : Value → Option α} {form : α → Value} {fallback content : α}
    (inverse : ∀ {value content}, read value = some content ↔ value = form content) :
    ((last? entries key).bind read).getD fallback = content ↔
      Declares entries key form fallback content := by
  simp only [Declares, ← last?_eq_some_iff]
  cases last? entries key with
  | none => simp [eq_comm]
  | some value =>
    rw [Option.bind_some]
    cases result : read value with
    | none =>
      have other (content : α) : value ≠ form content := by
        intro same
        rw [inverse.mpr same] at result
        cases result
      simp [other, eq_comm]
    | some given =>
      obtain rfl := inverse.mp result
      have same {content : α} : form given = form content ↔ given = content := by
        rw [← inverse, result, Option.some_inj]
      simp [same]

theorem whole?_eq_some_iff {value : Value} {whole : Whole} :
    whole? value = some whole ↔ value = whole.toValue := by
  constructor
  · intro read
    cases value with
    | int value | bool value =>
      cases read
      rfl
    | nil | float _ | text _ | binary _ | array _ | map _ | extension _ _ => cases read
  · rintro rfl
    exact whole?_toValue whole

theorem text?_eq_some_iff {value : Value} {content : String} :
    text? value = some content ↔ value = .text content := by
  constructor
  · intro read
    cases value with
    | text value =>
      cases read
      rfl
    | nil | bool _ | int _ | float _ | binary _ | array _ | map _ | extension _ _ => cases read
  · rintro rfl
    rfl

/-! ### What a map describes -/

/-- Whether a map's entries describe a header. -/
structure Describes (entries : List (Value × Value)) (header : Header) : Prop where
  chunks : IsLast entries "n" header.chunks.toValue
  natural : 0 ≤ header.chunks.value
  operation : IsLast entries "op" (.text header.operation)
  size : Declares entries "size" Whole.toValue (.int 0) header.size
  digest : Declares entries "digest" Value.text "" header.digest
  version : Declares entries "v" Whole.toValue (.int 1) header.version

theorem ofEntries?_eq_some_iff {entries : List (Value × Value)} {header : Header} :
    ofEntries? entries = some header ↔ Describes entries header := by
  simp only [ofEntries?, Option.bind_eq_bind, Option.bind_eq_some_iff]
  constructor
  · rintro ⟨count, last, chunks, read, name, lastName, operation, readName, described⟩
    obtain rfl := whole?_eq_some_iff.mp read
    obtain rfl := text?_eq_some_iff.mp readName
    split at described
    · cases described
    · next natural =>
      cases described
      exact {
        chunks := last?_eq_some_iff.mp last
        natural := Int.not_lt.mp natural
        operation := last?_eq_some_iff.mp lastName
        size := (getD_last?_eq_iff whole?_eq_some_iff).mp rfl
        digest := (getD_last?_eq_iff text?_eq_some_iff).mp rfl
        version := (getD_last?_eq_iff whole?_eq_some_iff).mp rfl }
  · intro describes
    refine ⟨_, last?_eq_some_iff.mpr describes.chunks, _, whole?_toValue _,
      _, last?_eq_some_iff.mpr describes.operation, _, rfl, ?_⟩
    rw [if_neg (Int.not_lt.mpr describes.natural),
      (getD_last?_eq_iff whole?_eq_some_iff).mpr describes.size,
      (getD_last?_eq_iff text?_eq_some_iff).mpr describes.digest,
      (getD_last?_eq_iff whole?_eq_some_iff).mpr describes.version]

/-- Some header is described if there is a count and an operation type. -/
theorem isSome_ofEntries? {entries : List (Value × Value)} (chunks : Whole) {operation : String}
    (counted : IsLast entries "n" chunks.toValue) (natural : 0 ≤ chunks.value)
    (named : IsLast entries "op" (.text operation)) : (ofEntries? entries).isSome := by
  simp only [ofEntries?, last?_eq_some_iff.mpr counted, last?_eq_some_iff.mpr named,
    Option.bind_eq_bind, Option.bind_some, whole?_toValue, text?]
  rw [if_neg (Int.not_lt.mpr natural)]
  rfl

theorem decode?_eq_some_iff {raw : Bytes} {header : Header} :
    decode? raw = some header ↔
      ∃ entries, Form maxDepth (.map entries) raw ∧ Describes entries header := by
  simp only [← read?_eq_some_iff, ← ofEntries?_eq_some_iff]
  unfold decode?
  constructor
  · intro decoded
    split at decoded
    · next read => exact ⟨_, read, decoded⟩
    · cases decoded
  · rintro ⟨entries, read, described⟩
    rw [read]
    exact described

/-- No number of a header that is read is too long to be written. -/
theorem short_of_decode? {raw : Bytes} {header : Header} (decoded : decode? raw = some header) :
    header.chunks.isTooLong = false ∧ header.size.isTooLong = false := by
  obtain ⟨entries, form, describes⟩ := decode?_eq_some_iff.mp decoded
  have short {key : String} {whole : Whole} (last : IsLast entries key whole.toValue) :
      whole.isTooLong = false := by
    obtain ⟨early, late, same, -⟩ := last
    cases form with
    | done head => cases head
    | map _ forms =>
      obtain ⟨bytes, form⟩ := forms.form (same ▸ List.mem_append_right _ List.mem_cons_self)
      cases whole with
      | bool flag => rfl
      | int value =>
        exact Decimal.isTooLong_of_lt form.natAbs_lt
  refine ⟨short describes.chunks, ?_⟩
  rcases describes.size with last | ⟨-, fallback⟩
  · exact short last
  · rw [fallback]
    exact Decimal.isTooLong_of_lt (by decide)
/-- Headers are the forms of maps with a count and an operation type, and what a header says depends
on the last values under its keys alone. -/
theorem decode?_language (raw : Bytes) :
    ((decode? raw).isSome ↔ ∃ entries, Form maxDepth (.map entries) raw ∧
      ((∃ count : Nat, IsLast entries "n" (.int count)) ∨ ∃ flag, IsLast entries "n" (.bool flag)) ∧
      ∃ operation, IsLast entries "op" (.text operation)) ∧
    (∀ header, decode? raw = some header ↔
      ∃ entries, Form maxDepth (.map entries) raw ∧ Describes entries header) ∧
    ∀ other entries others, Form maxDepth (.map entries) raw → Form maxDepth (.map others) other →
      (∀ key ∈ ["n", "op", "size", "digest", "v"], ∀ value,
        IsLast entries key value ↔ IsLast others key value) →
      decode? raw = decode? other := by
  refine ⟨⟨?_, ?_⟩, fun header => decode?_eq_some_iff, ?_⟩
  · intro accepted
    obtain ⟨header, decoded⟩ := Option.isSome_iff_exists.mp accepted
    obtain ⟨entries, form, describes⟩ := decode?_eq_some_iff.mp decoded
    refine ⟨entries, form, ?_, header.operation, describes.operation⟩
    have counted := describes.chunks
    have natural := describes.natural
    cases same : header.chunks with
    | int count =>
      rw [same] at counted natural
      obtain ⟨count, rfl⟩ := Int.eq_ofNat_of_zero_le natural
      exact .inl ⟨count, counted⟩
    | bool flag =>
      rw [same] at counted
      exact .inr ⟨flag, counted⟩
  · rintro ⟨entries, form, counted, operation, named⟩
    have read := read?_eq_some_iff.mpr form
    rw [decode?, read]
    obtain ⟨count, counted⟩ | ⟨flag, counted⟩ := counted
    · exact isSome_ofEntries? (.int count) counted (Int.natCast_nonneg count) named
    · exact isSome_ofEntries? (.bool flag) counted (by cases flag <;> decide) named
  · intro other entries others form otherForm same
    have last {key : String} (member : key ∈ ["n", "op", "size", "digest", "v"]) :
        last? entries key = last? others key := by
      refine Option.ext fun value => ?_
      rw [last?_eq_some_iff, last?_eq_some_iff]
      exact same key member value
    rw [decode?, decode?, read?_eq_some_iff.mpr form, read?_eq_some_iff.mpr otherForm]
    simp only [ofEntries?]
    rw [@last "n" (by decide), @last "op" (by decide), @last "size" (by decide),
      @last "digest" (by decide), @last "v" (by decide)]

/-- A count in more bytes than it needs, after one that is no number and beside an unknown entry
with a binary `n` for its key, is the count of the shortest form. -/
theorem decode?_language_disguised :
    let long : Bytes := [0xde, 0, 4, 0xd9, 1, 0x6e, 0xc0, 0xc4, 1, 0x6e, 0x91, 0x80,
      0xa2, 0x6f, 0x70, 0xa3, 0x70, 0x75, 0x74, 0xa1, 0x6e, 0xcd, 0, 3]
    let short : Bytes := [0x82, 0xa1, 0x6e, 3, 0xa2, 0x6f, 0x70, 0xa3, 0x70, 0x75, 0x74]
    decode? long = some { operation := "put", chunks := .int 3 } ∧
      decode? long = decode? short := by
  intro long short
  let entries : List (Value × Value) := [(.text "n", .nil), (.binary [0x6e], .array [.map []]),
    (.text "op", .text "put"), (.text "n", .int (3 : Nat))]
  let others : List (Value × Value) := [(.text "n", .int (3 : Nat)), (.text "op", .text "put")]
  have n {room : Nat} : Form room (.text "n") [0xa1, 0x6e] :=
    form_of_writeText? (by decide)
  have op {room : Nat} : Form room (.text "op") [0xa2, 0x6f, 0x70] :=
    form_of_writeText? (by decide)
  have put {room : Nat} : Form room (.text "put") [0xa3, 0x70, 0x75, 0x74] :=
    form_of_writeText? (by decide)
  have longN : Form 1023 (.text "n") [0xd9, 1, 0x6e] := by
    have bytes : Utf8.encode "n" = [0x6e] := by decide
    have form := @Form.text 1023 "n" [0xd9, 1]
    rw [bytes] at form
    exact form (@HeadForm.text 0xd9 1 1 (by decide) (by decide))
  have binaryN : Form 1023 (.binary [0x6e]) [0xc4, 1, 0x6e] :=
    @Form.binary 1023 [0x6e] [0xc4, 1] (@HeadForm.binary 0xc4 1 1 (by decide) (by decide))
  have nested : Form 1023 (.array [.map []]) [0x91, 0x80] :=
    @Form.array 1022 [.map []] [0x91] [0x80] (.shortArray (show 1 < 0x10 by decide)) <|
      .cons (@Form.map 1021 [] [0x80] [] (.shortMap (show 0 < 0x10 by decide)) .nil) .nil
  have longForm : Form maxDepth (.map entries) long :=
    @Form.map 1023 entries [0xde, 0, 4] _ (@HeadForm.map 0xde 2 4 (by decide) (by decide)) <|
      .cons rfl longN (.done .nil) <|
      .cons rfl binaryN nested <|
      .cons rfl op put <|
      .cons rfl n (.done (@HeadForm.natural 0xcd 2 3 (by decide) (by decide))) .nil
  have shortForm : Form maxDepth (.map others) short :=
    @Form.map 1023 others [0x82] _ (.shortMap (show 2 < 0x10 by decide)) <|
      .cons rfl n (.done (@HeadForm.small 3 (by decide))) <| .cons rfl op put .nil
  have language := decode?_language long
  refine ⟨(language.2.1 _).mpr ⟨entries, longForm, ofEntries?_eq_some_iff.mp rfl⟩, ?_⟩
  refine language.2.2 short entries others longForm shortForm ?_
  intro key member value
  simp only [← last?_eq_some_iff]
  have same : last? entries key = last? others key := by
    simp only [List.mem_cons, List.not_mem_nil, or_false] at member
    obtain rfl | rfl | rfl | rfl | rfl := member
    all_goals rfl
  rw [same]

end DhtRecords.Header
