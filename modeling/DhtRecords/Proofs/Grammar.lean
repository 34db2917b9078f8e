/-
The grammar of MessagePack, and that the reader accepts exactly its language.

`HeadForm` lists the forms of heads, and `Form` those of values, apart from
how they are read: a value may have many forms, as a number or a length may
take more bytes than it needs. The main statement is `read?_eq_some_iff`: a
byte string is read as a value just if it is a form of it with nothing left
over. What is read is a form (`readValue?_sound`), by induction on the fuel,
and a form is read whatever follows it (`Form.read`), by induction on the form.
-/

import DhtRecords.Msgpack.Reader
import Mathlib.Data.List.Induction
import Mathlib.Tactic.Common

namespace DhtRecords

namespace Bytes

theorem readBig_lt (bytes : Bytes) : readBig bytes < Nat.pow 256 bytes.length := by
  induction bytes using List.reverseRecOn with
  | nil => exact Nat.one_pos
  | append_singleton bytes byte ih =>
    have digit := byte.toNat_lt
    have power : Nat.pow 256 (bytes.length + 1) = Nat.pow 256 bytes.length * 256 := rfl
    rw [readBig_append_singleton, List.length_append, List.length_singleton, power]
    omega

/-- Bytes are the digits of the number that is read from them. -/
theorem writeBig_readBig (bytes : Bytes) : writeBig bytes.length (readBig bytes) = bytes := by
  induction bytes using List.reverseRecOn with
  | nil => rfl
  | append_singleton bytes byte ih =>
    have digit := byte.toNat_lt
    have quotient : (readBig bytes * 256 + byte.toNat) / 256 = readBig bytes := by omega
    have remainder : (readBig bytes * 256 + byte.toNat) % 256 = byte.toNat := by omega
    rw [readBig_append_singleton, List.length_append, List.length_singleton, writeBig, quotient,
      remainder, ih, UInt8.ofNat_toNat]

end Bytes

namespace Msgpack

/-! ### Heads -/

/-- The two's complement of an integer in so many bytes. -/
def complement (width : Nat) (value : Int) : Nat :=
  (if 0 ≤ value then value else value + Nat.pow 2 (8 * width)).toNat

/-- Whether an integer has a two's complement of so many bytes. -/
def HasComplement (width : Nat) (value : Int) : Prop :=
  -(Nat.pow 2 (8 * width - 1) : Nat) ≤ value ∧ value < (Nat.pow 2 (8 * width - 1) : Nat)

/-- The forms of heads. A first byte may hold a small number itself; others are followed by so many
bytes, which spell a number or a length. -/
inductive HeadForm : Head → Bytes → Prop
  | nil : HeadForm (.done .nil) [0xc0]
  | bool (value : Bool) : HeadForm (.done (.bool value)) [if value then 0xc3 else 0xc2]
  | small {value : Nat} : value < 0x80 → HeadForm (.done (.int value)) [UInt8.ofNat value]
  | negative {size : Nat} : 0 < size → size ≤ 0x20 →
      HeadForm (.done (.int (-size))) [UInt8.ofNat (0x100 - size)]
  | natural {code : UInt8} {width value : Nat} :
      (code, width) ∈ [(0xcc, 1), (0xcd, 2), (0xce, 4), (0xcf, 8)] → value < Nat.pow 256 width →
      HeadForm (.done (.int value)) (code :: Bytes.writeBig width value)
  | integer {code : UInt8} {width : Nat} {value : Int} :
      (code, width) ∈ [(0xd0, 1), (0xd1, 2), (0xd2, 4), (0xd3, 8)] → HasComplement width value →
      HeadForm (.done (.int value)) (code :: Bytes.writeBig width (complement width value))
  | float {code : UInt8} {bits : Bytes} : (code, bits.length) ∈ [(0xca, 4), (0xcb, 8)] →
      HeadForm (.done (.float bits)) (code :: bits)
  | shortText {size : Nat} : size < 0x20 → HeadForm (.text size) [UInt8.ofNat (0xa0 + size)]
  | text {code : UInt8} {width size : Nat} : (code, width) ∈ [(0xd9, 1), (0xda, 2), (0xdb, 4)] →
      size < Nat.pow 256 width → HeadForm (.text size) (code :: Bytes.writeBig width size)
  | binary {code : UInt8} {width size : Nat} : (code, width) ∈ [(0xc4, 1), (0xc5, 2), (0xc6, 4)] →
      size < Nat.pow 256 width → HeadForm (.binary size) (code :: Bytes.writeBig width size)
  | shortArray {count : Nat} : count < 0x10 → HeadForm (.array count) [UInt8.ofNat (0x90 + count)]
  | array {code : UInt8} {width count : Nat} : (code, width) ∈ [(0xdc, 2), (0xdd, 4)] →
      count < Nat.pow 256 width → HeadForm (.array count) (code :: Bytes.writeBig width count)
  | shortMap {count : Nat} : count < 0x10 → HeadForm (.map count) [UInt8.ofNat (0x80 + count)]
  | map {code : UInt8} {width count : Nat} : (code, width) ∈ [(0xde, 2), (0xdf, 4)] →
      count < Nat.pow 256 width → HeadForm (.map count) (code :: Bytes.writeBig width count)
  | fixedExtension {code : UInt8} {size : Nat} :
      (code, size) ∈ [(0xd4, 1), (0xd5, 2), (0xd6, 4), (0xd7, 8), (0xd8, 16)] →
      HeadForm (.extension size) [code]
  | extension {code : UInt8} {width size : Nat} :
      (code, width) ∈ [(0xc7, 1), (0xc8, 2), (0xc9, 4)] → size < Nat.pow 256 width →
      HeadForm (.extension size) (code :: Bytes.writeBig width size)

/-! ### Values -/

/-- The contents of timestamps: seconds alone, both numbers in one, or one after the other. -/
inductive Timestamp : Bytes → Prop
  | seconds {content : Bytes} : content.length = 4 → Timestamp content
  | packed {nanoseconds seconds : Nat} : nanoseconds ≤ maxNanoseconds → seconds < Nat.pow 2 34 →
      Timestamp (Bytes.writeBig 8 (nanoseconds * Nat.pow 2 34 + seconds))
  | apart {nanoseconds : Nat} {seconds : Bytes} : nanoseconds ≤ maxNanoseconds →
      seconds.length = 8 → Timestamp (Bytes.writeBig 4 nanoseconds ++ seconds)

/-- The extensions there are: the types from nought on are anyone's, and -1 is a timestamp. -/
inductive Admitted : Int → Bytes → Prop
  | free {type : Int} {content : Bytes} : 0 ≤ type → Admitted type content
  | timestamp {content : Bytes} : Timestamp content → Admitted (-1) content

mutual

/-- The forms of a value in which no more than `room` containers are nested. -/
inductive Form : Nat → Value → Bytes → Prop
  | done {room : Nat} {value : Value} {head : Bytes} :
      HeadForm (.done value) head → Form room value head
  | text {room : Nat} {content : String} {head : Bytes} :
      HeadForm (.text (Utf8.encode content).length) head →
      Form room (.text content) (head ++ Utf8.encode content)
  | binary {room : Nat} {content head : Bytes} : HeadForm (.binary content.length) head →
      Form room (.binary content) (head ++ content)
  | extension {room : Nat} {type : Int} {content head : Bytes} :
      HeadForm (.extension content.length) head → HasComplement 1 type → Admitted type content →
      Form room (.extension type content)
        (head ++ (Bytes.writeBig 1 (complement 1 type) ++ content))
  | array {room : Nat} {items : List Value} {head forms : Bytes} :
      HeadForm (.array items.length) head → Forms room items forms →
      Form (room + 1) (.array items) (head ++ forms)
  | map {room : Nat} {entries : List (Value × Value)} {head forms : Bytes} :
      HeadForm (.map entries.length) head → EntryForms room entries forms →
      Form (room + 1) (.map entries) (head ++ forms)

/-- The forms of values in a row. -/
inductive Forms : Nat → List Value → Bytes → Prop
  | nil {room : Nat} : Forms room [] []
  | cons {room : Nat} {item : Value} {items : List Value} {form forms : Bytes} :
      Form room item form → Forms room items forms → Forms room (item :: items) (form ++ forms)

/-- The forms of entries in a row, each a key and a value. -/
inductive EntryForms : Nat → List (Value × Value) → Bytes → Prop
  | nil {room : Nat} : EntryForms room [] []
  | cons {room : Nat} {key value : Value} {entries : List (Value × Value)}
      {keyForm valueForm forms : Bytes} : key.isKey = true →
      Form room key keyForm → Form room value valueForm → EntryForms room entries forms →
      EntryForms room ((key, value) :: entries) (keyForm ++ (valueForm ++ forms))

end

/-! ### Reading heads -/

theorem takeBytes?_eq_some_iff {count : Nat} {bytes taken rest : Bytes} :
    takeBytes? count bytes = some (taken, rest) ↔ bytes = taken ++ rest ∧ taken.length = count := by
  induction count generalizing bytes taken with
  | zero =>
    rw [takeBytes?, Option.some_inj, Prod.mk.injEq, List.length_eq_zero_iff]
    constructor
    · rintro ⟨rfl, rfl⟩
      exact ⟨rfl, rfl⟩
    · rintro ⟨rfl, rfl⟩
      exact ⟨rfl, rfl⟩
  | succ count ih =>
    cases bytes with
    | nil =>
      refine ⟨nofun, fun ⟨nothing, length⟩ => ?_⟩
      rw [(List.append_eq_nil_iff.mp nothing.symm).1] at length
      cases length
    | cons byte bytes =>
      rw [takeBytes?, Option.map_eq_some_iff]
      constructor
      · rintro ⟨⟨taken, rest⟩, read, same⟩
        obtain ⟨rfl, rfl⟩ := Prod.mk.inj same
        obtain ⟨rfl, length⟩ := ih.mp read
        exact ⟨rfl, congrArg Nat.succ length⟩
      · rintro ⟨split, length⟩
        cases taken with
        | nil => cases length
        | cons first taken =>
          obtain ⟨rfl, rfl⟩ := List.cons.inj split
          exact ⟨(taken, rest), ih.mpr ⟨rfl, Nat.succ.inj length⟩, rfl⟩

theorem readNat?_eq_some_iff {width value : Nat} {bytes rest : Bytes} :
    readNat? width bytes = some (value, rest) ↔
      bytes = Bytes.writeBig width value ++ rest ∧ value < Nat.pow 256 width := by
  rw [readNat?, Option.map_eq_some_iff]
  constructor
  · rintro ⟨⟨digits, rest'⟩, taken, same⟩
    obtain ⟨rfl, rfl⟩ := Prod.mk.inj same
    obtain ⟨rfl, rfl⟩ := takeBytes?_eq_some_iff.mp taken
    exact ⟨by rw [Bytes.writeBig_readBig], Bytes.readBig_lt digits⟩
  · rintro ⟨rfl, fits⟩
    refine ⟨(Bytes.writeBig width value, rest), takeBytes?_eq_some_iff.mpr ⟨rfl, by simp⟩, ?_⟩
    exact congrArg (·, rest) (Bytes.readBig_writeBig width value fits)

/-- One half of the numbers of so many bytes stand for integers that are not negative. -/
theorem two_halves {width : Nat} (wide : 0 < width) :
    Nat.pow 256 width = Nat.pow 2 (8 * width) ∧
      Nat.pow 2 (8 * width) = Nat.pow 2 (8 * width - 1) + Nat.pow 2 (8 * width - 1) := by
  refine ⟨(Nat.pow_mul 2 8 width).symm, ?_⟩
  obtain ⟨bits, same⟩ := Nat.exists_eq_succ_of_ne_zero (n := 8 * width) (by omega)
  rw [same, Nat.succ_sub_one]
  exact (Nat.pow_succ ..).trans (Nat.mul_two _)

/-- Every number of so many bytes is the complement of an integer. -/
theorem complement_signed {width value : Nat} (wide : 0 < width)
    (fits : value < Nat.pow 256 width) :
    HasComplement width (signed width value) ∧ complement width (signed width value) = value := by
  obtain ⟨bytes, halves⟩ := two_halves wide
  unfold signed HasComplement complement
  rw [bytes] at fits
  split <;> refine ⟨by omega, ?_⟩ <;> split <;> omega

theorem signed_complement {width : Nat} {value : Int} (wide : 0 < width)
    (has : HasComplement width value) :
    signed width (complement width value) = value ∧ complement width value < Nat.pow 256 width := by
  obtain ⟨bytes, halves⟩ := two_halves wide
  unfold HasComplement at has
  unfold signed complement
  rw [bytes]
  refine ⟨?_, ?_⟩ <;> split <;> (try split) <;> omega

/-- The last bytes stand for small negative numbers. -/
theorem signed_one {size : Nat} (positive : 0 < size) (small : size ≤ 0x80) :
    signed 1 (0x100 - size) = -size := by
  unfold signed
  rw [if_neg (by simp; omega)]
  simp
  omega

/-- A number after the first byte is what a head announces. -/
theorem number_eq_some_iff {width : Nat} {announce : Nat → Head} {bytes rest : Bytes}
    {head : Head} :
    (readNat? width bytes).map (fun (value, rest) => (announce value, rest)) = some (head, rest) ↔
      ∃ value, bytes = Bytes.writeBig width value ++ rest ∧ value < Nat.pow 256 width ∧
        announce value = head := by
  rw [Option.map_eq_some_iff]
  constructor
  · rintro ⟨⟨value, rest'⟩, read, same⟩
    obtain ⟨rfl, rfl⟩ := Prod.mk.inj same
    obtain ⟨rfl, fits⟩ := readNat?_eq_some_iff.mp read
    exact ⟨value, rfl, fits, rfl⟩
  · rintro ⟨value, rfl, fits, rfl⟩
    exact ⟨(value, rest), readNat?_eq_some_iff.mpr ⟨rfl, fits⟩, rfl⟩

theorem integer_signed {code : UInt8} {width value : Nat}
    (known : (code, width) ∈ [(0xd0, 1), (0xd1, 2), (0xd2, 4), (0xd3, 8)])
    (fits : value < Nat.pow 256 width) :
    HeadForm (.done (.int (signed width value))) (code :: Bytes.writeBig width value) := by
  have wide : 0 < width := by
    simp only [List.mem_cons, Prod.mk.injEq, List.not_mem_nil, or_false] at known
    omega
  obtain ⟨has, same⟩ := complement_signed wide fits
  have form := HeadForm.integer known has
  rwa [same] at form

/-- A head with a number is read off one of its forms. -/
theorem sound_number {code : UInt8} {width : Nat} {announce : Nat → Head} {bytes rest : Bytes}
    {head : Head}
    (forms : ∀ value, value < Nat.pow 256 width →
      HeadForm (announce value) (code :: Bytes.writeBig width value))
    (read : (readNat? width bytes).map (fun (value, rest) => (announce value, rest))
      = some (head, rest)) :
    ∃ form, code :: bytes = form ++ rest ∧ HeadForm head form := by
  obtain ⟨value, rfl, fits, rfl⟩ := number_eq_some_iff.mp read
  exact ⟨_, rfl, forms value fits⟩

theorem sound_float {code : UInt8} {width : Nat} {bytes rest : Bytes} {head : Head}
    (known : (code, width) ∈ [(0xca, 4), (0xcb, 8)])
    (read : (takeBytes? width bytes).map (fun (taken, rest) => (Head.done (.float taken), rest))
      = some (head, rest)) :
    ∃ form, code :: bytes = form ++ rest ∧ HeadForm head form := by
  obtain ⟨⟨bits, rest'⟩, taken, same⟩ := Option.map_eq_some_iff.mp read
  obtain ⟨rfl, rfl⟩ := Prod.mk.inj same
  obtain ⟨rfl, rfl⟩ := takeBytes?_eq_some_iff.mp taken
  exact ⟨_, rfl, .float known⟩

theorem readHead?_sound {bytes rest : Bytes} {head : Head}
    (read : readHead? bytes = some (head, rest)) :
    ∃ form, bytes = form ++ rest ∧ HeadForm head form := by
  cases bytes with
  | nil => cases read
  | cons first tail =>
    obtain ⟨code, below, rfl⟩ : ∃ code < 0x100, first = UInt8.ofNat code :=
      ⟨first.toNat, first.toNat_lt, UInt8.ofNat_toNat.symm⟩
    have same : (UInt8.ofNat code).toNat = code := UInt8.toNat_ofNat_of_lt' below
    simp only [readHead?, same] at read
    -- First bytes that hold a number of their own.
    split at read
    · next small =>
      cases read
      exact ⟨[_], rfl, .small small⟩
    split at read
    · cases read
      have form := @HeadForm.shortMap (code - 0x80) (by omega)
      rw [Nat.add_sub_cancel' (by omega)] at form
      exact ⟨[_], rfl, form⟩
    split at read
    · cases read
      have form := @HeadForm.shortArray (code - 0x90) (by omega)
      rw [Nat.add_sub_cancel' (by omega)] at form
      exact ⟨[_], rfl, form⟩
    split at read
    · cases read
      have form := @HeadForm.shortText (code - 0xa0) (by omega)
      rw [Nat.add_sub_cancel' (by omega)] at form
      exact ⟨[_], rfl, form⟩
    split at read
    · cases read
      have form := @HeadForm.negative (0x100 - code) (by omega) (by omega)
      rw [← signed_one (by omega) (by omega), Nat.sub_sub_self (by omega)] at form
      exact ⟨[_], rfl, form⟩
    -- First bytes with a meaning of their own.
    split at read
    · cases read
      exact ⟨[_], rfl, .nil⟩
    · cases read
      exact ⟨[_], rfl, .bool false⟩
    · cases read
      exact ⟨[_], rfl, .bool true⟩
    · exact sound_number (fun _ => .binary (by decide)) read
    · exact sound_number (fun _ => .binary (by decide)) read
    · exact sound_number (fun _ => .binary (by decide)) read
    · exact sound_number (fun _ => .extension (by decide)) read
    · exact sound_number (fun _ => .extension (by decide)) read
    · exact sound_number (fun _ => .extension (by decide)) read
    · exact sound_float (by decide) read
    · exact sound_float (by decide) read
    · exact sound_number (fun _ => .natural (by decide)) read
    · exact sound_number (fun _ => .natural (by decide)) read
    · exact sound_number (fun _ => .natural (by decide)) read
    · exact sound_number (fun _ => .natural (by decide)) read
    · exact sound_number (fun _ => integer_signed (by decide)) read
    · exact sound_number (fun _ => integer_signed (by decide)) read
    · exact sound_number (fun _ => integer_signed (by decide)) read
    · exact sound_number (fun _ => integer_signed (by decide)) read
    · cases read
      exact ⟨[_], rfl, .fixedExtension (by decide)⟩
    · cases read
      exact ⟨[_], rfl, .fixedExtension (by decide)⟩
    · cases read
      exact ⟨[_], rfl, .fixedExtension (by decide)⟩
    · cases read
      exact ⟨[_], rfl, .fixedExtension (by decide)⟩
    · cases read
      exact ⟨[_], rfl, .fixedExtension (by decide)⟩
    · exact sound_number (fun _ => .text (by decide)) read
    · exact sound_number (fun _ => .text (by decide)) read
    · exact sound_number (fun _ => .text (by decide)) read
    · exact sound_number (fun _ => .array (by decide)) read
    · exact sound_number (fun _ => .array (by decide)) read
    · exact sound_number (fun _ => .map (by decide)) read
    · exact sound_number (fun _ => .map (by decide)) read
    · cases read

/-- A head has a first byte. -/
theorem HeadForm.length_pos {head : Head} {form : Bytes} (formed : HeadForm head form) :
    0 < form.length := by
  cases formed <;> simp

theorem readHead?_number {code : UInt8} {width value : Nat} (announce : Nat → Head) (rest : Bytes)
    (reader : ∀ rest, readHead? (code :: rest)
      = (readNat? width rest).map fun (value, rest) => (announce value, rest))
    (fits : value < Nat.pow 256 width) :
    readHead? (code :: Bytes.writeBig width value ++ rest) = some (announce value, rest) := by
  rw [List.cons_append, reader]
  exact number_eq_some_iff.mpr ⟨value, rfl, fits, rfl⟩

/-- A form of a head is read as the head, whatever follows it. -/
theorem HeadForm.read {head : Head} {form : Bytes} (formed : HeadForm head form) (rest : Bytes) :
    readHead? (form ++ rest) = some (head, rest) := by
  cases formed with
  | nil => rfl
  | bool value => cases value <;> rfl
  | @small value below =>
    have code : value % 256 = value := Nat.mod_eq_of_lt (by omega)
    simp [readHead?, code, below]
  | @negative size positive below =>
    have code : (0x100 - size) % 256 = 0x100 - size := Nat.mod_eq_of_lt (by omega)
    simp only [readHead?, List.cons_append, List.nil_append, UInt8.toNat_ofNat', Nat.reducePow,
      code]
    rw [if_neg (by omega), if_neg (by omega), if_neg (by omega), if_neg (by omega),
      if_pos (by omega), signed_one positive (by omega)]
  | @shortMap count below =>
    have code : (0x80 + count) % 256 = 0x80 + count := Nat.mod_eq_of_lt (by omega)
    simp only [readHead?, List.cons_append, List.nil_append, UInt8.toNat_ofNat', Nat.reducePow,
      code]
    rw [if_neg (by omega), if_pos (by omega), Nat.add_sub_cancel_left]
  | @shortArray count below =>
    have code : (0x90 + count) % 256 = 0x90 + count := Nat.mod_eq_of_lt (by omega)
    simp only [readHead?, List.cons_append, List.nil_append, UInt8.toNat_ofNat', Nat.reducePow,
      code]
    rw [if_neg (by omega), if_neg (by omega), if_pos (by omega), Nat.add_sub_cancel_left]
  | @shortText size below =>
    have code : (0xa0 + size) % 256 = 0xa0 + size := Nat.mod_eq_of_lt (by omega)
    simp only [readHead?, List.cons_append, List.nil_append, UInt8.toNat_ofNat', Nat.reducePow,
      code]
    rw [if_neg (by omega), if_neg (by omega), if_neg (by omega), if_pos (by omega),
      Nat.add_sub_cancel_left]
  | natural known fits =>
    simp only [List.mem_cons, Prod.mk.injEq, List.not_mem_nil, or_false] at known
    obtain ⟨rfl, rfl⟩ | ⟨rfl, rfl⟩ | ⟨rfl, rfl⟩ | ⟨rfl, rfl⟩ := known
    all_goals exact readHead?_number (fun value => .done (.int value)) rest (fun _ => rfl) fits
  | @integer code width value known has =>
    have wide : 0 < width := by
      simp only [List.mem_cons, Prod.mk.injEq, List.not_mem_nil, or_false] at known
      omega
    obtain ⟨back, fits⟩ := signed_complement wide has
    have read (reader : ∀ rest, readHead? (code :: rest) = (readNat? width rest).map
        fun (value, rest) => (.done (.int (signed width value)), rest)) :=
      readHead?_number (fun value => .done (.int (signed width value))) rest reader fits
    rw [back] at read
    simp only [List.mem_cons, Prod.mk.injEq, List.not_mem_nil, or_false] at known
    obtain ⟨rfl, rfl⟩ | ⟨rfl, rfl⟩ | ⟨rfl, rfl⟩ | ⟨rfl, rfl⟩ := known
    all_goals exact read fun _ => rfl
  | @float code bits known =>
    simp only [List.mem_cons, Prod.mk.injEq, List.not_mem_nil, or_false] at known
    have taken := takeBytes?_eq_some_iff.mpr ⟨rfl (a := bits ++ rest), rfl⟩
    obtain ⟨rfl, length⟩ | ⟨rfl, length⟩ := known
    all_goals
      rw [length] at taken
      exact congrArg (Option.map _) taken
  | text known fits =>
    simp only [List.mem_cons, Prod.mk.injEq, List.not_mem_nil, or_false] at known
    obtain ⟨rfl, rfl⟩ | ⟨rfl, rfl⟩ | ⟨rfl, rfl⟩ := known
    all_goals exact readHead?_number .text rest (fun _ => rfl) fits
  | binary known fits =>
    simp only [List.mem_cons, Prod.mk.injEq, List.not_mem_nil, or_false] at known
    obtain ⟨rfl, rfl⟩ | ⟨rfl, rfl⟩ | ⟨rfl, rfl⟩ := known
    all_goals exact readHead?_number .binary rest (fun _ => rfl) fits
  | extension known fits =>
    simp only [List.mem_cons, Prod.mk.injEq, List.not_mem_nil, or_false] at known
    obtain ⟨rfl, rfl⟩ | ⟨rfl, rfl⟩ | ⟨rfl, rfl⟩ := known
    all_goals exact readHead?_number .extension rest (fun _ => rfl) fits
  | array known fits =>
    simp only [List.mem_cons, Prod.mk.injEq, List.not_mem_nil, or_false] at known
    obtain ⟨rfl, rfl⟩ | ⟨rfl, rfl⟩ := known
    all_goals exact readHead?_number .array rest (fun _ => rfl) fits
  | map known fits =>
    simp only [List.mem_cons, Prod.mk.injEq, List.not_mem_nil, or_false] at known
    obtain ⟨rfl, rfl⟩ | ⟨rfl, rfl⟩ := known
    all_goals exact readHead?_number .map rest (fun _ => rfl) fits
  | fixedExtension known =>
    simp only [List.mem_cons, Prod.mk.injEq, List.not_mem_nil, or_false] at known
    obtain ⟨rfl, rfl⟩ | ⟨rfl, rfl⟩ | ⟨rfl, rfl⟩ | ⟨rfl, rfl⟩ | ⟨rfl, rfl⟩ := known
    all_goals rfl

/-! ### Reading values -/

theorem acceptsExtension_iff {type : Int} {content : Bytes} :
    acceptsExtension type content = true ↔ Admitted type content := by
  constructor
  · intro accepted
    unfold acceptsExtension at accepted
    split at accepted
    · next timestamp =>
      subst timestamp
      refine .timestamp ?_
      split at accepted
      · next length => exact .seconds length
      · next length =>
        have same := Bytes.writeBig_readBig content
        rw [length] at same
        rw [← same, ← Nat.div_add_mod' (Bytes.readBig content) (Nat.pow 2 34)]
        exact .packed (of_decide_eq_true accepted) (Nat.mod_lt _ (by decide))
      · next length =>
        have same := Bytes.writeBig_readBig (content.take 4)
        rw [List.length_take, length] at same
        rw [← List.take_append_drop 4 content, ← same]
        exact .apart (of_decide_eq_true accepted) (by rw [List.length_drop, length])
      · cases accepted
    · exact .free (of_decide_eq_true accepted)
  · intro admitted
    unfold acceptsExtension
    cases admitted with
    | free natural =>
      rw [if_neg (by omega)]
      exact decide_eq_true natural
    | timestamp timestamp =>
      rw [if_pos rfl]
      cases timestamp with
      | seconds length => simp only [length]
      | @packed nanoseconds seconds few below =>
        have fits : nanoseconds * Nat.pow 2 34 + seconds < Nat.pow 256 8 := by
          simp [maxNanoseconds] at few below ⊢
          omega
        have quotient : (nanoseconds * Nat.pow 2 34 + seconds) / Nat.pow 2 34 = nanoseconds := by
          simp at below ⊢
          omega
        rw [Bytes.length_writeBig, Bytes.readBig_writeBig _ _ fits, quotient]
        exact decide_eq_true few
      | @apart nanoseconds seconds few length =>
        have fits : nanoseconds < Nat.pow 256 4 := by
          simp [maxNanoseconds] at few ⊢
          omega
        have taken : (Bytes.writeBig 4 nanoseconds ++ seconds).take 4
            = Bytes.writeBig 4 nanoseconds := List.take_left' (by simp)
        rw [List.length_append, Bytes.length_writeBig, length, taken,
          Bytes.readBig_writeBig _ _ fits]
        exact decide_eq_true few

/-- What is read with so much fuel is a form in front of the rest. -/
structure ReadsForms (fuel : Nat) : Prop where
  value {depth : Nat} {bytes rest : Bytes} {value : Value} :
    readValue? fuel depth bytes = some (value, rest) →
    ∃ form, bytes = form ++ rest ∧ Form (maxDepth - depth) value form
  items {depth count : Nat} {bytes rest : Bytes} {items : List Value} :
    readItems? fuel depth count bytes = some (items, rest) →
    ∃ forms, bytes = forms ++ rest ∧ items.length = count ∧ Forms (maxDepth - depth) items forms
  entries {depth count : Nat} {bytes rest : Bytes} {entries : List (Value × Value)} :
    readEntries? fuel depth count bytes = some (entries, rest) →
    ∃ forms, bytes = forms ++ rest ∧ entries.length = count ∧
      EntryForms (maxDepth - depth) entries forms

theorem ReadsForms.readValue? {fuel depth : Nat} {bytes rest : Bytes} {value : Value}
    (inner : ReadsForms fuel) (read : readValue? (fuel + 1) depth bytes = some (value, rest)) :
    ∃ form, bytes = form ++ rest ∧ Form (maxDepth - depth) value form := by
  rw [Msgpack.readValue?] at read
  split at read
  · cases read
  · next head =>
    cases read
    obtain ⟨form, rfl, headed⟩ := readHead?_sound head
    exact ⟨form, rfl, .done headed⟩
  · next head =>
    obtain ⟨form, rfl, headed⟩ := readHead?_sound head
    simp only [Option.bind_eq_bind, Option.bind_eq_some_iff, Option.pure_def,
      Option.some_inj] at read
    obtain ⟨⟨content, rest'⟩, taken, text, decoded, same⟩ := read
    obtain ⟨rfl, rfl⟩ := Prod.mk.inj same
    obtain ⟨rfl, length⟩ := takeBytes?_eq_some_iff.mp taken
    obtain rfl := Utf8.encode_of_decode? decoded
    subst length
    exact ⟨form ++ Utf8.encode text, (List.append_assoc ..).symm, .text headed⟩
  · next head =>
    obtain ⟨form, rfl, headed⟩ := readHead?_sound head
    simp only [Option.bind_eq_bind, Option.bind_eq_some_iff, Option.pure_def,
      Option.some_inj] at read
    obtain ⟨⟨content, rest'⟩, taken, same⟩ := read
    obtain ⟨rfl, rfl⟩ := Prod.mk.inj same
    obtain ⟨rfl, rfl⟩ := takeBytes?_eq_some_iff.mp taken
    exact ⟨form ++ content, (List.append_assoc ..).symm, .binary headed⟩
  · next head =>
    obtain ⟨form, rfl, headed⟩ := readHead?_sound head
    simp only [Option.bind_eq_bind, Option.bind_eq_some_iff, Option.pure_def] at read
    obtain ⟨⟨type, after⟩, typed, ⟨content, rest'⟩, taken, read⟩ := read
    split at read
    · next accepted =>
      obtain ⟨rfl, rfl⟩ := Prod.mk.inj (Option.some.inj read)
      obtain ⟨rfl, fits⟩ := readNat?_eq_some_iff.mp typed
      obtain ⟨rfl, rfl⟩ := takeBytes?_eq_some_iff.mp taken
      obtain ⟨has, same⟩ := complement_signed Nat.one_pos fits
      refine ⟨form ++ (Bytes.writeBig 1 type ++ content), by simp only [List.append_assoc], ?_⟩
      have formed : Form (maxDepth - depth) (.extension (signed 1 type) content) _ :=
        .extension headed has (acceptsExtension_iff.mp accepted)
      rwa [same] at formed
    · cases read
  · next head =>
    obtain ⟨form, rfl, headed⟩ := readHead?_sound head
    split at read
    · cases read
    · next shallow =>
      obtain ⟨⟨items, rest'⟩, within, same⟩ := Option.map_eq_some_iff.mp read
      obtain ⟨rfl, rfl⟩ := Prod.mk.inj same
      obtain ⟨forms, rfl, rfl, formed⟩ := inner.items within
      have room : maxDepth - depth = maxDepth - (depth + 1) + 1 := by omega
      rw [room]
      exact ⟨form ++ forms, (List.append_assoc ..).symm, .array headed formed⟩
  · next head =>
    obtain ⟨form, rfl, headed⟩ := readHead?_sound head
    split at read
    · cases read
    · next shallow =>
      obtain ⟨⟨entries, rest'⟩, within, same⟩ := Option.map_eq_some_iff.mp read
      obtain ⟨rfl, rfl⟩ := Prod.mk.inj same
      obtain ⟨forms, rfl, rfl, formed⟩ := inner.entries within
      have room : maxDepth - depth = maxDepth - (depth + 1) + 1 := by omega
      rw [room]
      exact ⟨form ++ forms, (List.append_assoc ..).symm, .map headed formed⟩

theorem ReadsForms.readItems? {fuel depth count : Nat} {bytes rest : Bytes} {items : List Value}
    (inner : ReadsForms fuel)
    (read : readItems? (fuel + 1) depth count bytes = some (items, rest)) :
    ∃ forms, bytes = forms ++ rest ∧ items.length = count ∧
      Forms (maxDepth - depth) items forms := by
  cases count with
  | zero =>
    rw [Msgpack.readItems?] at read
    cases read
    exact ⟨[], rfl, rfl, .nil⟩
  | succ count =>
    rw [Msgpack.readItems?] at read
    simp only [Option.bind_eq_bind, Option.bind_eq_some_iff, Option.pure_def,
      Option.some_inj] at read
    obtain ⟨⟨item, after⟩, first, ⟨items, rest'⟩, others, same⟩ := read
    obtain ⟨rfl, rfl⟩ := Prod.mk.inj same
    obtain ⟨form, rfl, formed⟩ := inner.value first
    obtain ⟨forms, rfl, rfl, allFormed⟩ := inner.items others
    exact ⟨form ++ forms, (List.append_assoc ..).symm, rfl, .cons formed allFormed⟩

theorem ReadsForms.readEntries? {fuel depth count : Nat} {bytes rest : Bytes}
    {entries : List (Value × Value)} (inner : ReadsForms fuel)
    (read : readEntries? (fuel + 1) depth count bytes = some (entries, rest)) :
    ∃ forms, bytes = forms ++ rest ∧ entries.length = count ∧
      EntryForms (maxDepth - depth) entries forms := by
  cases count with
  | zero =>
    rw [Msgpack.readEntries?] at read
    cases read
    exact ⟨[], rfl, rfl, .nil⟩
  | succ count =>
    rw [Msgpack.readEntries?] at read
    simp only [Option.bind_eq_bind, Option.bind_eq_some_iff, Option.pure_def] at read
    obtain ⟨⟨key, afterKey⟩, keyRead, read⟩ := read
    split at read
    · next isKey =>
      simp only [Option.bind_eq_some_iff, Option.some_inj] at read
      obtain ⟨⟨value, after⟩, valueRead, ⟨entries, rest'⟩, others, same⟩ := read
      obtain ⟨rfl, rfl⟩ := Prod.mk.inj same
      obtain ⟨keyForm, rfl, keyFormed⟩ := inner.value keyRead
      obtain ⟨valueForm, rfl, valueFormed⟩ := inner.value valueRead
      obtain ⟨forms, rfl, rfl, allFormed⟩ := inner.entries others
      exact ⟨keyForm ++ (valueForm ++ forms), by simp only [List.append_assoc], rfl,
        .cons isKey keyFormed valueFormed allFormed⟩
    · cases read

/-- What is read is a form: each level of the recursion spends one unit of fuel. -/
theorem readsForms (fuel : Nat) : ReadsForms fuel := by
  induction fuel with
  | zero =>
    exact {
      value := fun read => by rw [readValue?] at read; cases read
      items := fun read => by rw [readItems?] at read; cases read
      entries := fun read => by rw [readEntries?] at read; cases read }
  | succ fuel inner =>
    exact { value := inner.readValue?, items := inner.readItems?, entries := inner.readEntries? }

theorem Form.length_pos {room : Nat} {value : Value} {form : Bytes}
    (formed : Form room value form) :
    0 < form.length := by
  cases formed with
  | done headed => exact headed.length_pos
  | text headed | binary headed | extension headed _ _ | array headed _ | map headed _ =>
    have positive := headed.length_pos
    rw [List.length_append]
    omega

mutual

/-- A form of a value is read as the value, whatever follows it, if no more containers are open
than leave room for it. -/
theorem Form.read {room depth fuel : Nat} {value : Value} {form : Bytes}
    (formed : Form room value form) (shallow : depth + room ≤ maxDepth)
    (enough : 2 * form.length ≤ fuel) (rest : Bytes) :
    readValue? fuel depth (form ++ rest) = some (value, rest) := by
  obtain ⟨fuel, rfl⟩ := Nat.exists_eq_succ_of_ne_zero (n := fuel) (by
    have positive := formed.length_pos
    omega)
  rw [readValue?]
  match formed with
  | .done headed => rw [headed.read]
  | @Form.text _ content _ headed =>
    have taken := takeBytes?_eq_some_iff.mpr
      (And.intro (Eq.refl (Utf8.encode content ++ rest)) (Eq.refl (Utf8.encode content).length))
    rw [List.append_assoc, headed.read]
    simp only [taken, Utf8.decode?_encode, Option.bind_eq_bind, Option.bind_some, Option.pure_def]
  | @Form.binary _ content _ headed =>
    have taken := takeBytes?_eq_some_iff.mpr
      (And.intro (Eq.refl (content ++ rest)) (Eq.refl content.length))
    rw [List.append_assoc, headed.read]
    simp only [taken, Option.bind_eq_bind, Option.bind_some, Option.pure_def]
  | @Form.extension _ type content _ headed has admitted =>
    obtain ⟨back, fits⟩ := signed_complement Nat.one_pos has
    have typed := readNat?_eq_some_iff.mpr
      (And.intro (Eq.refl (Bytes.writeBig 1 (complement 1 type) ++ (content ++ rest))) fits)
    have taken := takeBytes?_eq_some_iff.mpr
      (And.intro (Eq.refl (content ++ rest)) (Eq.refl content.length))
    rw [List.append_assoc, headed.read, List.append_assoc]
    simp only [typed, taken, back, acceptsExtension_iff.mpr admitted, Option.bind_eq_bind,
      Option.bind_some, Option.pure_def, if_true]
  | @Form.array _ items _ forms headed within =>
    have positive := headed.length_pos
    rw [List.length_append] at enough
    have read : readItems? fuel (depth + 1) items.length (forms ++ rest) = some (items, rest) :=
      within.read (by omega) (by omega) rest
    rw [List.append_assoc, headed.read]
    dsimp only
    rw [if_neg (by omega), read, Option.map_some]
  | @Form.map _ entries _ forms headed within =>
    have positive := headed.length_pos
    rw [List.length_append] at enough
    have read : readEntries? fuel (depth + 1) entries.length (forms ++ rest)
        = some (entries, rest) :=
      within.read (by omega) (by omega) rest
    rw [List.append_assoc, headed.read]
    dsimp only
    rw [if_neg (by omega), read, Option.map_some]

theorem Forms.read {room depth fuel : Nat} {items : List Value} {forms : Bytes}
    (formed : Forms room items forms) (shallow : depth + room ≤ maxDepth)
    (enough : 2 * forms.length + 1 ≤ fuel) (rest : Bytes) :
    readItems? fuel depth items.length (forms ++ rest) = some (items, rest) := by
  obtain ⟨fuel, rfl⟩ := Nat.exists_eq_succ_of_ne_zero (n := fuel) (by omega)
  match formed with
  | .nil => rw [List.length_nil, readItems?, List.nil_append]
  | .cons item items =>
    have positive := item.length_pos
    rw [List.length_append] at enough
    rw [List.length_cons, readItems?, List.append_assoc, item.read shallow (by omega),
      Option.bind_eq_bind, Option.bind_some]
    dsimp only
    rw [items.read shallow (by omega)]
    rfl

theorem EntryForms.read {room depth fuel : Nat} {entries : List (Value × Value)} {forms : Bytes}
    (formed : EntryForms room entries forms) (shallow : depth + room ≤ maxDepth)
    (enough : 2 * forms.length + 1 ≤ fuel) (rest : Bytes) :
    readEntries? fuel depth entries.length (forms ++ rest) = some (entries, rest) := by
  obtain ⟨fuel, rfl⟩ := Nat.exists_eq_succ_of_ne_zero (n := fuel) (by omega)
  match formed with
  | .nil => rw [List.length_nil, readEntries?, List.nil_append]
  | .cons isKey key value entries =>
    have keyPositive := key.length_pos
    rw [List.length_append, List.length_append] at enough
    rw [List.length_cons, readEntries?, List.append_assoc, key.read shallow (by omega),
      Option.bind_eq_bind, Option.bind_some]
    dsimp only
    rw [if_pos isKey, List.append_assoc, value.read shallow (by omega), Option.bind_some]
    dsimp only
    rw [entries.read shallow (by omega)]
    rfl

end

/-- A byte string is read as a value just if it is a form of the value, with nothing left over. -/
theorem read?_eq_some_iff {bytes : Bytes} {value : Value} :
    read? bytes = some value ↔ Form maxDepth value bytes := by
  unfold read?
  constructor
  · intro read
    split at read
    · next whole =>
      cases read
      obtain ⟨form, rfl, formed⟩ := (readsForms _).value whole
      rwa [List.append_nil]
    · cases read
  · intro formed
    have whole : readValue? (2 * bytes.length + 3) 0 (bytes ++ []) = some (value, []) :=
      formed.read (by omega) (by omega) []
    rw [List.append_nil] at whole
    rw [whole]

/-! ### How large integers are -/

/-- Integers have forms of eight bytes at most beside the first one. -/
theorem HeadForm.natAbs_lt {value : Int} {bytes : Bytes}
    (form : HeadForm (.done (.int value)) bytes) : value.natAbs < Nat.pow 2 64 := by
  cases form with
  | small below => exact Nat.lt_trans below (by decide)
  | negative _ below =>
    rw [Int.natAbs_neg, Int.natAbs_natCast]
    exact Nat.lt_of_le_of_lt below (by decide)
  | @natural _ width _ known below =>
    have narrow : width ≤ 8 := by
      simp at known
      omega
    rw [Int.natAbs_natCast]
    exact Nat.lt_of_lt_of_le below (Nat.pow_le_pow_right (by decide) narrow)
  | @integer _ width _ known fits =>
    have narrow : 8 * width - 1 ≤ 63 := by
      simp at known
      omega
    have power : Nat.pow 2 (8 * width - 1) ≤ Nat.pow 2 63 := Nat.pow_le_pow_right (by decide) narrow
    have room : Nat.pow 2 63 < Nat.pow 2 64 := by decide
    obtain ⟨low, high⟩ := fits
    omega

theorem Form.natAbs_lt {room : Nat} {value : Int} {bytes : Bytes}
    (form : Form room (.int value) bytes) : value.natAbs < Nat.pow 2 64 := by
  cases form with
  | done head => exact head.natAbs_lt

theorem EntryForms.form {room : Nat} {entries : List (Value × Value)} {bytes : Bytes}
    (forms : EntryForms room entries bytes) {key value : Value} (member : (key, value) ∈ entries) :
    ∃ bytes, Form room value bytes := by
  induction entries generalizing bytes with
  | nil => cases member
  | cons entry rest ih =>
    cases forms with
    | cons _ _ form others =>
      rcases List.mem_cons.mp member with same | later
      · cases same
        exact ⟨_, form⟩
      · exact ih others later

end Msgpack

end DhtRecords
