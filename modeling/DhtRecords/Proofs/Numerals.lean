/-
Numbers as they are written to be read back.

A decimal with a fraction or an exponent is spelled out by its parts
(`Spelling`). Every numeral with digits is written as one
(`exists_spelling`), and what people's strings and configuration files spell
that way is the same numeral (`Spelling.readNumeral_text`,
`Spelling.readNumber?_text`). So a number that reads back from its text reads
back from a file (`readNumber?_exactText`).
-/

import DhtRecords.Config.Reading
import DhtRecords.Proofs.Names
import Mathlib.Data.List.TakeWhile
import Mathlib.Tactic.Common

namespace DhtRecords

/-! ### Digits -/

/-- The value of a digit of seven-bit text. -/
def digitValue (c : Char) : Nat := c.toNat - 48

/-- A character that is no digit differs from digits. -/
theorem ne_of_isDigit {c other : Char} (digit : c.isDigit = true) (none : other.isDigit = false) :
    c ≠ other := by
  rintro rfl
  rw [digit] at none
  cases none

theorem Text.digit?_of_isDigit {c : Char} (digit : c.isDigit = true) :
    digit? c = some (digitValue c) := by
  have bounds := toNat_of_isDigit digit
  have first : (decide (48 ≤ c.toNat) && decide (c.toNat < 48 + 10)) = true := by
    simp only [Bool.and_eq_true, decide_eq_true_eq]
    omega
  have found : (digitZeros.find? fun first => first ≤ c.toNat && c.toNat < first + 10) = some 48 :=
    List.find?_cons_of_pos first
  rw [digit?, found]
  rfl

theorem Toml.digitBelow?_of_isDigit {c : Char} (digit : c.isDigit = true) :
    digitBelow? 10 c = some (digitValue c) := by
  have bounds := toNat_of_isDigit digit
  have within : '0' ≤ c ∧ c ≤ '9' := by
    simp only [Char.isDigit, Bool.and_eq_true, decide_eq_true_eq] at digit
    exact digit
  rw [digitBelow?, Hex.digit?, if_pos within]
  have small : c.toNat - 48 < 10 := by omega
  simp [small, digitValue]

/-- The number that a row of digits spells. -/
def digitsValue (ds : List Char) : Nat := Decimal.ofDigits (ds.map digitValue)

/-- A row of digits. -/
def AreDigits (ds : List Char) : Prop := ∀ c ∈ ds, c.isDigit = true

namespace AreDigits

variable {c : Char} {ds es : List Char}

theorem cons_iff : AreDigits (c :: ds) ↔ c.isDigit = true ∧ AreDigits ds := List.forall_mem_cons

theorem append (first : AreDigits ds) (second : AreDigits es) : AreDigits (ds ++ es) :=
  List.forall_mem_append.mpr ⟨first, second⟩

theorem zeros (count : Nat) : AreDigits (List.replicate count '0') := fun c member => by
  rw [List.eq_of_mem_replicate member]
  rfl

theorem toDigits (n : Nat) : AreDigits (Nat.toDigits 10 n) := fun _ member =>
  Nat.isDigit_of_mem_toDigits (by decide) (by decide) member

theorem subset (digits : AreDigits ds) (sub : es ⊆ ds) : AreDigits es := fun c member =>
  digits c (sub member)

end AreDigits

/-- Digits that belong together are read up to what is none of them. -/
theorem Toml.moreDigits_append {ds : List Char} (digits : AreDigits ds) {rest : List Char}
    (ends : ∀ c ∈ rest.head?, c ≠ '_' ∧ digitBelow? 10 c = none) :
    moreDigits 10 (ds ++ rest) = (ds.map digitValue, rest) := by
  induction ds with
  | nil =>
    cases rest with
    | nil => rfl
    | cons c rest =>
      obtain ⟨plain, none⟩ := ends c rfl
      rw [List.nil_append, moreDigits]
      · rw [none]
        rfl
      · rintro _ _ rfl _
        exact plain rfl
  | cons d ds ih =>
    obtain ⟨digit, digits⟩ := AreDigits.cons_iff.mp digits
    rw [List.cons_append, moreDigits, digitBelow?_of_isDigit digit]
    · simp only [ih digits, List.map_cons]
    · rintro _ _ rfl _
      cases digit

theorem Toml.readDigits?_append {ds : List Char} (digits : AreDigits ds) (present : ds ≠ [])
    {rest : List Char} (ends : ∀ c ∈ rest.head?, c ≠ '_' ∧ digitBelow? 10 c = none) :
    readDigits? 10 (ds ++ rest) = some (ds.map digitValue, rest) := by
  obtain ⟨d, ds, rfl⟩ := List.exists_cons_of_ne_nil present
  obtain ⟨digit, digits⟩ := AreDigits.cons_iff.mp digits
  rw [List.cons_append, readDigits?, digitBelow?_of_isDigit digit]
  simp only [moreDigits_append digits ends]
  rfl

theorem Decimal.separatedDigits?_eq {ds : List Char} (digits : AreDigits ds) (present : ds ≠ []) :
    separatedDigits? ds = some (ds.map digitValue) := by
  induction ds with
  | nil => exact absurd rfl present
  | cons d ds ih =>
    obtain ⟨digit, digits⟩ := AreDigits.cons_iff.mp digits
    cases ds with
    | nil => rw [separatedDigits?, Text.digit?_of_isDigit digit]; rfl
    | cons e ds =>
      rw [separatedDigits?, Text.digit?_of_isDigit digit, ih digits (List.cons_ne_nil e ds)]
      · rfl
      · rintro rfl
        cases (AreDigits.cons_iff.mp digits).1

/-- The characters of decimals. -/
def IsPlain (c : Char) : Prop := c.isDigit = true ∨ c = '.' ∨ c = 'e' ∨ c = '+' ∨ c = '-'

theorem IsPlain.bounds {c : Char} (plain : IsPlain c) : 43 ≤ c.toNat ∧ c.toNat ≤ 101 := by
  rcases plain with digit | rfl | rfl | rfl | rfl
  · have bounds := toNat_of_isDigit digit
    omega
  all_goals decide

/-- No control is among them. -/
theorem IsPlain.isControl {c : Char} (plain : IsPlain c) : Toml.isControl c = false := by
  have inside := plain.bounds
  simp only [Toml.isControl, Bool.or_eq_false_iff, Bool.and_eq_false_iff, decide_eq_false_iff_not,
    beq_eq_false_iff_ne]
  omega

namespace Toml

/-- What ends a value in a file: the end of its line, or, within a list, a comma or the end of the list. -/
def IsStop (c : Char) : Prop := c = '\n' ∨ c = ',' ∨ c = ']'

instance (c : Char) : Decidable (IsStop c) := inferInstanceAs (Decidable (_ ∨ _ ∨ _))

/-- What ends a row of digits in a file. -/
theorem ends_of_char {c : Char} (ends : c = '.' ∨ c = 'e' ∨ IsStop c) :
    c ≠ '_' ∧ digitBelow? 10 c = none := by
  rcases ends with rfl | rfl | rfl | rfl | rfl <;> decide

/-- Digits before the point are read if there is only one nought at their front, and it is alone. -/
theorem readWholePart?_append {ds : List Char} (digits : AreDigits ds)
    (leads : ds = ['0'] ∨ ∃ first more, ds = first :: more ∧ first ≠ '0') {rest : List Char}
    (ends : ∀ c ∈ rest.head?, c = '.' ∨ c = 'e' ∨ IsStop c) :
    readWholePart? (ds ++ rest) = some (ds.map digitValue, rest) := by
  rcases leads with rfl | ⟨first, more, rfl, nonzero⟩
  · rfl
  · rw [List.cons_append, readWholePart?]
    · exact readDigits?_append digits (List.cons_ne_nil _ _) fun c first => ends_of_char (ends c first)
    · intro _ zero
      exact nonzero (List.cons.inj zero).1

/-- Digits are read as far as they reach. -/
theorem exists_of_readPlaces? {ds rest after : List Char} (digits : AreDigits ds)
    (ends : ∀ c ∈ rest.head?, digitBelow? 10 c = none) {count : Nat} {places : List Nat}
    (reads : readPlaces? count (ds ++ rest) = some (places, after)) :
    ∃ left, AreDigits left ∧ after = left ++ rest := by
  induction count generalizing ds places with
  | zero =>
    obtain ⟨-, rfl⟩ := Prod.mk.inj (Option.some_inj.mp reads)
    exact ⟨ds, digits, rfl⟩
  | succ count ih =>
    cases ds with
    | nil =>
      cases rest with
      | nil => cases reads
      | cons c rest =>
        rw [List.nil_append, readPlaces?, ends c rfl] at reads
        cases reads
    | cons d ds =>
      obtain ⟨digit, others⟩ := AreDigits.cons_iff.mp digits
      rw [List.cons_append, readPlaces?, digitBelow?_of_isDigit digit, Option.bind_eq_bind,
        Option.bind_some] at reads
      obtain ⟨⟨more, beyond⟩, found, same⟩ := Option.bind_eq_some_iff.mp reads
      obtain ⟨-, rfl⟩ := Prod.mk.inj (Option.some_inj.mp same)
      exact ih others found

theorem exists_of_readTwo? {ds rest after : List Char} (digits : AreDigits ds)
    (ends : ∀ c ∈ rest.head?, digitBelow? 10 c = none) {least most number : Nat}
    (reads : readTwo? least most (ds ++ rest) = some (number, after)) :
    ∃ left, AreDigits left ∧ after = left ++ rest := by
  obtain ⟨⟨places, beyond⟩, found, within⟩ := Option.bind_eq_some_iff.mp reads
  obtain ⟨-, same⟩ := Option.ite_none_right_eq_some.mp within
  obtain ⟨-, rfl⟩ := Prod.mk.inj (Option.some_inj.mp same)
  exact exists_of_readPlaces? digits ends found

/-- No mark is among digits. -/
theorem skipMark?_append {ds rest : List Char} (digits : AreDigits ds) {mark : Char}
    (other : mark.isDigit = false) (ends : ∀ c ∈ rest.head?, c ≠ mark) :
    skipMark? mark (ds ++ rest) = none := by
  cases ds with
  | nil =>
    cases rest with
    | nil => rfl
    | cons c rest => exact if_neg (ends c rfl)
  | cons d ds => exact if_neg (ne_of_isDigit (AreDigits.cons_iff.mp digits).1 other)

/-- Neither a day nor a time starts with digits that a number ends or goes on after. -/
theorem readMoment?_digits {ds rest : List Char} (digits : AreDigits ds)
    (ends : ∀ c ∈ rest.head?, c = '.' ∨ c = 'e' ∨ IsStop c) : readMoment? (ds ++ rest) = none := by
  have stops : ∀ c ∈ rest.head?, digitBelow? 10 c = none := fun c first => (ends_of_char (ends c first)).2
  have unmarked (mark : Char) (other : mark.isDigit = false)
      (goes : ¬ (mark = '.' ∨ mark = 'e' ∨ IsStop mark)) {left : List Char} (digits : AreDigits left) :
      skipMark? mark (left ++ rest) = none :=
    skipMark?_append digits other fun c first same => goes (same ▸ ends c first)
  have dayless : readDay? (ds ++ rest) = none := by
    rw [readDay?, Option.bind_eq_bind, Option.bind_eq_none_iff]
    rintro ⟨year, after⟩ read
    obtain ⟨left, digits, rfl⟩ := exists_of_readPlaces? digits stops read
    dsimp only
    rw [unmarked '-' rfl (by unfold IsStop; decide) digits]
    rfl
  have clockless : readClock? (ds ++ rest) = none := by
    rw [readClock?, Option.bind_eq_bind, Option.bind_eq_none_iff]
    rintro ⟨hour, after⟩ read
    obtain ⟨left, digits, rfl⟩ := exists_of_readTwo? digits stops read
    dsimp only
    rw [unmarked ':' rfl (by unfold IsStop; decide) digits]
    rfl
  rw [readMoment?, dayless, clockless, Option.map_none]

/-- A number of these characters is a decimal, with a sign or without. -/
theorem readNumber?_of_plain {cs tail : List Char} {stop : Char} (stops : IsStop stop) (present : cs ≠ [])
    (plain : ∀ c ∈ cs, IsPlain c) :
    readNumber? (cs ++ stop :: tail) =
      (readDecimal? (readSign (cs ++ stop :: tail)).1 (readSign (cs ++ stop :: tail)).2 <|>
        readNamed? (readSign (cs ++ stop :: tail)).1 (readSign (cs ++ stop :: tail)).2) := by
  have unbased {mark : Char} (other : ¬ IsPlain mark) (inside : ¬ IsStop mark) (rest : List Char) :
      cs ++ stop :: tail ≠ '0' :: mark :: rest := by
    intro same
    obtain ⟨first, more, rfl⟩ := List.exists_cons_of_ne_nil present
    have second := (List.cons.inj same).2
    cases more with
    | nil => exact inside ((List.cons.inj second).1 ▸ stops)
    | cons c more =>
      rw [(List.cons.inj second).1] at plain
      exact other (plain mark (List.mem_cons_of_mem _ (List.mem_cons_self ..)))
  rw [readNumber?]
  · exact unbased (by unfold IsPlain; decide) (by unfold IsStop; decide)
  · exact unbased (by unfold IsPlain; decide) (by unfold IsStop; decide)
  · exact unbased (by unfold IsPlain; decide) (by unfold IsStop; decide)

end Toml

/-! ### Decimals -/

/-- A decimal by its parts: it has a fraction or an exponent, and no digits before a first nought. -/
structure Spelling where
  negative : Bool
  whole : List Char
  fraction : List Char
  /-- Whether the exponent is negative, and its digits. -/
  exponent : Option (Bool × List Char)
  whole_digits : AreDigits whole
  fraction_digits : AreDigits fraction
  exponent_digits : ∀ part ∈ exponent, AreDigits part.2 ∧ part.2 ≠ []
  leads : whole = ['0'] ∨ ∃ first rest, whole = first :: rest ∧ first ≠ '0'
  marked : fraction = [] → exponent.isSome = true

namespace Spelling

variable (spelling : Spelling)

def fractionText : List Char := if spelling.fraction = [] then [] else '.' :: spelling.fraction

def exponentText : List Char :=
  match spelling.exponent with
  | none => []
  | some (negative, digits) => 'e' :: (if negative then '-' else '+') :: digits

/-- The decimal without its sign. -/
def body : List Char := spelling.whole ++ (spelling.fractionText ++ spelling.exponentText)

def text : List Char := if spelling.negative then '-' :: spelling.body else spelling.body

def power : Int :=
  match spelling.exponent with
  | none => 0
  | some (negative, digits) => if negative then -(digitsValue digits : Int) else digitsValue digits

/-- What the decimal stands for. -/
def numeral : Numeral :=
  .finite spelling.negative (digitsValue (spelling.whole ++ spelling.fraction))
    (spelling.power - spelling.fraction.length)

theorem whole_ne_nil : spelling.whole ≠ [] := by
  rcases spelling.leads with zero | ⟨first, rest, same, -⟩
  · rw [zero]
    exact List.cons_ne_nil _ _
  · rw [same]
    exact List.cons_ne_nil _ _

/-- The first character of a decimal after its sign is a digit. -/
theorem exists_body : ∃ first rest, spelling.body = first :: rest ∧ first.isDigit = true := by
  obtain ⟨first, rest, same⟩ := List.exists_cons_of_ne_nil spelling.whole_ne_nil
  have digit := spelling.whole_digits first (same ▸ List.mem_cons_self ..)
  exact ⟨first, rest ++ (spelling.fractionText ++ spelling.exponentText), by rw [body, same]; rfl, digit⟩

/-- The characters of a decimal. -/
theorem isPlain_of_mem {c : Char} (member : c ∈ spelling.text) : IsPlain c := by
  have inBody (member : c ∈ spelling.body) : IsPlain c := by
    rcases List.mem_append.mp member with whole | more
    · exact .inl (spelling.whole_digits c whole)
    rcases List.mem_append.mp more with fraction | exponent
    · unfold fractionText at fraction
      split at fraction
      · cases fraction
      · rcases List.mem_cons.mp fraction with rfl | digit
        · exact .inr (.inl rfl)
        · exact .inl (spelling.fraction_digits c digit)
    · unfold exponentText at exponent
      split at exponent
      · cases exponent
      · next negative digits part =>
        have areDigits := (spelling.exponent_digits (negative, digits) part).1
        rcases List.mem_cons.mp exponent with rfl | exponent
        · exact .inr (.inr (.inl rfl))
        rcases List.mem_cons.mp exponent with rfl | digit
        · cases negative
          · exact .inr (.inr (.inr (.inl rfl)))
          · exact .inr (.inr (.inr (.inr rfl)))
        · exact .inl (areDigits c digit)
  unfold text at member
  split at member
  · rcases List.mem_cons.mp member with rfl | member
    · exact .inr (.inr (.inr (.inr rfl)))
    · exact inBody member
  · exact inBody member

/-! ### Decimals in files -/

section

open Toml

variable {stop : Char} (stops : IsStop stop) {tail : List Char}

include stops

theorem head?_exponentText : ∀ c ∈ (spelling.exponentText ++ stop :: tail).head?, c = 'e' ∨ IsStop c := by
  intro c first
  unfold exponentText at first
  split at first <;> simp only [List.nil_append, List.cons_append, List.head?_cons, Option.mem_some_iff]
    at first
  · exact .inr (first ▸ stops)
  · exact .inl first.symm

theorem head?_fractionText : ∀ c ∈ (spelling.fractionText ++ (spelling.exponentText ++ stop :: tail)).head?,
    c = '.' ∨ c = 'e' ∨ IsStop c := by
  intro c first
  unfold fractionText at first
  split at first
  · exact .inr (spelling.head?_exponentText stops c first)
  · exact .inl (Option.mem_some_iff.mp first).symm

theorem readFraction_fractionText :
    readFraction (spelling.fractionText ++ (spelling.exponentText ++ stop :: tail))
      = (spelling.fraction.map digitValue, spelling.exponentText ++ stop :: tail) := by
  unfold fractionText
  split
  · next none =>
    rw [none, List.nil_append, List.map_nil, readFraction]
    intro rest same
    have point : '.' ∈ (spelling.exponentText ++ stop :: tail).head? := by rw [same]; rfl
    exact absurd (spelling.head?_exponentText stops '.' point) (by decide)
  · next present =>
    rw [List.cons_append, readFraction,
      readDigits?_append spelling.fraction_digits present fun c first =>
        ends_of_char (.inr (spelling.head?_exponentText stops c first))]
    rfl

theorem readExponent_exponentText : readExponent (spelling.exponentText ++ stop :: tail)
    = (spelling.exponent.map fun _ => spelling.power, stop :: tail) := by
  unfold exponentText power
  split
  · next none =>
    rw [none]
    rcases stops with rfl | rfl | rfl <;> rfl
  · next negative digits part =>
    obtain ⟨areDigits, present⟩ := spelling.exponent_digits (negative, digits) part
    have read : readDigits? 10 (digits ++ stop :: tail) = some (digits.map digitValue, stop :: tail) :=
      readDigits?_append areDigits present fun c first =>
        ends_of_char (.inr (.inr (Option.mem_some_iff.mp first ▸ stops)))
    have sign : readSign ((if negative then '-' else '+') :: (digits ++ stop :: tail))
        = (negative, digits ++ stop :: tail) := by
      cases negative <;> rfl
    rw [part, List.cons_append, List.cons_append, readExponent, sign]
    simp only [read]
    rfl

theorem readDecimal?_body (negative : Bool) :
    readDecimal? negative (spelling.body ++ stop :: tail)
      = some (.numeral (.finite negative (digitsValue (spelling.whole ++ spelling.fraction))
          (spelling.power - spelling.fraction.length)), stop :: tail) := by
  have marked : ¬ ((spelling.fraction.map digitValue).isEmpty = true ∧
      (spelling.exponent.map fun _ => spelling.power).isNone = true) := by
    rintro ⟨none, unmarked⟩
    rw [List.isEmpty_iff, List.map_eq_nil_iff] at none
    rw [Option.isNone_map, Option.isNone_iff_eq_none] at unmarked
    have present := spelling.marked none
    rw [unmarked] at present
    cases present
  have power : (spelling.exponent.map fun _ => spelling.power).getD 0 = spelling.power := by
    unfold Spelling.power
    cases spelling.exponent <;> rfl
  rw [body, List.append_assoc, List.append_assoc, readDecimal?,
    readWholePart?_append spelling.whole_digits spelling.leads (spelling.head?_fractionText stops)]
  simp only [Option.bind_eq_bind, Option.bind_some, spelling.readFraction_fractionText stops,
    spelling.readExponent_exponentText stops]
  rw [if_neg marked, power, List.length_map, ← List.map_append]
  rfl

omit stops in
theorem text_ne_nil : spelling.text ≠ [] := by
  obtain ⟨first, rest, same, -⟩ := spelling.exists_body
  unfold text
  split
  · exact List.cons_ne_nil _ _
  · rw [same]
    exact List.cons_ne_nil _ _

omit stops in
theorem readSign_text : readSign (spelling.text ++ stop :: tail)
    = (spelling.negative, spelling.body ++ stop :: tail) := by
  unfold text
  split
  · next negative =>
    rw [negative]
    rfl
  · next positive =>
    obtain ⟨first, rest, same, digit⟩ := spelling.exists_body
    rw [Bool.eq_false_iff.mpr positive, same, List.cons_append, readSign]
    · rintro _ ⟨⟩
      cases digit
    · rintro _ ⟨⟩
      cases digit

/-- A decimal in a file reads as its numeral. -/
theorem readNumber?_text :
    readNumber? (spelling.text ++ stop :: tail) = some (.numeral spelling.numeral, stop :: tail) := by
  rw [readNumber?_of_plain stops spelling.text_ne_nil fun c => spelling.isPlain_of_mem, readSign_text,
    spelling.readDecimal?_body stops]
  rfl

end

/-! ### Decimals in strings -/

section

open Decimal

theorem splitAtFirst_of_absent {test : Char → Bool} {cs : List Char}
    (absent : ∀ c ∈ cs, test c = false) : splitAtFirst test cs = (cs, none) := by
  have all : cs.dropWhile (fun c => !test c) = [] :=
    List.dropWhile_eq_nil_iff.mpr fun c member => by rw [absent c member]; rfl
  rw [splitAtFirst, all]

theorem splitAtFirst_append {test : Char → Bool} {cs : List Char} (absent : ∀ c ∈ cs, test c = false)
    {mark : Char} (marks : test mark = true) (rest : List Char) :
    splitAtFirst test (cs ++ mark :: rest) = (cs, some rest) := by
  have passed : ∀ c ∈ cs, (!test c) = true := fun c member => by rw [absent c member]; rfl
  rw [splitAtFirst, List.dropWhile_append_of_pos passed, List.takeWhile_append_of_pos passed]
  simp [marks]

/-- Digits are not among the characters that mark the parts of a decimal. -/
theorem absent_of_areDigits {ds : List Char} (digits : AreDigits ds) {mark : Char}
    (none : mark.isDigit = false) : ∀ c ∈ ds, decide (c = mark) = false := fun c member =>
  decide_eq_false (ne_of_isDigit (digits c member) none)

theorem splitAtFirst_mantissa : splitAtFirst (· = '.') (spelling.whole ++ spelling.fractionText)
    = (spelling.whole, if spelling.fraction = [] then none else some spelling.fraction) := by
  have absent : ∀ c ∈ spelling.whole, decide (c = '.') = false :=
    absent_of_areDigits spelling.whole_digits rfl
  unfold fractionText
  split
  · rw [List.append_nil]
    exact splitAtFirst_of_absent absent
  · exact splitAtFirst_append absent rfl _

theorem splitAtFirst_body : splitAtFirst (· = 'e') spelling.body
    = (spelling.whole ++ spelling.fractionText,
      spelling.exponent.map fun part => (if part.1 then '-' else '+') :: part.2) := by
  have absent : ∀ c ∈ spelling.whole ++ spelling.fractionText, decide (c = 'e') = false := by
    refine List.forall_mem_append.mpr ⟨absent_of_areDigits spelling.whole_digits rfl, ?_⟩
    unfold fractionText
    split
    · exact nofun
    · exact List.forall_mem_cons.mpr ⟨rfl, absent_of_areDigits spelling.fraction_digits rfl⟩
  rw [body, ← List.append_assoc]
  unfold exponentText
  split
  · next none =>
    rw [none, List.append_nil]
    exact splitAtFirst_of_absent absent
  · next negative digits part =>
    rw [part]
    exact splitAtFirst_append absent rfl _

theorem readExponent?_part {negative : Bool} {digits : List Char}
    (part : spelling.exponent = some (negative, digits)) :
    readExponent? ((if negative then '-' else '+') :: digits) = some spelling.power := by
  obtain ⟨areDigits, present⟩ := spelling.exponent_digits (negative, digits) part
  have sign : splitSign ((if negative then '-' else '+') :: digits) = (negative, digits) := by
    cases negative <;> rfl
  rw [readExponent?, sign, power, part]
  simp only [separatedDigits?_eq areDigits present]
  rfl

theorem readUnsigned?_body (negative : Bool) :
    readUnsigned? negative spelling.body
      = some (.finite negative (digitsValue (spelling.whole ++ spelling.fraction))
          (spelling.power - spelling.fraction.length)) := by
  have whole : optionalDigits? spelling.whole = some (spelling.whole.map digitValue) := by
    rw [optionalDigits?]
    · exact separatedDigits?_eq spelling.whole_digits spelling.whole_ne_nil
    · exact spelling.whole_ne_nil
  have fraction : optionalDigits? ((if spelling.fraction = [] then none else some spelling.fraction).getD [])
      = some (spelling.fraction.map digitValue) := by
    split
    · next none => rw [none]; rfl
    · next present =>
      rw [Option.getD_some, optionalDigits?]
      · exact separatedDigits?_eq spelling.fraction_digits present
      · exact present
  have digits : (!(spelling.whole.map digitValue ++ spelling.fraction.map digitValue).isEmpty) = true := by
    simp [spelling.whole_ne_nil]
  rw [readUnsigned?, splitAtFirst_body]
  simp only [splitAtFirst_mantissa, whole, fraction, Option.bind_eq_bind, Option.bind_some, digits, guard,
    if_true]
  rw [List.length_map, ← List.map_append]
  cases part : spelling.exponent with
  | none =>
    rw [power, part]
    rfl
  | some sized =>
    rw [Option.map_some]
    simp only [spelling.readExponent?_part part]
    rfl

theorem toLower_of_mem {c : Char} (member : c ∈ spelling.text) : c.toLower = c := by
  rcases spelling.isPlain_of_mem member with digit | rfl | rfl | rfl | rfl
  · have small := (toNat_of_isDigit digit).2
    unfold Char.toLower
    rw [dif_neg]
    rintro ⟨large, -⟩
    have large : 65 ≤ c.toNat := UInt32.le_iff_toNat_le.mp large
    omega
  all_goals rfl

theorem not_blank_of_mem {c : Char} (member : c ∈ spelling.text) : Text.isNumberBlank c = false := by
  have inside := (spelling.isPlain_of_mem member).bounds
  have space : (c == ' ') = false := by
    rw [beq_eq_false_iff_ne]
    rintro rfl
    exact absurd inside (by decide)
  simp only [Text.isNumberBlank, Text.isAsciiBlank, Text.isWideBlank, space, Bool.or_eq_false_iff,
    Bool.and_eq_false_iff, decide_eq_false_iff_not, beq_eq_false_iff_ne, and_true]
  omega

/-- A decimal in a string reads as its numeral. -/
theorem readNumeral_text : readNumeral (String.ofList spelling.text) = .ok spelling.numeral := by
  obtain ⟨first, rest, same, digit⟩ := spelling.exists_body
  have trimmed : Text.trim Text.isNumberBlank spelling.text = spelling.text := by
    have whole {cs : List Char} (plain : ∀ c ∈ cs, Text.isNumberBlank c = false) :
        cs.dropWhile Text.isNumberBlank = cs :=
      List.dropWhile_eq_self_iff.mpr fun some => by simp [plain _ (List.getElem_mem some)]
    rw [Text.trim, whole fun c => spelling.not_blank_of_mem,
      whole fun c member => spelling.not_blank_of_mem (List.mem_reverse.mp member), List.reverse_reverse]
  have lower : spelling.text.map Char.toLower = spelling.text :=
    (List.map_congr_left fun c => spelling.toLower_of_mem).trans (List.map_id _)
  have sign : splitSign spelling.text = (spelling.negative, spelling.body) := by
    unfold text
    split
    · next negative => rw [negative]; rfl
    · next positive =>
      rw [Bool.eq_false_iff.mpr positive, same, splitSign]
      · rintro _ ⟨⟩
        cases digit
      · rintro _ ⟨⟩
        cases digit
  have named {c : Char} (letter : c.isDigit = false) (cs : List Char) : spelling.body ≠ c :: cs := by
    rw [same]
    rintro ⟨⟩
    rw [digit] at letter
    cases letter
  rw [readNumeral, String.toList_ofList, trimmed, lower, sign]
  dsimp only
  rw [if_neg, if_neg, readUnsigned?_body]
  · rfl
  · exact named rfl _
  · rintro (short | long)
    · exact named rfl _ short
    · exact named rfl _ long

end

end Spelling

/-! ### Numerals that are written -/

theorem first_ne_zero {n : Nat} (positive : n ≠ 0) (rest : List Char) : Nat.toDigits 10 n ≠ '0' :: rest := by
  induction n using Nat.strong_induction_on generalizing rest with
  | _ n ih =>
    rcases Nat.lt_or_ge n 10 with small | large
    · rw [Nat.toDigits_of_lt_base small]
      intro same
      have digit : ∀ m < 10, m ≠ 0 → m.digitChar ≠ '0' := by decide
      exact digit n small positive (List.cons.inj same).1
    · rw [Nat.toDigits_of_base_le (by decide) large]
      intro same
      obtain ⟨first, more, high⟩ := List.exists_cons_of_ne_nil (Nat.toDigits_ne_nil (n := n / 10) (b := 10))
      rw [high, List.cons_append] at same
      rw [(List.cons.inj same).1] at high
      exact ih (n / 10) (by omega) (by omega) more high

namespace Numeral

/-- Of a number that is not nought, digits are left without the noughts at the end, and the first is
none. -/
theorem trimZeros_digitsOf {n : Nat} (positive : n ≠ 0) (exponent : Int) :
    ∃ first more scale, trimZeros (digitsOf n) exponent = (first :: more, scale) ∧ first ≠ '0' ∧
      AreDigits (first :: more) := by
  obtain ⟨first, rest, digits⟩ := List.exists_cons_of_ne_nil (Nat.toDigits_ne_nil (n := n) (b := 10))
  have nonzero : first ≠ '0' := by
    rintro rfl
    exact first_ne_zero positive rest digits
  have areDigits : AreDigits (first :: rest) := digits ▸ AreDigits.toDigits n
  have kept : (((first :: rest).reverse.dropWhile (· = '0')).reverse)
      = first :: (rest.reverse.dropWhile (· = '0')).reverse := by
    have stops : [first].dropWhile (· = '0') = [first] := List.dropWhile_cons_of_neg (by simpa using nonzero)
    rw [List.reverse_cons, List.dropWhile_append, stops]
    split
    · next all => rw [List.isEmpty_iff.mp all]; rfl
    · rw [List.reverse_append]
      rfl
  set more := (rest.reverse.dropWhile (· = '0')).reverse
  refine ⟨first, more, exponent + ((first :: rest).length - (first :: more).length : Nat), ?_, nonzero,
    areDigits.subset ?_⟩
  · rw [trimZeros, digitsOf, digits, kept]
    rfl
  · refine List.cons_subset_cons _ fun c member => ?_
    exact List.mem_reverse.mp ((List.dropWhile_suffix _).subset (List.mem_reverse.mp member))

theorem areDigits_writeExponent (exponent : Int) : ∃ digits, AreDigits digits ∧ digits ≠ [] ∧
    writeExponent exponent = (if exponent < 0 then '-' else '+') :: digits := by
  refine ⟨_, (AreDigits.zeros _).append (AreDigits.toDigits exponent.natAbs), ?_, rfl⟩
  exact List.append_ne_nil_of_right_ne_nil _ Nat.toDigits_ne_nil

/-- Digits that do not start with a nought are written as a decimal. -/
theorem exists_spelling_digits (negative : Bool) {first : Char} {more : List Char} (nonzero : first ≠ '0')
    (digits : AreDigits (first :: more)) (leading : Int) : ∃ spelling : Spelling,
      spelling.negative = negative ∧ writeDigits .exact (first :: more) leading = spelling.body := by
  have leads (rest : List Char) : first :: rest = ['0'] ∨
      ∃ c cs, first :: rest = c :: cs ∧ c ≠ '0' := .inr ⟨first, rest, rfl, nonzero⟩
  unfold writeDigits
  split
  · split
    · refine ⟨⟨negative, ['0'], List.replicate (leading.natAbs - 1) '0' ++ first :: more, none,
        AreDigits.zeros 1, (AreDigits.zeros _).append digits, nofun, .inl rfl, fun none => ?_⟩, rfl, ?_⟩
      · cases (List.append_eq_nil_iff.mp none).2
      · simp [Spelling.body, Spelling.fractionText, Spelling.exponentText]
    · dsimp only
      split
      · refine ⟨⟨negative, first :: more ++ List.replicate (leading.toNat + 1 - (first :: more).length) '0',
          ['0'], none, digits.append (AreDigits.zeros _), AreDigits.zeros 1, nofun, leads _, nofun⟩, rfl, ?_⟩
        simp [Spelling.body, Spelling.fractionText, Spelling.exponentText, Layout.exact]
      · next long =>
        have some : (first :: more).drop (leading.toNat + 1) ≠ [] := by
          rw [Ne, List.drop_eq_nil_iff]
          exact long
        refine ⟨⟨negative, (first :: more).take (leading.toNat + 1),
          (first :: more).drop (leading.toNat + 1), none, digits.subset (List.take_subset ..),
          digits.subset (List.drop_subset ..), nofun, leads _, fun none => absurd none some⟩, rfl, ?_⟩
        rw [Spelling.body, Spelling.fractionText, if_neg some, Spelling.exponentText, List.append_nil]
  · obtain ⟨exponent, areDigits, present, written⟩ := areDigits_writeExponent leading
    have part : ∀ part ∈ some (decide (leading < 0), exponent), AreDigits part.2 ∧ part.2 ≠ [] := by
      rintro _ ⟨⟩
      exact ⟨areDigits, present⟩
    rw [written]
    have ofMore := (AreDigits.cons_iff.mp digits).2
    refine ⟨⟨negative, [first], more, some (leading < 0, exponent), digits.subset (by simp), ofMore, part,
      leads _, fun _ => rfl⟩, rfl, ?_⟩
    cases more with
    | nil => simp [Spelling.body, Spelling.fractionText, Spelling.exponentText]
    | cons second rest => simp [Spelling.body, Spelling.fractionText, Spelling.exponentText]

/-- A numeral with digits is written as a decimal. -/
theorem exists_spelling (negative : Bool) (digits : Nat) (exponent : Int) :
    ∃ spelling : Spelling, write .exact (finite negative digits exponent) = spelling.text := by
  by_cases zero : digits = 0
  · subst zero
    exact ⟨⟨negative, ['0'], ['0'], none, AreDigits.zeros 1, AreDigits.zeros 1, nofun, .inl rfl, nofun⟩, rfl⟩
  · obtain ⟨first, more, scale, trimmed, nonzero, areDigits⟩ := trimZeros_digitsOf zero exponent
    obtain ⟨spelling, sign, body⟩ := exists_spelling_digits negative nonzero areDigits
      (scale + ((first :: more).length - 1 : Nat))
    refine ⟨spelling, ?_⟩
    rw [write, trimmed]
    dsimp only
    rw [body, Spelling.text, sign]

end Numeral

/-- The characters that numbers in files start with. -/
def IsLead (c : Char) : Prop := c.isDigit = true ∨ c = '-' ∨ c = 'i' ∨ c = 'n'

theorem Spelling.exists_text (spelling : Spelling) :
    ∃ first rest, spelling.text = first :: rest ∧ IsLead first := by
  unfold text
  split
  · exact ⟨'-', spelling.body, rfl, .inr (.inl rfl)⟩
  · obtain ⟨first, rest, same, digit⟩ := spelling.exists_body
    exact ⟨first, rest, same, .inl digit⟩

namespace Toml

/-- What is written of a number to be read back is read from a file as it is read from a string. -/
theorem readNumber?_exactText {τ : Type} [Quantity τ] {x : τ}
    (restored : (Decimal.readNumeral (Quantity.exactText x)).map Quantity.ofNumeral = .ok x)
    {stop : Char} (stops : IsStop stop) (tail : List Char) :
    ∃ numeral, readNumber? ((Quantity.exactText x).toList ++ stop :: tail)
      = some (.numeral numeral, stop :: tail) ∧ Quantity.ofNumeral numeral = x := by
  unfold Quantity.exactText at restored ⊢
  rw [String.toList_ofList]
  generalize Quantity.shortest x = shortest at restored ⊢
  cases shortest with
  | finite negative digits exponent =>
    obtain ⟨spelling, written⟩ := Numeral.exists_spelling negative digits exponent
    rw [written] at restored ⊢
    rw [spelling.readNumeral_text] at restored
    exact ⟨spelling.numeral, spelling.readNumber?_text stops, Except.ok.inj restored⟩
  | infinite negative =>
    rcases stops with rfl | rfl | rfl <;> cases negative <;> exact ⟨_, rfl, Except.ok.inj restored⟩
  | undefined => rcases stops with rfl | rfl | rfl <;> exact ⟨_, rfl, Except.ok.inj restored⟩

/-- What is written of a number to be read back is neither a day nor a time. -/
theorem readMoment?_exactText {τ : Type} [Quantity τ] (x : τ) {stop : Char} (stops : IsStop stop)
    (tail : List Char) : readMoment? ((Quantity.exactText x).toList ++ stop :: tail) = none := by
  rw [Quantity.exactText, String.toList_ofList]
  cases Quantity.shortest x with
  | finite negative digits exponent =>
    obtain ⟨spelling, written⟩ := Numeral.exists_spelling negative digits exponent
    rw [written, Spelling.text]
    split
    · rfl
    · rw [Spelling.body, List.append_assoc, List.append_assoc]
      exact readMoment?_digits spelling.whole_digits (spelling.head?_fractionText stops)
  | infinite negative => cases negative <;> rfl
  | undefined => rfl

/-- Characters without controls, looked through one by one. -/
theorem clean_of_any {cs : List Char} (none : cs.any isControl = false) :
    ∀ c ∈ cs, isControl c = false := fun c member =>
  eq_false_of_ne_true (List.any_eq_false.mp none c member)

/-- What is written of a number to be read back starts like a number and has no control. -/
theorem exists_exactText {τ : Type} [Quantity τ] (x : τ) :
    ∃ first rest, (Quantity.exactText x).toList = first :: rest ∧ IsLead first ∧
      ∀ c ∈ first :: rest, isControl c = false := by
  rw [Quantity.exactText, String.toList_ofList]
  cases Quantity.shortest x with
  | finite negative digits exponent =>
    obtain ⟨spelling, written⟩ := Numeral.exists_spelling negative digits exponent
    obtain ⟨first, rest, same, lead⟩ := spelling.exists_text
    refine ⟨first, rest, written.trans same, lead, fun c member => ?_⟩
    exact (spelling.isPlain_of_mem (same ▸ member)).isControl
  | infinite negative =>
    cases negative
    · exact ⟨'i', ['n', 'f'], rfl, by unfold IsLead; decide, clean_of_any rfl⟩
    · exact ⟨'-', ['i', 'n', 'f'], rfl, by unfold IsLead; decide, clean_of_any rfl⟩
  | undefined => exact ⟨'n', ['a', 'n'], rfl, by unfold IsLead; decide, clean_of_any rfl⟩

end Toml

/-! ### Integers that are written -/

theorem isPlain_of_mem_toString {value : Int} {c : Char} (member : c ∈ (toString value).toList) :
    IsPlain c := by
  rcases sign_or_digit member with rfl | digit
  · exact .inr (.inr (.inr (.inr rfl)))
  · exact .inl digit

/-- What is written of an integer starts like a number. -/
theorem exists_toString (value : Int) :
    ∃ first rest, (toString value).toList = first :: rest ∧ IsLead first := by
  rw [toList_toString]
  split
  · exact ⟨'-', _, rfl, .inr (.inl rfl)⟩
  · obtain ⟨first, rest, digits⟩ :=
      List.exists_cons_of_ne_nil (Nat.toDigits_ne_nil (n := value.natAbs) (b := 10))
    refine ⟨first, rest, digits, .inl (AreDigits.toDigits value.natAbs first ?_)⟩
    rw [digits]
    exact List.mem_cons_self ..

theorem digitsValue_toDigits (n : Nat) : digitsValue (Nat.toDigits 10 n) = n := by
  have spelled := @Nat.ofDigitChars_ten_toDigits n
  rw [Nat.ofDigitChars_eq_foldl] at spelled
  rw [digitsValue, Decimal.ofDigits, List.foldl_map]
  refine Eq.trans (congrFun (congrFun (congrArg List.foldl ?_) 0) _) spelled
  funext value c
  rw [Nat.mul_comm]
  rfl

theorem leads_toDigits (n : Nat) : Nat.toDigits 10 n = ['0'] ∨
    ∃ first more, Nat.toDigits 10 n = first :: more ∧ first ≠ '0' := by
  by_cases zero : n = 0
  · exact .inl (zero ▸ Nat.toDigits_zero 10)
  · obtain ⟨first, more, digits⟩ := List.exists_cons_of_ne_nil (Nat.toDigits_ne_nil (n := n) (b := 10))
    refine .inr ⟨first, more, digits, ?_⟩
    rintro rfl
    exact first_ne_zero zero more digits

/-- What is written of an integer is neither a day nor a time. -/
theorem Toml.readMoment?_toString (value : Int) {stop : Char} (stops : IsStop stop) (tail : List Char) :
    readMoment? ((toString value).toList ++ stop :: tail) = none := by
  rw [toList_toString]
  split
  · rfl
  · exact readMoment?_digits (AreDigits.toDigits _) fun c first =>
      .inr (.inr (Option.mem_some_iff.mp first ▸ stops))

/-- An integer in a file reads as itself. -/
theorem Toml.readNumber?_toString (value : Int) {stop : Char} (stops : IsStop stop) (tail : List Char) :
    readNumber? ((toString value).toList ++ stop :: tail)
      = some (.integer value (Nat.toDigits 10 value.natAbs).length, stop :: tail) := by
  obtain ⟨first, rest, same, -⟩ := exists_toString value
  rw [readNumber?_of_plain stops (by rw [same]; exact List.cons_ne_nil _ _) fun c => isPlain_of_mem_toString]
  have sign : readSign ((toString value).toList ++ stop :: tail)
      = (decide (value < 0), Nat.toDigits 10 value.natAbs ++ stop :: tail) := by
    rw [toList_toString]
    split
    · next negative => rw [decide_eq_true negative]; rfl
    · next natural =>
      obtain ⟨first, rest, digits⟩ :=
        List.exists_cons_of_ne_nil (Nat.toDigits_ne_nil (n := value.natAbs) (b := 10))
      have digit : first.isDigit = true :=
        AreDigits.toDigits value.natAbs first (digits ▸ List.mem_cons_self ..)
      rw [decide_eq_false natural, digits, List.cons_append, readSign]
      · rintro _ ⟨⟩
        cases digit
      · rintro _ ⟨⟩
        cases digit
  have decimal : readDecimal? (decide (value < 0)) (Nat.toDigits 10 value.natAbs ++ stop :: tail)
      = some (.integer value (Nat.toDigits 10 value.natAbs).length, stop :: tail) := by
    have ends (c : Char) (first : c ∈ (stop :: tail).head?) : c = '.' ∨ c = 'e' ∨ IsStop c :=
      .inr (.inr (Option.mem_some_iff.mp first ▸ stops))
    rw [readDecimal?, readWholePart?_append (AreDigits.toDigits _) (leads_toDigits _) ends]
    have size : ofDigits 10 ((Nat.toDigits 10 value.natAbs).map digitValue ++ []) = value.natAbs := by
      rw [List.append_nil]
      exact digitsValue_toDigits value.natAbs
    have pointless : readFraction (stop :: tail) = ([], stop :: tail) := by
      rcases stops with rfl | rfl | rfl <;> rfl
    have unmarked : readExponent (stop :: tail) = (none, stop :: tail) := by
      rcases stops with rfl | rfl | rfl <;> rfl
    simp only [Option.bind_eq_bind, Option.bind_some, pointless, unmarked, size]
    rw [if_pos ⟨rfl, rfl⟩, List.length_map]
    have signed : (if decide (value < 0) = true then -(value.natAbs : Int) else value.natAbs) = value := by
      simp only [decide_eq_true_eq]
      split <;> omega
    rw [signed]
    rfl
  rw [sign, decimal]
  rfl

end DhtRecords
