/-
Values that are written into a file and read back.

A value without controls is read up to the end of its line (`Reads`): texts with
their quotes and backslashes escaped, numbers, and lists of what is read. A control
within a text is escaped by nothing. The file is malformed there, whatever follows
(`Opens`), so neither a text with a control nor a list in which there is one is ever
read (`breaks_text`, `breaks_list`). So the texts of a value, however deep they are,
decide what becomes of it (`tells_of_restores`). What is read is the value, but for
days, times and tables, which are texts (`Value.filed`).
-/

import DhtRecords.Proofs.Numerals
import DhtRecords.Toml.Writer

namespace DhtRecords.Toml

/-- Whether a text has no control but tabulators. -/
def IsClean (text : String) : Prop := ∀ c ∈ text.toList, isControl c = false

instance (text : String) : Decidable (IsClean text) :=
  List.decidableBAll (fun c => isControl c = false) text.toList

/-- The first in a row of which a property does not hold. -/
theorem exists_first {α : Type} {property : α → Prop} [DecidablePred property] {row : List α}
    (fails : ¬ ∀ x ∈ row, property x) :
    ∃ before first after, row = before ++ first :: after ∧ (∀ x ∈ before, property x) ∧
      ¬ property first := by
  induction row with
  | nil => exact absurd nofun fails
  | cons x row ih =>
    by_cases holds : property x
    · obtain ⟨before, first, after, rfl, others, stops⟩ :=
        ih fun others => fails (List.forall_mem_cons.mpr ⟨holds, others⟩)
      exact ⟨x :: before, first, after, rfl, List.forall_mem_cons.mpr ⟨holds, others⟩, stops⟩
    · exact ⟨[], x, row, rfl, nofun, holds⟩

/-- The first control of a text that has one. -/
theorem exists_control {text : String} (unclean : ¬ IsClean text) :
    ∃ before control after, text.toList = before ++ control :: after ∧
      (∀ c ∈ before, isControl c = false) ∧ isControl control = true := by
  obtain ⟨before, control, after, same, clean, controls⟩ := exists_first unclean
  exact ⟨before, control, after, same, clean, eq_true_of_ne_false controls⟩

/-! ### Texts -/

theorem ne_of_clean {c other : Char} (clean : isControl c = false) (control : isControl other = true) :
    c ≠ other := by
  rintro rfl
  rw [clean] at control
  cases control

/-- A character between double quotes is read as it was written, in front of anything. -/
theorem readLine?_escapeChar {c : Char} (clean : isControl c = false) (rest : List Char) :
    readLine? (escapeChar c ++ rest) = (readLine? rest).map fun read => (c :: read.1, read.2) := by
  unfold escapeChar
  split
  · next special =>
    rcases special with rfl | rfl <;> rw [List.cons_append, List.cons_append, List.nil_append, readLine?]
    · cases readLine? rest <;> rfl
    · rintro _ _ _ _ _ ⟨⟩
    · rintro _ _ _ _ _ _ _ _ _ ⟨⟩
    · cases readLine? rest <;> rfl
    · rintro _ _ _ _ _ ⟨⟩
    · rintro _ _ _ _ _ _ _ _ _ ⟨⟩
  · next plain =>
    rw [not_or] at plain
    have other : (isControl c || c == '\\') = false := by simp [clean, plain.1]
    rw [List.cons_append, List.nil_append, readLine?]
    · simp only [other]
      cases readLine? rest <;> rfl
    · exact plain.2
    · rintro _ _ _ _ _ rfl
      exact absurd rfl plain.1
    · rintro _ _ _ _ _ _ _ _ _ rfl
      exact absurd rfl plain.1
    · rintro _ _ rfl
      exact absurd rfl plain.1

/-- What is escaped is read up to the closing quote. -/
theorem readLine?_escaped {cs : List Char} (clean : ∀ c ∈ cs, isControl c = false) (rest : List Char) :
    readLine? (cs.flatMap escapeChar ++ '"' :: rest) = some (cs, rest) := by
  induction cs with
  | nil => rfl
  | cons c cs ih =>
    obtain ⟨first, others⟩ := List.forall_mem_cons.mp clean
    rw [List.flatMap_cons, List.append_assoc, readLine?_escapeChar first, ih others]
    rfl

/-- There is no closing quote for a text with a control. -/
theorem readLine?_control {cs : List Char} (clean : ∀ c ∈ cs, isControl c = false) {control : Char}
    (controls : isControl control = true) (rest : List Char) :
    readLine? (cs.flatMap escapeChar ++ control :: rest) = none := by
  induction cs with
  | nil =>
    have differs {c : Char} (clean : isControl c = false) : control ≠ c := (ne_of_clean clean controls).symm
    rw [List.flatMap_nil, List.nil_append, readLine?]
    · simp only [controls, Bool.true_or]
      rfl
    · exact differs rfl
    · exact fun _ _ _ _ _ same => absurd same (differs rfl)
    · exact fun _ _ _ _ _ _ _ _ _ same => absurd same (differs rfl)
    · exact fun _ _ same => absurd same (differs rfl)
  | cons c cs ih =>
    obtain ⟨first, others⟩ := List.forall_mem_cons.mp clean
    rw [List.flatMap_cons, List.append_assoc, readLine?_escapeChar first, ih others]
    rfl

/-- What is escaped does not begin with a quote. -/
theorem escaped_ne_quote {cs rest : List Char} (ends : cs = [] → rest.head? ≠ some '"') (more : List Char) :
    cs.flatMap escapeChar ++ rest ≠ '"' :: more := by
  intro same
  cases cs with
  | nil =>
    rw [List.flatMap_nil, List.nil_append] at same
    exact ends rfl (by rw [same]; rfl)
  | cons c cs =>
    rw [List.flatMap_cons] at same
    unfold escapeChar at same
    split at same
    · cases (List.cons.inj same).1
    · next plain => exact plain (.inr (List.cons.inj same).1)

theorem readText?_escaped {cs : List Char} (clean : ∀ c ∈ cs, isControl c = false) {tail : List Char}
    (ends : tail.head? ≠ some '"') :
    readText? ('"' :: (cs.flatMap escapeChar ++ '"' :: tail)) = some (cs, tail) := by
  rw [readText?]
  · exact readLine?_escaped clean tail
  · intro rest same
    cases cs with
    | nil => exact ends (by rw [(List.cons.inj same).2]; rfl)
    | cons c cs => exact escaped_ne_quote (fun none => absurd none (List.cons_ne_nil c cs)) _ same

theorem readText?_control {cs : List Char} (clean : ∀ c ∈ cs, isControl c = false) {control : Char}
    (controls : isControl control = true) (rest : List Char) :
    readText? ('"' :: (cs.flatMap escapeChar ++ control :: rest)) = none := by
  rw [readText?]
  · exact readLine?_control clean controls rest
  · refine fun more => escaped_ne_quote (fun _ same => ?_) _
    rw [List.head?_cons, Option.some_inj] at same
    exact ne_of_clean (c := '"') rfl controls same.symm

theorem toList_writeText (text : String) :
    (writeText text).toList = '"' :: (text.toList.flatMap escapeChar ++ ['"']) := by
  rw [writeText, String.toList_ofList]
  rfl

variable {τ : Type} [Quantity τ]

/-- A value that is neither a list nor a table is a scalar. -/
theorem readValue_scalar {first : Char} (list : first ≠ '[') (table : first ≠ '\x7b') (fuel : Nat)
    (rest : List Char) :
    (readValue (fuel + 1) (first :: rest) : Except ReadError (Value τ × List Char))
      = readScalar (first :: rest) := by
  rw [readValue]
  · rintro _ ⟨⟩
    exact list rfl
  · rintro _ ⟨⟩
    exact table rfl

/-- A text is read up to its closing quote. -/
theorem readValue_text {text : String} (clean : IsClean text) (fuel : Nat) {tail : List Char}
    (ends : tail.head? ≠ some '"') :
    (readValue (fuel + 1) ((writeText text).toList ++ tail) : Except ReadError (Value τ × List Char))
      = .ok (.text text, tail) := by
  have escaped : (writeText text).toList ++ tail
      = '"' :: (text.toList.flatMap escapeChar ++ '"' :: tail) := by
    rw [toList_writeText, List.cons_append, List.append_assoc]
    rfl
  rw [escaped, readValue_scalar (by decide) (by decide), readScalar]
  · simp only [readText?_escaped clean ends, String.ofList_toList]
  · rintro _ ⟨⟩
  · rintro _ ⟨⟩

/-- A text is malformed at a control. -/
theorem readValue_control {cs : List Char} (clean : ∀ c ∈ cs, isControl c = false) {control : Char}
    (controls : isControl control = true) (fuel : Nat) (rest : List Char) :
    (readValue fuel ('"' :: (cs.flatMap escapeChar ++ control :: rest)) :
        Except ReadError (Value τ × List Char)) = .error .malformed := by
  cases fuel with
  | zero => rw [readValue]
  | succ fuel =>
    rw [readValue_scalar (by decide) (by decide), readScalar]
    · simp only [readText?_control clean controls]
      rfl
    · rintro _ ⟨⟩
    · rintro _ ⟨⟩

/-- Written texts have the controls of the texts and no others. -/
theorem clean_escaped {cs : List Char} (clean : ∀ c ∈ cs, isControl c = false) :
    ∀ c ∈ cs.flatMap escapeChar, isControl c = false := by
  intro c member
  obtain ⟨d, among, escaped⟩ := List.mem_flatMap.mp member
  unfold escapeChar at escaped
  split at escaped
  · rcases List.mem_cons.mp escaped with rfl | same
    · rfl
    · rw [List.mem_singleton.mp same]
      exact clean d among
  · rw [List.mem_singleton.mp escaped]
    exact clean d among

theorem clean_writeText {text : String} (clean : IsClean text) :
    ∀ c ∈ (writeText text).toList, isControl c = false := by
  rw [toList_writeText]
  exact List.forall_mem_cons.mpr ⟨rfl, List.forall_mem_append.mpr ⟨clean_escaped clean, clean_of_any rfl⟩⟩

/-! ### Values -/

/-- Whether a value can start with a character: with no blank, comment or end of a list. -/
structure IsStart (c : Char) : Prop where
  ink : isBlank c = false
  uncommented : c ≠ '#'
  present : c ≠ ']'

/-- Whether characters without controls are read as a value, at the end of a line or within a list. -/
structure Reads (cs : List Char) (value : Value τ) : Prop where
  clean : ∀ c ∈ cs, isControl c = false
  starts : ∃ first rest, cs = first :: rest ∧ IsStart first
  read : ∀ fuel stop tail, IsStop stop → cs.length < fuel →
    readValue fuel (cs ++ stop :: tail) = .ok (value, stop :: tail)

/-- Whether characters without controls begin a value in which a control cannot stand, so that a file
is malformed at a control after them. -/
structure Opens (τ : Type) [Quantity τ] (cs : List Char) : Prop where
  clean : ∀ c ∈ cs, isControl c = false
  starts : ∃ first rest, cs = first :: rest ∧ IsStart first
  malformed : ∀ fuel control rest, isControl control = true → 2 * cs.length < fuel →
    (readValue fuel (cs ++ control :: rest) : Except ReadError (Value τ × List Char)) = .error .malformed

/-- Whether characters have a control up to which they are open. -/
def Breaks (τ : Type) [Quantity τ] (cs : List Char) : Prop :=
  ∃ before control after, cs = before ++ control :: after ∧ Opens τ before ∧ isControl control = true

theorem isStart_quote : IsStart '"' := ⟨rfl, by decide, by decide⟩

theorem isStart_bracket : IsStart '[' := ⟨rfl, by decide, by decide⟩

/-- What stands within a list, after blanks or not, is read from its first character on. -/
theorem skipFiller?_start {first : Char} (start : IsStart first) (clean : isControl first = false)
    (rest : List Char) : skipFiller? false (first :: rest) = some (first :: rest) := by
  have line : first ≠ '\n' := ne_of_clean clean rfl
  rw [skipFiller?, if_neg (by decide), if_neg (by simp [start.ink, line]), if_neg start.uncommented]

/-- Fuel for the characters of a value is not used up at its first call. -/
theorem exists_fuel {cs : List Char} {fuel : Nat} (enough : cs.length < fuel) :
    ∃ less, fuel = less + 1 ∧ cs.length ≤ less := ⟨fuel - 1, by omega, by omega⟩

theorem IsStop.ne_quote {stop : Char} (stops : IsStop stop) (tail : List Char) :
    (stop :: tail).head? ≠ some '"' := by
  rcases stops with rfl | rfl | rfl <;> simp

theorem reads_text {text : String} (clean : IsClean text) :
    Reads (writeText text).toList (.text text : Value τ) where
  clean := clean_writeText clean
  starts := ⟨'"', _, toList_writeText text, isStart_quote⟩
  read fuel stop tail stops enough := by
    obtain ⟨fuel, rfl, -⟩ := exists_fuel enough
    exact readValue_text clean fuel (stops.ne_quote tail)

/-- Numbers are scalars. -/
theorem readValue_number {first stop : Char} {rest tail : List Char} (lead : IsLead first) {number : Number}
    (timeless : readMoment? (first :: rest ++ stop :: tail) = none)
    (read : readNumber? (first :: rest ++ stop :: tail) = some (number, stop :: tail)) {value : Value τ}
    (means : number.toValue = .ok value) (fuel : Nat) :
    readValue (fuel + 1) (first :: rest ++ stop :: tail) = .ok (value, stop :: tail) := by
  have differs {c : Char} (none : c.isDigit = false) (other : c ≠ '-' ∧ c ≠ 'i' ∧ c ≠ 'n') : first ≠ c := by
    rintro rfl
    rcases lead with digit | rfl | rfl | rfl
    · rw [digit] at none
      cases none
    · exact other.1 rfl
    · exact other.2.1 rfl
    · exact other.2.2 rfl
  have unquoted : readText? (first :: rest ++ stop :: tail) = none := by
    rw [List.cons_append, readText?]
    · exact fun _ same => differs rfl (by decide) (List.cons.inj same).1
    · exact fun _ same => differs rfl (by decide) (List.cons.inj same).1
    · exact fun _ same => differs rfl (by decide) (List.cons.inj same).1
    · exact fun _ same => differs rfl (by decide) (List.cons.inj same).1
  rw [List.cons_append] at timeless read unquoted ⊢
  rw [readValue_scalar (differs rfl (by decide)) (differs rfl (by decide)), readScalar]
  · simp only [unquoted, timeless, read, required]
    change (number.toValue >>= fun value => Except.ok (value, stop :: tail)) = _
    rw [means]
    rfl
  · exact fun _ same => differs rfl (by decide) (List.cons.inj same).1
  · exact fun _ same => differs rfl (by decide) (List.cons.inj same).1

theorem isStart_of_isLead {c : Char} (lead : IsLead c) : IsStart c := by
  rcases lead with digit | rfl | rfl | rfl
  · have space : c ≠ ' ' := ne_of_isDigit digit rfl
    have tabulator : c ≠ '\t' := ne_of_isDigit digit rfl
    exact ⟨by simp [isBlank, space, tabulator], ne_of_isDigit digit rfl, ne_of_isDigit digit rfl⟩
  all_goals exact ⟨rfl, by decide, by decide⟩

/-- A number that reads back from its text is read back from a file. -/
theorem reads_float {x : τ}
    (restored : (Decimal.readNumeral (Quantity.exactText x)).map Quantity.ofNumeral = .ok x) :
    Reads (Quantity.exactText x).toList (.float x) := by
  obtain ⟨first, rest, same, lead, clean⟩ := exists_exactText x
  refine ⟨same ▸ clean, ⟨first, rest, same, isStart_of_isLead lead⟩, fun fuel stop tail stops enough => ?_⟩
  obtain ⟨fuel, rfl, -⟩ := exists_fuel enough
  have timeless := readMoment?_exactText x stops tail
  obtain ⟨numeral, read, rfl⟩ := readNumber?_exactText restored stops tail
  rw [same] at timeless read ⊢
  exact readValue_number lead timeless read rfl fuel

/-- An integer that is not too long is read back from a file. -/
theorem reads_int {value : Int} (short : Decimal.isTooLong value = false) :
    Reads (toString value).toList (.int value : Value τ) := by
  obtain ⟨first, rest, same, lead⟩ := exists_toString value
  refine ⟨fun c member => (isPlain_of_mem_toString member).isControl,
    ⟨first, rest, same, isStart_of_isLead lead⟩, fun fuel stop tail stops enough => ?_⟩
  obtain ⟨fuel, rfl, -⟩ := exists_fuel enough
  have timeless := readMoment?_toString value stops tail
  have read := readNumber?_toString value stops tail
  rw [same] at timeless read ⊢
  refine readValue_number lead timeless read ?_ fuel
  have positive : 0 < Decimal.maxIntegerDigits := by decide
  unfold Decimal.isTooLong at short
  rw [Number.toValue]
  -- The limit is a number that must not be computed.
  generalize Decimal.maxIntegerDigits = limit at positive short ⊢
  have digits : (Nat.toDigits 10 value.natAbs).length ≤ limit :=
    (Nat.length_toDigits_le_iff (by decide) positive).mpr (not_le.mp (of_decide_eq_false short))
  rw [if_neg (not_lt.mpr digits)]

theorem reads_bool (value : Bool) :
    Reads (Value.write (.bool value : Value τ)).toList (.bool value : Value τ) := by
  have written : Value.write (.bool value : Value τ) = if value then "true" else "false" := by
    rw [Value.write]
  rw [written]
  cases value
  · refine ⟨clean_of_any rfl, ⟨'f', _, rfl, rfl, by decide, by decide⟩, fun fuel stop tail _ enough => ?_⟩
    obtain ⟨fuel, rfl, -⟩ := exists_fuel enough
    rfl
  · refine ⟨clean_of_any rfl, ⟨'t', _, rfl, rfl, by decide, by decide⟩, fun fuel stop tail _ enough => ?_⟩
    obtain ⟨fuel, rfl, -⟩ := exists_fuel enough
    rfl

/-- A text with a control is open up to its first one. -/
theorem breaks_text {text : String} (unclean : ¬ IsClean text) : Breaks τ (writeText text).toList := by
  obtain ⟨start, control, rest, same, clean, controls⟩ := exists_control unclean
  have plain : escapeChar control = [control] := by
    unfold escapeChar
    rw [if_neg]
    rintro (rfl | rfl) <;> cases controls
  refine ⟨'"' :: start.flatMap escapeChar, control, rest.flatMap escapeChar ++ ['"'], ?_,
    ⟨?_, ?_, ?_⟩, controls⟩
  · rw [toList_writeText, same, List.flatMap_append, List.flatMap_cons, plain]
    simp
  · exact List.forall_mem_cons.mpr ⟨rfl, clean_escaped clean⟩
  · exact ⟨'"', _, rfl, isStart_quote⟩
  · exact fun fuel other rest controls _ => readValue_control clean controls fuel rest

/-! ### Lists -/

/-- Written forms as the items of a list. -/
def joined (forms : List (List Char)) : List Char := [',', ' '].intercalate forms

theorem joined_cons (form : List Char) {forms : List (List Char)} (more : forms ≠ []) :
    joined (form :: forms) = form ++ (',' :: ' ' :: joined forms) := by
  rw [joined, List.intercalate_cons_of_ne_nil more]
  simp [joined]

theorem joined_single (form : List Char) : joined [form] = form := List.intercalate_singleton

/-- Written forms as items that are followed by another. -/
def leading (forms : List (List Char)) : List Char := forms.flatMap fun form => form ++ [',', ' ']

theorem leading_cons (form : List Char) (forms : List (List Char)) (rest : List Char) :
    leading (form :: forms) ++ rest = form ++ (',' :: ' ' :: (leading forms ++ rest)) := by
  simp [leading]

theorem joined_append (before : List (List Char)) (form : List Char) (after : List (List Char)) :
    joined (before ++ form :: after) = leading before ++ joined (form :: after) := by
  induction before with
  | nil => rfl
  | cons first before ih =>
    have more : before ++ form :: after ≠ [] := List.append_ne_nil_of_right_ne_nil _ (List.cons_ne_nil _ _)
    rw [List.cons_append, joined_cons first more, ih, leading_cons]

theorem exists_joined (form : List Char) (forms : List (List Char)) :
    ∃ rest, joined (form :: forms) = form ++ rest := by
  by_cases alone : forms = []
  · exact ⟨[], by rw [alone, joined_single, List.append_nil]⟩
  · exact ⟨_, joined_cons form alone⟩

theorem writeItems_eq (items : List (Value τ)) : Value.writeItems items = items.map Value.write := by
  induction items with
  | nil => rfl
  | cons item items ih => rw [Value.writeItems, ih, List.map_cons]

theorem toList_write_list (items : List (Value τ)) :
    (Value.write (.list items)).toList = '[' :: (joined (items.map (·.write.toList)) ++ [']']) := by
  rw [Value.write, writeItems_eq]
  simp [joined, String.toList_intercalate, Function.comp_def]

section

variable {items : List (List Char × Value τ)} (reads : ∀ item ∈ items, Reads item.1 item.2)

include reads

theorem clean_joined : ∀ c ∈ joined (items.map Prod.fst), isControl c = false := by
  induction items with
  | nil => exact nofun
  | cons item items ih =>
    obtain ⟨first, others⟩ := List.forall_mem_cons.mp reads
    by_cases alone : items = []
    · rw [alone, List.map_cons, List.map_nil, joined_single]
      exact first.clean
    · rw [List.map_cons, joined_cons _ (mt List.map_eq_nil_iff.mp alone)]
      refine List.forall_mem_append.mpr ⟨first.clean, ?_⟩
      exact List.forall_mem_cons.mpr ⟨rfl, List.forall_mem_cons.mpr ⟨rfl, ih others⟩⟩

/-- The items of a list start with one of them. -/
theorem starts_joined (present : items ≠ []) :
    ∃ first rest, joined (items.map Prod.fst) = first :: rest ∧ IsStart first ∧ isControl first = false := by
  obtain ⟨item, more, rfl⟩ := List.exists_cons_of_ne_nil present
  have read := reads item List.mem_cons_self
  obtain ⟨first, rest, same, start⟩ := read.starts
  obtain ⟨after, joined⟩ := exists_joined item.1 (more.map Prod.fst)
  refine ⟨first, rest ++ after, ?_, start, read.clean first (same ▸ List.mem_cons_self)⟩
  rw [List.map_cons, joined, same, List.cons_append]

/-- Items that are read are read up to the end of their list. -/
theorem readItems_joined (present : items ≠ []) {fuel : Nat}
    (enough : (joined (items.map Prod.fst)).length < fuel) (tail : List Char) :
    readItems (fuel + 1) (joined (items.map Prod.fst) ++ ']' :: tail) = .ok (items.map Prod.snd, tail) := by
  induction items generalizing fuel with
  | nil => exact absurd rfl present
  | cons item items ih =>
    obtain ⟨first, others⟩ := List.forall_mem_cons.mp reads
    by_cases alone : items = []
    · subst alone
      rw [List.map_cons, List.map_nil, joined_single] at enough ⊢
      rw [readItems, first.read fuel ']' tail (.inr (.inr rfl)) enough]
      rfl
    · have more : items.map Prod.fst ≠ [] := mt List.map_eq_nil_iff.mp alone
      rw [List.map_cons, joined_cons _ more] at enough ⊢
      simp only [List.length_append, List.length_cons] at enough
      obtain ⟨fuel, rfl⟩ : ∃ less, fuel = less + 1 := ⟨fuel - 1, by omega⟩
      have next := ih others alone (show (joined (items.map Prod.fst)).length < fuel by omega)
      obtain ⟨c, rest, same, start, clean⟩ := starts_joined others alone
      rw [same, List.cons_append] at next
      rw [List.append_assoc, List.cons_append, List.cons_append, same, List.cons_append, readItems,
        first.read (fuel + 1) ',' _ (.inr (.inl rfl)) (by omega)]
      have skips : skipFiller? false (' ' :: c :: (rest ++ ']' :: tail))
          = some (c :: (rest ++ ']' :: tail)) := skipFiller?_start start clean _
      have comma (rest : List Char) : skipFiller? false (',' :: rest) = some (',' :: rest) := rfl
      simp only [bind, Except.bind, comma, required, skips]
      split
      · next same => exact absurd (List.cons.inj same).1 start.present
      · rw [next]
        rfl

/-- A list of items that are read is read. -/
theorem reads_list :
    Reads ('[' :: (joined (items.map Prod.fst) ++ [']'])) (.list (items.map Prod.snd)) where
  clean := List.forall_mem_cons.mpr ⟨rfl, List.forall_mem_append.mpr ⟨clean_joined reads, clean_of_any rfl⟩⟩
  starts := ⟨'[', _, rfl, isStart_bracket⟩
  read fuel stop tail stops enough := by
    obtain ⟨fuel, rfl, long⟩ := exists_fuel enough
    rw [List.cons_append, List.append_assoc, readValue]
    by_cases none : items = []
    · rw [none]
      rfl
    · simp only [List.length_cons, List.length_append] at long
      obtain ⟨fuel, rfl⟩ : ∃ less, fuel = less + 1 := ⟨fuel - 1, by omega⟩
      have read := readItems_joined reads none (show _ < fuel by omega) (stop :: tail)
      obtain ⟨c, rest, same, start, clean⟩ := starts_joined reads none
      rw [same, List.cons_append] at read
      rw [same, List.singleton_append, List.cons_append, skipFiller?_start start clean]
      simp only [bind, Except.bind, required]
      split
      · next same => exact absurd (List.cons.inj same).1 start.present
      · rw [read]
        rfl

theorem starts_leading {cs : List Char} (opens : Opens τ cs) (rest : List Char) :
    ∃ first more, leading (items.map Prod.fst) ++ (cs ++ rest) = first :: more ∧ IsStart first ∧
      isControl first = false := by
  cases items with
  | nil =>
    obtain ⟨first, more, rfl, start⟩ := opens.starts
    exact ⟨first, more ++ rest, rfl, start, opens.clean first List.mem_cons_self⟩
  | cons item items =>
    have read := reads item List.mem_cons_self
    obtain ⟨first, more, same, start⟩ := read.starts
    refine ⟨first, more ++ (',' :: ' ' :: (leading (items.map Prod.fst) ++ (cs ++ rest))), ?_, start,
      read.clean first (same ▸ List.mem_cons_self)⟩
    rw [List.map_cons, leading_cons, same, List.cons_append]

/-- A list is malformed at a control in one of its items, after others that are read. -/
theorem readItems_opens {cs : List Char} (opens : Opens τ cs) {control : Char}
    (controls : isControl control = true) {fuel : Nat}
    (enough : 2 * (leading (items.map Prod.fst) ++ cs).length < fuel) (rest : List Char) :
    (readItems (fuel + 1) (leading (items.map Prod.fst) ++ (cs ++ control :: rest)) :
      Except ReadError (List (Value τ) × List Char)) = .error .malformed := by
  induction items generalizing fuel with
  | nil =>
    rw [List.map_nil] at enough ⊢
    rw [leading, List.flatMap_nil, List.nil_append] at enough ⊢
    rw [readItems, opens.malformed fuel control rest controls enough]
    rfl
  | cons item items ih =>
    obtain ⟨first, others⟩ := List.forall_mem_cons.mp reads
    rw [List.map_cons, leading_cons] at enough ⊢
    simp only [List.length_append, List.length_cons] at enough
    obtain ⟨fuel, rfl⟩ : ∃ less, fuel = less + 1 := ⟨fuel - 1, by omega⟩
    have next := ih others (show _ < fuel by rw [List.length_append]; omega)
    obtain ⟨c, more, same, start, clean⟩ := starts_leading others opens (control :: rest)
    rw [same] at next
    have skips : skipFiller? false (' ' :: c :: more) = some (c :: more) := skipFiller?_start start clean _
    have comma (rest : List Char) : skipFiller? false (',' :: rest) = some (',' :: rest) := rfl
    rw [same, readItems, first.read (fuel + 1) ',' _ (.inr (.inl rfl)) (by omega)]
    simp only [bind, Except.bind, comma, required, skips]
    split
    · next same => exact absurd (List.cons.inj same).1 start.present
    · rw [next]

/-- A list is open up to a control in one of its items, if those in front of it are read. -/
theorem breaks_list {cs : List Char} (breaks : Breaks τ cs) (after : List (List Char)) :
    Breaks τ ('[' :: (joined (items.map Prod.fst ++ cs :: after) ++ [']'])) := by
  obtain ⟨before, control, rest, rfl, opens, controls⟩ := breaks
  obtain ⟨more, first⟩ := exists_joined (before ++ control :: rest) after
  refine ⟨'[' :: (leading (items.map Prod.fst) ++ before), control, rest ++ (more ++ [']']), ?_,
    ⟨?_, ⟨'[', _, rfl, isStart_bracket⟩, fun fuel other beyond controls enough => ?_⟩, controls⟩
  · rw [joined_append, first]
    simp
  · refine List.forall_mem_cons.mpr ⟨rfl, List.forall_mem_append.mpr ⟨?_, opens.clean⟩⟩
    intro c member
    obtain ⟨form, among, member⟩ := List.mem_flatMap.mp member
    obtain ⟨item, within, rfl⟩ := List.mem_map.mp among
    exact List.forall_mem_append.mpr ⟨(reads item within).clean, clean_of_any rfl⟩ c member
  · rw [List.length_cons] at enough
    obtain ⟨fuel, rfl⟩ : ∃ less, fuel = less + 2 := ⟨fuel - 2, by omega⟩
    have stop := readItems_opens reads opens controls (show _ < fuel by omega) beyond
    obtain ⟨c, more, same, start, clean⟩ := starts_leading reads opens (other :: beyond)
    rw [same] at stop
    rw [List.cons_append, List.append_assoc, same, readValue, skipFiller?_start start clean]
    simp only [bind, Except.bind, required]
    split
    · next same => exact absurd (List.cons.inj same).1 start.present
    · rw [stop]

end

/-! ### All values -/

namespace Value

mutual

/-- The value that the written form of a value is read as: days, times and tables are texts there. -/
def filed : Value τ → Value τ
  | list items => list (filedItems items)
  | table entries => text (quoted (table entries))
  | moment value => text value.text
  | bool value => bool value
  | int value => int value
  | float value => float value
  | text value => text value

/-- What the items of a list are read as. -/
def filedItems : List (Value τ) → List (Value τ)
  | [] => []
  | item :: items => filed item :: filedItems items

end

mutual

/-- The texts of a value as it is written, at any depth. -/
def writtenTexts : Value τ → List String
  | text value => [value]
  | list items => itemTexts items
  | table entries => [quoted (table entries)]
  | moment value => [value.text]
  | bool _ | int _ | float _ => []

/-- The texts of a list's items. -/
def itemTexts : List (Value τ) → List String
  | [] => []
  | item :: items => writtenTexts item ++ itemTexts items

end

mutual

/-- The numbers with a fraction of a value as it is written, at any depth. -/
def floats : Value τ → List τ
  | float value => [value]
  | list items => itemFloats items
  | bool _ | int _ | text _ | moment _ | table _ => []

/-- The numbers with a fraction of a list's items. -/
def itemFloats : List (Value τ) → List τ
  | [] => []
  | item :: items => floats item ++ itemFloats items

end

mutual

/-- Whether a value is read back as a text that it is not, or one of its items is, at any depth. -/
def isRetyped : Value τ → Bool
  | list items => hasRetypedItem items
  | moment _ | table _ => true
  | bool _ | int _ | float _ | text _ => false

/-- Whether one of a list's items is read back as such a text, or has one that is. -/
def hasRetypedItem : List (Value τ) → Bool
  | [] => false
  | item :: items => isRetyped item || hasRetypedItem items

end

mutual

theorem filed_of_typed (value : Value τ) (typed : value.isRetyped = false) :
    value.filed = value := by
  cases value with
  | list items =>
    rw [isRetyped] at typed
    rw [filed, filedItems_of_typed items typed]
  | moment | table => cases typed
  | _ => rw [filed]

theorem filedItems_of_typed (items : List (Value τ)) (typed : hasRetypedItem items = false) :
    filedItems items = items := by
  cases items with
  | nil => rfl
  | cons item items =>
    rw [hasRetypedItem, Bool.or_eq_false_iff] at typed
    rw [filedItems, filed_of_typed item typed.1, filedItems_of_typed items typed.2]

end

end Value

/-- Whether a number reads back from its text. -/
def Restores (x : τ) : Prop :=
  (Decimal.readNumeral (Quantity.exactText x)).map Quantity.ofNumeral = .ok x

/-- Whether a value is read as it is filed if its texts are clean, and breaks otherwise. -/
structure Tells (value : Value τ) : Prop where
  reads : (∀ text ∈ value.writtenTexts, IsClean text) → Reads value.write.toList value.filed
  breaks : ¬ (∀ text ∈ value.writtenTexts, IsClean text) → Breaks τ value.write.toList

theorem Tells.of_clean {value : Value τ} (none : value.writtenTexts = [])
    (reads : Reads value.write.toList value.filed) : Tells value :=
  ⟨fun _ => reads, fun unclean => absurd (by rw [none]; nofun) unclean⟩

theorem tells_int {value : Int} (short : (.int value : Value τ).hasLongInteger = false) :
    Tells (.int value : Value τ) := by
  rw [Value.hasLongInteger] at short
  refine .of_clean (by rw [Value.writtenTexts]) ?_
  rw [Value.write, Value.filed]
  exact reads_int short

/-- A value whose written form is that of a text. -/
theorem tells_writtenText {value : Value τ} {text : String} (texts : value.writtenTexts = [text])
    (written : value.write = writeText text) (filed : value.filed = .text text) : Tells value := by
  constructor
  · intro clean
    rw [texts] at clean
    rw [written, filed]
    exact reads_text (List.forall_mem_singleton.mp clean)
  · intro unclean
    rw [texts] at unclean
    rw [written]
    exact breaks_text (mt List.forall_mem_singleton.mpr unclean)

theorem Value.filedItems_eq (items : List (Value τ)) : filedItems items = items.map filed := by
  induction items with
  | nil => rfl
  | cons item items ih => rw [filedItems, ih, List.map_cons]

theorem Value.forall_mem_itemTexts {property : String → Prop} (items : List (Value τ)) :
    (∀ text ∈ itemTexts items, property text)
      ↔ ∀ item ∈ items, ∀ text ∈ item.writtenTexts, property text := by
  induction items with
  | nil => simp [itemTexts]
  | cons item items ih => rw [itemTexts, List.forall_mem_append, List.forall_mem_cons, ih]

/-- A list whose items are told by their texts is so, too. -/
theorem tells_list {items : List (Value τ)} (tells : ∀ item ∈ items, Tells item) :
    Tells (.list items) := by
  have forms (items : List (Value τ)) : (items.map fun item => (item.write.toList, item.filed)).map Prod.fst
      = items.map (·.write.toList) := List.map_map
  have values (items : List (Value τ)) : (items.map fun item => (item.write.toList, item.filed)).map Prod.snd
      = items.map Value.filed := List.map_map
  have within {some : List (Value τ)} (among : ∀ item ∈ some, item ∈ items)
      (clean : ∀ item ∈ some, ∀ text ∈ item.writtenTexts, IsClean text) :
      ∀ pair ∈ some.map fun item => (item.write.toList, item.filed), Reads pair.1 pair.2 := by
    intro pair member
    obtain ⟨item, inside, rfl⟩ := List.mem_map.mp member
    exact (tells item (among item inside)).reads (clean item inside)
  constructor
  · intro clean
    rw [Value.writtenTexts, Value.forall_mem_itemTexts] at clean
    rw [toList_write_list, Value.filed, Value.filedItems_eq, ← forms, ← values]
    exact reads_list (within (fun _ => id) clean)
  · intro unclean
    rw [Value.writtenTexts, Value.forall_mem_itemTexts] at unclean
    obtain ⟨before, first, after, rfl, clean, stops⟩ := exists_first unclean
    have breaks := (tells first (by simp)).breaks stops
    rw [toList_write_list, List.map_append, List.map_cons, ← forms]
    exact breaks_list (within (fun item inside => by simp [inside]) clean) breaks _

mutual

/-- Every value is read up to its first control, and as a whole if there is none. -/
theorem tells_of_restores (value : Value τ) (restores : ∀ x ∈ value.floats, Restores x)
    (short : value.hasLongInteger = false) : Tells value := by
  cases value with
  | bool value =>
    refine .of_clean (by rw [Value.writtenTexts]) ?_
    rw [Value.filed]
    exact reads_bool value
  | int value => exact tells_int short
  | float x =>
    rw [Value.floats] at restores
    refine .of_clean (by rw [Value.writtenTexts]) ?_
    rw [Value.write, Value.filed]
    exact reads_float (restores x List.mem_cons_self)
  | text value =>
    exact tells_writtenText (by rw [Value.writtenTexts]) (by rw [Value.write]) (by rw [Value.filed])
  | list items =>
    rw [Value.floats] at restores
    rw [Value.hasLongInteger] at short
    exact tells_list (tells_items items restores short)
  | moment value =>
    exact tells_writtenText (by rw [Value.writtenTexts]) (by rw [Value.write]) (by rw [Value.filed])
  | table entries =>
    exact tells_writtenText (by rw [Value.writtenTexts]) (by rw [Value.write]) (by rw [Value.filed])

theorem tells_items (items : List (Value τ)) (restores : ∀ x ∈ Value.itemFloats items, Restores x)
    (short : Value.hasLongItem items = false) : ∀ item ∈ items, Tells item := by
  cases items with
  | nil => exact nofun
  | cons item items =>
    rw [Value.itemFloats, List.forall_mem_append] at restores
    rw [Value.hasLongItem, Bool.or_eq_false_iff] at short
    exact List.forall_mem_cons.mpr ⟨tells_of_restores item restores.1 short.1,
      tells_items items restores.2 short.2⟩

end

end DhtRecords.Toml
