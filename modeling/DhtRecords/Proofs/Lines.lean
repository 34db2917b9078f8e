/-
Files that are read line by line.

A line states something if it is read as that up to its end, whatever follows
(`States`), so a file of such lines is read as what its statements make one after the
other (`read_fileOf`). At an entry whose value is left open before a control the file
is malformed, whatever comes later (`read_opens`).
-/

import DhtRecords.Proofs.Values

namespace DhtRecords.Toml

variable {τ : Type} [Quantity τ]

/-! ### Names -/

/-- Whether a name needs no quotes. -/
structure IsName (name : String) : Prop where
  present : name.toList ≠ []
  plain : ∀ c ∈ name.toList, isNameChar c = true

theorem bounds_of_isNameChar {c : Char} (plain : isNameChar c = true) : 45 ≤ c.toNat ∧ c.toNat ≤ 122 := by
  simp only [isNameChar, Bool.or_eq_true, Bool.and_eq_true, decide_eq_true_eq, beq_iff_eq] at plain
  rcases plain with (⟨-, letter⟩ | rfl) | rfl
  · have kinds : ((c.isUpper || c.isLower) || c.isDigit) = true := letter
    rw [Bool.or_eq_true, Bool.or_eq_true] at kinds
    rcases kinds with (upper | lower) | digit
    · have inside : 'A'.val ≤ c.val ∧ c.val ≤ 'Z'.val := of_decide_eq_true upper
      have first : 65 ≤ c.toNat := UInt32.le_iff_toNat_le.mp inside.1
      have last : c.toNat ≤ 90 := UInt32.le_iff_toNat_le.mp inside.2
      omega
    · have inside : (decide ('a'.val ≤ c.val) && decide (c.val ≤ 'z'.val)) = true := lower
      rw [Bool.and_eq_true, decide_eq_true_eq, decide_eq_true_eq] at inside
      have first : 97 ≤ c.toNat := UInt32.le_iff_toNat_le.mp inside.1
      have last : c.toNat ≤ 122 := UInt32.le_iff_toNat_le.mp inside.2
      omega
    · have bounds := toNat_of_isDigit digit
      omega
  · decide
  · decide

theorem isControl_of_isNameChar {c : Char} (plain : isNameChar c = true) : isControl c = false := by
  have bounds := bounds_of_isNameChar plain
  simp only [isControl, Bool.or_eq_false_iff, Bool.and_eq_false_iff, decide_eq_false_iff_not,
    beq_eq_false_iff_ne]
  omega

theorem ne_of_isNameChar {c other : Char} (plain : isNameChar c = true) (none : isNameChar other = false) :
    c ≠ other := by
  rintro rfl
  rw [plain] at none
  cases none

/-- A name is read up to what does not belong to it. -/
theorem readKey?_name {name : String} (named : IsName name) {c stop : Char} {rest after : List Char}
    (ends : isNameChar c = false) (skips : skipBlanks (c :: rest) = stop :: after) (alone : stop ≠ '.') :
    readKey? (name.toList ++ c :: rest) = some ([name], stop :: after) := by
  obtain ⟨first, more, same⟩ := List.exists_cons_of_ne_nil named.present
  have plain : isNameChar first = true := named.plain first (same ▸ List.mem_cons_self ..)
  have start : skipBlanks (name.toList ++ c :: rest) = name.toList ++ c :: rest := by
    have space : first ≠ ' ' := ne_of_isNameChar plain rfl
    have tabulator : first ≠ '\t' := ne_of_isNameChar plain rfl
    rw [same, List.cons_append, skipBlanks, List.dropWhile_cons_of_neg]
    simp [isBlank, space, tabulator]
  have read : readName? (name.toList ++ c :: rest) = some (name.toList, c :: rest) := by
    have taken : (name.toList ++ c :: rest).takeWhile isNameChar = name.toList := by
      rw [List.takeWhile_append_of_pos named.plain, List.takeWhile_cons_of_neg (by rw [ends]; decide),
        List.append_nil]
    have dropped : (name.toList ++ c :: rest).dropWhile isNameChar = c :: rest := by
      rw [List.dropWhile_append_of_pos named.plain, List.dropWhile_cons_of_neg (by rw [ends]; decide)]
    rw [readName?, taken, dropped]
    · rw [same]
    · rw [same]
      exact fun _ same => ne_of_isNameChar plain rfl (List.cons.inj same).1
    · rw [same]
      exact fun _ same => ne_of_isNameChar plain rfl (List.cons.inj same).1
  rw [readKey?, readKeyFrom?, start, read]
  simp only [Option.bind_eq_bind, Option.bind_some, skips, String.ofList_toList]
  split
  · next point => exact absurd (List.cons.inj point).1 alone
  · rfl

/-! ### Line ends -/

/-- Where no carriage return is, every line end is a single character already. -/
theorem unifyLineEnds_append {cs : List Char} (plain : '\r' ∉ cs) (rest : List Char) :
    unifyLineEnds (cs ++ rest) = cs ++ unifyLineEnds rest := by
  induction cs with
  | nil => rfl
  | cons c cs ih =>
    rw [List.mem_cons, not_or] at plain
    rw [List.cons_append, unifyLineEnds, ih plain.2]
    · rfl
    · exact fun _ same => absurd same.symm plain.1
    · exact fun same => absurd same.symm plain.1

/-- A control is still one when line ends are unified. -/
theorem unifyLineEnds_control {control : Char} (controls : isControl control = true) (rest : List Char) :
    ∃ other more, unifyLineEnds (control :: rest) = other :: more ∧ isControl other = true := by
  by_cases back : control = '\r'
  · subst back
    cases rest with
    | nil => exact ⟨'\n', [], rfl, rfl⟩
    | cons c rest =>
      by_cases feed : c = '\n'
      · subst feed
        exact ⟨'\n', _, rfl, rfl⟩
      · refine ⟨'\n', unifyLineEnds (c :: rest), ?_, rfl⟩
        rw [unifyLineEnds]
        rintro _ ⟨⟩
        exact feed rfl
  · refine ⟨control, unifyLineEnds rest, ?_, controls⟩
    rw [unifyLineEnds]
    · exact fun _ same => absurd same back
    · exact fun same => absurd same back

/-! ### Lines -/

/-- Whether a line without controls is read as a statement, whatever follows it. -/
structure States (line : List Char) (statement : Statement τ) : Prop where
  clean : ∀ c ∈ line, isControl c = false
  read : ∀ rest, ∃ tail, readStatement (skipBlanks (line ++ '\n' :: rest)) = .ok (statement, tail) ∧
    skipToNextLine? tail = some (some rest)

theorem states_blank : States [] (.blank : Statement τ) := ⟨nofun, fun rest => ⟨'\n' :: rest, rfl, rfl⟩⟩

theorem states_comment {cs : List Char} (clean : ∀ c ∈ cs, isControl c = false) :
    States ('#' :: cs) (.blank : Statement τ) := by
  refine ⟨List.forall_mem_cons.mpr ⟨rfl, clean⟩, fun rest => ⟨'#' :: (cs ++ '\n' :: rest), rfl, ?_⟩⟩
  have skipped : skipComment? (cs ++ '\n' :: rest) = some ('\n' :: rest) := by
    induction cs with
    | nil => rfl
    | cons c cs ih =>
      obtain ⟨first, others⟩ := List.forall_mem_cons.mp clean
      have more : c ≠ '\n' := ne_of_clean first rfl
      rw [List.cons_append, skipComment?, if_neg more, first]
      exact ih others
  have sharp : skipBlanks ('#' :: (cs ++ '\n' :: rest)) = '#' :: (cs ++ '\n' :: rest) := rfl
  simp only [skipToNextLine?, sharp, skipped, bind, Option.bind]
  rfl

/-- The line that opens a table. -/
def headLine (name : String) : List Char := '[' :: (name.toList ++ [']'])

theorem states_head {name : String} (named : IsName name) :
    States (headLine name) (.openTable [name] : Statement τ) := by
  refine ⟨?_, fun rest => ⟨'\n' :: rest, ?_, rfl⟩⟩
  · refine List.forall_mem_cons.mpr ⟨rfl, List.forall_mem_append.mpr ⟨?_, clean_of_any rfl⟩⟩
    exact fun c member => isControl_of_isNameChar (named.plain c member)
  · have bracket : skipBlanks (']' :: '\n' :: rest) = ']' :: '\n' :: rest := rfl
    have read := readKey?_name named (by decide) bracket (by decide)
    obtain ⟨first, more, same⟩ := List.exists_cons_of_ne_nil named.present
    have plain : isNameChar first = true := named.plain first (same ▸ List.mem_cons_self ..)
    have line : skipBlanks (headLine name ++ '\n' :: rest) = '[' :: (name.toList ++ ']' :: '\n' :: rest) := by
      rw [headLine, List.cons_append, List.append_assoc]
      rfl
    rw [line, readStatement]
    · rw [read]
      rfl
    · rw [same]
      exact fun _ again => ne_of_isNameChar plain rfl (List.cons.inj again).1

/-- The line of an entry. -/
def entryLine (name : String) (cs : List Char) : List Char := name.toList ++ (' ' :: '=' :: ' ' :: cs)

theorem readStatement_entryLine {name : String} (named : IsName name) {cs : List Char}
    (starts : ∃ first rest, cs = first :: rest ∧ IsStart first) (tail : List Char) :
    ∃ fuel, 2 * (cs.length + tail.length) < fuel ∧
      (readStatement (skipBlanks (entryLine name cs ++ tail)) : Except ReadError (Statement τ × List Char))
        = readValue fuel (cs ++ tail) >>= fun read => .ok (.entry [name] read.1, read.2) := by
  obtain ⟨first, more, same⟩ := List.exists_cons_of_ne_nil named.present
  have plain : isNameChar first = true := named.plain first (same ▸ List.mem_cons_self ..)
  have equals : skipBlanks (' ' :: '=' :: ' ' :: (cs ++ tail)) = '=' :: ' ' :: (cs ++ tail) := rfl
  have key := readKey?_name named (by decide) equals (by decide)
  have value : skipBlanks (' ' :: (cs ++ tail)) = cs ++ tail := by
    obtain ⟨c, rest, rfl, start⟩ := starts
    change skipBlanks (c :: (rest ++ tail)) = c :: (rest ++ tail)
    rw [skipBlanks, List.dropWhile_cons_of_neg (by rw [start.ink]; decide)]
  have line : skipBlanks (entryLine name cs ++ tail)
      = first :: (more ++ ' ' :: '=' :: ' ' :: (cs ++ tail)) := by
    have space : first ≠ ' ' := ne_of_isNameChar plain rfl
    have tabulator : first ≠ '\t' := ne_of_isNameChar plain rfl
    rw [entryLine, same, List.append_assoc, List.cons_append, skipBlanks, List.dropWhile_cons_of_neg]
    · rfl
    · simp [isBlank, space, tabulator]
  rw [same, List.cons_append] at key
  have ends : ¬ (first = '\n' ∨ first = '#') := by
    rintro (rfl | rfl) <;> cases plain
  refine ⟨3 * (first :: (more ++ ' ' :: '=' :: ' ' :: (cs ++ tail))).length + 2, ?_, ?_⟩
  · simp only [List.length_cons, List.length_append]
    omega
  · rw [line, readStatement, if_neg ends, fuelFor, readPair, key]
    · change ((readValue _ (skipBlanks (' ' :: (cs ++ tail))) >>= fun read =>
        Except.ok ([name], read.1, read.2)) >>= fun pair => Except.ok (Statement.entry pair.1 pair.2.1,
          pair.2.2)) = _
      rw [value]
      cases (readValue _ (cs ++ tail) : Except ReadError (Value τ × List Char)) <;> rfl
    · rintro _ rfl
      cases plain
    · rintro rfl
      cases plain

theorem clean_entryLine {name : String} (named : IsName name) {cs : List Char}
    (clean : ∀ c ∈ cs, isControl c = false) : ∀ c ∈ entryLine name cs, isControl c = false := by
  refine List.forall_mem_append.mpr ⟨fun c member => isControl_of_isNameChar (named.plain c member), ?_⟩
  refine List.forall_mem_cons.mpr ⟨rfl, List.forall_mem_cons.mpr ⟨rfl, ?_⟩⟩
  exact List.forall_mem_cons.mpr ⟨rfl, clean⟩

theorem states_entry {name : String} (named : IsName name) {cs : List Char} {value : Value τ}
    (reads : Reads cs value) : States (entryLine name cs) (.entry [name] value) := by
  refine ⟨clean_entryLine named reads.clean, fun rest => ⟨'\n' :: rest, ?_, rfl⟩⟩
  · obtain ⟨fuel, enough, read⟩ := readStatement_entryLine (τ := τ) named reads.starts ('\n' :: rest)
    rw [read, reads.read fuel '\n' rest (.inl rfl) (by omega)]
    rfl

/-- An entry is malformed at a control before which its value is left open. -/
theorem readStatement_opens {name : String} (named : IsName name) {cs : List Char} (opens : Opens τ cs)
    {control : Char} (controls : isControl control = true) (rest : List Char) :
    (readStatement (skipBlanks (entryLine name cs ++ control :: rest)) :
      Except ReadError (Statement τ × List Char)) = .error .malformed := by
  obtain ⟨fuel, enough, read⟩ := readStatement_entryLine (τ := τ) named opens.starts (control :: rest)
  rw [read, opens.malformed fuel control rest controls (by omega)]
  rfl

/-! ### Rows of lines -/

/-- Lines with their ends. -/
def fileOf (lines : List (List Char)) : List Char := lines.flatMap fun line => line ++ ['\n']

theorem fileOf_cons (line : List Char) (lines : List (List Char)) (rest : List Char) :
    fileOf (line :: lines) ++ rest = line ++ '\n' :: (fileOf lines ++ rest) := by
  simp [fileOf]

theorem readLinesInto_line {line : List Char} {statement : Statement τ} (states : States line statement)
    {document next : Document τ} (follows : document.follow? statement = some next) (fuel : Nat)
    (rest : List Char) :
    readLinesInto (fuel + 1) document (line ++ '\n' :: rest) = readLinesInto fuel next rest := by
  obtain ⟨tail, read, skips⟩ := states.read rest
  simp only [readLinesInto, read, follows, skips, required, bind, Except.bind]

/-- Lines that say statements make of a document what the statements make of it. -/
theorem readLinesInto_lines {lines : List (List Char × Statement τ)}
    (states : ∀ line ∈ lines, States line.1 line.2) {document next : Document τ}
    (follows : (lines.map Prod.snd).foldlM Document.follow? document = some next) (fuel : Nat)
    (rest : List Char) :
    readLinesInto (fuel + lines.length) document (fileOf (lines.map Prod.fst) ++ rest)
      = readLinesInto fuel next rest := by
  induction lines generalizing document with
  | nil =>
    obtain rfl := Option.some_inj.mp follows
    rfl
  | cons line lines ih =>
    obtain ⟨first, others⟩ := List.forall_mem_cons.mp states
    rw [List.map_cons, List.foldlM_cons] at follows
    obtain ⟨middle, step, follows⟩ := Option.bind_eq_some_iff.mp follows
    rw [List.map_cons, fileOf_cons, List.length_cons, ← Nat.add_assoc, readLinesInto_line first step,
      ih others follows]

/-- A file ends after its last line end. -/
theorem readLinesInto_nil (fuel : Nat) (document : Document τ) :
    readLinesInto (fuel + 1) document [] = .ok document := rfl

theorem readLinesInto_opens {name : String} (named : IsName name) {cs : List Char} (opens : Opens τ cs)
    {control : Char} (controls : isControl control = true) (fuel : Nat) (document : Document τ)
    (rest : List Char) :
    readLinesInto fuel document (entryLine name cs ++ control :: rest) = .error .malformed := by
  cases fuel with
  | zero => rw [readLinesInto]
  | succ fuel =>
    rw [readLinesInto, readStatement_opens named opens controls]
    rfl

/-- A line without controls has no carriage return. -/
theorem not_mem_of_clean {cs : List Char} (clean : ∀ c ∈ cs, isControl c = false) : '\r' ∉ cs :=
  fun member => absurd (clean _ member) (by decide)

theorem not_mem_fileOf {lines : List (List Char)} (clean : ∀ line ∈ lines, ∀ c ∈ line, isControl c = false) :
    '\r' ∉ fileOf lines := by
  intro member
  obtain ⟨line, among, member⟩ := List.mem_flatMap.mp member
  rcases List.mem_append.mp member with inside | feed
  · exact not_mem_of_clean (clean line among) inside
  · cases List.mem_singleton.mp feed

/-- A line end at the end of each line. -/
theorem length_le_fileOf (lines : List (List Char)) : lines.length ≤ (fileOf lines).length := by
  induction lines with
  | nil => exact Nat.zero_le _
  | cons line lines ih =>
    have same := fileOf_cons line lines []
    rw [List.append_nil, List.append_nil] at same
    rw [same]
    simp only [List.length_cons, List.length_append]
    omega

/-- A file of lines that say statements is read as what these make of an empty document. -/
theorem read_fileOf {lines : List (List Char × Statement τ)} (states : ∀ line ∈ lines, States line.1 line.2)
    {document : Document τ} (follows : (lines.map Prod.snd).foldlM Document.follow? {} = some document)
    {text : String} (same : text.toList = fileOf (lines.map Prod.fst)) : read text = .ok document.data := by
  have plain : '\r' ∉ fileOf (lines.map Prod.fst) := not_mem_fileOf fun line member => by
    obtain ⟨pair, among, rfl⟩ := List.mem_map.mp member
    exact (states pair among).clean
  have unified : unifyLineEnds text.toList = fileOf (lines.map Prod.fst) := by
    rw [same]
    have none := unifyLineEnds_append plain []
    rwa [List.append_nil, unifyLineEnds, List.append_nil] at none
  have long := length_le_fileOf (lines.map Prod.fst)
  rw [List.length_map] at long
  obtain ⟨fuel, enough⟩ : ∃ fuel, (fileOf (lines.map Prod.fst)).length + 1 = fuel + 1 + lines.length :=
    ⟨(fileOf (lines.map Prod.fst)).length - lines.length, by omega⟩
  have lines := readLinesInto_lines states follows (fuel + 1) []
  rw [List.append_nil, readLinesInto_nil] at lines
  rw [read, unified]
  rw [enough, lines]
  rfl

/-- A file is malformed if a value of it is left open before a control. -/
theorem read_opens {lines : List (List Char × Statement τ)} (states : ∀ line ∈ lines, States line.1 line.2)
    {document : Document τ} (follows : (lines.map Prod.snd).foldlM Document.follow? {} = some document)
    {name : String} (named : IsName name) {cs : List Char} (opens : Opens τ cs) {control : Char}
    (controls : isControl control = true) {rest : List Char} {text : String}
    (same : text.toList = fileOf (lines.map Prod.fst) ++ (entryLine name cs ++ control :: rest)) :
    (read text : Except ReadError (Table τ)) = .error .malformed := by
  have plain : '\r' ∉ fileOf (lines.map Prod.fst) ++ entryLine name cs := by
    rw [List.mem_append, not_or]
    refine ⟨not_mem_fileOf fun line member => ?_, not_mem_of_clean (clean_entryLine named opens.clean)⟩
    obtain ⟨pair, among, rfl⟩ := List.mem_map.mp member
    exact (states pair among).clean
  obtain ⟨other, more, unified, stops⟩ := unifyLineEnds_control controls rest
  have shape : unifyLineEnds text.toList
      = fileOf (lines.map Prod.fst) ++ (entryLine name cs ++ other :: more) := by
    rw [same, ← List.append_assoc, unifyLineEnds_append plain, unified, List.append_assoc]
  have long := length_le_fileOf (lines.map Prod.fst)
  rw [List.length_map] at long
  obtain ⟨fuel, enough⟩ : ∃ fuel, (fileOf (lines.map Prod.fst)
      ++ (entryLine name cs ++ other :: more)).length + 1 = fuel + lines.length :=
    ⟨(fileOf (lines.map Prod.fst) ++ (entryLine name cs ++ other :: more)).length + 1 - lines.length, by
      rw [List.length_append]
      omega⟩
  rw [read, shape]
  rw [enough, readLinesInto_lines states follows, readLinesInto_opens named opens stops]
  rfl

end DhtRecords.Toml
