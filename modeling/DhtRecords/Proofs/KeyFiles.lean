/-
Key pairs in hexadecimal and in files.

The keys of a pair are accepted in any spelling, and no other two texts are: what
is read as a pair are a seed and its own public key (`KeyPair.ofHex_eq_ok`). A
file that a pair was saved in is read as that pair. Its text is one block, of
which no part holds the mark that ends it, and whose bytes are a row of elements
that each say their own length (`Pem.read_write`).

The pair of a data folder is made once: where there is a key file it is loaded,
and whatever comes of that, the disk stays what it is (`KeyPair.ensure_of_hasFile`).
-/

import DhtRecords.KeyPair.File
import DhtRecords.Proofs.Fitting
import DhtRecords.Proofs.Spelling

namespace DhtRecords

/-! ### Base 64 -/

namespace Base64

/-- What the digits of base 64 are not: padding, dashes and blanks. -/
theorem digit_spec : ∀ value, value < 64 →
    digit value ≠ '=' ∧ digit value ≠ '-' ∧ Text.isNumberBlank (digit value) = false := by
  decide

theorem ofNat_toNat (byte : UInt8) {value : Nat} (same : value = byte.toNat) :
    UInt8.ofNat value = byte := by
  rw [same, UInt8.ofNat_toNat]

/-- Bytes are read back from base 64. -/
theorem decode?_encode (bytes : Bytes) : decode? (encode bytes) = some bytes := by
  induction bytes using encode.induct with
  | case1 => rfl
  | case2 a =>
    have bound := a.toNat_lt
    rw [encode, pad, decode?, digit?_digit _ (by omega), digit?_digit _ (by omega)]
    simp only [Option.bind_eq_bind, Option.bind_some]
    rw [if_pos (by omega), ofNat_toNat a (by omega)]
  | case3 a b =>
    have bounds := And.intro a.toNat_lt b.toNat_lt
    have inner := (digit_spec (b.toNat % 16 * 4) (by omega)).1
    rw [encode, pad, decode?.eq_3 _ _ _ inner, digit?_digit _ (by omega), digit?_digit _ (by omega),
      digit?_digit _ (by omega)]
    simp only [Option.bind_eq_bind, Option.bind_some]
    rw [if_pos (by omega), ofNat_toNat a (by omega), ofNat_toNat b (by omega)]
  | case4 a b c rest ih =>
    have bounds := And.intro a.toNat_lt (And.intro b.toNat_lt c.toNat_lt)
    have last := (digit_spec (c.toNat % 64) (by omega)).1
    rw [encode, decode?.eq_4 _ _ _ _ _ (fun _ same => absurd same last) fun same => absurd same last,
      digit?_digit _ (by omega), digit?_digit _ (by omega), digit?_digit _ (by omega),
      digit?_digit _ (by omega), ih]
    simp only [Option.bind_eq_bind, Option.bind_some, Option.pure_def]
    rw [ofNat_toNat a (by omega), ofNat_toNat b (by omega), ofNat_toNat c (by omega)]

/-- The characters of encoded bytes are digits and padding, so they are neither dashes nor blanks. -/
theorem spec_of_mem {bytes : Bytes} {c : Char} (member : c ∈ encode bytes) :
    c ≠ '-' ∧ Text.isNumberBlank c = false := by
  induction bytes using encode.induct with
  | case1 => cases member
  | case2 a =>
    have bound := a.toNat_lt
    simp only [encode, List.mem_cons, List.not_mem_nil, or_false] at member
    rcases member with rfl | rfl | rfl | rfl
    · exact (digit_spec _ (by omega)).2
    · exact (digit_spec _ (by omega)).2
    · decide
    · decide
  | case3 a b =>
    have bounds := And.intro a.toNat_lt b.toNat_lt
    simp only [encode, List.mem_cons, List.not_mem_nil, or_false] at member
    rcases member with rfl | rfl | rfl | rfl
    · exact (digit_spec _ (by omega)).2
    · exact (digit_spec _ (by omega)).2
    · exact (digit_spec _ (by omega)).2
    · decide
  | case4 a b c rest ih =>
    have bounds := And.intro a.toNat_lt (And.intro b.toNat_lt c.toNat_lt)
    simp only [encode, List.mem_cons] at member
    rcases member with rfl | rfl | rfl | rfl | member
    · exact (digit_spec _ (by omega)).2
    · exact (digit_spec _ (by omega)).2
    · exact (digit_spec _ (by omega)).2
    · exact (digit_spec _ (by omega)).2
    · exact ih member

end Base64

/-! ### Elements -/

namespace Der

/-- An element with a short content is read off the front of any bytes. -/
theorem readElement?_append {type : UInt8} {content : Bytes} (single : type.toNat % 32 ≠ 31)
    (short : content.length < 0x80) (rest : Bytes) :
    readElement? (type :: UInt8.ofNat content.length :: (content ++ rest))
      = some (⟨type, content⟩, rest) := by
  have code : (UInt8.ofNat content.length).toNat = content.length := by
    rw [UInt8.toNat_ofNat']
    omega
  have length : readLength? (UInt8.ofNat content.length :: (content ++ rest))
      = some (content.length, content ++ rest) := by
    rw [readLength?, code]
    exact if_pos short
  rw [readElement?, length]
  simp [single]

/-- A single element with a short content. -/
theorem element?_short {type : UInt8} {content : Bytes} (single : type.toNat % 32 ≠ 31)
    (short : content.length < 0x80) :
    element? (type :: UInt8.ofNat content.length :: content) = some ⟨type, content⟩ := by
  have read := readElement?_append single short []
  rw [List.append_nil] at read
  rw [element?, read]

theorem readRow?_cons {fuel : Nat} {type : UInt8} {content rest : Bytes} {elements : List Element}
    (single : type.toNat % 32 ≠ 31) (short : content.length < 0x80)
    (others : readRow? fuel rest = some elements) :
    readRow? (fuel + 1) (type :: UInt8.ofNat content.length :: (content ++ rest))
      = some (⟨type, content⟩ :: elements) := by
  rw [readRow?.eq_3 _ _ (by nofun), readElement?_append single short]
  simp [others]

end Der

namespace PrivateKey

open Der

/-- The element that holds a seed. -/
theorem length_seedElement {seed : Bytes} (size : seed.length = Ed25519.keySize) :
    (0x04 :: 0x20 :: seed : Bytes).length = 0x22 := by
  rw [List.length_cons, List.length_cons, size]
  rfl

/-- The row of elements in the structure of a seed: a version, an algorithm, and the seed as an
element of its own. -/
theorem elements?_seed {seed : Bytes} (size : seed.length = Ed25519.keySize) :
    elements? (Pem.seedHead.drop 2 ++ seed) = some
      [⟨integerType, [0]⟩, ⟨sequenceType, [0x06, 0x03, 0x2b, 0x65, 0x70]⟩,
        ⟨octetsType, 0x04 :: 0x20 :: seed⟩] := by
  have length := length_seedElement size
  have key : readRow? 44 (octetsType :: UInt8.ofNat (0x04 :: 0x20 :: seed : Bytes).length
      :: ((0x04 :: 0x20 :: seed) ++ [])) = some [⟨octetsType, 0x04 :: 0x20 :: seed⟩] :=
    readRow?_cons (by decide) (by rw [length]; decide) rfl
  have algorithm : readRow? 45 _ = some (⟨sequenceType, [0x06, 0x03, 0x2b, 0x65, 0x70]⟩ :: _) :=
    readRow?_cons (by decide) (by decide) key
  have version : readRow? 46 _ = some (⟨integerType, [0]⟩ :: _) :=
    readRow?_cons (by decide) (by decide) algorithm
  rw [length, List.append_nil] at version
  have all : (Pem.seedHead.drop 2 ++ seed).length = 46 := by
    rw [List.length_append, size]
    rfl
  rw [elements?, all]
  exact version

/-- The structure of a seed is read as that seed. -/
theorem readPlain_seed {seed : Bytes} (size : seed.length = Ed25519.keySize) :
    readPlain (Pem.seedHead ++ seed) = .seed seed := by
  have length : (Pem.seedHead.drop 2 ++ seed).length = 0x2e := by
    rw [List.length_append, size]
    rfl
  have whole : element? _ = some ⟨sequenceType, Pem.seedHead.drop 2 ++ seed⟩ :=
    element?_short (by decide) (by rw [length]; decide)
  rw [length] at whole
  have inner : element? _ = some ⟨octetsType, seed⟩ := element?_short (by decide) (by rw [size]; decide)
  rw [size] at inner
  have parts : Element.parts? sequenceType ⟨sequenceType, Pem.seedHead.drop 2 ++ seed⟩ = _ :=
    elements?_seed size
  have key : octets? Ed25519.keySize (0x04 :: 0x20 :: seed) = some seed := by
    rw [octets?]
    change (element? (octetsType :: UInt8.ofNat Ed25519.keySize :: seed) >>= _) = _
    rw [inner]
    exact if_pos size
  rw [readPlain]
  change Option.getD (element? (sequenceType :: UInt8.ofNat 0x2e :: (Pem.seedHead.drop 2 ++ seed)) >>= _) _ = _
  rw [whole, Option.bind_eq_bind, Option.bind_some, parts]
  change readKey none (0x04 :: 0x20 :: seed) .ed25519 = _
  simp only [readKey, key]

end PrivateKey

/-! ### Marks -/

namespace Pem

open Text (isNumberBlank)

/-- Characters that do not begin a mark are passed over. -/
theorem scan_skip {next : Char} {left cs : List Char} (absent : next ∉ cs) (passed rest : List Char) :
    scan (next :: left) (next :: left) passed (cs ++ rest)
      = scan (next :: left) (next :: left) (cs.reverse ++ passed) rest := by
  induction cs generalizing passed with
  | nil => rfl
  | cons c cs ih =>
    rw [List.mem_cons, not_or] at absent
    rw [List.cons_append, scan, if_neg (Ne.symm absent.1), ih absent.2, List.reverse_cons,
      List.append_assoc]
    rfl

/-- A mark is walked through to its end. -/
theorem scan_mark (mark left passed rest : List Char) :
    scan mark left passed (left ++ rest)
      = some (((left.reverse ++ passed).drop mark.length).reverse, rest) := by
  induction left generalizing passed with
  | nil => rw [List.nil_append, scan, List.reverse_nil, List.nil_append]
  | cons c left ih =>
    rw [List.cons_append, scan, if_pos rfl, ih, List.reverse_cons, List.append_assoc]
    rfl

variable {next : Char} {mark cs : List Char}

/-- A text is split at a mark whose first character it does not have before. -/
theorem splitAt?_append (first : mark.head? = some next) (absent : next ∉ cs) (rest : List Char) :
    splitAt? mark (cs ++ mark ++ rest) = some (cs, rest) := by
  obtain ⟨left, rfl⟩ := List.head?_eq_some_iff.mp first
  rw [splitAt?, List.append_assoc, scan_skip absent, scan_mark, ← List.length_reverse,
    List.drop_left, List.append_nil, List.reverse_reverse]

/-- A text is not split at a mark that it does not have the first character of. -/
theorem splitAt?_absent (first : mark.head? = some next) (absent : next ∉ cs) :
    splitAt? mark cs = none := by
  obtain ⟨left, rfl⟩ := List.head?_eq_some_iff.mp first
  have skipped := @scan_skip next left cs absent [] []
  rw [List.append_nil] at skipped
  rw [splitAt?, skipped, scan]

/-- A text is not split at an empty line if its only line end is its last character. -/
theorem splitAt?_lineEnd (absent : '\n' ∉ cs) : splitAt? ['\n', '\n'] (cs ++ ['\n']) = none := by
  rw [splitAt?, scan_skip absent, scan, if_pos rfl, scan]

/-! ### Key files -/

/-- The one block of a text is read, whatever its label and its body are, if they have no dashes. -/
theorem readBlocks?_block {label body : List Char} {block : Block} (fuel : Nat)
    (plainLabel : '-' ∉ label) (plainBody : '-' ∉ body)
    (lead : ∃ c more, body = c :: more ∧ isLineBlank c = false)
    (read : readBlock? label body label = some block) :
    readBlocks? (fuel + 1) (beginMark ++ (label ++ dashes ++ ('\n' :: (body ++ endMark ++
      (label ++ dashes ++ ['\n']))))) = some [block] := by
  have opened (rest : List Char) : splitAt? beginMark (beginMark ++ rest) = some ([], rest) :=
    splitAt?_append (show beginMark.head? = some '-' from rfl) List.not_mem_nil rest
  have labelled (rest : List Char) : splitAt? dashes (label ++ dashes ++ rest) = some (label, rest) :=
    splitAt?_append (show dashes.head? = some '-' from rfl) plainLabel rest
  have closed (rest : List Char) : splitAt? endMark (body ++ endMark ++ rest) = some (body, rest) :=
    splitAt?_append (show endMark.head? = some '-' from rfl) plainBody rest
  have led (rest : List Char) : ('\n' :: (body ++ endMark ++ rest)).dropWhile isLineBlank
      = body ++ endMark ++ rest := by
    obtain ⟨c, more, rfl, ink⟩ := lead
    have blank : isLineBlank '\n' = true := by decide
    rw [List.dropWhile_cons_of_pos blank]
    exact List.dropWhile_cons_of_neg (ne_true_of_eq_false ink)
  have ended : readBlocks? fuel (['\n'].dropWhile isLineBlank) = some [] := by
    cases fuel <;> rfl
  rw [readBlocks?, opened]
  simp only [Option.bind_eq_bind, Option.bind_some, labelled, led, closed, Option.pure_def, read, ended]

/-- The body of the block that a seed is written in. -/
def body (seed : Bytes) : List Char := Base64.encode (seedHead ++ seed) ++ ['\n']

theorem readBlock?_body (seed : Bytes) :
    readBlock? plainLabel (body seed) plainLabel = some ⟨"PRIVATE KEY", [], seedHead ++ seed⟩ := by
  have ink {c : Char} (member : c ∈ Base64.encode (seedHead ++ seed)) :
      Text.isNumberBlank c = false := (Base64.spec_of_mem member).2
  have noLineEnd : '\n' ∉ Base64.encode (seedHead ++ seed) := fun member => nomatch ink member
  have noReturn : '\r' ∉ body seed := by
    rw [body, List.mem_append, not_or]
    exact ⟨fun member => (nomatch ink member), by decide⟩
  have plain : splitBody (body seed) = ([], body seed) := by
    have doubled : splitAt? ['\n', '\n'] (body seed) = none := splitAt?_lineEnd noLineEnd
    rw [splitBody, doubled, splitAt?_absent rfl noReturn]
    rfl
  have data : (body seed).filter (fun c => !isNumberBlank c) = Base64.encode (seedHead ++ seed) := by
    have kept : (Base64.encode (seedHead ++ seed)).filter (fun c => !isNumberBlank c)
        = Base64.encode (seedHead ++ seed) :=
      List.filter_eq_self.mpr fun c member => by rw [ink member]; rfl
    have dropped : ['\n'].filter (fun c => !isNumberBlank c) = [] := by decide
    rw [body, List.filter_append, kept, dropped, List.append_nil]
  rw [readBlock?, plain]
  dsimp only
  rw [data, Base64.decode?_encode]
  rfl

/-- The file of a seed is read as that seed. -/
theorem read_write {seed : Bytes} (size : seed.length = Ed25519.keySize) :
    read (Utf8.encode (write seed)) = .seed seed := by
  have noDash : '-' ∉ body seed := by
    rw [body, List.mem_append, not_or]
    exact ⟨fun member => (Base64.spec_of_mem member).1 rfl, by decide⟩
  have lead : ∃ c more, body seed = c :: more ∧ isLineBlank c = false :=
    ⟨'M', _, rfl, by decide⟩
  have text : (write seed).toList = beginMark ++ (plainLabel ++ dashes ++ ('\n' :: (body seed ++ endMark ++
      (plainLabel ++ dashes ++ ['\n'])))) := by
    rw [write, String.toList_ofList, body]
    simp only [List.append_assoc, List.cons_append, List.nil_append]
  have blocks : blocks? (write seed) = some [⟨"PRIVATE KEY", [], seedHead ++ seed⟩] := by
    have marked : beginMark.length = 11 := by decide
    obtain ⟨fuel, length⟩ : ∃ fuel, (write seed).length = fuel + 1 := by
      refine Nat.exists_eq_add_one_of_ne_zero ?_
      rw [← String.length_toList, text, List.length_append, marked]
      omega
    rw [blocks?, length, text]
    exact readBlocks?_block fuel (by decide) noDash lead (readBlock?_body seed)
  rw [read, Utf8.decode?_encode, Option.bind_some, blocks, Option.bind_some]
  exact PrivateKey.readPlain_seed size

end Pem

namespace KeyPair

variable {α : Type} {data keys : Path} {disk saved : Disk α} {pair fresh : KeyPair}
  {publicText privateText : String}

/-! ### Keys in hexadecimal -/

theorem ofPrivate_seed (pair : KeyPair) : ofPrivate pair.seed = .ok pair := by
  rw [ofPrivate, dif_pos pair.seed_length]
  exact congrArg Except.ok (eq_of_seed_eq rfl)

theorem readKey_eq_ok {text : String} {key : Bytes} :
    readKey text = .ok key ↔ Hex.decode text = .ok key :=
  ⟨of_mapError_ok, fun read => congrArg (Except.mapError KeyError.notHex) read⟩

/-- Two texts are read as a pair if and only if they are its seed and its public key. -/
theorem ofHex_eq_ok : ofHex publicText privateText = .ok pair ↔
    Hex.decode privateText = .ok pair.seed ∧ Hex.decode publicText = .ok pair.publicKey := by
  rw [← readKey_eq_ok, ← readKey_eq_ok]
  constructor
  · intro made
    obtain ⟨seed, readPrivate, made⟩ := exists_of_bind_ok made
    obtain ⟨own, ofSeed, made⟩ := exists_of_bind_ok made
    obtain ⟨key, readPublic, made⟩ := exists_of_bind_ok made
    rw [ofPrivate] at ofSeed
    split at ofSeed
    · obtain rfl := Except.ok.inj ofSeed
      split at made
      · next same =>
        obtain rfl := Except.ok.inj made
        rw [readPublic, ← same]
        exact ⟨readPrivate, rfl⟩
      · cases made
    · cases ofSeed
  · rintro ⟨readPrivate, readPublic⟩
    unfold ofHex
    rw [readPrivate, readPublic]
    simp only [bind, Except.bind, ofPrivate_seed, if_true]
    rfl

/-- What is read as no pair is refused. -/
theorem ofHex_refused (foreign : ∀ seed, Hex.decode privateText = .ok seed →
      seed.length = Ed25519.keySize → Hex.decode publicText ≠ .ok (Ed25519.publicKey seed)) :
    ∃ error, ofHex publicText privateText = .error error := by
  cases made : ofHex publicText privateText with
  | error error => exact ⟨error, rfl⟩
  | ok pair =>
    obtain ⟨readPrivate, readPublic⟩ := ofHex_eq_ok.mp made
    rw [pair.publicKey_eq] at readPublic
    exact absurd readPublic (foreign pair.seed readPrivate pair.seed_length)

/-! ### Key files -/

/-- What was saved is loaded. -/
theorem load_of_save (written : save keys pair disk = .ok saved) : load keys saved = .ok pair := by
  obtain ⟨folders, _, written⟩ := exists_of_bind_ok written
  obtain ⟨present, read⟩ := Disk.read_written written
  rw [load, if_pos present, read]
  dsimp only [Except.mapError, bind, Except.bind]
  rw [Pem.read_write pair.seed_length]
  exact congrArg (Except.mapError fun _ => KeyFileError.unreadable) pair.ofPrivate_seed

/-- A key file that is there is loaded if it can be, and stays what it is. -/
theorem ensure_of_hasFile (present : hasFile data disk = true) (fresh : KeyPair) :
    ensure data fresh disk = (load (keysPath data) disk).map fun pair => (pair, disk) :=
  if_pos present

/-- Once a pair was given, there is a key file, and the pair is loaded from it. -/
theorem ensure_loads (given : ensure data fresh disk = .ok (pair, saved)) :
    hasFile data saved = true ∧ load (keysPath data) saved = .ok pair := by
  unfold ensure at given
  split at given
  · next present =>
    obtain ⟨_, loaded, same⟩ := of_map_ok given
    cases same
    exact ⟨present, loaded⟩
  · obtain ⟨_, written, same⟩ := of_map_ok (of_mapError_ok given)
    cases same
    obtain ⟨folders, _, file⟩ := exists_of_bind_ok written
    exact ⟨(Disk.read_written file).1, load_of_save written⟩

/-- Asks for the pair of a data folder again and again, each time with the pair that would be made: what
is given, and the disk afterwards. -/
def ensureEach (data : Path) : List KeyPair → Disk α → List (Except KeyFileError KeyPair) × Disk α
  | [], disk => ([], disk)
  | fresh :: others, disk =>
    match ensure data fresh disk with
    | .ok (pair, saved) => (ensureEach data others saved).map (.ok pair :: ·) id
    | .error error => (ensureEach data others disk).map (.error error :: ·) id

/-- A key file stays what it is, whatever comes of loading it. -/
theorem ensureEach_keeps (present : hasFile data disk = true) (calls : List KeyPair) :
    (ensureEach data calls disk).2 = disk := by
  induction calls with
  | nil => rfl
  | cons fresh others ih =>
    rw [ensureEach, ensure_of_hasFile present]
    cases load (keysPath data) disk with
    | error error => exact ih
    | ok pair => exact ih

/-- A pair that is loaded is given each time. -/
theorem ensureEach_loads (present : hasFile data disk = true)
    (loaded : load (keysPath data) disk = .ok pair) (calls : List KeyPair) :
    (ensureEach data calls disk).1 = calls.map fun _ => .ok pair := by
  induction calls with
  | nil => rfl
  | cons fresh others ih =>
    rw [ensureEach, ensure_of_hasFile present, loaded]
    exact congrArg (Except.ok pair :: ·) ih

/-- After the first time that a pair is given, it is given each time. -/
theorem ensureEach_again {calls : List KeyPair} {earlier later : List (Except KeyFileError KeyPair)}
    (given : (ensureEach data calls disk).1 = earlier ++ .ok pair :: later) :
    ∀ answer ∈ later, answer = .ok pair := by
  induction calls generalizing disk earlier with
  | nil =>
    cases earlier <;> cases given
  | cons fresh others ih =>
    cases first : ensure data fresh disk with
    | error error =>
      rw [ensureEach, first] at given
      cases earlier with
      | nil => cases given
      | cons head earlier => exact ih (List.tail_eq_of_cons_eq given)
    | ok answer =>
      obtain ⟨made, saved⟩ := answer
      obtain ⟨present, loaded⟩ := ensure_loads first
      have all : (ensureEach data (fresh :: others) disk).1
          = .ok made :: others.map fun _ => .ok made := by
        rw [ensureEach, first, ← ensureEach_loads present loaded others]
        rfl
      have same : ∀ answer ∈ earlier ++ .ok pair :: later, answer = .ok made := by
        rw [← given, all, List.forall_mem_cons]
        refine ⟨rfl, fun answer member => ?_⟩
        obtain ⟨_, _, rfl⟩ := List.mem_map.mp member
        rfl
      rw [List.forall_mem_append, List.forall_mem_cons] at same
      rw [same.2.1]
      exact same.2.2

/-- The pair of a seed is read from every spelling of its keys and from the file that it was saved in, and
no other two texts are read as a pair. The pair of a data folder is the same from the first time that it is
given, and a key file that is there stays what it is. -/
theorem pair_survives (seed : Bytes) (size : seed.length = Ed25519.keySize) :
    (∀ publicText privateText,
      Hex.Respells publicText.toList (Hex.encode (Ed25519.publicKey seed)).toList →
      Hex.Respells privateText.toList (Hex.encode seed).toList →
      ofHex publicText privateText = .ok (ofSeed seed size)) ∧
    (∀ publicText privateText, (∀ other, Hex.decode privateText = .ok other →
        other.length = Ed25519.keySize →
        Hex.decode publicText ≠ .ok (Ed25519.publicKey other)) →
      ∃ error, ofHex publicText privateText = .error error) ∧
    (∀ (keys : Path) (disk saved : Disk α), save keys (ofSeed seed size) disk = .ok saved →
      load keys saved = .ok (ofSeed seed size)) ∧
    ∀ (data : Path) (disk : Disk α) (calls : List KeyPair),
      (∀ earlier pair later, (ensureEach data calls disk).1 = earlier ++ .ok pair :: later →
        ∀ answer ∈ later, answer = .ok pair) ∧
      (hasFile data disk = true → (ensureEach data calls disk).2 = disk) := by
  refine ⟨fun publicText privateText shown secret => ?_, fun _ _ => ofHex_refused,
    fun _ _ _ => load_of_save, fun data disk calls => ⟨fun _ _ _ => ensureEach_again, fun present => ?_⟩⟩
  · exact ofHex_eq_ok.mpr ⟨Hex.decode_of_respells secret, Hex.decode_of_respells shown⟩
  · exact ensureEach_keeps present calls

/-- A key with a blank in front of each pair of digits. -/
def spaced (key : Bytes) : String := String.ofList (key.flatMap fun byte => ' ' :: Hex.encodeByte byte)

theorem respells_spaced (key : Bytes) :
    Hex.Respells (spaced key).toList (Hex.encode key).toList := by
  have lower : ∀ value, value < 16 → (Hex.digit value).toLower = Hex.digit value := by decide
  rw [spaced, Hex.encode, String.toList_ofList, String.toList_ofList]
  induction key with
  | nil => exact .nil
  | cons byte rest ih =>
    have bound := byte.toNat_lt
    have pair := @Hex.Respells.pair (Hex.digit (byte.toNat / 16)) (Hex.digit (byte.toNat % 16)) _ _ ih
    rw [lower _ (by omega), lower _ (Nat.mod_lt _ (by decide))] at pair
    exact .blank rfl pair

/-- A pair is read from keys with blanks and from the file that it was saved in, and that file stays what it
is when the folder's pair is asked for. -/
theorem sevens_survive : ∃ saved : Disk Unit,
    ofHex (spaced (Ed25519.publicKey Seconds.pair.seed)) (spaced Seconds.pair.seed)
      = .ok (ofSeed Seconds.pair.seed rfl) ∧
    (∃ error, ofHex "" (spaced Seconds.pair.seed) = .error error) ∧
    save (Path.ofText "/keys") (ofSeed Seconds.pair.seed rfl) {} = .ok saved ∧
    load (Path.ofText "/keys") saved = .ok (ofSeed Seconds.pair.seed rfl) ∧
    hasFile (Path.ofText "/") saved = true ∧
    (ensureEach (Path.ofText "/") [derived [1], derived [2]] saved).2 = saved := by
  obtain ⟨reads, refuses, loads, ensures⟩ := @pair_survives Unit Seconds.pair.seed rfl
  obtain ⟨saved, written⟩ : ∃ saved : Disk Unit,
      save (Path.ofText "/keys") (ofSeed Seconds.pair.seed rfl) {} = .ok saved := ⟨_, rfl⟩
  obtain ⟨folders, _, file⟩ := exists_of_bind_ok written
  have present : hasFile (Path.ofText "/") saved = true := (Disk.read_written file).1
  refine ⟨saved, ?_, ?_, written, loads _ _ _ written, present, ?_⟩
  · exact reads _ _ (respells_spaced _) (respells_spaced _)
  · refine refuses _ _ fun other _ _ same => ?_
    have length := congrArg List.length (Except.ok.inj same)
    rw [Ed25519.length_publicKey] at length
    cases length
  · exact (ensures _ _ _).2 present

end KeyPair

end DhtRecords
