/-
Items that are got as they were put.

A put that returns has handed one item to an engine, and names the pair that has signed
it (`Mutable.put_returns`). An engine returns an item if it answers lookups of it, as often
as it likes, by nothing else (`Returning`); a lookup then finds that item
(`World.Attends.finds`). So what was put is got under any spelling of the public key, if
the engine returns what it was handed (`Mutable.got_as_put`).
-/

import DhtRecords.Proofs.Answering
import DhtRecords.Proofs.Rollback
import DhtRecords.Proofs.Spelling

namespace DhtRecords

open ExactQuantity (value)

variable {τ ν : Type}

/-! ### Signatures -/

/-- Whether every signature that a seed makes is one of its public key. -/
def Ed25519.Correct : Prop :=
  ∀ seed message, seed.length = keySize →
    verify (publicKey seed) message (sign seed (publicKey seed) message) = true

theorem KeyPair.keyError?_eq_none (pair : KeyPair) : Item.keyError? pair.publicKey pair.seed = none := by
  simp [Item.keyError?, pair.seed_length, pair.publicKey_eq]

theorem Item.writeBuffer_of_written (content : Bytes) (salt : String) {sequence : Int}
    (written : Decimal.isTooLong sequence = false) :
    writeBuffer content salt sequence = .ok (signingBuffer content salt sequence) :=
  if_neg (ne_true_of_eq_false written)

/-- A pair signs every item with a number that can be written. -/
theorem KeyPair.sign_item (pair : KeyPair) (content : Bytes) (salt : String) {sequence : Int}
    (written : Decimal.isTooLong sequence = false) :
    (⟨content, sequence, pair.publicKey, pair.seed⟩ : Signer).sign salt
      = .ok ⟨salt, content, sequence, pair.signItem content salt sequence, pair.publicKey⟩ := by
  unfold Signer.sign Item.sign
  rw [pair.keyError?_eq_none]
  dsimp only
  rw [Item.writeBuffer_of_written content salt written]
  rfl

/-- It signs none with another number. -/
theorem KeyPair.sign_tooLong (pair : KeyPair) (content : Bytes) (salt : String) {sequence : Int}
    (long : Decimal.isTooLong sequence = true) :
    (⟨content, sequence, pair.publicKey, pair.seed⟩ : Signer).sign salt = .error .tooLong := by
  unfold Signer.sign Item.sign
  rw [pair.keyError?_eq_none]
  dsimp only
  rw [Item.writeBuffer, if_pos long]
  rfl

theorem KeyPair.verify_signItem (pair : KeyPair) (correct : Ed25519.Correct) (content : Bytes)
    (salt : String) {sequence : Int} (written : Decimal.isTooLong sequence = false) :
    Item.verify content salt sequence pair.publicKey (pair.signItem content salt sequence) = true := by
  have verified := correct pair.seed (Item.signingBuffer content salt sequence) pair.seed_length
  rw [← pair.publicKey_eq] at verified
  unfold Item.verify
  rw [Item.writeBuffer_of_written content salt written]
  exact verified

/-! ### A put that returns -/

section

open World Op

variable [Quantity τ] [Overlay τ ν]

/-- A single item that was put was handed to an engine, last of all. -/
theorem Put.item_returns {owner privateKey : Bytes} {salt : String} {content : Bytes}
    {lastSequence : Int} {receipt : Receipt τ} {world after : World τ ν}
    (run : (item owner privateKey salt content lastSequence).run world = (.ok (.ok receipt), after)) :
    receipt.sequence = lastSequence + 1 ∧ ∃ engine early,
      after.journal = .called engine
          (.put owner salt ⟨content, lastSequence + 1, owner, privateKey⟩) false ::
        (early ++ world.journal) ∧
      early.filterMap Occurrence.put? = [] := by
  cases handing_item run with
  | @handed checked _ engine ensured asked =>
    obtain ⟨early, beginning, untold⟩ := (Session.spares_ensureRunning.of_run ensured).hands
    have journal := journal_ask engine
      (.put owner salt ⟨content, lastSequence + 1, owner, privateKey⟩) checked
    rw [asked, beginning] at journal
    exact ⟨rfl, engine, early, journal, untold⟩

namespace Mutable

/-- A put that returns names its pair, and has handed one item to an engine, which the pair has signed. -/
theorem put_returns {content : Bytes} {salt : String} {publicKey privateKey : Option String}
    {before after : World τ ν} {published : Published}
    (run : (put content salt publicKey privateKey).run before = (.ok published, after)) :
    ∃ pair : KeyPair, published.publicKey = Hex.encode pair.publicKey ∧
      published.privateKey = Hex.encode pair.seed ∧ published.salt = salt ∧
      published.value = Utf8.decodeReplacing content ∧
      before.puts after = [(pair.publicKey, salt,
        ⟨content, published.sequence, pair.publicKey, pair.seed⟩)] ∧
      before.handed after (pair.publicKey, salt) = some (content, published.sequence) := by
  rcases put_stages run with ⟨_, failed, -⟩ |
    ⟨pair, receipt, acknowledgement, waited, ⟨lastSequence, middle, issued, stages, awaited⟩, outcome⟩
  · cases failed
  obtain ⟨message, -, keeping, rfl⟩ := (ending_conclude outcome).of_ok
  obtain ⟨early, beginning, nothingEarly⟩ := (prepare_cases stages.paired stages.known).1.hands
  obtain ⟨number, engine, between, handing, nothingBetween⟩ := Put.item_returns stages.handed
  have spared := (spares_acknowledge _ _).of_run awaited
  obtain ⟨late, ending, nothingLate⟩ := spared.hands.trans keeping.hands.1
  rw [List.append_nil] at nothingLate
  rw [handing, beginning, ← number] at ending
  -- All that was put in the course of it is this one item.
  let call : Occurrence τ := .called engine (.put pair.publicKey salt
    ⟨content, receipt.sequence, pair.publicKey, pair.seed⟩) false
  have journal : after.journal = (late ++ call :: (between ++ early)) ++ before.journal := by
    rw [ending]
    simp [call]
  refine ⟨pair, rfl, rfl, rfl, rfl, Hands.puts_eq ⟨_, journal, ?_⟩, ?_⟩
  · rw [List.filterMap_append, List.filterMap_cons, List.filterMap_append, nothingEarly,
      nothingBetween, nothingLate]
    rfl
  · have unhanded : late.findSome? (Occurrence.handed? (pair.publicKey, salt)) = none :=
      List.findSome?_eq_none_iff.mpr fun occurrence member =>
        Occurrence.handed?_of_untold (List.filterMap_eq_nil_iff.mp nothingLate occurrence member) _
    rw [handed_of_append journal, List.findSome?_append, unhanded]
    simp [call, Occurrence.handed?, published]

end Mutable

end

/-! ### Answers to one lookup -/

section

variable [Quantity τ] [ExactQuantity τ] [Overlay τ ν]

/-- Whether an engine, in the good states of an overlay, runs and takes lookups of an item. It may answer one
several times, but only by what is stored, and once within a time. -/
structure Returning (engine : EngineId) (item : Bytes × String) (stored : Option (Bytes × Int))
    (limit : τ) (good : ν → Prop) : Prop extends Running τ engine {keyOf item} good where
  accepts : ∀ overlay, good overlay →
    (Overlay.ask (τ := τ) engine (.lookup item.1 item.2) overlay).outcome = .ok ()
  remains : ∀ overlay, good overlay →
    good (Overlay.ask (τ := τ) engine (.lookup item.1 item.2) overlay).overlay
  brings : ∀ overlay, good overlay → ∀ entry ∈ alertsAbout (keyOf item)
    (Overlay.ask (τ := τ) engine (.lookup item.1 item.2) overlay).alerts, entry.2.Brings stored
  answers : ∀ overlay, good overlay → ∃ entry ∈ alertsAbout (keyOf item)
    (Overlay.ask (τ := τ) engine (.lookup item.1 item.2) overlay).alerts, value entry.1 ≤ value limit

variable {engine : EngineId} {item : Bytes × String} {content : Option (Bytes × Int)} {limit : τ}
  {good : ν → Prop} {world : World τ ν}

/-- An engine that serves an item which is stored answers its lookups. -/
theorem Serving.returning {stored : Bytes × String → Option (Bytes × Int)}
    (serving : Serving engine {item} stored limit good) (some : (stored item).isSome = true) :
    Returning engine item (stored item) limit good := by
  have running : Running τ engine {keyOf item} good := by
    rw [← Set.image_singleton]
    exact serving.toRunning
  have member : item ∈ ({item} : Set (Bytes × String)) := Set.mem_singleton item
  refine ⟨running, serving.accepts item member, serving.remains item member,
    fun overlay inGood => World.brings_of_answers (serving.answers item member overlay inGood), ?_⟩
  intro overlay inGood
  obtain ⟨held, present⟩ := Option.isSome_iff_exists.mp some
  have answered := serving.answers item member overlay inGood
  rw [present] at answered
  obtain ⟨time, final, only, soon⟩ := answered
  exact ⟨_, only ▸ List.mem_singleton_self _, soon⟩

namespace World

/-- After a lookup was fired, what is in flight of the item was so before or brings what is stored, and
some of that is due within a time. -/
theorem Attends.flight_fired (attends : world.Attends engine {keyOf item} good)
    (returning : Returning engine item content limit good) :
    (∀ entry ∈ (world.fired engine item).flight (keyOf item),
      entry ∈ world.flight (keyOf item) ∨ entry.2.Brings content) ∧
    ∃ entry ∈ (world.fired engine item).flight (keyOf item),
      value entry.1 ≤ value (world.fired engine item).clock + value limit := by
  have asking := sends_ask engine .isRunning world
  have looking := sends_ask engine (.lookup item.1 item.2) (world.ask engine .isRunning).2
  have inGood := (attends.ask (returning.stable _ attends.inGood)).inGood
  have silent : (world.ask engine .isRunning).2.flight (keyOf item) = world.flight (keyOf item) :=
    asking.silent _ fun entry sent same =>
      returning.quiet _ attends.inGood entry.1 entry.2 sent ⟨keyOf item, rfl, same⟩
  have flight := looking.flight (keyOf item)
  rw [silent] at flight
  constructor
  · intro entry flying
    rcases List.mem_append.mp (flight.mem_iff.mp flying) with before | sent
    · exact .inl before
    · obtain ⟨answer, member, rfl⟩ := List.mem_map.mp sent
      exact .inr (returning.brings _ inGood answer member)
  · obtain ⟨answer, member, soon⟩ := returning.answers _ inGood
    refine ⟨_, flight.mem_iff.mpr (List.mem_append_right _ (List.mem_map_of_mem member)), ?_⟩
    have clock : (world.fired engine item).clock = (world.ask engine .isRunning).2.clock := looking.clock
    rw [clock, ExactQuantity.value_add]
    exact add_le_add_right soon _

/-- A lookup finds what is stored, if all answers that come bring that. -/
theorem Attends.finds (attends : world.Attends engine {keyOf item} good)
    (returning : Returning engine item content limit good) {timeout : τ}
    (inTime : value limit ≤ value timeout)
    (flying : ∀ entry ∈ world.flight (keyOf item), entry.2.Brings content) :
    ∃ outcome after, Op.Yields (Get.lookup item.1 item.2 timeout false) world (.ok outcome) after ∧
      content = some (outcome.value, outcome.sequence) := by
  have forgotten := attends.forget item
  have asked := forgotten.ask (returning.stable _ forgotten.inGood)
  have fired : (World.fired engine item (Get.forget item.1 item.2 world)).Attends engine
      {keyOf item} good := asked.ask (returning.remains _ asked.inGood)
  obtain ⟨brings, answer, sent, soon⟩ := forgotten.flight_fired returning
  obtain ⟨waited, waits, -, settled, arrived⟩ :=
    fired.waitForResult returning.toRunning (keyOf item) timeout
  have drains := settled.drains (keyOf item) rfl
  -- The answer that is sent in time has come down when the wait is over.
  have known : (waited.correlator.result? (keyOf item)).isSome = true := by
    rcases arrived with known | late
    · exact known
    · rcases drains.mem_flight_or sent with still | latest
      · obtain ⟨pending, queued, same⟩ := exists_pending_of_mem_flight still
        have after := late pending queued
        rw [same] at after
        linarith
      · rwa [latest?, Option.isSome_map] at latest
  obtain ⟨result, found⟩ := Option.isSome_iff_exists.mp known
  have latest : waited.latest? (keyOf item) = some result.alert :=
    congrArg (Option.map LookupResult.alert) found
  refine ⟨⟨result.value, result.sequence, result.final⟩, waited, ?_, ?_⟩
  · unfold Get.lookup
    refine .bind (.modify fun _ => rfl) (.bind
      (forgotten.fire_of_accepts returning.toRunning returning.accepts) (.bind waits ?_))
    rw [found]
    exact .pure _ _
  · -- What was known before has been forgotten, so the result was in flight.
    rcases drains.latest?_cases latest with old | ⟨entry, flown, same⟩
    · have same := (sends_ask engine (.lookup item.1 item.2) _).latest (keyOf item) |>.trans
        ((sends_ask engine .isRunning (Get.forget item.1 item.2 world)).latest (keyOf item))
      rw [latest?_forget, if_pos rfl] at same
      cases same.symm.trans old
    · have own : entry.2.Brings content := (brings entry flown).elim (flying entry) id
      rw [same] at own
      exact own

end World

end

/-! ### Getting what was put -/

namespace Mutable

open World

variable [Quantity τ] [ExactQuantity τ] [Overlay τ ν]

/-- An item is got under any spelling of its owner's key, if all answers that come bring what is stored. -/
theorem yields_get {owner : Bytes} {spelling salt : String} {content : Bytes} {sequence : Int}
    {later : World τ ν} {engine : EngineId} {good : ν → Prop} {timeout : τ}
    (read : Hex.decode spelling = .ok owner) (length : owner.length = Ed25519.keySize)
    (patient : later.settings.getTimeout = some timeout)
    (returning : Returning engine (owner, salt) (some (content, sequence)) timeout good)
    (attends : later.Attends engine {keyOf (owner, salt)} good)
    (flying : ∀ entry ∈ later.flight (keyOf (owner, salt)),
      entry.2.Brings (some (content, sequence))) :
    ∃ after, Op.Yields (get spelling salt) later
      ⟨spelling, salt, sequence, Utf8.decodeReplacing content⟩ after := by
  obtain ⟨found, after, yields, same⟩ := attends.finds returning (le_refl (value timeout)) flying
  obtain ⟨rfl, rfl⟩ := Prod.mk.inj (Option.some.inj same)
  have owned : readOwner spelling = (pure owner : Op τ ν Bytes) := by
    simp [readOwner, read, length]
  have looked : Op.Yields (lookUp owner salt false) later (.ok found) after := by
    refine .get_bind (fun _ => rfl) ?_
    rw [patient]
    exact yields
  refine ⟨after, ?_⟩
  unfold get
  rw [owned]
  exact .bind (.pure owner later) (.bind looked (.pure _ after))

/-- What was put is got again. If lookups of the item that a put has handed to an engine are answered
by it, then getting it under any spelling of the public key gives back the text, the salt and the number.
The keys that the put returns are those of the pair that has signed the item, and any number that can be
written at all is signed. -/
theorem got_as_put {text salt : String} {publicKey privateKey : Option String}
    {before after later : World τ ν} {published : Published} {owner : Bytes} {engine : EngineId}
    {good : ν → Prop} {timeout : τ}
    (run : (put (Utf8.encode text) salt publicKey privateKey).run before = (.ok published, after))
    (named : published.publicKey = Hex.encode owner)
    (patient : later.settings.getTimeout = some timeout)
    (returning : Returning engine (owner, salt) (before.handed after (owner, salt)) timeout good)
    (attends : later.Attends engine {keyOf (owner, salt)} good)
    (flying : ∀ entry ∈ later.flight (keyOf (owner, salt)),
      entry.2.Brings (before.handed after (owner, salt))) :
    published.salt = salt ∧ published.value = text ∧
      (∀ spelling : String, Hex.Respells spelling.toList published.publicKey.toList →
        ∃ last, Op.Yields (get spelling salt) later
          ⟨spelling, published.salt, published.sequence, text⟩ last) ∧
      ∃ pair : KeyPair, KeyPair.ofHex published.publicKey published.privateKey = .ok pair ∧
        before.puts after = [(owner, salt,
          ⟨Utf8.encode text, published.sequence, pair.publicKey, pair.seed⟩)] ∧
        (Decimal.isTooLong published.sequence = false →
          ∃ signature, (⟨Utf8.encode text, published.sequence, pair.publicKey, pair.seed⟩ : Signer).sign salt
              = .ok ⟨salt, Utf8.encode text, published.sequence, signature, owner⟩ ∧
            (Ed25519.Correct → DhtRecords.Item.verify (Utf8.encode text) salt published.sequence owner
              signature = true)) := by
  obtain ⟨pair, publicHex, privateHex, salted, returned, told, handed⟩ := put_returns run
  obtain rfl : owner = pair.publicKey := Hex.encode_injective (named.symm.trans publicHex)
  have length : pair.publicKey.length = Ed25519.keySize := by
    rw [pair.publicKey_eq, Ed25519.length_publicKey]
  rw [Utf8.decodeReplacing_encode] at returned
  refine ⟨salted, returned, fun spelling respells => ?_, pair, ?_, told, fun written => ?_⟩
  · rw [publicHex] at respells
    rw [handed] at returning flying
    have got := yields_get (Hex.decode_of_respells respells) length patient returning attends flying
    rw [Utf8.decodeReplacing_encode] at got
    rw [salted]
    exact got
  · rw [publicHex, privateHex]
    exact pair.ofHex_encode
  · have signs := pair.sign_item (Utf8.encode text) salt written
    refine ⟨_, signs, fun correct => ?_⟩
    exact pair.verify_signItem correct (Utf8.encode text) salt written

/-- A short text that is put under a fresh pair. -/
def accentedPut : Except Failure Published × World Seconds (Simnet Seconds) :=
  (put (Utf8.encode "é") "note" none none).run (Seconds.world {})

/-- A key in upper case, with a blank in front. -/
def shouted (key : Bytes) : String :=
  String.ofList (' ' :: (key.flatMap Hex.encodeByte).map Char.toUpper)

theorem respells_shouted (key : Bytes) :
    Hex.Respells (shouted key).toList (Hex.encode key).toList := by
  rw [shouted, Hex.encode, String.toList_ofList, String.toList_ofList]
  exact .blank rfl (Hex.respells_map (by decide) key)

theorem accented_got : ∃ published after last, accentedPut = (.ok published, after) ∧
    published.value = "é" ∧
    Op.Yields (get (shouted Seconds.pair.publicKey) "note") (Seconds.world after.overlay.items)
      ⟨shouted Seconds.pair.publicKey, "note", 1, "é"⟩ last ∧
    KeyPair.ofHex published.publicKey published.privateKey = .ok Seconds.pair ∧
    DhtRecords.Item.verify (Utf8.encode "é") "note" 1 Seconds.pair.publicKey
      (Seconds.pair.signItem (Utf8.encode "é") "note" 1) = true := by
  have course : ledgerOf accentedPut.1 = some (Hex.encode Seconds.pair.publicKey, 1) ∧
      (Seconds.world {}).handed accentedPut.2 (Seconds.pair.publicKey, "note")
        = (Seconds.net accentedPut.2.overlay.items).stored (Seconds.pair.publicKey, "note") ∧
      ((Seconds.world {}).handed accentedPut.2 (Seconds.pair.publicKey, "note")).isSome = true ∧
      (Seconds.world {}).puts accentedPut.2 = [(Seconds.pair.publicKey, "note",
        ⟨Utf8.encode "é", 1, Seconds.pair.publicKey, Seconds.pair.seed⟩)] := by
    decide +kernel
  obtain ⟨issued, kept, present, signed⟩ := course
  rcases run : accentedPut with ⟨failure | published, after⟩
  · rw [run] at issued
    cases issued
  rw [run] at issued kept present signed
  obtain ⟨named, number⟩ := Prod.mk.inj (Option.some.inj issued)
  have honest : (Seconds.net after.overlay.items).Honest 1 ⟨3⟩ := Seconds.honest_net _ (by decide)
  have served : Serving 1 {(Seconds.pair.publicKey, "note")} ((Seconds.world {}).handed after)
      (⟨3⟩ : Seconds) (· = Seconds.net after.overlay.items) :=
    (honest.serving _).of_eq fun _ member => Set.mem_singleton_iff.mp member ▸ kept
  obtain ⟨salted, returned, got, pair, read, told, -⟩ := got_as_put run named rfl
    (served.returning present) (Seconds.attends_world after.overlay.items _) nofun
  rw [told] at signed
  obtain ⟨-, -, seeds⟩ : published.sequence = 1 ∧ pair.publicKey = Seconds.pair.publicKey ∧
      pair.seed = Seconds.pair.seed := by
    simpa using signed
  rw [KeyPair.eq_of_seed_eq seeds] at read
  obtain ⟨last, yields⟩ := got (shouted Seconds.pair.publicKey)
    (by rw [named]; exact respells_shouted _)
  rw [salted, number] at yields
  exact ⟨published, after, last, rfl, returned, yields, read, by decide +kernel⟩

end Mutable

end DhtRecords
