/-
Puts of single items, and what they rest on.

`World.puts` lists what engines were told to put between two worlds. Whatever a
session does on its own puts nothing and leaves the store alone (`Spares`); so a
`Mutable.put` hands over one item at most, and that only once its pair and the
sequence number that it follows on are known (`Mutable.put_cases`). A pair that
is given is trusted with a number only by a final answer to the lookup that the
put begins with, so the numbers of one item rise as long as these answers do not
fall behind (`Mutable.put_careful`).
-/

import DhtRecords.Proofs.Exact
import DhtRecords.Proofs.Hearing
import DhtRecords.Proofs.Names
import DhtRecords.Proofs.Stages

namespace DhtRecords

variable {τ ν : Type}

/-! ### Puts -/

/-- What an engine is told to put: the owner, the salt and the signer of an item. -/
abbrev Handed := Bytes × String × Signer

/-- What an engine was told to put, whether it has failed or not, if it is that what has happened. -/
def Occurrence.put? : Occurrence τ → Option Handed
  | .called _ (.put owner salt signer) _ => some (owner, salt, signer)
  | _ => none

namespace World

/-- What engines were told to put from one world to a later one, the latest first. -/
def puts (before after : World τ ν) : List Handed :=
  (after.journal.take (after.journal.length - before.journal.length)).filterMap Occurrence.put?

/-- Whether a journal has grown, and engines were told to put this. -/
def Hands (handed : List Handed) (before after : World τ ν) : Prop :=
  ∃ fresh, after.journal = fresh ++ before.journal ∧ fresh.filterMap Occurrence.put? = handed

namespace Hands

variable {first second third : World τ ν} {early late : List Handed}

theorem puts_eq (hands : Hands late first second) : first.puts second = late := by
  obtain ⟨fresh, journal, rfl⟩ := hands
  rw [puts, journal]
  simp

theorem of_journal (same : second.journal = first.journal) : Hands [] first second :=
  ⟨[], same, rfl⟩

theorem trans (left : Hands early first second) (right : Hands late second third) :
    Hands (late ++ early) first third := by
  obtain ⟨old, oldJournal, rfl⟩ := left
  obtain ⟨new, newJournal, rfl⟩ := right
  exact ⟨new ++ old, by rw [newJournal, oldJournal, List.append_assoc], List.filterMap_append⟩

theorem suffix (hands : Hands late first second) : first.journal <:+ second.journal := by
  obtain ⟨fresh, journal, -⟩ := hands
  exact ⟨fresh, journal.symm⟩

end Hands

/-- Whether nothing was put, and the store and the pairs that were generated are the same. -/
structure Spares (before after : World τ ν) : Prop where
  settings : after.settings = before.settings
  store : after.store = before.store
  freshKeys : after.freshKeys = before.freshKeys
  keysGenerated : after.keysGenerated = before.keysGenerated
  hands : Hands [] before after

namespace Spares

theorem refl (world : World τ ν) : Spares world world := ⟨rfl, rfl, rfl, rfl, .of_journal rfl⟩

theorem trans {first second third : World τ ν} (left : Spares first second)
    (right : Spares second third) : Spares first third :=
  ⟨right.settings.trans left.settings, right.store.trans left.store,
    right.freshKeys.trans left.freshKeys, right.keysGenerated.trans left.keysGenerated,
    left.hands.trans right.hands⟩

instance : Std.Refl (Spares (τ := τ) (ν := ν)) := ⟨refl⟩

instance : IsTrans (World τ ν) Spares := ⟨fun _ _ _ => trans⟩

theorem note {occurrence : Occurrence τ} (other : occurrence.put? = none) (world : World τ ν) :
    Spares world (world.note occurrence) :=
  ⟨rfl, rfl, rfl, rfl, [occurrence], rfl, by rw [List.filterMap_cons, other]; rfl⟩

/-- Changes of the session, the tasks, the correlator and the disk go unnoticed. -/
theorem of_eq {before after : World τ ν} (settings : after.settings = before.settings)
    (store : after.store = before.store) (freshKeys : after.freshKeys = before.freshKeys)
    (keysGenerated : after.keysGenerated = before.keysGenerated)
    (journal : after.journal = before.journal) : Spares before after :=
  ⟨settings, store, freshKeys, keysGenerated, .of_journal journal⟩

end Spares

/-! ### Steps of a session -/

section

variable [Quantity τ]

theorem Idle.spares {before after : World τ ν} (idle : Idle before after) : Spares before after := by
  cases idle with
  | @called engine call failed _ upkeep =>
    refine .note ?_ before
    cases call with
    | put => cases upkeep
    | _ => rfl
  | deliver alert =>
    have received : Spares before { before with
        correlator := before.correlator.receive before.clock alert } :=
      .of_eq rfl rfl rfl rfl rfl
    unfold World.deliver
    split
    · exact received.trans (.note rfl _)
    · exact received
  | _ => exact .of_eq rfl rfl rfl rfl rfl

theorem Idles.spares {before after : World τ ν} (idles : Idles before after) :
    Spares before after :=
  Relation.reflTransGen_le_of_le (fun _ _ idle => idle.spares) _ _ idles

omit [Quantity τ] in
theorem Alters.spares {before after : World τ ν} (alters : Alters before after) :
    Spares before after := by
  obtain ⟨session, tasks, engines, running, noted, rfl, changes⟩ := alters
  refine ⟨rfl, rfl, rfl, rfl, noted, rfl, List.filterMap_eq_nil_iff.mpr fun occurrence member => ?_⟩
  have change := changes occurrence member
  cases occurrence with
  | called => cases change
  | _ => rfl

variable [Overlay τ ν]

theorem Upkeep.spares {before after : World τ ν} (upkeep : Upkeep before after) :
    Spares before after :=
  upkeep.keeps (fun _ _ idle => idle.spares) fun _ _ alters => alters.spares

theorem spares_ask (engine : EngineId) {call : EngineCall}
    (other : ∀ owner salt signer, call ≠ .put owner salt signer) (world : World τ ν) :
    Spares world (world.ask engine call).2 := by
  refine (Spares.note ?_ world).trans (idles_react engine _ _).spares
  cases call with
  | put owner salt signer => exact absurd rfl (other owner salt signer)
  | _ => rfl

/-- What an engine was told to put is noted, whether it has failed or not; else a put is a call as any
other. -/
theorem ask_put (engine : EngineId) (owner : Bytes) (salt : String) (signer : Signer)
    (world : World τ ν) :
    (world.ask engine (.put owner salt signer)).2.store = world.store ∧
      (world.ask engine (.put owner salt signer)).2.keysGenerated = world.keysGenerated ∧
      Hands [(owner, salt, signer)] world (world.ask engine (.put owner salt signer)).2 := by
  have reacted := (idles_react engine
    (Overlay.ask (τ := τ) engine (.put owner salt signer) world.overlay)
    (world.note (.called engine (.put owner salt signer)
      (isFailure (Overlay.ask (τ := τ) engine (.put owner salt signer) world.overlay).outcome)))).spares
  exact ⟨reacted.store, reacted.keysGenerated, [_], journal_ask engine _ world, rfl⟩

end

end World

/-! ### Lookups and waits -/

section

open World Op

variable [Quantity τ] [Overlay τ ν]

theorem Session.spares_ensureRunning :
    Keeps Spares (ensureRunning : Op τ ν (Option ErrorKind)) :=
  upholds_ensureRunning fun _ _ upkeep => upkeep.spares

theorem Get.spares_fire (owner : Bytes) (salt : String) :
    Keeps Spares (fire owner salt : Op τ ν (Except (Error τ) Unit)) :=
  upholds_fire Session.spares_ensureRunning (fun engine _ _ => spares_ask engine nofun) owner salt

omit [Quantity τ] [Overlay τ ν] in
theorem Get.spares_forget (owner : Bytes) (salt : String) (world : World τ ν) :
    Spares world (forget owner salt world) :=
  .of_eq rfl rfl rfl rfl rfl

section

variable {R : World τ ν → World τ ν → Prop} [Std.Refl R] [IsTrans (World τ ν) R]

/-- Whatever holds of firing, waiting and forgetting holds of a lookup, be a time set for it or not. -/
theorem Mutable.upholds_lookUp (waits : ∀ deadline condition world, R world (World.run deadline condition world))
    (fires : ∀ owner salt, Keeps R (Get.fire owner salt : Op τ ν (Except (Get.Error τ) Unit)))
    (forgets : ∀ owner salt world, R world (Get.forget owner salt world)) (owner : Bytes)
    (salt : String) (onlyFinal : Bool) :
    Keeps R (lookUp owner salt onlyFinal : Op τ ν (Except (Get.Error τ) Get.Found)) := by
  refine .get_bind fun world => ?_
  split
  · exact Get.upholds_lookup waits fires forgets owner salt _ onlyFinal
  · refine .bind (.modify (forgets owner salt)) fun _ => .bind (fires owner salt) fun fired => ?_
    split
    · exact .pure _
    · exact .throw _

/-- A wait takes what is ready at its end. -/
theorem Put.waitForAcknowledgement_eq (key : String) (since timeout : τ) (sequence : Option Int)
    (world : World τ ν) : ∃ waited, Upkeep world waited ∧
      waitForAcknowledgement key since timeout sequence world =
        match waited.correlator.readyAcknowledgement? key since sequence with
        | some found => (some found, { waited with correlator := waited.correlator.claim key })
        | none => (none, waited) :=
  ⟨_, upkeep_run _ _ world, rfl⟩

/-- Whatever holds of waiting and of claims holds of a wait for an acknowledgement. -/
theorem Mutable.upholds_acknowledge (waits : ∀ deadline condition world, R world (World.run deadline condition world))
    (claims : ∀ key world, R world { world with correlator := world.correlator.claim key })
    (key : String) (receipt : Put.Receipt τ) :
    Keeps R (acknowledge key receipt : Op τ ν (Acknowledgement τ)) := by
  refine .get_bind fun world => ?_
  split
  · exact .throw _
  · next timeout _ =>
    refine .bind (.modifyGet fun world => ?_) fun acknowledged => ?_
    · unfold Put.waitForAcknowledgement
      dsimp only
      split
      · exact trans_of R (waits _ _ world) (claims key _)
      · exact waits _ _ world
    · split
      · exact .pure _
      · exact .throw _

end

theorem Mutable.spares_lookUp (owner : Bytes) (salt : String) (onlyFinal : Bool) :
    Keeps Spares (lookUp owner salt onlyFinal : Op τ ν (Except (Get.Error τ) Get.Found)) :=
  upholds_lookUp (fun _ _ _ => (upkeep_run _ _ _).spares) Get.spares_fire Get.spares_forget owner salt onlyFinal

/-- What is found was heard of the item since the lookup began. -/
theorem Mutable.heard_of_lookUp {owner : Bytes} {salt : String} {world after : World τ ν}
    {found : Get.Found} (run : (lookUp owner salt true).run world = (.ok (.ok found), after)) :
    ∃ owner' salt', infoHash owner' salt' = infoHash owner salt ∧
      .result owner' salt' found.value found.sequence true ∈ world.heard after := by
  unfold lookUp at run
  rw [run_bind_ok (run_get world)] at run
  split at run
  · obtain ⟨result, rfl, name, heard, final⟩ := Get.heard_of_lookup run
    rw [LookupResult.alert, final rfl] at heard
    exact ⟨result.owner, result.salt, name, heard⟩
  · rw [run_bind_ok (run_modify _ world)] at run
    obtain ⟨fired, asked, -, run⟩ := run_bind_eq_ok run
    split at run <;> cases run

/-! ### Putting an item -/

theorem Mutable.spares_acknowledge (key : String) (receipt : Put.Receipt τ) :
    Keeps Spares (acknowledge key receipt : Op τ ν (Acknowledgement τ)) :=
  upholds_acknowledge (fun _ _ _ => (upkeep_run _ _ _).spares) (fun _ _ => .of_eq rfl rfl rfl rfl rfl) key
    receipt

/-- A single item is handed to an engine under the next number, or not at all. -/
theorem Put.item_cases {owner privateKey : Bytes} {salt : String} {content : Bytes}
    {lastSequence : Int} {world after : World τ ν} {outcome : Except Failure (Except Error (Receipt τ))}
    (run : (item owner privateKey salt content lastSequence).run world = (outcome, after)) :
    (Spares world after ∧ ∀ receipt, outcome ≠ .ok (.ok receipt)) ∨
      (after.store = world.store ∧ after.keysGenerated = world.keysGenerated ∧
        Hands [(owner, salt, ⟨content, lastSequence + 1, owner, privateKey⟩)] world after ∧
        ∀ receipt, outcome = .ok (.ok receipt) → receipt.sequence = lastSequence + 1) := by
  have asks {checked : World τ ν} {engine : EngineId} {answer : Except EngineFault Unit}
      (ensured : Session.ensureRunning.run world = (.ok none, checked))
      (asked : checked.ask engine
        (.put owner salt ⟨content, lastSequence + 1, owner, privateKey⟩) = (answer, after)) :
      after.store = world.store ∧ after.keysGenerated = world.keysGenerated ∧
        Hands [(owner, salt, ⟨content, lastSequence + 1, owner, privateKey⟩)] world after := by
    have spared := Session.spares_ensureRunning.of_run ensured
    have told := ask_put engine owner salt ⟨content, lastSequence + 1, owner, privateKey⟩ checked
    rw [asked] at told
    obtain ⟨store, keysGenerated, hands⟩ := told
    exact ⟨store.trans spared.store, keysGenerated.trans spared.keysGenerated,
      spared.hands.trans hands⟩
  cases handing_item run with
  | stopped ensured | refused ensured =>
    exact .inl ⟨Session.spares_ensureRunning.of_run ensured, nofun⟩
  | faulted ensured asked =>
    obtain ⟨store, keysGenerated, hands⟩ := asks ensured asked
    exact .inr ⟨store, keysGenerated, hands, nofun⟩
  | handed ensured asked =>
    obtain ⟨store, keysGenerated, hands⟩ := asks ensured asked
    refine .inr ⟨store, keysGenerated, hands, ?_⟩
    rintro receipt same
    cases same
    rfl

end

namespace Mutable

open World Op

variable [Quantity τ] [Overlay τ ν]

/-- What the pair of a put and the number that it follows on rest on: a fresh pair, or a lookup that has
found a final answer. -/
inductive Basis (salt : String) (before after : World τ ν) :
    Option String → Option String → KeyPair → Int → Prop
  | fresh : after.keysGenerated = before.keysGenerated + 1 →
      Basis salt before after none none (before.freshKeys (before.keysGenerated + 1)) 0
  | read {publicKey privateKey : String} {pair : KeyPair} {found : Get.Found} :
      KeyPair.ofHex publicKey privateKey = .ok pair →
      (lookUp pair.publicKey salt true).run before = (.ok (.ok found), after) →
      Basis salt before after (some publicKey) (some privateKey) pair found.sequence

/-- Whether nothing was put and the store is as it was. -/
structure Untouched (before after : World τ ν) : Prop where
  hands : Hands [] before after
  store : after.store = before.store

omit [Quantity τ] [Overlay τ ν] in
theorem untouched_of_spares {before after : World τ ν} (spares : Spares before after) :
    Untouched before after := ⟨spares.hands, spares.store⟩

theorem prepare_cases {salt : String} {publicKey privateKey : Option String} {before after : World τ ν}
    {outcome : Except Failure (KeyPair × Int)} (paired : publicKey.isNone = privateKey.isNone)
    (run : (prepare salt publicKey privateKey).run before = (outcome, after)) :
    Untouched before after ∧ ∀ pair lastSequence, outcome = .ok (pair, lastSequence) →
      Basis salt before after publicKey privateKey pair lastSequence := by
  unfold prepare at run
  split at run
  · next publicKey privateKey =>
    split at run
    · cases run
      exact ⟨untouched_of_spares (.refl before), nofun⟩
    · next pair read =>
      have spared := spares_lookUp (τ := τ) (ν := ν) pair.publicKey salt true before
      rw [run_bind] at run
      rcases looked : (lookUp pair.publicKey salt true).run before with ⟨failure | error | found, world⟩
      all_goals
        rw [looked] at run spared
        cases run
      · exact ⟨untouched_of_spares spared, nofun⟩
      · exact ⟨untouched_of_spares spared, nofun⟩
      · refine ⟨untouched_of_spares spared, ?_⟩
        rintro _ _ same
        cases same
        exact .read read looked
  · next unpaired =>
    have absent : publicKey = none ∧ privateKey = none := by
      cases publicKey <;> cases privateKey <;> simp_all
    obtain ⟨rfl, rfl⟩ := absent
    rw [run_bind_ok (run_modifyGet generatePair before)] at run
    cases run
    refine ⟨⟨.of_journal rfl, rfl⟩, ?_⟩
    rintro _ _ same
    cases same
    exact .fresh rfl

omit [Overlay τ ν] in
/-- Keeping an item puts nothing. -/
theorem Keeping.hands {pair : KeyPair} {content : Bytes} {salt : String} {sequence : Int}
    {world after : World τ ν} {result : Except Failure Unit}
    (keeping : Keeping pair content salt sequence world result after) :
    Hands [] world after ∧ after.keysGenerated = world.keysGenerated := by
  cases keeping <;> exact ⟨.of_journal rfl, rfl⟩

/-- A put hands one item over, under the number after the one that its pair is known by, or it fails and
leaves everything as it was. -/
theorem put_cases {content : Bytes} {salt : String} {publicKey privateKey : Option String}
    {before after : World τ ν} {outcome : Except Failure Published}
    (run : (put content salt publicKey privateKey).run before = (outcome, after)) :
    (Untouched before after ∧ ∃ failure, outcome = .error failure) ∨
      ∃ pair lastSequence middle, Basis salt before middle publicKey privateKey pair lastSequence ∧
        Untouched before middle ∧
        (∃ limit, before.settings.maxChunkSize = some limit ∧ limit.isBelow content.length = false) ∧
        Hands [(pair.publicKey, salt, ⟨content, lastSequence + 1, pair.publicKey, pair.seed⟩)]
          middle after ∧
        after.keysGenerated = middle.keysGenerated ∧
        ∀ published, outcome = .ok published → published.publicKey = Hex.encode pair.publicKey ∧
          published.salt = salt ∧ published.sequence = lastSequence + 1 := by
  -- What is known once the pair and its number are, whatever becomes of the item.
  have issues {pair : KeyPair} {lastSequence : Int} {middle : World τ ν}
      (prepared : Prepared before content salt publicKey privateKey pair lastSequence middle) :
      Basis salt before middle publicKey privateKey pair lastSequence ∧ Untouched before middle ∧
        ∃ limit, before.settings.maxChunkSize = some limit ∧
          limit.isBelow content.length = false := by
    obtain ⟨untouched, basis⟩ := prepare_cases prepared.paired prepared.known
    exact ⟨basis pair lastSequence rfl, untouched, (checkSize_cases prepared.sized).2 rfl⟩
  have waits {pair : KeyPair} {lastSequence : Int} {middle issued waited : World τ ν}
      {receipt : Put.Receipt τ} {taken : Except Failure (Acknowledgement τ)}
      (stages : Issued before content salt publicKey privateKey pair lastSequence middle receipt issued)
      (awaited : (acknowledge (infoHash pair.publicKey salt) receipt).run issued = (taken, waited)) :
      Hands [(pair.publicKey, salt, ⟨content, lastSequence + 1, pair.publicKey, pair.seed⟩)]
          middle waited ∧
        waited.keysGenerated = middle.keysGenerated ∧ receipt.sequence = lastSequence + 1 := by
    have spared := (spares_acknowledge _ _).of_run awaited
    rcases Put.item_cases stages.handed with ⟨-, unissued⟩ | ⟨-, generated, handed, number⟩
    · exact absurd rfl (unissued receipt)
    · exact ⟨handed.trans spared.hands, spared.keysGenerated.trans generated, number receipt rfl⟩
  rcases put_stages run with ⟨failure, rfl, unacknowledged⟩ |
    ⟨pair, receipt, acknowledgement, waited, acknowledged, ending⟩
  · cases unacknowledged with
    | unpaired => exact .inl ⟨untouched_of_spares (.refl before), _, rfl⟩
    | unsized checked =>
      obtain ⟨rfl, -⟩ := checkSize_cases checked
      exact .inl ⟨untouched_of_spares (.refl _), _, rfl⟩
    | unprepared paired prepared => exact .inl ⟨(prepare_cases paired prepared).1, _, rfl⟩
    | faulted prepared given | unissued prepared given =>
      obtain ⟨basis, untouched, fits⟩ := issues prepared
      rcases Put.item_cases given with ⟨spared, -⟩ | ⟨-, generated, handed, -⟩
      · exact .inl ⟨⟨untouched.hands.trans spared.hands, spared.store.trans untouched.store⟩, _, rfl⟩
      · exact .inr ⟨_, _, _, basis, untouched, fits, handed, generated, nofun⟩
    | unanswered stages awaited =>
      obtain ⟨basis, untouched, fits⟩ := issues stages.toPrepared
      obtain ⟨handed, generated, -⟩ := waits stages awaited
      exact .inr ⟨_, _, _, basis, untouched, fits, handed, generated, nofun⟩
  · obtain ⟨lastSequence, middle, issued, stages, awaited⟩ := acknowledged
    obtain ⟨basis, untouched, fits⟩ := issues stages.toPrepared
    obtain ⟨handed, generated, number⟩ := waits stages awaited
    refine .inr ⟨pair, lastSequence, middle, basis, untouched, fits, ?_⟩
    cases ending_conclude ending with
    | vain => exact ⟨handed, generated, nofun⟩
    | unkept _ keeping | untold _ keeping =>
      exact ⟨handed.trans keeping.hands.1, keeping.hands.2.trans generated, nofun⟩
    | returned _ keeping =>
      refine ⟨handed.trans keeping.hands.1, keeping.hands.2.trans generated, ?_⟩
      rintro published same
      cases same
      exact ⟨rfl, rfl, number⟩

/-! ### Care -/

/-- The reasons for which nothing is put. -/
inductive Reason (before after : World τ ν) (content : Bytes) (salt : String) :
    Option String → Option String → Prop
  | unpaired {publicKey privateKey : Option String} :
      publicKey.isNone ≠ privateKey.isNone → Reason before after content salt publicKey privateKey
  | oversized {publicKey privateKey : Option String} {limit : Number τ} :
      before.settings.maxChunkSize = some limit → limit.isBelow content.length = true →
      Reason before after content salt publicKey privateKey
  | malformed {publicKey privateKey : String} {error : KeyError} :
      KeyPair.ofHex publicKey privateKey = .error error →
      Reason before after content salt (some publicKey) (some privateKey)
  /-- The lookup that the put begins with has found nothing. -/
  | unread {publicKey privateKey : String} {pair : KeyPair} :
      KeyPair.ofHex publicKey privateKey = .ok pair →
      (∀ found, ((lookUp pair.publicKey salt true).run before).1 ≠ .ok (.ok found)) →
      Reason before after content salt (some publicKey) (some privateKey)
  /-- No final answer for the item was heard. -/
  | unanswered {publicKey privateKey : String} {pair : KeyPair} :
      KeyPair.ofHex publicKey privateKey = .ok pair →
      (∀ owner' salt' value sequence, infoHash owner' salt' = infoHash pair.publicKey salt →
        .result owner' salt' value sequence true ∉ before.heard after) →
      Reason before after content salt (some publicKey) (some privateKey)

/-- Whether a put was made with care. Items of the same digest are not told apart unless their keys are of
one length and digests do not collide. -/
structure Careful (before after : World τ ν) (content : Bytes) (salt : String)
    (publicKey privateKey : Option String) : Prop where
  /-- One item at most is handed over. -/
  once : (before.puts after).length ≤ 1
  /-- A given pair is used under the number after that of a final answer for its item, which was heard
  since the put began and before the item was handed over. -/
  given : ∀ keyText seedText, publicKey = some keyText → privateKey = some seedText →
    ∀ handed ∈ before.puts after, ∃ pair middle owner' salt' value sequence,
      KeyPair.ofHex keyText seedText = .ok pair ∧
      .result owner' salt' value sequence true ∈ before.heard middle ∧
      infoHash owner' salt' = infoHash pair.publicKey salt ∧
      (owner'.length = pair.publicKey.length →
        CollisionFree {itemName owner' salt', itemName pair.publicKey salt} →
        owner' = pair.publicKey ∧ salt' = salt) ∧
      Hands [] before middle ∧ middle.journal <:+ after.journal ∧
      handed = (pair.publicKey, salt, ⟨content, sequence + 1, pair.publicKey, pair.seed⟩)
  /-- Without keys the next fresh pair is used, under the number one. -/
  fresh : publicKey = none → privateKey = none → ∀ handed ∈ before.puts after,
    ∃ pair, pair = before.freshKeys (before.keysGenerated + 1) ∧
      after.keysGenerated = before.keysGenerated + 1 ∧
      handed = (pair.publicKey, salt, ⟨content, 1, pair.publicKey, pair.seed⟩)
  /-- For a reason nothing is put, and the store is as it was. -/
  refused : Reason before after content salt publicKey privateKey → Untouched before after

omit [Quantity τ] [Overlay τ ν] in
theorem heard_mono {first second third : World τ ν} (left : first.journal <:+ second.journal)
    (right : second.journal <:+ third.journal) {alert : Alert} (heard : alert ∈ first.heard second) :
    alert ∈ first.heard third := by
  rw [heard_trans left right]
  exact List.mem_append_right _ heard

/-- Every put is made with care. -/
theorem careful_put (content : Bytes) (salt : String) (publicKey privateKey : Option String)
    (before : World τ ν) :
    Careful before ((put content salt publicKey privateKey).run before).2 content salt publicKey
      privateKey := by
  rcases run : (put content salt publicKey privateKey).run before with ⟨outcome, after⟩
  rcases put_cases run with ⟨untouched, -⟩ |
    ⟨pair, lastSequence, middle, basis, untouched, ⟨limit, said, fits⟩, handed, generated, -⟩
  · have none : before.puts after = [] := untouched.hands.puts_eq
    exact ⟨by simp [none], by simp [none], by simp [none], fun _ => untouched⟩
  have puts := (untouched.hands.trans handed).puts_eq
  rw [List.append_nil] at puts
  refine ⟨by simp [puts], ?_, ?_, ?_⟩
  · rintro keyText seedText rfl rfl item member
    rw [puts, List.mem_singleton] at member
    cases basis with
    | @read _ _ _ found read looked =>
      obtain ⟨owner', salt', name, heard⟩ := heard_of_lookUp looked
      exact ⟨pair, middle, owner', salt', found.value, found.sequence, read, heard, name,
        fun length free => free.eq_of_infoHash length (by simp) (by simp) name,
        untouched.hands, handed.suffix, member⟩
  · rintro rfl rfl item member
    rw [puts, List.mem_singleton] at member
    cases basis with
    | fresh count => exact ⟨_, rfl, generated.trans count, member⟩
  -- An item was handed over, so there was no reason against it.
  · intro reason
    exfalso
    cases reason with
    | unpaired unpaired => cases basis <;> simp at unpaired
    | oversized said' large =>
      obtain rfl := Option.some_inj.mp (said.symm.trans said')
      rw [fits] at large
      cases large
    | malformed error =>
      cases basis with
      | read read =>
        rw [error] at read
        cases read
    | unread read nothing =>
      cases basis with
      | read read' looked =>
        obtain rfl := Except.ok.inj (read.symm.trans read')
        exact nothing _ (by rw [looked])
    | unanswered read nothing =>
      cases basis with
      | read read' looked =>
        obtain rfl := Except.ok.inj (read.symm.trans read')
        obtain ⟨owner', salt', name, heard⟩ := heard_of_lookUp looked
        exact nothing owner' salt' _ _ name (heard_mono untouched.hands.suffix handed.suffix heard)

/-! ### Rising numbers -/

/-- Whether these are the numbers under which successful calls have put one item, the latest first. The
worlds of two calls need not have to do with each other; but a pair that is fresh later on is not that of the
item, and no final answer that a call hears falls behind the number put last. -/
inductive Series (τ ν : Type) [Quantity τ] [Overlay τ ν] (owner : Bytes) (salt : String) :
    List Int → Prop
  | none : Series τ ν owner salt []
  | call {issued : List Int} {content : Bytes} {publicKey privateKey : Option String}
      {before after : World τ ν} {published : Published} :
      Series τ ν owner salt issued →
      (put content salt publicKey privateKey).run before = (.ok published, after) →
      published.publicKey = Hex.encode owner →
      (issued ≠ [] → publicKey = .none →
        (before.freshKeys (before.keysGenerated + 1)).publicKey ≠ owner) →
      (∀ last ∈ issued.head?, ∀ owner' salt' value sequence,
        infoHash owner' salt' = infoHash owner salt →
        .result owner' salt' value sequence true ∈ before.heard after → last ≤ sequence) →
      Series τ ν owner salt (published.sequence :: issued)

theorem Series.pairwise {owner : Bytes} {salt : String} {issued : List Int}
    (series : Series τ ν owner salt issued) : issued.Pairwise (· > ·) := by
  induction series with
  | none => exact .nil
  | @call issued content publicKey privateKey before after published _ run same renewed answers ih =>
    refine List.pairwise_cons.mpr ⟨?_, ih⟩
    rcases put_cases run with ⟨-, failure, failed⟩ |
      ⟨pair, lastSequence, middle, basis, untouched, -, handed, -, told⟩
    · cases failed
    obtain ⟨key, -, sequence⟩ := told published rfl
    have owned : pair.publicKey = owner := Hex.encode_injective (key.symm.trans same)
    cases issued with
    | nil => exact nofun
    | cons last earlier =>
      have newer : last < published.sequence := by
        cases basis with
        | fresh => exact absurd owned (renewed (List.cons_ne_nil _ _) rfl)
        | read read looked =>
          obtain ⟨owner', salt', name, heard⟩ := heard_of_lookUp looked
          rw [sequence]
          exact Int.lt_add_one_of_le (answers last rfl owner' salt' _ _ (owned ▸ name)
            (heard_mono untouched.hands.suffix handed.suffix heard))
      intro number member
      rcases List.mem_cons.mp member with rfl | member
      · exact newer
      · exact lt_trans ((List.pairwise_cons.mp ih).1 number member) newer

/-- Every put is made with care, so the numbers of an item rise. -/
theorem put_careful :
    (∀ (content : Bytes) (salt : String) (publicKey privateKey : Option String) (before : World τ ν),
      Careful before ((put content salt publicKey privateKey).run before).2 content salt publicKey
        privateKey) ∧
    ∀ (owner : Bytes) (salt : String) (issued : List Int),
      Series τ ν owner salt issued → issued.Pairwise (· > ·) :=
  ⟨careful_put, fun _ _ _ series => series.pairwise⟩

/-- An item that is put under a fresh pair. -/
def firstPut : Except Failure Published × World Seconds (Simnet Seconds) :=
  (put [97] "note" none none).run (Seconds.world {})

/-- The same item, put again with its pair. -/
def secondPut : Except Failure Published × World Seconds (Simnet Seconds) :=
  (put [98] "note" (some (Hex.encode Seconds.pair.publicKey))
    (some (Hex.encode Seconds.pair.seed))).run firstPut.2

/-- Whether no final answer that was heard falls behind a number. -/
def upToDate (last : Int) (alerts : List Alert) : Bool :=
  alerts.all fun
    | .result _ _ _ sequence true => last ≤ sequence
    | _ => true

theorem le_of_upToDate {last : Int} {alerts : List Alert} (recent : upToDate last alerts = true)
    {owner content : Bytes} {salt : String} {sequence : Int}
    (heard : .result owner salt content sequence true ∈ alerts) : last ≤ sequence := by
  simpa using List.all_eq_true.mp recent _ heard

/-- What two calls have to show for it. -/
def ledgerOf (outcome : Except Failure Published) : Option (String × Int) :=
  outcome.toOption.map fun published => (published.publicKey, published.sequence)

theorem put_twice : ∃ first second, firstPut.1 = .ok first ∧ secondPut.1 = .ok second ∧
    first.sequence = 1 ∧ second.sequence = 2 ∧
    [second.sequence, first.sequence].Pairwise (· > ·) := by
  have course : ledgerOf firstPut.1 = some (Hex.encode Seconds.pair.publicKey, 1) ∧
      ledgerOf secondPut.1 = some (Hex.encode Seconds.pair.publicKey, 2) ∧
      upToDate 1 (firstPut.2.heard secondPut.2) = true := by
    decide +kernel
  obtain ⟨one, two, recent⟩ := course
  rcases early : firstPut with ⟨failure | first, between⟩
  · rw [early] at one
    cases one
  rcases late : secondPut with ⟨failure | second, after⟩
  · rw [late] at two
    cases two
  rw [early] at one
  rw [late] at two recent
  obtain ⟨key, number⟩ := Prod.mk.inj (Option.some.inj one)
  obtain ⟨key', number'⟩ := Prod.mk.inj (Option.some.inj two)
  have begun : Series Seconds (Simnet Seconds) Seconds.pair.publicKey "note" [first.sequence] :=
    .call .none early key nofun nofun
  have series : Series Seconds (Simnet Seconds) Seconds.pair.publicKey "note"
      [second.sequence, first.sequence] := by
    refine .call begun late key' (fun _ absent => by cases absent) ?_
    intro last issued owner' salt' content sequence _ heard
    obtain rfl := Option.some_inj.mp issued
    rw [number]
    exact le_of_upToDate recent heard
  exact ⟨first, second, rfl, rfl, number, number', put_careful.2 _ _ _ series⟩

end Mutable

end DhtRecords
