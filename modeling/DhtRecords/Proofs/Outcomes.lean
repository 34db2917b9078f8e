/-
What a put can fail of.

A put has errors of its own for all that it checks, and for sessions and overlays
that do not answer. Anything else that it fails of has a cause outside of it: an engine
that has failed when it was called, a setting of a wrong type, or a state file whose
path none can have (`Blamed`). `Blames` follows what may be blamed through a program.

There are three exceptions. The number of an item follows on the one of a final answer,
and nothing on the way looks at its size: one that is too long to be written makes the
engine fail, which cannot sign the item (`Unsigned`). Once some node has taken the
item, a put still fails if the store does not take the row, because it is closed or
because the number is beyond what it can hold (`Unkept`), and then if it cannot be told
how many nodes have taken the item (`Untold`). All else returns
(`Mutable.put_accounted`).
-/

import DhtRecords.Proofs.Evidence

namespace DhtRecords

variable {τ ν : Type}

/-! ### Paths -/

namespace Disk

variable {α : Type} {disk : Disk α}

/-- The way to a file has no say in what names may be. -/
theorem follow_ne_badName (place : Location) (parts : List String) :
    disk.follow place parts ≠ .error .badName := by
  induction parts generalizing place with
  | nil => exact nofun
  | cons part rest ih =>
    unfold follow
    split
    · unfold step
      split
      · exact ih _
      · split
        · exact nofun
        · exact ih _
    · split <;> exact nofun

/-- A file that cannot be read for its name has a path that is refused. -/
theorem refusal?_of_read {path : Path} (unread : disk.read path = .error .badName) :
    refusal? path = some .badName := by
  unfold read find at unread
  split at unread
  · next error refused =>
    cases unread
    exact refused
  · rcases led : disk.follow (disk.start path) path.parts with error | place <;> rw [led] at unread
    · cases unread
      exact absurd led (follow_ne_badName _ _)
    · dsimp only [bind, Except.bind] at unread
      split at unread
      · cases unread
      · cases unread
      · split at unread <;> cases unread

end Disk

/-! ### Engines that fail -/

/-- Whether an engine is told to put an item that can be signed, or is called for something else. -/
def EngineCall.isSignable : EngineCall → Bool
  | .put _ salt signer => (signer.sign salt).toBool
  | _ => true

namespace World

variable [Overlay τ ν]

/-- Whether an engine has failed in a way when it was called as it should be, from one world to a later
one. -/
def Faulted (fault : EngineFault) (before after : World τ ν) : Prop :=
  ∃ engine call overlay fresh, call.isSignable = true ∧
    (Overlay.ask (τ := τ) engine call (overlay : ν)).outcome = .error fault ∧
    after.journal = fresh ++ before.journal ∧ .called engine call true ∈ fresh

theorem Faulted.mono {fault : EngineFault} {first before after last : World τ ν}
    (faulted : Faulted fault before after) (early : first.journal <:+ before.journal)
    (late : after.journal <:+ last.journal) : Faulted fault first last := by
  obtain ⟨engine, call, overlay, fresh, signable, failed, journal, called⟩ := faulted
  obtain ⟨old, early⟩ := early
  obtain ⟨new, late⟩ := late
  refine ⟨engine, call, overlay, new ++ fresh ++ old, signable, failed, ?_, ?_⟩
  · rw [← late, journal, ← early]
    simp only [List.append_assoc]
  · simp [called]

variable [Quantity τ]

theorem faulted_of_ask {engine : EngineId} {call : EngineCall} {fault : EngineFault}
    {world after : World τ ν} (signable : call.isSignable = true)
    (asked : world.ask engine call = (.error fault, after)) : Faulted fault world after := by
  have journal := journal_ask engine call world
  rw [asked] at journal
  exact ⟨engine, call, world.overlay, [.called engine call true], signable, (Prod.mk.inj asked).1,
    journal, List.mem_cons_self⟩

/-- Of what a stop begins with only that fails which is told to the engine, and what the settings say. -/
theorem faulted_of_leave {fault : EngineFault} {world after : World τ ν}
    (left : world.leave = (.error (.engine fault), after)) : Faulted fault world after := by
  obtain ⟨shut, reached, -, leaving⟩ := leave_eq world
  have begun : world.journal <:+ shut.journal := by
    obtain ⟨tasks, -, requested⟩ := (world.moveTo .stopping).requestStop_eq
    rw [requested] at reached
    exact (List.suffix_cons _ _).trans reached.spares.hands.suffix
  rw [leaving] at left
  rcases silenced : shut.stopCorrelator world.session.engine with ⟨other | _, quiet⟩ <;>
    rw [silenced] at left
  · cases left
    unfold stopCorrelator at silenced
    split at silenced
    · split at silenced
      · exact (faulted_of_ask rfl silenced).mono begun (List.suffix_refl _)
      · cases silenced
    · cases silenced
  · have joined : quiet.joinTime = .error (.engine fault) := (Prod.mk.inj left).1
    unfold joinTime at joined
    split at joined
    · split at joined
      · cases joined
      · split at joined <;> cases joined
    · cases joined

/-- A stop fails by an engine only if that fails to let go of its handler. -/
theorem faulted_of_stop {fault : EngineFault} {world after : World τ ν}
    (stopped : world.stop = (.error (.engine fault), after)) : Faulted fault world after := by
  unfold stop stopBy at stopped
  split at stopped
  · cases stopped
  · rcases leave : world.leave with ⟨failure | time, left⟩ <;> rw [leave] at stopped
    · cases stopped
      exact faulted_of_leave leave
    · cases time <;> cases stopped

theorem faulted_of_afterStop {α : Type} {stops restarts : Bool} {answer : Except EngineFault α}
    {fault : EngineFault} {world after : World τ ν}
    (run : world.afterStop stops restarts answer = (.error fault, after)) :
    answer = .error fault ∨ Faulted fault world after := by
  unfold afterStop at run
  split at run
  · split at run
    · next stopped =>
      cases run
      exact .inr (faulted_of_stop stopped)
    · exact .inl (Prod.mk.inj run).1
  · cases run
    exact .inl rfl

theorem faulted_of_consult {engine : EngineId} {call : EngineCall} (upkeep : call.isUpkeep = true)
    {fault : EngineFault} {world after : World τ ν}
    (run : world.consult engine call = (.error fault, after)) : Faulted fault world after := by
  have signable : call.isSignable = true := by cases call <;> first | rfl | cases upkeep
  rcases asked : world.ask engine call with ⟨answer, answered⟩
  have added : world.journal <:+ answered.journal := by
    have gathers := (continues_ask engine call world).gathers
    rw [asked] at gathers
    exact gathers.journal
  unfold consult at run
  rw [asked] at run
  dsimp only at run
  rcases faulted_of_afterStop run with rfl | faulted
  · have kept := (meanwhile_afterStop
      (Overlay.ask (τ := τ) engine call world.overlay).stops
      (Overlay.ask (τ := τ) engine call world.overlay).restarts
      (.error fault : Except EngineFault call.Answer) answered).upkeep.spares.hands.suffix
    rw [run] at kept
    exact (faulted_of_ask signable asked).mono (List.suffix_refl _) kept
  · exact faulted.mono added (List.suffix_refl _)

end World

/-! ### What programs fail of -/

open World Op

/-- Whether a run that has begun with a world leaves the settings as they are, and fails of nothing but what
is a cause. -/
structure Blames {α : Type} (cause : World τ ν → World τ ν → Failure → Prop) (start : World τ ν)
    (ending : Except Failure α × World τ ν) : Prop where
  gathers : Gathers start ending.2
  blamed : ∀ failure, ending.1 = .error failure → cause start ending.2 failure

namespace Blames

variable {α β : Type} {cause : World τ ν → World τ ν → Failure → Prop} {start world : World τ ν}

theorem ok {result : α} (begun : Gathers start world) : Blames cause start (.ok result, world) :=
  ⟨begun, nofun⟩

theorem error {failure : Failure} (begun : Gathers start world) (blamed : cause start world failure) :
    Blames cause start ((.error failure : Except Failure α), world) := by
  refine ⟨begun, ?_⟩
  rintro _ same
  cases same
  exact blamed

theorem pure {result : α} (begun : Gathers start world) :
    Blames cause start ((pure result : Op τ ν α).run world) := .ok begun

theorem throw {failure : Failure} (begun : Gathers start world) (blamed : cause start world failure) :
    Blames cause start ((throw failure : Op τ ν α).run world) := .error begun blamed

/-- What the rest of a program is to be blamed for may depend on how its first step has gone. -/
theorem bind_run {program : Op τ ν α} {next : α → Op τ ν β}
    (first : Blames cause start (program.run world))
    (rest : ∀ result middle, program.run world = (.ok result, middle) → Gathers start middle →
      Blames cause start ((next result).run middle)) :
    Blames cause start ((program >>= next).run world) := by
  rw [run_bind]
  rcases step : program.run world with ⟨failure | result, middle⟩ <;> rw [step] at first
  · exact .error first.gathers (first.blamed failure rfl)
  · exact rest result middle step first.gathers

/-- A program is to be blamed for what its first step is, and for what the rest is. -/
theorem bind {program : Op τ ν α} {next : α → Op τ ν β}
    (first : Blames cause start (program.run world))
    (rest : ∀ result middle, Gathers start middle → Blames cause start ((next result).run middle)) :
    Blames cause start ((program >>= next).run world) :=
  first.bind_run fun result middle _ => rest result middle

theorem get_bind {next : World τ ν → Op τ ν β}
    (rest : Blames cause start ((next world).run world)) :
    Blames cause start ((MonadState.get >>= next).run world) := rest

theorem modify {change : World τ ν → World τ ν} (begun : Gathers start world)
    (kept : Gathers world (change world)) :
    Blames cause start ((modify change : Op τ ν PUnit).run world) :=
  .ok (begun.trans kept)

theorem modifyGet {step : World τ ν → α × World τ ν} (begun : Gathers start world)
    (kept : Gathers world (step world).2) :
    Blames cause start ((modifyGet step : Op τ ν α).run world) :=
  .ok (begun.trans kept)

theorem blamed_of_run {program : Op τ ν α} {after : World τ ν} {failure : Failure}
    (blames : Blames cause start (program.run world))
    (run : program.run world = (.error failure, after)) : cause start after failure := by
  rw [run] at blames
  exact blames.blamed failure rfl

theorem gathers_of_run {program : Op τ ν α} {after : World τ ν} {outcome : Except Failure α}
    (blames : Blames cause start (program.run world)) (run : program.run world = (outcome, after)) :
    Gathers start after := by
  rw [run] at blames
  exact blames.gathers

/-- What is a cause is so in a wider sense. -/
theorem imp {wider : World τ ν → World τ ν → Failure → Prop} {ending : Except Failure α × World τ ν}
    (blames : Blames cause start ending)
    (sub : ∀ after failure, cause start after failure → wider start after failure) :
    Blames wider start ending :=
  ⟨blames.gathers, fun failure failed => sub _ failure (blames.blamed failure failed)⟩

end Blames

/-! ### What may be blamed -/

/-- Whether a setting that puts go by has a value of a wrong type. -/
def Settings.Mistyped (settings : Settings τ) : Prop :=
  settings.maxChunkSize = none ∨ settings.getTimeout = none ∨ settings.putAckTimeout = none

variable [Overlay τ ν]

/-- Whether a failure has a cause outside of the session: its engine has failed when it was called, or the
path of its state file is none that a file can have. -/
inductive Disrupted (before after : World τ ν) : Failure → Prop
  | engine {fault : EngineFault} : Faulted fault before after → Disrupted before after (.engine fault)
  | path : Disk.refusal? before.settings.statePath = some .badName →
      Disrupted before after (.disk .badName)

/-- Whether a failure is an error that is reported as such, or has a cause outside of the program. -/
inductive Blamed (before after : World τ ν) : Failure → Prop
  | operation (error : OperationError) : Blamed before after (.operation error)
  | engine {fault : EngineFault} : Faulted fault before after → Blamed before after (.engine fault)
  | setting : before.settings.Mistyped → Blamed before after .mistypedSetting
  /-- The limit of values is too long to be told. -/
  | limit {limit : Number τ} : before.settings.maxChunkSize = some limit → limit.isTooLong = true →
      Blamed before after .tooLong
  | path : Disk.refusal? before.settings.statePath = some .badName →
      Blamed before after (.disk .badName)

theorem Disrupted.blamed {before after : World τ ν} {failure : Failure}
    (disrupted : Disrupted before after failure) : Blamed before after failure := by
  cases disrupted with
  | engine faulted => exact .engine faulted
  | path refused => exact .path refused

/-- What disrupts a session may be blamed. -/
theorem Blames.blame {α : Type} {start : World τ ν} {ending : Except Failure α × World τ ν}
    (blames : Blames Disrupted start ending) : Blames Blamed start ending :=
  blames.imp fun _ _ => Disrupted.blamed

variable [Quantity τ]

/-- An engine that fails at a call is to blame for it. -/
theorem Blames.ask {engine : EngineId} {call : EngineCall} {start world : World τ ν}
    (signable : call.isSignable = true) (begun : Gathers start world) :
    Blames Disrupted start ((Op.ask engine call : Op τ ν call.Answer).run world) := by
  have kept := (continues_ask engine call world).gathers
  rw [run_ask]
  rcases asked : world.ask engine call with ⟨fault | answer, after⟩ <;> rw [asked] at kept
  · exact .error (begun.trans kept)
      (.engine ((faulted_of_ask signable asked).mono begun.journal (List.suffix_refl _)))
  · exact .ok (begun.trans kept)

/-! ### Keeping a session running -/

namespace Session

variable {start world : World τ ν}

theorem blames_checkRunning (engine : EngineId) (begun : Gathers start world) :
    Blames Disrupted start ((checkRunning engine : Op τ ν Bool).run world) := by
  have kept : Gathers world (world.checkRunning engine).2 :=
    (meanwhile_consult engine rfl world).upkeep.continues.gathers
  unfold checkRunning
  rw [run_bind_ok (run_modifyGet _ world)]
  rcases checked : world.checkRunning engine with ⟨fault | answer, after⟩ <;> rw [checked] at kept
  · exact .throw (begun.trans kept)
      (.engine ((faulted_of_consult rfl checked).mono begun.journal (List.suffix_refl _)))
  · exact .pure (begun.trans kept)

theorem blames_loadState (begun : Gathers start world) :
    Blames Disrupted start ((loadState : Op τ ν Bool).run world) := by
  unfold loadState
  refine .get_bind ?_
  split
  · exact .pure begun
  next engine _ =>
  split
  · next unread =>
    exact .throw begun (.path (by rw [← begun.settings]; exact Disk.refusal?_of_read unread))
  · exact .pure begun
  · exact .pure begun
  · next blob _ _ =>
    have kept : Gathers world (world.consult engine (.loadState blob)).2 :=
      (meanwhile_consult engine rfl world).upkeep.continues.gathers
    rw [run_bind_ok (run_modifyGet _ world)]
    rcases asked : world.consult engine (.loadState blob) with ⟨fault | answer, after⟩ <;>
      rw [asked] at kept
    -- A state that the engine does not accept is no failure.
    · dsimp only
      split
      · exact .pure (begun.trans kept)
      · exact .throw (begun.trans kept)
          (.engine ((faulted_of_consult rfl asked).mono begun.journal (List.suffix_refl _)))
    · exact .pure (begun.trans kept)

/-- A bootstrap may be waited for in vain, but it does not fail. -/
theorem blames_bootstrap (begun : Gathers start world) :
    Blames Disrupted start ((bootstrap World.run none : Op τ ν Bool).run world) := by
  unfold bootstrap
  refine .get_bind (.bind (.modify begun (continues_run _ _ _).gathers) fun _ middle begun =>
    .get_bind ?_)
  split
  · exact .bind (.modify begun (Idle.joined _).continues.gathers) fun _ _ begun => .pure begun
  · exact .pure begun

theorem blames_recover (begun : Gathers start world) :
    Blames Disrupted start ((recover World.run : Op τ ν Bool).run world) := by
  unfold recover
  refine .get_bind ?_
  split
  · exact .pure begun
  refine .bind (blames_checkRunning _ begun) fun running middle begun => ?_
  split
  · exact .pure begun
  refine .bind (blames_loadState begun) fun loaded middle begun => ?_
  split
  · exact .pure begun
  refine .bind (blames_bootstrap begun) fun joined middle begun => ?_
  split
  · exact .bind (.modifyGet begun (idles_saveState _).continues.gathers) fun _ _ begun => .pure begun
  · exact .pure begun

theorem blames_ensureRunning (begun : Gathers start world) :
    Blames Disrupted start ((ensureRunning : Op τ ν (Option ErrorKind)).run world) := by
  unfold ensureRunning
  refine .get_bind ?_
  dsimp only
  split
  · refine .bind (blames_checkRunning _ begun) fun running middle begun => ?_
    split
    · exact .pure begun
    refine .bind (blames_recover begun) fun recovered middle begun => ?_
    split
    · exact .pure begun
    · exact .pure begun
  · exact .pure begun

end Session

/-! ### The stages of a put -/

section

variable {start world : World τ ν}

theorem Get.blames_fire (owner : Bytes) (salt : String) (begun : Gathers start world) :
    Blames Disrupted start ((fire owner salt : Op τ ν (Except (Error τ) Unit)).run world) := by
  unfold fire
  refine .bind (Session.blames_ensureRunning begun) fun unavailable middle begun => ?_
  split
  · exact .pure begun
  refine .get_bind ?_
  split
  · exact .pure begun
  · exact .bind (.ask rfl begun) fun _ _ begun => .pure begun

theorem Get.blames_lookup (owner : Bytes) (salt : String) (timeout : τ) (onlyFinal : Bool)
    (begun : Gathers start world) :
    Blames Disrupted start ((lookup owner salt timeout onlyFinal : Op τ ν (Except (Error τ) Found)).run
      world) := by
  unfold lookup
  refine .bind (.modify begun (.forget owner salt _)) fun _ middle begun =>
    .bind (blames_fire owner salt begun) fun fired middle begun => ?_
  split
  · exact .pure begun
  refine .bind (.modifyGet begun (continues_waitForResult _ _ _ _).gathers)
    fun found middle begun => ?_
  split
  · exact .pure begun
  refine .bind (.modify begun (.forget owner salt _)) fun _ middle begun => .get_bind ?_
  split
  · exact .pure begun
  · exact .pure begun

end

namespace Mutable

variable {start world : World τ ν}

theorem blames_lookUp (owner : Bytes) (salt : String) (onlyFinal : Bool)
    (begun : Gathers start world) :
    Blames Blamed start ((lookUp owner salt onlyFinal :
      Op τ ν (Except (Get.Error τ) Get.Found)).run world) := by
  unfold lookUp
  refine .get_bind ?_
  split
  · exact (Get.blames_lookup owner salt _ onlyFinal begun).blame
  next unsaid =>
  have mistyped : start.settings.Mistyped := .inr (.inl (by rw [← begun.settings]; exact unsaid))
  refine .bind (.modify begun (.forget owner salt _)) fun _ middle begun =>
    .bind (Get.blames_fire owner salt begun).blame fun fired middle begun => ?_
  split
  · exact .pure begun
  · exact .throw begun (.setting mistyped)

theorem blames_prepare (salt : String) (publicKey privateKey : Option String)
    (begun : Gathers start world) :
    Blames Blamed start ((prepare salt publicKey privateKey : Op τ ν (KeyPair × Int)).run world) := by
  unfold prepare
  split
  · split
    · exact .throw begun (.operation _)
    refine .bind (blames_lookUp _ salt true begun) fun looked middle begun => ?_
    split
    · exact .throw begun (.operation _)
    · exact .pure begun
  · exact .bind (.modifyGet begun (.of_eq rfl rfl rfl)) fun _ _ begun => .pure begun

theorem blames_checkSize (content : Bytes) (begun : Gathers start world) :
    Blames Blamed start ((checkSize content : Op τ ν PUnit).run world) := by
  unfold checkSize
  refine .get_bind ?_
  split
  · next unsaid =>
    exact .throw begun (.setting (.inl (by rw [← begun.settings]; exact unsaid)))
  · next limit said =>
    split
    · split
      · next long =>
        exact .throw begun (.limit (by rw [← begun.settings]; exact said) long)
      · exact .throw begun (.operation _)
    · exact .pure begun

theorem blames_acknowledge (key : String) (receipt : Put.Receipt τ) (begun : Gathers start world) :
    Blames Blamed start ((acknowledge key receipt : Op τ ν (Acknowledgement τ)).run world) := by
  unfold acknowledge
  refine .get_bind ?_
  split
  · next unsaid =>
    exact .throw begun (.setting (.inr (.inr (by rw [← begun.settings]; exact unsaid))))
  refine .bind (.modifyGet begun ?_) fun acknowledged middle begun => ?_
  · obtain ⟨waited, upkeep, same⟩ :=
      Put.waitForAcknowledgement_eq key receipt.moment _ (some receipt.sequence) world
    rw [same]
    split
    · exact upkeep.continues.gathers.trans (.of_eq rfl rfl rfl)
    · exact upkeep.continues.gathers
  · split
    · exact .pure begun
    · exact .throw begun (.operation _)

/-! ### A put and its outcome -/

variable {before after : World τ ν} {content : Bytes} {salt : String}
  {publicKey privateKey : Option String} {outcome : Except Failure Published}

theorem Prepared.gathers {pair : KeyPair} {lastSequence : Int} {middle : World τ ν}
    (prepared : Prepared before content salt publicKey privateKey pair lastSequence middle) :
    Gathers before middle :=
  (blames_prepare salt publicKey privateKey (.refl before)).gathers_of_run prepared.known

theorem Issued.gathers {pair : KeyPair} {lastSequence : Int} {middle issued : World τ ν}
    {receipt : Put.Receipt τ}
    (stages : Issued before content salt publicKey privateKey pair lastSequence middle receipt issued) :
    Gathers middle issued := by
  cases Put.handing_item stages.handed with
  | @handed checked _ engine ensured asked =>
    have kept := (continues_ask engine (.put pair.publicKey salt
      ⟨content, lastSequence + 1, pair.publicKey, pair.seed⟩) checked).gathers
    rw [asked] at kept
    exact ((Session.blames_ensureRunning (.refl middle)).gathers_of_run ensured).trans kept

/-- Whether a final answer with a number was heard for an item, from one world to a later one. Items of the
same digest are not told apart. -/
def Told (before after : World τ ν) (owner : Bytes) (salt : String) (sequence : Int) : Prop :=
  ∃ owner' salt' value, infoHash owner' salt' = infoHash owner salt ∧
    .result owner' salt' value sequence true ∈ before.heard after

/-- A number that cannot be stored is not the first one of a fresh pair. It follows on a final answer. -/
theorem Prepared.told {pair : KeyPair} {lastSequence : Int} {middle : World τ ν}
    (prepared : Prepared before content salt publicKey privateKey pair lastSequence middle)
    (unfit : Store.fits (lastSequence + 1) = false) (late : middle.journal <:+ after.journal) :
    Told before after pair.publicKey salt lastSequence := by
  rcases (prepare_cases prepared.paired prepared.known).2 pair lastSequence rfl with count | ⟨read, looked⟩
  · have fits : Store.fits (0 + 1) = true := by decide
    exact absurd unfit (ne_false_of_eq_true fits)
  · obtain ⟨owner', salt', name, heard⟩ := heard_of_lookUp looked
    exact ⟨owner', salt', _, name, heard_mono prepared.gathers.journal late heard⟩

/-- Whether an engine has failed that was told to put an item which cannot be signed: its number follows on a
final answer, and is too long to be written. -/
def Unsigned (before after : World τ ν) (content : Bytes) (salt : String) (failure : Failure) : Prop :=
  ∃ pair : KeyPair, ∃ sequence engine early fault, failure = .engine fault ∧
    Told before after pair.publicKey salt sequence ∧ Decimal.isTooLong (sequence + 1) = true ∧
    after.journal = .called engine (.put pair.publicKey salt
      ⟨content, sequence + 1, pair.publicKey, pair.seed⟩) true :: early

/-- A put that is not acknowledged has failed of what may be blamed, or because its item cannot be signed. -/
theorem Unacknowledged.accounted {failure : Failure}
    (unacknowledged : Unacknowledged before content salt publicKey privateKey failure after) :
    Blamed before after failure ∨ Unsigned before after content salt failure := by
  cases unacknowledged with
  | unpaired => exact .inl (.operation _)
  | unsized checked => exact .inl ((blames_checkSize content (.refl before)).blamed_of_run checked)
  | unprepared paired prepared =>
    exact .inl ((blames_prepare salt publicKey privateKey (.refl before)).blamed_of_run prepared)
  | @faulted pair lastSequence middle _ _ prepared given =>
    have begun := prepared.gathers
    cases Put.handing_item given with
    | stopped ensured => exact .inl ((Session.blames_ensureRunning begun).blamed_of_run ensured).blamed
    | @faulted checked _ engine fault ensured asked =>
      have early := (Session.blames_ensureRunning (.refl middle)).gathers_of_run ensured
      by_cases long : Decimal.isTooLong (lastSequence + 1) = true
      · have journal := journal_ask engine (.put pair.publicKey salt
          ⟨content, lastSequence + 1, pair.publicKey, pair.seed⟩) checked
        rw [asked] at journal
        have late : middle.journal <:+ after.journal := by
          rw [journal]
          exact early.journal.trans (List.suffix_cons _ _)
        have told := prepared.told (Store.fits_of_isTooLong long) late
        exact .inr ⟨pair, lastSequence, engine, checked.journal, fault, rfl, told, long, journal⟩
      · have signs := pair.sign_item content salt (eq_false_of_ne_true long)
        have signable : (EngineCall.put pair.publicKey salt
            ⟨content, lastSequence + 1, pair.publicKey, pair.seed⟩).isSignable = true := by
          rw [EngineCall.isSignable, signs]
          rfl
        exact .inl (.engine ((faulted_of_ask signable asked).mono
          (begun.trans early).journal (List.suffix_refl _)))
  | unissued => exact .inl (.operation _)
  | unanswered issued waited =>
    have begun := issued.toPrepared.gathers.trans issued.gathers
    exact .inl ((blames_acknowledge _ _ begun).blamed_of_run waited)

/-- Whether a store, if there is one, takes an item of a number. -/
def Takes (store : Option (Store τ)) (sequence : Int) : Prop :=
  ∀ kept, store = some kept → kept.isOpen = true ∧ Store.fits sequence = true

/-- What a put fails of although nodes have taken its item: the store is closed, or the number that follows
on a final answer is none that can be stored. -/
inductive Unkept (before after : World τ ν) (owner : Bytes) (salt : String) (store : Store τ) :
    Failure → Prop
  | closed : store.isOpen = false → Unkept before after owner salt store (.store .closed)
  | overrun {sequence : Int} {failure : Failure} : Told before after owner salt sequence →
      Store.fits (sequence + 1) = false →
      failure = .store .outOfRange ∨ failure = .key .tooLong →
      Unkept before after owner salt store failure

omit [Overlay τ ν] in
/-- An item is kept if and only if the store takes it. -/
theorem Keeping.ok_iff_takes {pair : KeyPair} {sequence : Int} {world : World τ ν}
    {result : Except Failure Unit} (keeping : Keeping pair content salt sequence world result after) :
    result = .ok () ↔ Takes world.store sequence := by
  cases keeping with
  | storeless none => exact iff_of_true rfl fun kept some => by cases none.symm.trans some
  | written some isOpen fits =>
    refine iff_of_true rfl fun kept same => ?_
    obtain rfl := Option.some_inj.mp (some.symm.trans same)
    exact ⟨isOpen, fits⟩
  | closed some shut =>
    refine iff_of_false nofun fun takes => ?_
    exact Bool.false_ne_true (shut.symm.trans (takes _ some).1)
  | outOfRange some _ unfit =>
    refine iff_of_false nofun fun takes => ?_
    exact Bool.false_ne_true (unfit.symm.trans (takes _ some).2)
  | tooLong some long =>
    refine iff_of_false nofun fun takes => ?_
    exact Bool.false_ne_true ((Store.fits_of_isTooLong long).symm.trans (takes _ some).2)

/-- An item that was acknowledged and is not kept. -/
theorem Keeping.unkept {pair : KeyPair} {receipt : Put.Receipt τ} {acknowledgement : Acknowledgement τ}
    {waited : World τ ν} {failure : Failure} (acknowledged :
      Acknowledged before content salt publicKey privateKey pair receipt acknowledgement waited)
    (keeping : Keeping pair content salt receipt.sequence waited (.error failure) after) :
    ∃ store, before.store = some store ∧ Unkept before after pair.publicKey salt store failure := by
  obtain ⟨lastSequence, middle, issued, stages, awaited⟩ := acknowledged
  have same := (stages.unwritten.trans (unwritten_of_acknowledge awaited)).store
  have late : middle.journal <:+ waited.journal :=
    stages.gathers.journal.trans
      ((blames_acknowledge _ _ (.refl issued)).gathers_of_run awaited).journal
  have overrun {reason : Failure} (unfit : Store.fits receipt.sequence = false)
      (said : reason = .store .outOfRange ∨ reason = .key .tooLong) (store : Store τ) :
      Unkept before waited pair.publicKey salt store reason := by
    cases Put.handing_item stages.handed
    exact .overrun (stages.toPrepared.told unfit late) unfit said
  rw [← same]
  cases keeping with
  | closed some shut => exact ⟨_, some, .closed shut⟩
  | outOfRange some _ unfit => exact ⟨_, some, overrun unfit (.inl rfl) _⟩
  | tooLong some long =>
    exact ⟨_, some, overrun (Store.fits_of_isTooLong long) (.inr rfl) _⟩

/-- A put returns, or fails of what may be blamed, or its item cannot be signed, or is not kept, or it
cannot be told how many nodes have taken it. Once some node has taken its item, it returns if and only if
the store takes it and that can be told. -/
theorem put_accounted
    (run : (put content salt publicKey privateKey).run before = (outcome, after)) :
    (∀ failure, outcome = .error failure → Blamed before after failure ∨
      Unsigned before after content salt failure ∨
      ∃ pair receipt acknowledgement waited,
        Acknowledged before content salt publicKey privateKey pair receipt acknowledgement waited ∧
        acknowledgement.successes ≠ 0 ∧
        ((∃ store, before.store = some store ∧
            Unkept before after pair.publicKey salt store failure) ∨
          failure = .tooLong ∧ Untold acknowledgement)) ∧
    ∀ pair receipt acknowledgement waited,
      Acknowledged before content salt publicKey privateKey pair receipt acknowledgement waited →
      acknowledgement.sequence = receipt.sequence ∧
      (acknowledgement.successes = 0 → ∃ error, outcome = .error (.operation error)) ∧
      (acknowledgement.successes ≠ 0 →
        ((∃ published, outcome = .ok published) ↔
          Takes before.store receipt.sequence ∧ ¬ Untold acknowledgement)) := by
  refine ⟨?_, ?_⟩
  · rintro failure rfl
    rcases put_stages run with ⟨_, same, unacknowledged⟩ |
      ⟨pair, receipt, acknowledgement, waited, acknowledged, ending⟩
    · cases same
      exact unacknowledged.accounted.imp_right .inl
    cases ending_conclude ending with
    | vain => exact .inl (.operation _)
    | unkept successful keeping =>
      exact .inr (.inr ⟨pair, receipt, acknowledgement, waited, acknowledged, successful,
        .inl (keeping.unkept acknowledged)⟩)
    | untold successful _ untold =>
      exact .inr (.inr ⟨pair, receipt, acknowledgement, waited, acknowledged, successful,
        .inr ⟨rfl, untold⟩⟩)
  · intro pair receipt acknowledgement waited acknowledged
    obtain ⟨lastSequence, middle, issued, stages, awaited⟩ := id acknowledged
    obtain ⟨-, -, -, -, number, -⟩ := acknowledge_takes awaited
    have store := (stages.unwritten.trans (unwritten_of_acknowledge awaited)).store
    have ending := (run_put acknowledged).symm.trans run
    refine ⟨number, fun zero => ?_, fun nonzero => ?_⟩
    · cases ending_conclude ending with
      | vain => exact ⟨_, rfl⟩
      | unkept successful | untold successful | returned successful => exact absurd zero successful
    · rw [← store]
      cases ending_conclude ending with
      | vain zero => exact absurd zero nonzero
      | unkept _ keeping =>
        exact iff_of_false nofun fun taken => nomatch keeping.ok_iff_takes.mpr taken.1
      | untold _ _ untold => exact iff_of_false nofun fun taken => taken.2 untold
      | returned _ keeping told =>
        exact iff_of_true ⟨_, rfl⟩ ⟨keeping.ok_iff_takes.mp rfl, told⟩

theorem stocked_accounted : ∃ published after pair receipt acknowledgement waited,
    (put [97] "note" none none).run stocked = (.ok published, after) ∧
    Acknowledged stocked [97] "note" none none pair receipt acknowledgement waited ∧
    acknowledgement.successes ≠ 0 ∧ Takes stocked.store receipt.sequence := by
  obtain ⟨published, after, run, -⟩ := stocked_returns
  rcases put_stages run with ⟨_, failed, -⟩ |
    ⟨pair, receipt, acknowledgement, waited, acknowledged, ending⟩
  · cases failed
  obtain ⟨message, successful, -⟩ := (ending_conclude ending).of_ok
  obtain ⟨-, -, kept⟩ := (put_accounted run).2 _ _ _ _ acknowledged
  exact ⟨published, after, pair, receipt, acknowledgement, waited, run, acknowledged, successful,
    ((kept successful).mp ⟨published, rfl⟩).1⟩

/-- A world whose overlay has the item under the greatest number that can be stored, with a store. -/
def brimful : World Seconds (Simnet Seconds) :=
  { Seconds.world ⟨[((Seconds.pair.publicKey, "note"), ⟨[98], 0x7fffffffffffffff⟩)]⟩ with
    store := some shelf }

/-- Whether a put has failed for the number of its item. -/
def isOutOfRange : Except Failure Published → Bool
  | .error (.store .outOfRange) => true
  | _ => false

theorem eq_of_isOutOfRange {outcome : Except Failure Published}
    (beyond : isOutOfRange outcome = true) : outcome = .error (.store .outOfRange) := by
  unfold isOutOfRange at beyond
  split at beyond
  · rfl
  · cases beyond

/-- Nodes have taken the item, and all that the put says is that its number cannot be stored. -/
theorem brimful_unkept : ∃ pair receipt acknowledgement waited after,
    Acknowledged brimful [97] "note" (some (Hex.encode Seconds.pair.publicKey))
      (some (Hex.encode Seconds.pair.seed)) pair receipt acknowledgement waited ∧
    acknowledgement.sequence = receipt.sequence ∧ acknowledgement.successes ≠ 0 ∧
    brimful.store = some shelf ∧ shelf.isOpen = true ∧
    (put [97] "note" (some (Hex.encode Seconds.pair.publicKey))
      (some (Hex.encode Seconds.pair.seed))).run brimful = (.error (.store .outOfRange), after) := by
  have course : isOutOfRange ((put [97] "note" (some (Hex.encode Seconds.pair.publicKey))
      (some (Hex.encode Seconds.pair.seed))).run brimful).1 = true := by
    decide +kernel
  rcases run : (put [97] "note" (some (Hex.encode Seconds.pair.publicKey))
    (some (Hex.encode Seconds.pair.seed))).run brimful with ⟨outcome, after⟩
  rw [run] at course
  obtain rfl := eq_of_isOutOfRange course
  rcases put_stages run with ⟨_, same, unacknowledged⟩ |
    ⟨pair, receipt, acknowledgement, waited, acknowledged, ending⟩
  · cases same
    rcases unacknowledged.accounted with blamed | ⟨_, _, _, _, _, same, -⟩
    · cases blamed
    · cases same
  cases ending_conclude ending with
  | unkept successful =>
  obtain ⟨_, _, _, -, awaited⟩ := id acknowledged
  obtain ⟨-, -, -, -, number, -⟩ := acknowledge_takes awaited
  exact ⟨pair, receipt, acknowledgement, waited, after, acknowledged, number, successful, rfl, rfl, rfl⟩

end Mutable

end DhtRecords
