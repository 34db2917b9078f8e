/-
Commands that open a node.

What a command does with the node that it has opened keeps the node's session
orderly and leaves the node its settings and its store (`Sustains`). So when it
closes the node, the stop comes to its end if the settings say how long it may take,
every engine that was built has been ended, and the store is closed
(`run_concludes`). What the command then reports is what the start and the
operation have come to (`Reports`).
-/

import DhtRecords.Cli.Run
import DhtRecords.Proofs.Solitude
import DhtRecords.Proofs.Issuing
import DhtRecords.Proofs.Saving
import DhtRecords.Proofs.Stopping

namespace DhtRecords

variable {τ ν : Type} [Quantity τ]

namespace World

/-! ### What operations do to a session -/

/-- Whether an orderly session stays so, and the settings and the store's file stay the same. -/
structure Sustains [Overlay τ ν] (before after : World τ ν) : Prop where
  orderly : Orderly before → Orderly after
  numbered : before.Numbered → after.Numbered
  settings : after.settings = before.settings
  store : after.store.map Store.path = before.store.map Store.path

namespace Sustains

variable [Overlay τ ν] {before after : World τ ν}

omit [Quantity τ] in
theorem refl (world : World τ ν) : Sustains world world := ⟨id, id, rfl, rfl⟩

omit [Quantity τ] in
theorem trans {first second third : World τ ν} (left : Sustains first second)
    (right : Sustains second third) : Sustains first third :=
  ⟨right.orderly ∘ left.orderly, right.numbered ∘ left.numbered, right.settings.trans left.settings,
    right.store.trans left.store⟩

theorem of_upkeep (upkeep : Upkeep before after) (orderly : StaysOrderly before after) :
    Sustains before after where
  orderly sound := (orderly sound).1
  numbered := upkeep.course.invariant Numbered fun _ _ _ _ step => step.numbered
  settings := upkeep.spares.settings
  store := by rw [upkeep.spares.store]

omit [Quantity τ] in
/-- Changes that a session does not go by go unnoticed. -/
theorem of_same (session : after.session = before.session) (tasks : after.tasks = before.tasks)
    (listening : after.correlator.running = before.correlator.running)
    (queue : after.queue = before.queue) (engines : after.engines = before.engines)
    (journal : after.journal = before.journal) (settings : after.settings = before.settings)
    (store : after.store.map Store.path = before.store.map Store.path) : Sustains before after := by
  have around : Around before after := by
    refine ⟨?_, tasks, listening, fun _ member => .inl (queue ▸ member), engines, ?_⟩
    · rw [session]
    · rw [journal]
      exact .refl _
  exact ⟨fun orderly => (StaysOrderly.around around (.of_same queue journal) (.of_same queue journal) orderly).1,
    fun numbered => numbered.carry around.journal engines, settings, store⟩

end Sustains

instance [Overlay τ ν] : Std.Refl (Sustains (τ := τ) (ν := ν)) := ⟨.refl⟩

instance [Overlay τ ν] : IsTrans (World τ ν) Sustains := ⟨fun _ _ _ => .trans⟩

section

variable [Overlay τ ν] (obedient : Obedient τ ν)

include obedient

theorem sustains_ask (engine : EngineId) (call : EngineCall) (world : World τ ν) :
    Sustains world (world.ask engine call).2 := by
  have reacted := idles_react engine (Overlay.ask (τ := τ) engine call world.overlay)
    (world.note (.called engine call
      (isFailure (Overlay.ask (τ := τ) engine call world.overlay).outcome)))
  exact ⟨fun orderly => (orderly_ask obedient engine call world orderly).1, fun numbered =>
    (numbered.carry (.cons (by nofun) _) rfl : Numbered (world.note (.called engine call
      (isFailure (Overlay.ask (τ := τ) engine call world.overlay).outcome)))).carry reacted.around.journal
        reacted.around.engines,
    reacted.spares.settings, congrArg (Option.map Store.path) reacted.spares.store⟩

variable (unprompted : Unprompted τ ν)

include unprompted

theorem sustains_run (deadline : τ) (condition : World τ ν → Bool) (world : World τ ν) :
    Sustains world (world.run deadline condition) :=
  .of_upkeep (upkeep_run deadline condition world) (orderly_run obedient unprompted deadline condition world)

theorem sustains_ensureRunning :
    Op.Keeps Sustains (Session.ensureRunning : Op τ ν (Option ErrorKind)) := fun world =>
  .of_upkeep (Session.upholds_ensureRunning (fun _ _ upkeep => upkeep) world)
    (orderly_ensureRunning obedient unprompted world)

end

end World

/-! ### Operations -/

section

open World Op

variable [Overlay τ ν]

omit [Quantity τ] in
theorem Get.sustains_forget (owner : Bytes) (salt : String) (world : World τ ν) :
    Sustains world (forget owner salt world) :=
  .of_same rfl rfl rfl rfl rfl rfl rfl rfl

variable (obedient : Obedient τ ν)

include obedient

theorem Put.sustains_handOver (engine : EngineId) (owner : Bytes) (items : List (String × Signer)) :
    Keeps Sustains (handOver engine owner items : Op τ ν Unit) := by
  induction items with
  | nil => exact .pure _
  | cons item rest ih => exact .bind (.ask (sustains_ask obedient engine _)) fun _ => ih

theorem Put.sustains_issue (owner privateKey : Bytes) (sequence : Int) (items : List (String × Bytes)) :
    Keeps Sustains (issue owner privateKey sequence items : Op τ ν Bool) := by
  refine .get_bind fun world => ?_
  split
  · exact .pure _
  · exact .bind (sustains_handOver obedient _ owner _) fun _ => .pure _

variable (unprompted : Unprompted τ ν)

include unprompted

theorem Get.sustains_fire (owner : Bytes) (salt : String) :
    Keeps Sustains (fire owner salt : Op τ ν (Except (Error τ) Unit)) :=
  upholds_fire (sustains_ensureRunning obedient unprompted) (fun engine _ _ => sustains_ask obedient engine _) owner salt

theorem Put.sustains_item (owner privateKey : Bytes) (salt : String) (content : Bytes)
    (lastSequence : Int) :
    Keeps Sustains (item owner privateKey salt content lastSequence :
      Op τ ν (Except Error (Receipt τ))) := by
  refine .bind (sustains_ensureRunning obedient unprompted) fun unavailable => ?_
  split
  · exact .pure _
  · split
    · exact .pure _
    · refine .get_bind fun world => .bind (sustains_issue obedient owner privateKey _ _) fun issued => ?_
      split <;> exact .pure _

namespace Mutable

theorem sustains_lookUp (owner : Bytes) (salt : String) (onlyFinal : Bool) :
    Keeps Sustains (lookUp owner salt onlyFinal : Op τ ν (Except (Get.Error τ) Get.Found)) :=
  upholds_lookUp (sustains_run obedient unprompted) (Get.sustains_fire obedient unprompted) Get.sustains_forget owner salt onlyFinal

theorem sustains_acknowledge (key : String) (receipt : Put.Receipt τ) :
    Keeps Sustains (acknowledge key receipt : Op τ ν (Acknowledgement τ)) :=
  upholds_acknowledge (sustains_run obedient unprompted) (fun _ _ => .of_same rfl rfl rfl rfl rfl rfl rfl rfl) key receipt

theorem sustains_prepare (salt : String) (publicKey privateKey : Option String) :
    Keeps Sustains (prepare salt publicKey privateKey : Op τ ν (KeyPair × Int)) := by
  unfold prepare
  split
  · split
    · exact .throw _
    · refine .bind (sustains_lookUp obedient unprompted _ salt true) fun found => ?_
      split
      · exact .throw _
      · exact .pure _
  · exact .bind (.modifyGet fun world => .of_same rfl rfl rfl rfl rfl rfl rfl rfl) fun _ => .pure _

omit obedient unprompted in
theorem sustains_checkSize (content : Bytes) : Keeps Sustains (checkSize content : Op τ ν PUnit) := by
  intro world
  rw [(checkSize_cases (Prod.mk.eta (p := (checkSize content).run world)).symm).1]
  exact .refl world

omit obedient unprompted in
theorem sustains_keep (pair : KeyPair) (salt : String) (content : Bytes) (sequence : Int) :
    Keeps Sustains (keep pair salt content sequence : Op τ ν Unit) := by
  intro world
  rcases run : (keep pair salt content sequence).run world with ⟨result, after⟩
  cases keeping_keep run with
  | written present => exact .of_same rfl rfl rfl rfl rfl rfl rfl (by rw [present]; rfl)
  | _ => exact .refl world

theorem sustains_get (publicKey salt : String) : Keeps Sustains (get publicKey salt : Op τ ν Item) := by
  refine .bind ?_ fun owner => .bind (sustains_lookUp obedient unprompted owner salt false) fun found => ?_
  · unfold readOwner
    split
    · exact .throw _
    · split
      · exact .pure _
      · exact .throw _
  · split
    · exact .throw _
    · exact .pure _

theorem sustains_put (content : Bytes) (salt : String) (publicKey privateKey : Option String) :
    Keeps Sustains (put content salt publicKey privateKey : Op τ ν Published) := by
  unfold put
  split
  · exact .throw _
  · refine .bind (sustains_checkSize content) fun _ =>
      .bind (sustains_prepare obedient unprompted salt publicKey privateKey) fun known => ?_
    obtain ⟨pair, lastSequence⟩ := known
    refine .bind (Put.sustains_item obedient unprompted _ _ salt content lastSequence) fun handed => ?_
    split
    · exact .throw _
    · refine .bind (sustains_acknowledge obedient unprompted _ _) fun acknowledgement => ?_
      dsimp only
      split
      · exact .throw _
      · exact .bind (sustains_keep pair salt content _) fun _ => .bind (.lift _) fun _ => .pure _

end Mutable

end

/-! ### Printing -/

namespace Json

/-- Whether a value has a text, on one line or indented. -/
def Prints (value : Json τ) : Prop := ∀ depth, ∃ text, value.write depth = .ok text

theorem prints_bool (value : Bool) : (bool value : Json τ).Prints := fun _ => ⟨_, rfl⟩

theorem prints_float (value : τ) : (float value).Prints := fun _ => ⟨_, rfl⟩

theorem prints_text (value : String) : (text value : Json τ).Prints := fun _ => ⟨_, rfl⟩

theorem prints_int {value : Int} (short : Decimal.isTooLong value = false) :
    (int value : Json τ).Prints := by
  intro depth
  rw [write, short]
  exact ⟨_, rfl⟩

theorem prints_list {items : List (Json τ)} (prints : ∀ item ∈ items, item.Prints) :
    (list items).Prints := by
  have all (depth : Option Nat) : ∃ texts, writeItems depth items = .ok texts := by
    induction items with
    | nil => exact ⟨[], rfl⟩
    | cons item items ih =>
      obtain ⟨first, others⟩ := List.forall_mem_cons.mp prints
      obtain ⟨text, written⟩ := first depth
      obtain ⟨texts, rest⟩ := ih others
      exact ⟨text :: texts, by rw [writeItems, written, rest]; rfl⟩
  intro depth
  obtain ⟨texts, written⟩ := all (depth.map (· + 1))
  exact ⟨_, by rw [write, written]; rfl⟩

theorem prints_object {members : List (String × Json τ)} (prints : ∀ member ∈ members, member.2.Prints) :
    (object members).Prints := by
  have all (depth : Option Nat) : ∃ texts, writeMembers depth members = .ok texts := by
    induction members with
    | nil => exact ⟨[], rfl⟩
    | cons member members ih =>
      obtain ⟨first, others⟩ := List.forall_mem_cons.mp prints
      obtain ⟨text, written⟩ := first depth
      obtain ⟨texts, rest⟩ := ih others
      exact ⟨_ :: texts, by rw [writeMembers, written, rest]; rfl⟩
  intro depth
  obtain ⟨texts, written⟩ := all (depth.map (· + 1))
  exact ⟨_, by rw [write, written]; rfl⟩

/-- A list of texts that a file gives has a text. -/
theorem prints_texts (parts : List String) : (ofToml (.list (parts.map .text)) : Json τ).Prints := by
  rw [ofToml]
  refine prints_list fun item member => ?_
  induction parts with
  | nil => cases member
  | cons part parts ih =>
    rw [List.map_cons, ofTomlItems] at member
    rcases List.mem_cons.mp member with rfl | later
    · exact prints_text part
    · exact ih later

/-- An error has a text. -/
theorem prints_ofError (error : OperationError) : (ofError error : Json τ).Prints := by
  refine prints_object (List.forall_mem_singleton.mpr (prints_object ?_))
  simp [prints_text]

end Json

/-! ### Nodes of commands -/

namespace Cli

open World Op

variable [Overlay τ ν]

/-- Whether no session is under way: no task is live, nothing is due that starts a session or stops the
correlator alone, no end of a stop has come too late, and every engine that was built has been ended. -/
structure AtRest (world : World τ ν) : Prop where
  alone : Alone world
  unhalted : ∀ pending ∈ world.queue, pending.event ≠ .halt
  timely : ¬ Overtaken world.journal
  idle : ∀ id, ¬ world.IsLive id
  ended : ∀ engine, .built engine ∈ world.journal → Aborted world.journal engine
  numbered : world.Numbered

/-- Whether a command opens a node with its store in a folder. If it has a mistyped setting, the node is
left before its session is started. -/
inductive Opens (context : Context) (world : World τ ν) :
    Path → Except Failure Unit → World τ ν → Prop
  | ready {config : Config τ} {name : String} {loaded node : World τ ν} :
      (loadConfig context).run world = (.ok config, loaded) →
      chooseEngine context config = .ok (.ok name) → (openNode config).run loaded = (.ok (), node) →
      Opens context world config.dataDir (.ok ())
        { node with overlay := Overlay.choose τ name node.overlay }
  | mistyped {config : Config τ} {name : String} {loaded node : World τ ν} :
      (loadConfig context).run world = (.ok config, loaded) →
      chooseEngine context config = .ok (.ok name) →
      (openNode config).run loaded = (.error .mistypedSetting, node) →
      Opens context world config.dataDir (.error .mistypedSetting) node

/-- Whether a node is closed that had its store in a folder. -/
structure Closed (folder : Path) (world : World τ ν) : Prop extends AtRest world where
  stopped : world.session.state = .stopped
  unmanned : world.session.engine = none
  store : ∃ store, world.store = some store ∧ store.path = some (Store.filePath folder) ∧
    store.isOpen = false

/-- What comes of starting a node. -/
def started (node : World τ ν) : Bool × World τ ν :=
  Service.start (some (Quantity.add node.settings.bootstrapTimeout node.settings.bootstrapTimeout)) node

/-- What a command reports that has opened a node, by what the start and the operation come to. -/
inductive Reports (operation : Op τ ν (Json τ)) :
    Except Failure Unit → World τ ν → Outcome → Prop
  | mistyped {node : World τ ν} :
      Reports operation (.error .mistypedSetting) node (.died .mistypedSetting)
  | unready {node failed : World τ ν} {text : String} : started node = (false, failed) →
      (Json.ofError (τ := τ) ⟨.engineUnavailable,
        if failed.session.lastError.isEmpty then "session did not reach running"
        else failed.session.lastError⟩).indented = .ok text →
      Reports operation (.ok ()) node { exit := 1, output := text ++ "\n" }
  | returned {node running after : World τ ν} {json : Json τ} {text : String} :
      started node = (true, running) → operation.run running = (.ok json, after) →
      json.indented = .ok text → Reports operation (.ok ()) node { output := text ++ "\n" }
  | unprinted {node running after : World τ ν} {json : Json τ} {error : JsonError} :
      started node = (true, running) → operation.run running = (.ok json, after) →
      json.indented = .error error → Reports operation (.ok ()) node (.died (.json error))
  | refused {node running after : World τ ν} {error : OperationError} {text : String} :
      started node = (true, running) → operation.run running = (.error (.operation error), after) →
      (Json.ofError (τ := τ) error).indented = .ok text →
      Reports operation (.ok ()) node { exit := 1, output := text ++ "\n" }
  | died {node running after : World τ ν} {failure : Failure} : started node = (true, running) →
      operation.run running = (.error failure, after) → (∀ error, failure ≠ .operation error) →
      Reports operation (.ok ()) node (.died failure)

/-- The operation of a command that opens a node for it. A put has both keys or neither. -/
def Command.operation? : Command → Option (Op τ ν (Json τ))
  | .get publicKey salt => some (getItem publicKey salt)
  | .put value salt publicKey privateKey =>
    if publicKey.isNone ≠ privateKey.isNone then none
    else some (putItem value salt publicKey privateKey)
  | _ => none

/-- What is shown of how a command has ended. -/
def shown : Except Failure Outcome → Outcome
  | .ok outcome => outcome
  | .error failure => .died failure

theorem run_of_parse {context : Context} {words : List String} {command : Command} {world : World τ ν}
    (parsed : Command.parse words = .ok command) : run context words world =
      (shown ((execute context command).run world).1, ((execute context command).run world).2) := by
  unfold run
  rw [parsed]
  dsimp only
  rcases (execute context command).run world with ⟨failure | outcome, after⟩ <;> rfl

theorem execute_of_operation? {context : Context} {command : Command} {operation : Op τ ν (Json τ)}
    (operates : command.operation? = some operation) :
    execute context command = serve context operation := by
  unfold Command.operation? at operates
  split at operates
  · cases operates
    rfl
  · split at operates
    · cases operates
    · next paired =>
      cases operates
      exact if_neg paired
  · cases operates

/-! ### Opening -/

namespace AtRest

variable {before after : World τ ν}

omit [Quantity τ] [Overlay τ ν] in
theorem of_same (atRest : AtRest before) (queue : ∀ pending ∈ after.queue, pending ∈ before.queue)
    (tasks : after.tasks = before.tasks) (engines : after.engines = before.engines)
    (journal : after.journal = before.journal) : AtRest after where
  alone := ⟨fun pending member => atRest.alone.due pending (queue pending member),
    journal ▸ atRest.alone.unrevived, journal ▸ atRest.alone.obeyed⟩
  unhalted pending member := atRest.unhalted pending (queue pending member)
  timely := journal ▸ atRest.timely
  idle id live := atRest.idle id (.of_tasks tasks live)
  ended := journal ▸ atRest.ended
  numbered := atRest.numbered.carry (journal ▸ .refl _) engines

omit [Quantity τ] [Overlay τ ν] in
/-- A new session is sound. -/
theorem sound (atRest : AtRest before) (fresh : before.session = {})
    (deaf : before.correlator.running = false) : before.Sound where
  live id task found live := absurd ⟨task, found, live⟩ (atRest.idle id)
  known id own := by simp [fresh] at own
  served state := by simp [fresh] at state
  silent _ := ⟨by rw [fresh], deaf⟩
  ended _ := by rw [fresh]
  deaf _ := deaf
  told told := by simp [fresh] at told
  unhalted := atRest.unhalted
  accounted := ⟨by simp [fresh], fun engine built => .inr (.inl (atRest.ended engine built))⟩
  leftover engine installed := by simp [fresh] at installed

end AtRest

omit [Quantity τ] [Overlay τ ν] in
/-- Before anything has happened, nothing is under way. -/
theorem atRest_of_unstarted {world : World τ ν} (unstarted : Session.Unstarted world)
    (due : ∀ pending ∈ world.queue, pending.event ≠ .start) : AtRest world where
  alone := ⟨due, by simp [unstarted.journal], by simp [unstarted.journal, Refused]⟩
  unhalted := unstarted.unhalted
  timely := by simp [unstarted.journal, Overtaken]
  idle id := by simp [IsLive, unstarted.tasks]
  ended := by simp [unstarted.journal]
  numbered := ⟨by simp [unstarted.journal], by simp [unstarted.journal]⟩

omit [Overlay τ ν] in
/-- Loading the configuration changes the disk at most. -/
theorem loaded_of_loadConfig {context : Context} {config : Config τ} {world loaded : World τ ν}
    (loads : (loadConfig context).run world = (.ok config, loaded)) :
    ∃ disk, loaded = { world with disk } := by
  unfold loadConfig at loads
  rw [run_bind_ok (run_get world)] at loads
  split at loads
  · cases loads
    exact ⟨_, rfl⟩
  · cases loads

omit [Quantity τ] in
theorem path_of_openIn {folder : Path} {disk left : Disk (ItemTable τ)} {store : Store τ}
    (opened : Store.openIn folder disk = .ok (store, left)) :
    store.path = some (Store.filePath folder) := by
  unfold Store.openIn at opened
  obtain ⟨made, -, opened⟩ := exists_of_bind_ok opened
  obtain ⟨place, -, opened⟩ := exists_of_bind_ok opened
  split at opened
  · cases opened
  · obtain ⟨⟨items, written⟩, -, opened⟩ := exists_of_bind_ok opened
    cases opened
    rfl

omit [Quantity τ] [Overlay τ ν] in
theorem closed_of_closeStore {world after : World τ ν} {store : Store τ}
    (closes : Service.closeStore world = after) (present : world.store = some store) :
    ∃ disk, after = { world with store := some { store with isOpen := false }, disk } := by
  have closed : (store.close world.disk).1 = { store with isOpen := false } := by
    unfold Store.close
    dsimp only
    split
    · split
      · rfl
      · split <;> rfl
    · rfl
  refine ⟨(store.close world.disk).2, ?_⟩
  rw [← closes, Service.closeStore, present, ← closed]

/-- Whether a node has a new session, no end of a stop is due, and its store is in a folder. -/
structure Fresh (folder : Path) (node : World τ ν) : Prop extends AtRest node where
  session : node.session = {}
  deaf : node.correlator.running = false
  unclosed : ∀ pending ∈ node.queue, pending.event ≠ .close
  store : ∃ store, node.store = some store ∧ store.path = some (Store.filePath folder)

omit [Quantity τ] [Overlay τ ν] in
theorem Fresh.orderly {folder : Path} {node : World τ ν} (fresh : Fresh folder node) : Orderly node :=
  ⟨fresh.sound fresh.session fresh.deaf, fresh.alone, fresh.timely,
    fun pending member close => absurd close (fresh.unclosed pending member)⟩

/-- A node that is opened is new, or is closed again. -/
theorem fresh_of_opens {context : Context} {world node : World τ ν} {folder : Path}
    {result : Except Failure Unit} (opens : Opens context world folder result node)
    (atRest : AtRest world) :
    (result = .ok () → Fresh folder node) ∧ (result ≠ .ok () → Closed folder node) := by
  cases opens with
  | ready loads chosen opened =>
    obtain ⟨disk, rfl⟩ := loaded_of_loadConfig loads
    unfold openNode at opened
    rw [run_bind_ok (run_get _)] at opened
    split at opened
    · cases opened
    next store left opens =>
    split at opened
    · cases opened
    next settings said =>
    split at opened
    · cases opened
    next renewed fits =>
    cases opened
    obtain ⟨ledger, -, rfl⟩ := Option.map_eq_some_iff.mp fits
    refine ⟨fun _ => ⟨atRest.of_same (fun _ member => List.mem_of_mem_filter member) rfl rfl rfl, rfl, rfl,
      ?_, store, rfl, path_of_openIn opens⟩, fun other => absurd rfl other⟩
    rintro pending member close
    obtain ⟨-, other⟩ := List.mem_filter.mp member
    rw [close] at other
    cases other
  | mistyped loads chosen opened =>
    obtain ⟨disk, rfl⟩ := loaded_of_loadConfig loads
    unfold openNode at opened
    rw [run_bind_ok (run_get _)] at opened
    split at opened
    · cases opened
    next store left opens =>
    split at opened
    · have closes : Service.closeStore { world with
          disk := left, store := some store, session := {}, correlator := {} } = node :=
        congrArg Prod.snd opened
      obtain ⟨disk, rfl⟩ := closed_of_closeStore closes rfl
      have path := path_of_openIn opens
      exact ⟨nofun, fun _ => ⟨atRest.of_same (fun _ => id) rfl rfl rfl, rfl, rfl, _, rfl, path, rfl⟩⟩
    · split at opened <;> cases opened

/-! ### Closing -/

section

variable (obedient : Obedient τ ν) (unprompted : Unprompted τ ν)

include obedient unprompted

theorem sustains_operation {command : Command} {operation : Op τ ν (Json τ)}
    (operates : command.operation? = some operation) : Keeps Sustains operation := by
  unfold Command.operation? at operates
  split at operates
  · cases operates
    exact .bind (Mutable.sustains_get obedient unprompted _ _) fun _ => .pure _
  · split at operates
    · cases operates
    · cases operates
      exact .bind (Mutable.sustains_put obedient unprompted _ _ _ _) fun _ => .pure _
  · cases operates

theorem sustains_started {folder : Path} {node : World τ ν} (fresh : Fresh folder node) :
    Sustains node (started node).2 := by
  have upkeep : Upkeep node (Session.start node) := (meanwhile_start node).upkeep
  have begun : Sustains node (Session.start node) :=
    { orderly := fun orderly => orderly_start orderly (by rw [fresh.session]; nofun) fresh.unclosed
      numbered := upkeep.course.invariant Numbered fun _ _ _ _ step => step.numbered
      settings := upkeep.spares.settings
      store := by rw [upkeep.spares.store] }
  exact begun.trans (.of_upkeep (Session.upkeep_waitUntilRunning _ _)
    (orderly_waitUntilRunning obedient unprompted _ _))

theorem sustains_attempt {operation : Op τ ν (Json τ)} (keeps : Keeps Sustains operation)
    {folder : Path} {node : World τ ν} (fresh : Fresh folder node) :
    Sustains node ((attempt operation).run node).2 := by
  have ready := sustains_started obedient unprompted fresh
  unfold attempt
  rw [run_bind_ok (run_get node), run_bind_ok (run_modifyGet _ node)]
  rcases step : started node with ⟨running, after⟩
  rw [step] at ready
  rw [show Service.start _ node = _ from step]
  dsimp only
  cases running with
  | false => exact ready
  | true =>
    refine ready.trans ?_
    exact Keeps.bind keeps (fun json => .lift _) after

/-- A node whose session is orderly is closed completely. -/
theorem closed_of_close {folder : Path} {served : World τ ν} (orderly : Orderly served)
    (numbered : served.Numbered) (timed : served.settings.Timed)
    (store : ∃ store, served.store = some store ∧ store.path = some (Store.filePath folder)) :
    ∃ after, Service.close served = (.ok (), after) ∧ Closed folder after := by
  obtain ⟨stopped, stops, left, state⟩ := orderly_stop obedient unprompted orderly timed
  have upkeep : Upkeep served stopped := by
    have upkeep := upkeep_stop served
    rwa [stops] at upkeep
  obtain ⟨store, present, path⟩ := store
  have kept : stopped.store = some store := upkeep.spares.store.trans present
  obtain ⟨disk, closed⟩ := closed_of_closeStore rfl kept
  have down : Session.isUp stopped.session.state = false := by rw [state]; rfl
  have unmanned : stopped.session.engine = none := (left.sound.silent state).1
  have gone (engine : EngineId) (built : .built engine ∈ stopped.journal) :
      Aborted stopped.journal engine := by
    rcases left.sound.accounted.kept engine built with installed | gone
    · rw [unmanned] at installed
      cases installed
    · exact Session.aborted_of_gone gone (left.alone.obeyed engine) (left.alone.not_abandoned engine)
  have rests : AtRest stopped :=
    ⟨left.alone, left.sound.unhalted, left.timely.timely, left.sound.not_isLive down, gone,
      upkeep.course.invariant Numbered (fun _ _ _ _ step => step.numbered) numbered⟩
  refine ⟨Service.closeStore stopped, ?_, ?_⟩
  · rw [Service.close, stops]
  · rw [closed]
    exact ⟨rests.of_same (fun _ => id) rfl rfl rfl, state, unmanned, _, rfl, path, rfl⟩

end

theorem reports_attempt (operation : Op τ ν (Json τ)) (node : World τ ν) :
    Reports operation (.ok ()) node (shown (ending τ ((attempt operation).run node).1 (.ok ()))) := by
  unfold attempt
  rw [run_bind_ok (run_get node), run_bind_ok (run_modifyGet _ node)]
  rcases step : started node with ⟨running, after⟩
  rw [show Service.start _ node = _ from step]
  cases running with
  | false =>
    obtain ⟨text, printed⟩ := Json.prints_ofError (τ := τ) ⟨.engineUnavailable,
      if after.session.lastError.isEmpty then "session did not reach running"
      else after.session.lastError⟩ (some 0)
    dsimp only
    rw [if_neg Bool.false_ne_true, run_bind_ok (run_get after), Outcome.refused, Outcome.printed,
      Json.indented, printed]
    exact .unready step printed
  | true =>
    dsimp only
    rw [if_pos rfl, run_bind]
    rcases done : operation.run after with ⟨failure | json, ended⟩
    · cases failure with
      | operation error =>
        obtain ⟨text, printed⟩ := Json.prints_ofError (τ := τ) error (some 0)
        dsimp only [ending]
        rw [Outcome.refused, Outcome.printed, Json.indented, printed]
        exact .refused step done printed
      | _ => exact .died step done nofun
    · dsimp only
      cases printed : json.indented with
      | ok text =>
        rw [Outcome.printed, printed]
        exact .returned step done printed
      | error error =>
        rw [Outcome.printed, printed]
        exact .unprinted step done printed

/-- What a command does once it has opened its node. -/
def conduct (operation : Op τ ν (Json τ)) : Op τ ν Outcome := do
  let result ← modifyGet (attempt operation).run
  let closed ← modifyGet Service.close
  match ending τ result closed with
  | .ok outcome => return outcome
  | .error failure => throw failure

section

variable (obedient : Obedient τ ν) (unprompted : Unprompted τ ν)

include obedient unprompted

theorem conduct_concludes {operation : Op τ ν (Json τ)} (keeps : Keeps Sustains operation)
    {folder : Path} {node : World τ ν} (fresh : Fresh folder node) (timed : node.settings.Timed) :
    Closed folder ((conduct operation).run node).2 ∧
      Reports operation (.ok ()) node (shown ((conduct operation).run node).1) := by
  have served := sustains_attempt obedient unprompted keeps fresh
  obtain ⟨store, present, path⟩ := fresh.store
  have kept : ∃ store, ((attempt operation).run node).2.store = some store ∧
      store.path = some (Store.filePath folder) := by
    have same := served.store
    rw [present, Option.map_some, path] at same
    exact Option.map_eq_some_iff.mp same
  obtain ⟨after, closes, closed⟩ := closed_of_close obedient unprompted (served.orderly fresh.orderly)
    (served.numbered fresh.numbered) (by rwa [served.settings]) kept
  have reports := reports_attempt (τ := τ) (ν := ν) operation node
  unfold conduct
  rw [run_bind_ok (run_modifyGet _ node), run_bind_ok (run_modifyGet _ _), closes]
  dsimp only
  split
  · next outcome ends =>
    rw [ends] at reports
    exact ⟨closed, reports⟩
  · next failure ends =>
    rw [ends] at reports
    exact ⟨closed, reports⟩

end

/-! ### A command that finds nothing -/

/-- Whether a command gets its node ready, with a time for the end of its session. -/
def isReady (context : Context) (world : World τ ν) : Bool :=
  match (loadConfig context).run world with
  | (.ok config, loaded) =>
    match chooseEngine context config, (openNode config).run loaded with
    | .ok (.ok _), (.ok (), node) =>
      node.settings.joinTimeout.any fun timeout => Quantity.atLeast timeout timeout
    | _, _ => false
  | (.error _, _) => false

theorem exists_opens {context : Context} {world : World τ ν} (ready : isReady context world = true) :
    ∃ folder node, Opens context world folder (.ok ()) node ∧ node.settings.Timed := by
  unfold isReady at ready
  split at ready
  · next loads =>
    split at ready
    · next chosen opened =>
      obtain ⟨timeout, said, timed⟩ := (Option.any_eq_true _ _).mp ready
      exact ⟨_, _, .ready loads chosen opened, timeout, said, timed⟩
    · cases ready
  · cases ready

/-- Engines come from the simulation. -/
def simulated : Context where
  modules := [Simnet.engineModule]
  environment name := if name = Setting.engineFactory.variableName then some "simnet:create" else none

/-- A get of an item of the owner whose key consists of sevens. -/
def asked : List String := ["get-mutable", String.ofList (List.replicate 64 '7'), "s"]

/-- A world in which nothing has happened, with engines that have nothing to report. -/
def quiet : World Seconds Session.Placid := Session.untouched ⟨⟩ {}

/-- A world in which tasks are waited for, with a file that gives a setting of sessions. -/
def configured (line : String) : World Seconds Session.Sluggish :=
  let content := Utf8.encode ("[session]\n" ++ line ++ "\n")
  Session.untouched ⟨⟩ ((({} : Disk (ItemTable Seconds)).place
    (Config.defaultPath ⟨.absolute, []⟩) content).toOption.getD {})

end Cli

end DhtRecords
