/-
The world of a node: its clock, what is due to happen, its session with the
correlator and background tasks, the overlay, and what it keeps.

Programs are steps on worlds, `Op`. What happens is noted in the journal as it
happens: engine calls, alerts that were accepted, and changes of the session's
state. No step looks at the journal.
-/

import DhtRecords.Correlator
import DhtRecords.Failure

namespace DhtRecords

/-- The conditions that a node waits for before its session starts. -/
structure Readiness where
  peers : Int := 1
  synced : Bool := true
  active : Bool := true

/-- Whether there are peers, the chain is synced and the feature is active. -/
def Readiness.isReady (readiness : Readiness) : Bool :=
  0 < readiness.peers && readiness.synced && readiness.active

/-- The states of a session. -/
inductive SessionState where
  | stopped
  | starting
  | bootstrapping
  | running
  | stopping
  | error
  deriving DecidableEq, Repr

def SessionState.name : SessionState → String
  | stopped => "stopped"
  | starting => "starting"
  | bootstrapping => "bootstrapping"
  | running => "running"
  | stopping => "stopping"
  | error => "error"

/-- Background tasks are numbered in the order in which they are started. -/
abbrev TaskId := Nat

/-- Where a background task stands. -/
inductive Phase where
  /-- It waits to ask whether the node is ready. -/
  | polling
  /-- It waits to ask whether the engine is running. -/
  | watching
  /-- It is at work. -/
  | active
  | finished
  deriving DecidableEq, Repr

/-- A background task. -/
structure Task (τ : Type) where
  phase : Phase := .polling
  stopRequested : Bool := false
  /-- When its wait ends. -/
  wake : τ

/-- Whether a task waits. -/
def Task.isWaiting {τ : Type} (task : Task τ) : Bool :=
  task.phase = .polling || task.phase = .watching

/-- A session of the node with an engine. -/
structure Session where
  state : SessionState := .stopped
  engine : Option EngineId := none
  /-- Why the background task has failed. -/
  lastError : String := ""
  bootstrapped : Bool := false
  /-- The task of the session, which may have finished. -/
  task : Option TaskId := none
  /-- Whether those who wait for the running state have been told. -/
  signalled : Bool := false

/-- What can be due. -/
inductive Event (ν : Type) where
  /-- An alert reaches the correlator. -/
  | alert (alert : Alert)
  /-- An engine has an alert to hand over. -/
  | emission (engine : EngineId) (alert : Alert)
  /-- The newest engine gets an alert to hand over. -/
  | announcement (alert : Alert)
  /-- The session is started. -/
  | start
  /-- The session is stopped. -/
  | stop
  /-- A stop no longer waits for the session's task, and comes to its end. -/
  | close
  /-- The correlator alone is stopped. -/
  | halt
  /-- The overlay changes. -/
  | overlay (change : ν → ν)
  /-- The node's readiness changes. -/
  | readiness (change : Readiness → Readiness)

/-- Whether it is that a stop comes to its end. -/
def Event.isClose {ν : Type} : Event ν → Bool
  | close => true
  | _ => false

/-- An event and the time at which it is due. -/
structure Pending (τ ν : Type) where
  time : τ
  event : Event ν

/-- What has happened. -/
inductive Occurrence (τ : Type) where
  /-- An engine was built. -/
  | built (engine : EngineId)
  /-- An engine was called, which may have failed. -/
  | called (engine : EngineId) (call : EngineCall) (failed : Bool)
  /-- The correlator has accepted an alert. -/
  | accepted (alert : Alert) (moment : τ)
  /-- The session has gone from one state to another. -/
  | moved (source target : SessionState)

/-- The world of a node. -/
structure World (τ ν : Type) where
  settings : Settings τ
  clock : τ
  overlay : ν
  /-- What is due, by time and then by age. -/
  queue : List (Pending τ ν) := []
  /-- The conditions for a start; a node without them is always ready. -/
  readiness : Option Readiness := none
  /-- The number of engines that were built. -/
  engines : Nat := 0
  correlator : Correlator τ := {}
  session : Session := {}
  tasks : List (Task τ) := []
  ledger : Ledger τ
  store : Option (Store τ) := none
  disk : Disk (ItemTable τ) := {}
  home : Path := ⟨.absolute, []⟩
  /-- The pairs that are generated, one after the other. -/
  freshKeys : Nat → KeyPair
  /-- The number of pairs that were generated. -/
  keysGenerated : Nat := 0
  /-- What has happened, the latest first. -/
  journal : List (Occurrence τ) := []
  /-- How many events one wait may take before it is given up. -/
  patience : Nat := 10000000
  /-- Whether a wait was given up; such a run says nothing of one with more patience. -/
  stalled : Bool := false

/-- A step on worlds that has a result or fails. -/
abbrev Op (τ ν : Type) := ExceptT Failure (StateM (World τ ν))

/-- A way to let time pass until a deadline, or until a condition holds. -/
abbrev Waiter (τ ν : Type) := τ → (World τ ν → Bool) → World τ ν → World τ ν

namespace World

variable {τ ν : Type} [Quantity τ]

/-! ### Time -/

/-- An event among those that are due, after all that are due no later. -/
def insertPending (pending : Pending τ ν) : List (Pending τ ν) → List (Pending τ ν)
  | [] => [pending]
  | first :: rest =>
    if Quantity.lt pending.time first.time then pending :: first :: rest
    else first :: insertPending pending rest

/-- The world in which an event is due after a delay. -/
def schedule (delay : τ) (event : Event ν) (world : World τ ν) : World τ ν :=
  { world with queue := insertPending ⟨Quantity.add world.clock delay, event⟩ world.queue }

/-- The world at a time, if that is not past. -/
def advance (time : τ) (world : World τ ν) : World τ ν :=
  { world with clock := Quantity.later world.clock time }

/-- Lets a time pass, none if it is negative, or less if a condition holds before. -/
def wait (waiter : Waiter τ ν) (timeout : τ) (condition : World τ ν → Bool) (world : World τ ν) :
    World τ ν :=
  waiter (Quantity.add world.clock (Quantity.later Quantity.zero timeout)) condition world

/-! ### The journal, tasks and the session's state -/

/-- The world with one more occurrence in its journal. -/
def note (occurrence : Occurrence τ) (world : World τ ν) : World τ ν :=
  { world with journal := occurrence :: world.journal }

/-- The world after a change of a task. -/
def modifyTask (id : TaskId) (change : Task τ → Task τ) (world : World τ ν) : World τ ν :=
  { world with tasks := world.tasks.modify id change }

/-- Whether a task is asked to stop. -/
def isStopRequested (world : World τ ν) (id : TaskId) : Bool :=
  (world.tasks[id]?).any (·.stopRequested)

/-- The world with the session in a state. -/
def moveTo (state : SessionState) (world : World τ ν) : World τ ν :=
  { world.note (.moved world.session.state state) with session := { world.session with state } }

/-! ### Engines -/

variable [Overlay τ ν]

/-- The world after a reaction of the overlay that concerns an engine: its alerts are due later. -/
def react {α : Type} (engine : EngineId) (reaction : Reaction τ ν α) (world : World τ ν) :
    World τ ν :=
  reaction.alerts.foldl
    (fun world (delay, alert) => world.schedule delay (.emission engine alert))
    { world with overlay := reaction.overlay }

/-- Whether an outcome is a failure. -/
def isFailure {α : Type} : Except EngineFault α → Bool
  | .ok _ => false
  | .error _ => true

/-- Calls an engine. -/
def ask (engine : EngineId) (call : EngineCall) (world : World τ ν) :
    Except EngineFault call.Answer × World τ ν :=
  let reaction := Overlay.ask engine call world.overlay
  (reaction.outcome,
    (world.note (.called engine call (isFailure reaction.outcome))).react engine reaction)

/-- Calls an engine and leaves its answer alone. -/
def tell (engine : EngineId) (call : EngineCall) (world : World τ ν) : World τ ν :=
  (world.ask engine call).2

/-! ### The correlator -/

omit [Overlay τ ν] in
/-- An alert reaches the correlator. -/
def deliver (alert : Alert) (world : World τ ν) : World τ ν :=
  let world := if world.correlator.running then world.note (.accepted alert world.clock) else world
  { world with correlator := world.correlator.receive world.clock alert }

/-- The correlator begins to take the alerts of an engine. It is running even if the engine does not
hand them over. -/
def startCorrelator (engine : EngineId) (world : World τ ν) : Except EngineFault Unit × World τ ν :=
  ask engine (.setHandler true)
    { world with correlator := { world.correlator with running := true } }

/-- The correlator stops, and takes nothing more from an engine. -/
def stopCorrelator (engine : Option EngineId) (world : World τ ν) :
    Except EngineFault Unit × World τ ν :=
  if world.correlator.running then
    let world := { world with correlator := { world.correlator with running := false } }
    match engine with
    | some engine => world.ask engine (.setHandler false)
    | none => (.ok (), world)
  else (.ok (), world)

end World

namespace Op

variable {τ ν : Type} [Overlay τ ν]

/-- Calls an engine; its failure is the step's. -/
def ask [Quantity τ] (engine : EngineId) (call : EngineCall) : Op τ ν call.Answer := do
  match ← modifyGet (World.ask engine call) with
  | .ok answer => return answer
  | .error fault => throw (.engine fault)

end Op

end DhtRecords
