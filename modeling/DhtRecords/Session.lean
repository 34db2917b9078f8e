/-
The session: one engine, brought up by a background task and kept running.

Here are the steps that the background task and callers share: starting and
stopping the session, keeping the engine's state in a file, waiting for the
bootstrap and recovering an engine that has stopped. Those that let time pass take the way
to do so as a parameter: a task handles due events only, a caller also gives
way to tasks.
-/

import DhtRecords.World

namespace DhtRecords

/-! ### Starting -/

namespace Session

/-- The states in which a session is on its way up or running. -/
def isUp (state : SessionState) : Bool :=
  state = .starting || state = .bootstrapping || state = .running

/-- Starts the session's background task, unless the session is on its way up or running. -/
def start {τ ν : Type} (world : World τ ν) : World τ ν :=
  if isUp world.session.state then world
  else
    let world := world.moveTo .starting
    { world with
      session := { world.session with
        lastError := "", signalled := false, task := some world.tasks.length }
      tasks := world.tasks ++ [{ wake := world.clock }] }

end Session

namespace World

variable {τ ν : Type} [Quantity τ] [Overlay τ ν]

/-! ### The state file -/

/-- The disk with the engine's state in its file. It is written to a file beside it, which then takes
the place of the old one. If that fails, what was done up to there stays. -/
def writeState (world : World τ ν) (blob : Bytes) : Except (Disk (ItemTable τ)) (Disk (ItemTable τ)) :=
  let path := world.settings.statePath
  match world.disk.makeFolders path.parent, path.addEnding? ".tmp" with
  | .ok disk, some beside =>
    match disk.write beside (.bytes blob) with
    | .ok written => (written.move beside path).mapError fun _ => written
    | .error _ => .error disk
  | .ok disk, none => .error disk
  | .error _, _ => .error world.disk

/-- Keeps the engine's state in its file; tells whether that was possible. -/
def saveState (world : World τ ν) : Bool × World τ ν :=
  match world.session.engine with
  | none => (false, world)
  | some engine =>
    match world.ask engine .saveState with
    | (.error _, world) => (false, world)
    | (.ok blob, world) =>
      match world.writeState blob with
      | .ok disk => (true, { world with disk })
      | .error disk => (false, { world with disk })

/-! ### Stopping -/

/-- Tells an engine to leave the overlay and ends it. If it refuses the first, it is not told the
second. -/
def shutDown (engine : EngineId) (world : World τ ν) : World τ ν :=
  match world.ask engine (.configure false 0) with
  | (.error _, world) => world
  | (.ok _, world) => world.tell engine .abort

/-- Asks the session's task to stop. -/
def requestStop (world : World τ ν) : World τ ν :=
  match world.session.task with
  | some task => world.modifyTask task fun task => { task with stopRequested := true }
  | none => world

/-- The session's task ends if it waits, unless it is left to itself. One that is at work goes on. -/
def joinTask (world : World τ ν) : World τ ν :=
  match world.session.task with
  | some task =>
    match (Overlay.join world.overlay : Join τ) with
    | .abandons => world
    | _ => world.modifyTask task fun task =>
      if task.isWaiting then { task with phase := .finished } else task
  | none => world

/-- How long a stop waits for the session's task, if that takes any time. It fails if the settings do
not say how long it may take. -/
def joinTime (world : World τ ν) : Except Failure (Option τ) :=
  match world.session.task, (Overlay.join world.overlay : Join τ) with
  | some _, .lasts duration =>
    match world.settings.joinTimeout with
    | none => .error .mistypedSetting
    | some timeout =>
      if Quantity.atLeast timeout timeout then .ok (some (Quantity.earlier duration timeout))
      else .error .undefinedTime
  | _, _ => .ok none

/-- What a stop does until it waits for the session's task, and how long it is going to do so. If the
engine does not let go of its handler, it goes no further. -/
def leave (world : World τ ν) : Except Failure (Option τ) × World τ ν :=
  let previous := world.session.state
  let engine := world.session.engine
  let world := (world.moveTo .stopping).requestStop
  let world := match engine with
    | some engine => (if previous = SessionState.running then world.saveState.2 else world).shutDown engine
    | none => world
  match world.stopCorrelator engine with
  | (.ok (), world) => (world.joinTime, world.joinTask)
  | (.error fault, world) => (.error (.engine fault), world)

/-- A stop comes to its end: nothing is left of the session, whatever has become of it. -/
def closed (world : World τ ν) : World τ ν :=
  let world := world.moveTo .stopped
  { world with
    session := { world.session with
      task := none, engine := none, bootstrapped := false, signalled := false } }

/-- Stops the session from any state, and passes the time of the wait for its task in a way of its own;
one that is stopped stays as it is. -/
def stopBy (await : τ → World τ ν → World τ ν) (world : World τ ν) : Except Failure Unit × World τ ν :=
  if world.session.state = .stopped ∧ world.session.task = none then (.ok (), world)
  else match world.leave with
    | (.ok none, world) => (.ok (), world.closed)
    | (.ok (some time), world) => (.ok (), await time world)
    | (.error failure, world) => (.error failure, world)

/-- Somebody else stops the session: if that takes time, its end is due later. -/
def stop (world : World τ ν) : Except Failure Unit × World τ ν :=
  world.stopBy fun time world => world.schedule time .close

/-- An answer that is given after the session was stopped, and was started again, if it has to be. An
engine that does not let go of its handler fails. -/
def afterStop {α : Type} (stops restarts : Bool) (answer : Except EngineFault α)
    (world : World τ ν) : Except EngineFault α × World τ ν :=
  if stops then
    match world.stop with
    | (.error (.engine fault), world) => (.error fault, world)
    | (_, world) => (answer, if restarts then Session.start world else world)
  else (answer, world)

/-! ### Engines that stop their session -/

/-- Calls an engine; the session may be stopped in the course of it. -/
def consult (engine : EngineId) (call : EngineCall) (world : World τ ν) :
    Except EngineFault call.Answer × World τ ν :=
  let reaction := Overlay.ask (τ := τ) engine call world.overlay
  let (answer, world) := world.ask engine call
  world.afterStop reaction.stops reaction.restarts answer

/-- Whether an engine is running. -/
def checkRunning (engine : EngineId) (world : World τ ν) : Except EngineFault Bool × World τ ν :=
  world.consult engine .isRunning

/-- Asks for an engine; the session may be stopped in the course of it. -/
def build (world : World τ ν) : Except EngineFault (Option EngineId) × World τ ν :=
  let engine := world.engines + 1
  let reaction : Reaction τ ν Bool := Overlay.build engine world.overlay
  match (world.react engine reaction).afterStop reaction.stops reaction.restarts
    reaction.outcome with
  | (.error fault, world) => (.error fault, world)
  | (.ok false, world) => (.ok none, world)
  | (.ok true, world) => (.ok (some engine), { world.note (.built engine) with engines := engine })

end World

namespace Session

variable {τ ν : Type} [Quantity τ] [Overlay τ ν]

/-- Takes the engine's state from its file; tells whether there was one that the engine accepts. It
fails if the file's path is none that a file can have. -/
def loadState : Op τ ν Bool := do
  let world ← get
  match world.session.engine with
  | none => return false
  | some engine =>
    match world.disk.read world.settings.statePath with
    | .error .badName => throw (.disk .badName)
    | .error _ => return false
    | .ok [] => return false
    | .ok blob =>
      match ← modifyGet (World.consult engine (.loadState blob)) with
      | .ok _ => return true
      | .error fault =>
        if fault.kind = .rejected ∨ fault.kind = .mistyped then return false
        else throw (.engine fault)

/-- Keeps the engine's state in its file; tells whether that was possible. -/
def saveState : Op τ ν Bool := modifyGet World.saveState

/-- Waits for an event of a kind that is logged at or after a moment. -/
def waitForEvent (waiter : Waiter τ ν) (kind : EventKind) (since timeout : τ) (world : World τ ν) :
    Option (LoggedEvent τ) × World τ ν :=
  let world := world.wait waiter timeout fun world =>
    (world.correlator.event? kind since).isSome || !world.correlator.running
  (world.correlator.event? kind since, world)

/-- Waits for the engine's word that it has joined the overlay, given at or after a moment. -/
def bootstrap (waiter : Waiter τ ν) (since : Option τ) : Op τ ν Bool := do
  let start := since.getD (← get).clock
  modify fun world => world.wait waiter world.settings.bootstrapTimeout fun world =>
    (world.correlator.event? .bootstrap start).isSome || !world.correlator.running
  if ((← get).correlator.event? .bootstrap start).isSome then
    modify fun world => { world with session := { world.session with bootstrapped := true } }
    return true
  else return false

/-- Asks an engine whether it is running. -/
def checkRunning (engine : EngineId) : Op τ ν Bool := do
  match ← modifyGet (World.checkRunning engine) with
  | .ok answer => return answer
  | .error fault => throw (.engine fault)

/-- Brings an engine that has stopped back: by the state in its file, or else by a new bootstrap. A task
and a caller who do so at the same time do not wait for each other. -/
def recover (waiter : Waiter τ ν) : Op τ ν Bool := do
  match (← get).session.engine with
  | none => return false
  | some engine =>
    if ← checkRunning engine then return true
    if ← loadState then return true
    if ← bootstrap waiter none then
      let _ ← saveState
      return true
    return false

end Session

end DhtRecords
