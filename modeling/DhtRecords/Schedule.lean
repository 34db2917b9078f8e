/-
Time passing: due events are handled and waiting tasks resumed, in the order
of their times.

`runQueue` handles events only, as a background task does while it waits in
the course of a step. `run` also resumes tasks: an event goes before a task of
the same time, and an older task before a younger one. Both end when a
condition holds, or at a deadline that nothing due lies before. The number of
steps is bounded by the world's patience, and a wait that is given up for that
is marked.
-/

import DhtRecords.Session

namespace DhtRecords

namespace World

variable {τ ν : Type} [Quantity τ] [Overlay τ ν]

/-- Handles one event. -/
def perform (event : Event ν) (world : World τ ν) : World τ ν :=
  match event with
  | .alert alert => world.deliver alert
  | .emission engine alert =>
    if Overlay.delivers τ engine world.overlay then world.deliver alert else world
  | .announcement alert =>
    if world.engines = 0 then world
    else world.schedule Quantity.zero (.emission world.engines alert)
  | .start => Session.start world
  | .stop => world.stop.2
  | .close => world.closed
  | .halt => (world.stopCorrelator none).2
  | .overlay change => { world with overlay := change world.overlay }
  | .readiness change => { world with readiness := world.readiness.map change }

/-- The world in which a wait was given up. -/
def giveUp (world : World τ ν) : World τ ν := { world with stalled := true }

/-- Handles due events until a condition holds, or up to a deadline; at most `fuel` of them. -/
def runQueueFor : Nat → Waiter τ ν
  | 0, deadline, _, world => (world.advance deadline).giveUp
  | fuel + 1, deadline, condition, world =>
    if condition world then world
    else match world.queue with
      | [] => world.advance deadline
      | next :: rest =>
        if Quantity.lt deadline next.time then world.advance deadline
        else
          runQueueFor fuel deadline condition
            (({ world with queue := rest }.advance next.time).perform next.event)

/-- Handles due events until a condition holds, or up to a deadline. -/
def runQueue : Waiter τ ν := fun deadline condition world =>
  runQueueFor world.patience deadline condition world

/-! ### Background tasks -/

/-- The task waits for a time, or ends if it is asked to stop. -/
def park (id : TaskId) (phase : Phase) (interval : τ) (world : World τ ν) : World τ ν :=
  world.modifyTask id fun task =>
    if task.stopRequested then { task with phase := .finished }
    else { task with phase, wake := Quantity.add world.clock interval }

/-- The task ends. -/
def finish (id : TaskId) (world : World τ ν) : World τ ν :=
  world.modifyTask id fun task => { task with phase := .finished }

/-- The task ends by a failure, which is the session's unless the task is asked to stop. -/
def finishFailed (id : TaskId) (failure : Failure) (world : World τ ν) : World τ ν :=
  if world.isStopRequested id then world.finish id
  else
    let world := { world with session := { world.session with lastError := failure.message } }
    (world.moveTo .error).finish id

/-- What is noted when there is no engine to be had. -/
def noEngineMessage : String := "engine factory returned no engine"

/-- The session takes an engine, which is to hand over its alerts. -/
def install (engine : EngineId) (world : World τ ν) : Except EngineFault Unit × World τ ν :=
  let world := { world with session := { world.session with engine := some engine } }
  match world.startCorrelator engine with
  | (.ok (), world) => (.ok (), world.moveTo .bootstrapping)
  | (.error fault, world) => (.error fault, world)

/-- The task waits to look after the engine; it ends if it cannot be told for how long. -/
def parkWatching (id : TaskId) (world : World τ ν) : World τ ν :=
  match world.settings.livenessInterval with
  | some interval => world.park id .watching interval
  | none => world.finishFailed id .mistypedSetting

/-- What a task does with the engine that it has got, up to the running state. Alerts count from a
moment on. Tells whether the session is running. -/
def bringUp (id : TaskId) (engine : EngineId) (since : τ) : Op τ ν Bool := do
  match ← modifyGet (World.install engine) with
  | .ok () => Pure.pure ()
  | .error fault => throw (.engine fault)
  let _ ← Session.loadState
  if ← Session.bootstrap runQueue (some since) then
    if !(← get).isStopRequested id then
      let _ ← Session.saveState
  if (← get).isStopRequested id then return false
  modify fun world =>
    let world := world.moveTo .running
    { world with session := { world.session with signalled := true } }
  return true

/-- What a task does once the node is ready. -/
def startEngine (id : TaskId) (world : World τ ν) : World τ ν :=
  let since := world.clock
  match world.build with
  | (.error fault, world) => world.finishFailed id (.engine fault)
  | (.ok none, world) =>
    if world.isStopRequested id then world.finish id
    else
      let world := { world with session := { world.session with lastError := noEngineMessage } }
      (world.moveTo .error).finish id
  | (.ok (some engine), world) =>
    if world.isStopRequested id then (world.tell engine .abort).finish id
    else match (bringUp id engine since).run world with
      | (.error failure, world) => world.finishFailed id failure
      | (.ok false, world) => world.finish id
      | (.ok true, world) => world.parkWatching id

/-- A task looks after the engine: one that has stopped is recovered. -/
def watch : Op τ ν Unit := do
  match (← get).session.engine with
  | none => return ()
  | some engine =>
    if !(← Session.checkRunning engine) then
      let _ ← Session.recover runQueue

omit [Quantity τ] [Overlay τ ν] in
/-- Whether the node is ready for its session. -/
def isReady (world : World τ ν) : Bool := world.readiness.all Readiness.isReady

/-- A waiting task goes on until it waits again or ends. -/
def resume (id : TaskId) (world : World τ ν) : World τ ν :=
  match world.tasks[id]? with
  | none => world
  | some task =>
    if task.stopRequested then world.finish id
    else
      let started := world.modifyTask id fun task => { task with phase := .active }
      match task.phase with
      | .polling =>
        if world.isReady then started.startEngine id
        else world.park id .polling world.settings.readinessPollInterval
      | .watching =>
        match watch.run started with
        | (.error failure, world) => world.finishFailed id failure
        | (.ok (), world) => world.parkWatching id
      | _ => world

/-- Among waiting tasks the one that wakes first, with its time; the older one of two. -/
def earliestTask : TaskId → List (Task τ) → Option (TaskId × τ)
  | _, [] => none
  | id, task :: rest =>
    match task.isWaiting, earliestTask (id + 1) rest with
    | true, some (other, time) =>
      if Quantity.lt time task.wake then some (other, time) else some (id, task.wake)
    | true, none => some (id, task.wake)
    | false, later => later

/-- What is due next: an event, which leaves the rest of the queue, or a task. -/
inductive Due (τ ν : Type) where
  | event (next : Pending τ ν) (rest : List (Pending τ ν))
  | task (id : TaskId) (time : τ)

omit [Quantity τ] [Overlay τ ν] in
/-- When it is due. -/
def Due.time : Due τ ν → τ
  | .event next _ => next.time
  | .task _ time => time

omit [Overlay τ ν] in
/-- What is due next. -/
def due? (world : World τ ν) : Option (Due τ ν) :=
  match world.queue, earliestTask 0 world.tasks with
  | [], none => none
  | [], some (id, time) => some (.task id time)
  | next :: rest, none => some (.event next rest)
  | next :: rest, some (id, time) =>
    if Quantity.lt time next.time then some (.task id time) else some (.event next rest)

/-- Handles what is due. -/
def handle (due : Due τ ν) (world : World τ ν) : World τ ν :=
  match due with
  | .event next rest => ({ world with queue := rest }.advance next.time).perform next.event
  | .task id time => (world.advance time).resume id

/-- Handles what is due until a condition holds, or up to a deadline; at most `fuel` steps. -/
def runFor : Nat → Waiter τ ν
  | 0, deadline, _, world => (world.advance deadline).giveUp
  | fuel + 1, deadline, condition, world =>
    if condition world then world
    else match world.due? with
      | none => world.advance deadline
      | some due =>
        if Quantity.lt deadline due.time then world.advance deadline
        else runFor fuel deadline condition (world.handle due)

/-- Handles what is due until a condition holds, or up to a deadline. A task that goes on does not give way
until it rests again, even if it waits for a bootstrap until after the deadline. -/
def run : Waiter τ ν := fun deadline condition world => runFor world.patience deadline condition world

/-- Lets a time pass. -/
def sleep (duration : τ) (world : World τ ν) : World τ ν :=
  world.run (Quantity.add world.clock duration) fun _ => false

end World

end DhtRecords
