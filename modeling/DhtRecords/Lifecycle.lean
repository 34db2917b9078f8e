/-
A session as its callers use it: to wait until it is running, to make sure of it
before an engine is called, and to stop it.
-/

import DhtRecords.Schedule

namespace DhtRecords.Session

variable {τ ν : Type} [Quantity τ] [Overlay τ ν]

/-- The steps in which a caller waits for the running state. -/
def pollStep : τ := Quantity.fraction 5 (-2)

/-- Waits until the session is running, up to a deadline if there is one; tells whether it is. -/
def waitUntilRunningFor : Nat → Option τ → World τ ν → Bool × World τ ν
  | 0, _, world => (false, world.giveUp)
  | fuel + 1, deadline, world =>
    match world.session.state with
    | .running => (true, world)
    | .error => (false, world)
    | .stopped => (false, world)
    | _ =>
      let remaining := deadline.map fun deadline => Quantity.sub deadline world.clock
      if remaining.any (Quantity.atLeast Quantity.zero) then (false, world)
      else
        let duration := match remaining with
          | some remaining => Quantity.earlier pollStep remaining
          | none => pollStep
        let world := world.run (Quantity.add world.clock duration) (·.session.signalled)
        if world.session.signalled then (true, world) else waitUntilRunningFor fuel deadline world

/-- Waits until the session is running, for a time if one is given; tells whether it is. -/
def waitUntilRunning (timeout : Option τ) (world : World τ ν) : Bool × World τ ν :=
  waitUntilRunningFor world.patience (timeout.map (Quantity.add world.clock)) world

/-- Whether a session in a state has no engine to call. -/
def isDown (state : SessionState) : Bool := state = .stopping || state = .stopped || state = .error

/-- Makes sure that the engine is running, and recovers it if it is not; the kind of error tells that
there is no engine to call. -/
def ensureRunning : Op τ ν (Option ErrorKind) := do
  let session := (← get).session
  match session.engine, isDown session.state with
  | some engine, false =>
    if ← checkRunning engine then return none
    if ← recover World.run then return none
    return some .engineUnavailable
  | _, _ => return some .engineUnavailable

/-- Stops the session and waits until that has come to its end; what is due happens in the meantime. -/
def stop (world : World τ ν) : Except Failure Unit × World τ ν :=
  world.stopBy fun time world => (world.wait World.run time fun _ => false).closed

end DhtRecords.Session
