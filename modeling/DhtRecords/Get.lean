/-
Lookups of single items.

A lookup is fired and answered later through the correlator, where `peek`
finds the answer; `lookup` waits for it. A waiting lookup drops what was known
of the item before it asks the engine, and again when it gives up, so that no
answer to an earlier lookup is taken for its own.
-/

import DhtRecords.Lifecycle

namespace DhtRecords.Get

/-- Why a lookup has no answer. -/
inductive Error (τ : Type) where
  | notRunning
  /-- The session was stopped while the caller waited. -/
  | stopped
  | timedOut (salt : String) (timeout : τ)

/-- What a lookup has found. -/
structure Found where
  value : Bytes
  sequence : Int
  final : Bool

variable {τ ν : Type} [Quantity τ]

namespace Error

def kind : Error τ → ErrorKind
  | notRunning => .engineUnavailable
  | stopped => .engineUnavailable
  | timedOut _ _ => .timeout

def message : Error τ → String
  | notRunning => "DHT session is not running"
  | stopped => "DHT session stopped while waiting"
  | timedOut salt timeout =>
    "No result for " ++ Text.quoted salt ++ " within " ++ Quantity.briefText timeout ++ "s"

end Error

/-- What the correlator has of an item. -/
def peek (owner : Bytes) (salt : String) (world : World τ ν) : Option (LookupResult τ) :=
  world.correlator.result? (infoHash owner salt)

/-- Drops what the correlator has of an item. -/
def forget (owner : Bytes) (salt : String) (world : World τ ν) : World τ ν :=
  { world with correlator := world.correlator.forget (infoHash owner salt) }

variable [Overlay τ ν]

/-- Waits until every one of the items has a result, at most for a time; tells whether they have. -/
def waitForAll (keys : List String) (timeout : τ) (world : World τ ν) : Bool × World τ ν :=
  if keys.isEmpty then (true, world)
  else
    let world := world.wait World.run timeout fun world =>
      world.correlator.hasAll keys || !world.correlator.running
    (world.correlator.hasAll keys, world)

/-- Waits for a result of an item, which must be final if the caller insists on that. -/
def waitForResult (key : String) (timeout : τ) (onlyFinal : Bool) (world : World τ ν) :
    Option (LookupResult τ) × World τ ν :=
  let world := world.wait World.run timeout fun world =>
    (world.correlator.readyResult? key onlyFinal).isSome || !world.correlator.running
  (world.correlator.readyResult? key onlyFinal, world)

/-- Fires a lookup. -/
def fire (owner : Bytes) (salt : String) : Op τ ν (Except (Error τ) Unit) := do
  if (← Session.ensureRunning).isSome then return .error .notRunning
  match (← get).session.engine with
  | none => return .error .notRunning
  | some engine =>
    Op.ask engine (.lookup owner salt)
    return .ok ()

/-- Fires a lookup and waits for its answer. -/
def lookup (owner : Bytes) (salt : String) (timeout : τ) (onlyFinal : Bool) :
    Op τ ν (Except (Error τ) Found) := do
  modify (forget owner salt)
  match ← fire owner salt with
  | .error error => return .error error
  | .ok () =>
    match ← modifyGet (waitForResult (infoHash owner salt) timeout onlyFinal) with
    | some result => return .ok ⟨result.value, result.sequence, result.final⟩
    | none =>
      modify (forget owner salt)
      if (← get).correlator.running then return .error (.timedOut salt timeout)
      else return .error .stopped

end DhtRecords.Get
