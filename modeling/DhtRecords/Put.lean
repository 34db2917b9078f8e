/-
Puts of records and single items.

A record is put under a cooldown: its stamp is taken before the first item is
handed to the engine and given back if there is no engine to hand it to.
Single items have no cooldown.
-/

import DhtRecords.Lifecycle

namespace DhtRecords.Put

/-- Why nothing was put. -/
inductive Error where
  | notRunning
  | malformed (message : String)
  | badKeys (error : KeyError)
  /-- The record is held back for so many seconds. -/
  | locked (seconds : Int)
  /-- The session was stopped before the first item. -/
  | stopped

/-- What was put. -/
structure Receipt (τ : Type) where
  /-- The sequence number of all items. -/
  sequence : Int
  /-- The salts of the items, in order. -/
  salts : List String
  /-- The moment before the first item; no acknowledgement is older. -/
  moment : τ

namespace Error

def kind : Error → ErrorKind
  | notRunning => .engineUnavailable
  | malformed _ => .malformedRecord
  | badKeys _ => .invalidArgument
  | locked _ => .locked
  | stopped => .engineUnavailable

def message : Error → String
  | notRunning => "DHT session is not running"
  | malformed message => message
  | badKeys error => error.message
  | locked seconds =>
    s!"Record is locked. You need to wait at least {seconds} seconds before updating the same "
      ++ "record in the DHT."
  | stopped => "DHT session stopped while issuing puts"

end Error

variable {τ ν : Type} [Quantity τ] [Overlay τ ν]

/-- Hands items to an engine, in order; the first that fails is the last. -/
def handOver (engine : EngineId) (owner : Bytes) : List (String × Signer) → Op τ ν Unit
  | [] => return ()
  | (salt, signer) :: rest => do
    Op.ask engine (.put owner salt signer)
    handOver engine owner rest

/-- Puts items under one sequence number, if there is an engine; tells whether there is one. -/
def issue (owner privateKey : Bytes) (sequence : Int) (items : List (String × Bytes)) :
    Op τ ν Bool := do
  match (← get).session.engine with
  | none => return false
  | some engine =>
    handOver engine owner <|
      items.map fun (salt, value) => (salt, ⟨value, sequence, owner, privateKey⟩)
    return true

/-- The items of a record with their salts: the header, then the chunks. None, if the header has a
number that cannot be encoded. -/
def items? (record : Record) : Option (List (String × Bytes)) :=
  record.header.encode?.map fun header =>
    (headerSalt record.operation, header)
      :: record.chunks.map fun chunk => (chunk.salt, chunk.value)

/-- How long a record is held back, in whole seconds. -/
def heldBack? (ledger : Ledger τ) (key : RecordKey) (now : τ) : Option (Except Failure Int) :=
  (ledger.remaining? key now).map fun remaining =>
    match Quantity.ceil? remaining with
    | some seconds => .ok seconds
    | none => .error .beyondRange

/-- The world after a change of its ledger. -/
def modifyLedger (change : Ledger τ → Ledger τ) (world : World τ ν) : World τ ν :=
  { world with ledger := change world.ledger }

/-- Enters a submission into the ledger, which is swept if that is due. -/
def enter (submission : Submission τ) (world : World τ ν) : World τ ν :=
  let world := modifyLedger (·.submit submission) world
  if world.ledger.sweepDue then modifyLedger (·.sweep world.clock) world else world

/-- Puts a record that has got past the cooldown at the present moment. -/
def issueRecord (key : RecordKey) (privateKey : Bytes) (lastSequence : Int) (record : Record) :
    Op τ ν (Except Error (Receipt τ)) := do
  let now := (← get).clock
  modify (modifyLedger (·.stamp key now))
  match items? record with
  | none => throw .beyondRange
  | some items =>
    let sequence := lastSequence + 1
    if ← issue key.owner privateKey sequence items then
      modify (enter ⟨key, record, sequence, now⟩)
      return .ok ⟨sequence, items.map Prod.fst, now⟩
    else
      modify (modifyLedger (·.release key now))
      return .error .stopped

/-- Puts a record under the sequence number after the last one. -/
def record (owner privateKey : Bytes) (lastSequence : Int) (record : Record) :
    Op τ ν (Except Error (Receipt τ)) := do
  if (← Session.ensureRunning).isSome then return .error .notRunning
  if !record.isValid then return .error (.malformed record.message)
  match Item.keyError? owner privateKey with
  | some error => return .error (.badKeys error)
  | none =>
    let key : RecordKey := ⟨owner, record.operation⟩
    let world ← get
    match heldBack? world.ledger key world.clock with
    | some (.ok seconds) => return .error (.locked seconds)
    | some (.error failure) => throw failure
    | none => issueRecord key privateKey lastSequence record

/-- Puts a single item under the sequence number after the last one. -/
def item (owner privateKey : Bytes) (salt : String) (value : Bytes) (lastSequence : Int) :
    Op τ ν (Except Error (Receipt τ)) := do
  if (← Session.ensureRunning).isSome then return .error .notRunning
  match Item.keyError? owner privateKey with
  | some error => return .error (.badKeys error)
  | none =>
    let sequence := lastSequence + 1
    let now := (← get).clock
    if ← issue owner privateKey sequence [(salt, value)] then return .ok ⟨sequence, [salt], now⟩
    else return .error .stopped

/-- Drops the stamps that hold nothing back any more; tells how many. -/
def sweep (world : World τ ν) : Nat × World τ ν :=
  ((world.ledger.expired world.clock).length, modifyLedger (·.sweep world.clock) world)

/-- Waits for the acknowledgement of a put, and takes it. -/
def waitForAcknowledgement (key : String) (since timeout : τ) (sequence : Option Int)
    (world : World τ ν) : Option (Acknowledgement τ) × World τ ν :=
  let world := world.wait World.run timeout fun world =>
    (world.correlator.readyAcknowledgement? key since sequence).isSome || !world.correlator.running
  match world.correlator.readyAcknowledgement? key since sequence with
  | some found => (some found, { world with correlator := world.correlator.claim key })
  | none => (none, world)

end DhtRecords.Put
