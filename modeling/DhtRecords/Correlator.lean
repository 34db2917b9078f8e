/-
The correlator: what engines have reported, kept where callers find it.

For each item it keeps the latest result of a lookup and the acknowledgement
of its newest put, and beside these a log of the newest events. Alerts that
arrive while it is stopped leave no trace but in `Tally.dropped`. Waiting is
not its concern: `result?`, `readyAcknowledgement?` and `event?` say what a
caller who waits would find.
-/

import DhtRecords.Digest
import DhtRecords.Engine
import DhtRecords.Entries
import DhtRecords.Quantity

namespace DhtRecords

/-- The kinds of logged events. -/
inductive EventKind where
  | bootstrap
  | result
  | acknowledgement
  deriving DecidableEq, Repr

namespace EventKind

def all : List EventKind := [bootstrap, result, acknowledgement]

def name : EventKind → String
  | bootstrap => "bootstrap"
  | result => "mutable_item"
  | acknowledgement => "put"

def ofName? (name : String) : Option EventKind := all.find? (·.name = name)

end EventKind

/-- The latest result for an item. -/
structure LookupResult (τ : Type) where
  owner : Bytes
  salt : String
  value : Bytes
  sequence : Int
  final : Bool
  /-- When it arrived. -/
  moment : τ

/-- The acknowledgement of an item's newest put. -/
structure Acknowledgement (τ : Type) where
  owner : Bytes
  salt : String
  sequence : Int
  successes : Int
  message : String
  moment : τ

/-- An entry of the log. -/
structure LoggedEvent (τ : Type) where
  kind : EventKind
  moment : τ
  message : String
  /-- The item that it is about, if any. -/
  infoHash : String

/-- How many alerts of each kind have arrived. -/
structure Tally where
  received : Nat := 0
  dropped : Nat := 0
  results : Nat := 0
  acknowledgements : Nat := 0
  bootstraps : Nat := 0
  unknown : Nat := 0
  deriving DecidableEq, Repr

/-- How much a correlator keeps. -/
structure Capacity where
  events : Nat
  acknowledgements : Nat
  acknowledgements_pos : 0 < acknowledgements

/-- How much a correlator keeps if nothing is said. -/
def Capacity.usual : Capacity := ⟨1024, 1024, by decide⟩

/-- What has been reported; items are named by their info hash. -/
structure Correlator (τ : Type) where
  capacity : Capacity := .usual
  running : Bool := false
  results : Entries String (LookupResult τ) := {}
  /-- The acknowledgements that nobody has claimed, the latest last. -/
  acknowledgements : Entries String (Acknowledgement τ) := {}
  /-- The newest events, the latest first. -/
  log : List (LoggedEvent τ) := []
  tally : Tally := {}

namespace Correlator

variable {τ : Type}

instance : Inhabited (Correlator τ) := ⟨{}⟩

/-- Room for so many events and acknowledgements: at least one of the latter, and no negative number
of the former. -/
def capacity? (events acknowledgements : Int) : Option Capacity :=
  if events < 0 then none
  else some ⟨events.toNat, max 1 acknowledgements.toNat, by omega⟩

/-! ### Alerts -/

/-- The log with one more event, and without those that are too old for its capacity. -/
def logged (correlator : Correlator τ) (event : LoggedEvent τ) : List (LoggedEvent τ) :=
  (event :: correlator.log).take correlator.capacity.events

/-- The acknowledgement to keep when one arrives: never one of an older put than the one held. -/
def newerOf (held : Option (Acknowledgement τ)) (arrived : Acknowledgement τ) : Acknowledgement τ :=
  match held with
  | some held => if arrived.sequence < held.sequence then held else arrived
  | none => arrived

/-- The correlator after an alert that arrives at a moment while it is running. -/
def accept (correlator : Correlator τ) (moment : τ) (alert : Alert) : Correlator τ :=
  let tally := { correlator.tally with received := correlator.tally.received + 1 }
  match alert with
  | .result owner salt value sequence final =>
    let key := infoHash owner salt
    { correlator with
      results := correlator.results.insert key ⟨owner, salt, value, sequence, final, moment⟩
      log := correlator.logged ⟨.result, moment, "", key⟩
      tally := { tally with results := tally.results + 1 } }
  | .acknowledgement owner salt sequence successes message =>
    let key := infoHash owner salt
    let kept := newerOf (correlator.acknowledgements.get? key)
      ⟨owner, salt, sequence, successes, message, moment⟩
    { correlator with
      acknowledgements :=
        (correlator.acknowledgements.insert key kept).newest correlator.capacity.acknowledgements
      log := correlator.logged ⟨.acknowledgement, moment, message, key⟩
      tally := { tally with acknowledgements := tally.acknowledgements + 1 } }
  | .bootstrap message =>
    { correlator with
      log := correlator.logged ⟨.bootstrap, moment, message, ""⟩
      tally := { tally with bootstraps := tally.bootstraps + 1 } }
  | .unknown => { correlator with tally := { tally with unknown := tally.unknown + 1 } }

/-- The correlator after an alert that arrives at a moment. -/
def receive (correlator : Correlator τ) (moment : τ) (alert : Alert) : Correlator τ :=
  if correlator.running then correlator.accept moment alert
  else
    { correlator with tally := { correlator.tally with dropped := correlator.tally.dropped + 1 } }

/-! ### Results -/

/-- The latest result for an item. -/
def result? (correlator : Correlator τ) (key : String) : Option (LookupResult τ) :=
  correlator.results.get? key

/-- The correlator without a result for an item. -/
def forget (correlator : Correlator τ) (key : String) : Correlator τ :=
  { correlator with results := correlator.results.erase key }

/-- The result that a caller would take, who may insist on a final one. -/
def readyResult? (correlator : Correlator τ) (key : String) (onlyFinal : Bool) :
    Option (LookupResult τ) :=
  (correlator.result? key).filter fun result => !onlyFinal || result.final

/-- Whether every one of the items has a result. -/
def hasAll (correlator : Correlator τ) (keys : List String) : Bool :=
  keys.all correlator.results.contains

/-! ### Acknowledgements -/

variable [Quantity τ]

/-- The acknowledgement that a caller would claim: one that is no older than a moment and, if a
sequence number is asked for, of that number. -/
def readyAcknowledgement? (correlator : Correlator τ) (key : String) (since : τ)
    (sequence : Option Int) : Option (Acknowledgement τ) :=
  (correlator.acknowledgements.get? key).filter fun held =>
    !Quantity.lt held.moment since && sequence.all (· = held.sequence)

/-- The correlator without the acknowledgement for an item. -/
def claim (correlator : Correlator τ) (key : String) : Correlator τ :=
  { correlator with acknowledgements := correlator.acknowledgements.erase key }

/-! ### The log -/

/-- Whether an event is of a kind and no older than a moment. -/
def LoggedEvent.matches (event : LoggedEvent τ) (kind : EventKind) (since : τ) : Bool :=
  event.kind = kind && Quantity.atLeast event.moment since

/-- The logged events of a kind that are no older than a moment, oldest first. -/
def eventsSince (correlator : Correlator τ) (kind : EventKind) (since : τ) :
    List (LoggedEvent τ) :=
  (correlator.log.filter fun event => LoggedEvent.matches event kind since).reverse

/-- The latest of these. -/
def event? (correlator : Correlator τ) (kind : EventKind) (since : τ) : Option (LoggedEvent τ) :=
  correlator.log.find? fun event => LoggedEvent.matches event kind since

end Correlator

end DhtRecords
