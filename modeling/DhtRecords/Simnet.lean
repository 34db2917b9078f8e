/-
A simulated overlay.

It holds the items that were put, which outlive engines, and answers lookups
from them. How it behaves beyond that, and fails, is set by `Simnet.Options`.
-/

import DhtRecords.Engine
import DhtRecords.EngineSpec
import DhtRecords.Entries
import DhtRecords.Quantity
import DhtRecords.Text.Utf8

namespace DhtRecords

namespace Simnet

/-- What is simulated. -/
structure Options (τ : Type) where
  /-- What asking for an engine leads to: `engine`, `none`, or `raise:` with a message. `stop-`
  before it stops the session first. -/
  factory : String := "engine"
  running : Bool := true
  autoBootstrap : Bool := true
  bootstrapDelay : τ
  /-- How long a lookup takes, unless `delays` has its salt. -/
  delay : τ
  delays : List (String × τ) := []
  /-- The numbers of lookups that are not answered, by salt. -/
  dropLookups : Entries String Int := {}
  /-- Whether an older item precedes the answer. -/
  staleFirst : Bool := false
  /-- Whether a lookup of a missing item is answered by an empty one. -/
  answerMissing : Bool := false
  final : Bool := true
  putSuccesses : Int := 8
  putMessage : Option String := none
  acknowledgementDelay : τ
  /-- The number of puts that are not acknowledged. -/
  dropAcknowledgements : Int := 0
  acknowledgementSequenceDelta : Int := 0
  lookupFault : Option String := none
  /-- The salt at which puts fail. -/
  putFaultAt : Option String := none
  abortFails : Bool := false
  saveFails : Bool := false
  /-- Whether the next question whether an engine is running stops the session. -/
  stopDuringCheck : Bool := false
  joinHangs : Bool := false

/-- Everything works at once. -/
def Options.plain {τ : Type} [Quantity τ] : Options τ where
  bootstrapDelay := Quantity.zero
  delay := Quantity.zero
  acknowledgementDelay := Quantity.zero

/-- A simulated engine. -/
structure Engine where
  /-- Whether it is no engine at all and knows none of the calls. -/
  hollow : Bool := false
  hasHandler : Bool := false
  running : Bool
  aborted : Bool := false
  nodes : Bytes := []

/-- An item of the overlay. -/
structure Item where
  value : Bytes
  sequence : Int

end Simnet

/-- A simulated overlay. -/
structure Simnet (τ : Type) where
  options : Simnet.Options τ
  /-- The name of the constructor that engines come from. -/
  constructor : String := "create"
  items : Entries (Bytes × String) Simnet.Item := {}
  engines : Entries EngineId Simnet.Engine := {}

namespace Simnet

/-- The name of what can be constructed but is no engine. -/
def hollowName : String := "Probe"

/-- The module that the simulation is found in. -/
def engineModule : EngineModule := ⟨"simnet", ["create", hollowName], ["not_callable"]⟩

variable {τ : Type} [Quantity τ]

/-- The overlay after a change of an engine. -/
def modifyEngine (net : Simnet τ) (id : EngineId) (change : Engine → Engine) : Simnet τ :=
  match net.engines.get? id with
  | some engine => { net with engines := net.engines.replace id (change engine) }
  | none => net

/-- A fault without further meaning. -/
def failed (message : String) : EngineFault := ⟨.failed, message⟩

/-- What asking for an engine leads to, and whether the session is stopped first. -/
def buildAs (net : Simnet τ) (id : EngineId) (stops : Bool) (plan : List Char) :
    Reaction τ (Simnet τ) Bool :=
  let raise := "raise:".toList
  if plan = "none".toList then { outcome := .ok false, overlay := net, stops }
  else if raise.isPrefixOf plan then
    { outcome := .error (failed (String.ofList (plan.drop raise.length))), overlay := net, stops }
  else
    let engine : Engine := { running := net.options.running }
    { outcome := .ok true, overlay := { net with engines := net.engines.insert id engine }, stops }

/-- An engine is asked for. -/
def build (id : EngineId) (net : Simnet τ) : Reaction τ (Simnet τ) Bool :=
  let plan := net.options.factory.toList
  let stop := "stop-".toList
  if net.constructor = hollowName then
    let engine : Engine := { hollow := true, running := false }
    { outcome := .ok true, overlay := { net with engines := net.engines.insert id engine } }
  else if stop.isPrefixOf plan then net.buildAs id true (plan.drop stop.length)
  else net.buildAs id false plan

/-- How long the lookup of a salt takes. -/
def delayOf (net : Simnet τ) (salt : String) : τ :=
  (net.options.delays.lookup salt).getD net.options.delay

/-- The alerts that answer a lookup. -/
def answers (net : Simnet τ) (owner : Bytes) (salt : String) : List (τ × Alert) :=
  let delay := net.delayOf salt
  match net.items.get? (owner, salt) with
  | none => if net.options.answerMissing then [(delay, .result owner salt [] 0 true)] else []
  | some item =>
    let stale : Alert :=
      .result owner salt (Utf8.encode "stale") (max 0 (item.sequence - 1)) false
    (if net.options.staleFirst then [(delay, stale)] else [])
      ++ [(delay, .result owner salt item.value item.sequence net.options.final)]

/-- An engine is told to look an item up. -/
def lookup (net : Simnet τ) (owner : Bytes) (salt : String) : Reaction τ (Simnet τ) Unit :=
  match net.options.lookupFault with
  | some message => { outcome := .error (failed message), overlay := net }
  | none =>
    match net.options.dropLookups.get? salt with
    | none => { outcome := .ok (), overlay := net, alerts := net.answers owner salt }
    | some count =>
      if count = 0 then { outcome := .ok (), overlay := net, alerts := net.answers owner salt }
      else
        let dropLookups := net.options.dropLookups.replace salt (count - 1)
        { outcome := .ok (), overlay := { net with options := { net.options with dropLookups } } }

/-- The overlay with an item, unless it has a newer one of the same name. -/
def keep (net : Simnet τ) (owner : Bytes) (salt : String) (item : Item) : Simnet τ :=
  match net.items.get? (owner, salt) with
  | some held =>
    if item.sequence < held.sequence then net
    else { net with items := net.items.insert (owner, salt) item }
  | none => { net with items := net.items.insert (owner, salt) item }

/-- The overlay with an item in any case. -/
def place (net : Simnet τ) (owner : Bytes) (salt : String) (item : Item) : Simnet τ :=
  { net with items := net.items.insert (owner, salt) item }

/-- The acknowledgement of a put. -/
def acknowledgement (options : Options τ) (owner : Bytes) (salt : String) (sequence : Int) : Alert :=
  .acknowledgement owner salt (sequence + options.acknowledgementSequenceDelta)
    options.putSuccesses (options.putMessage.getD s!"stored on {options.putSuccesses} nodes")

/-- An engine puts a signed item, and acknowledges that later. -/
def store (net : Simnet τ) (owner : Bytes) (item : SignedItem) : Reaction τ (Simnet τ) Unit :=
  let net := net.keep owner item.salt ⟨item.value, item.sequence⟩
  let options := net.options
  if options.dropAcknowledgements ≠ 0 then
    let dropAcknowledgements := options.dropAcknowledgements - 1
    { outcome := .ok (), overlay := { net with options := { options with dropAcknowledgements } } }
  else
    { outcome := .ok ()
      overlay := net
      alerts :=
        [(options.acknowledgementDelay, acknowledgement options owner item.salt item.sequence)] }

/-- An engine is told to put the item that the signer makes, if it makes one. -/
def put (net : Simnet τ) (owner : Bytes) (salt : String) (signer : Signer) :
    Reaction τ (Simnet τ) Unit :=
  if net.options.putFaultAt = some salt then
    { outcome := .error (failed "engine put failed"), overlay := net }
  else match signer.sign salt with
    | .error error => { outcome := .error ⟨.rejected, error.message⟩, overlay := net }
    | .ok item => net.store owner item

/-- Whether an engine is running. -/
def isRunning (net : Simnet τ) (id : EngineId) : Bool :=
  (net.engines.get? id).any fun engine => engine.running && !engine.aborted

/-- What the state of an engine begins with. -/
def stateMark : Bytes := Utf8.encode "nodes:"

/-- An engine is given a state. -/
def loadState (net : Simnet τ) (id : EngineId) (blob : Bytes) : Reaction τ (Simnet τ) Unit :=
  if (Utf8.encode "boom").isPrefixOf blob then
    { outcome := .error (failed "engine exploded"), overlay := net }
  else if (Utf8.encode "type").isPrefixOf blob then
    { outcome := .error ⟨.mistyped, ""⟩, overlay := net }
  else if stateMark.isPrefixOf blob then
    let nodes := blob.drop stateMark.length
    { outcome := .ok ()
      overlay := net.modifyEngine id fun engine => { engine with nodes, running := true } }
  else { outcome := .error ⟨.rejected, ""⟩, overlay := net }

/-- An engine that knows its calls is called. -/
def answer (net : Simnet τ) (id : EngineId) :
    (call : EngineCall) → Reaction τ (Simnet τ) call.Answer
  | .lookup owner salt => net.lookup owner salt
  | .put owner salt signer => net.put owner salt signer
  | .isRunning =>
    if net.options.stopDuringCheck then
      { outcome := .ok true
        overlay := { net with options := { net.options with stopDuringCheck := false } }
        stops := true }
    else { outcome := .ok (net.isRunning id), overlay := net }
  | .configure _ _ => { outcome := .ok (), overlay := net }
  | .abort =>
    if net.options.abortFails then { outcome := .error (failed "abort failed"), overlay := net }
    else
      { outcome := .ok ()
        overlay := net.modifyEngine id fun engine => { engine with aborted := true } }
  | .saveState =>
    if net.options.saveFails then { outcome := .error ⟨.io, ""⟩, overlay := net }
    else
      { outcome := .ok (stateMark ++ ((net.engines.get? id).map (·.nodes)).getD [])
        overlay := net }
  | .loadState blob => net.loadState id blob
  | .setHandler present =>
    { outcome := .ok ()
      overlay := net.modifyEngine id fun engine => { engine with hasHandler := present }
      alerts :=
        if present && net.options.autoBootstrap && net.engines.contains id then
          [(net.options.bootstrapDelay, .bootstrap "bootstrap done")]
        else [] }

/-- The fault of what is no engine. -/
def hollowFault (call : EngineCall) : EngineFault :=
  ⟨.missing, s!"'{hollowName}' object has no attribute '{call.name}'"⟩

/-- An engine is called. -/
def askEngine (id : EngineId) (call : EngineCall) (net : Simnet τ) :
    Reaction τ (Simnet τ) call.Answer :=
  if (net.engines.get? id).any (·.hollow) then
    { outcome := .error (hollowFault call), overlay := net }
  else net.answer id call

/-- Whether an engine hands an alert over: it has not been aborted and has somebody to hand it to. -/
def delivers (id : EngineId) (net : Simnet τ) : Bool :=
  (net.engines.get? id).any fun engine => !engine.aborted && engine.hasHandler

instance : Overlay τ (Simnet τ) where
  choose name net := { net with constructor := name }
  build := build
  ask := askEngine
  delivers := delivers
  join net := if net.options.joinHangs then .abandons else .ends

end Simnet

end DhtRecords
