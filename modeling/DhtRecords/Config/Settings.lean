/-
The settings that a running node goes by, each of the type that it is used
at.

Six of them are used late, when the node is already at work: a value of a
wrong type is `none` there, and the use of it fails. With a wrong type
anywhere else there are no settings at all.
-/

import DhtRecords.Config.Basic
import DhtRecords.Number

namespace DhtRecords

/-- The settings of a node. -/
structure Settings (τ : Type) where
  dataDir : Path
  stateFile : String
  engineFactory : String
  readinessPollInterval : τ
  bootstrapTimeout : τ
  livenessInterval : Option τ
  /-- How long a stop waits for the session's task. -/
  joinTimeout : Option τ
  putCooldown : τ
  lockSweepEvery : Int
  submissionLogSize : Int
  fetchTimeout : τ
  headerRetries : Option Int
  totalSlots : Int
  /-- The most bytes of a chunk, and of the value of a single item. -/
  maxChunkSize : Option (Number τ)
  getTimeout : Option τ
  putAckTimeout : Option τ
  headerIssueDelay : τ
  chunkIssueDelay : τ
  headerSettle : τ
  chunkSettle : τ

namespace Settings

variable {τ : Type} [Quantity τ]

/-- A value used as a text. -/
def asText? : SettingValue τ → Option String
  | .plain (.text value) => some value
  | _ => none

/-- A value used as a whole number; a truth value counts as one or nought. -/
def asWhole? : SettingValue τ → Option Int
  | .plain (.int value) => some value
  | .plain (.bool value) => some (if value then 1 else 0)
  | _ => none

/-- A value used as a number. -/
def asQuantity? : SettingValue τ → Option τ
  | .plain (.float value) => some value
  | value => (asWhole? value).bind Quantity.ofInt?

/-- A value used as a whole number or a fraction. -/
def asNumber? : SettingValue τ → Option (Number τ)
  | .plain (.int value) => some (.whole (.int value))
  | .plain (.bool value) => some (.whole (.bool value))
  | .plain (.float value) => some (.fraction value)
  | _ => none

/-- The settings of a configuration; `none` if a value of a wrong type stands where it cannot. -/
def ofConfig? (config : Config τ) : Option (Settings τ) := do
  return {
    dataDir := config.dataDir
    stateFile := ← asText? (config .stateFile)
    engineFactory := ← asText? (config .engineFactory)
    readinessPollInterval := ← asQuantity? (config .readinessPollInterval)
    bootstrapTimeout := ← asQuantity? (config .bootstrapTimeout)
    livenessInterval := asQuantity? (config .livenessInterval)
    joinTimeout := asQuantity? (config .joinTimeout)
    putCooldown := ← asQuantity? (config .putCooldown)
    lockSweepEvery := ← asWhole? (config .lockSweepEvery)
    submissionLogSize := ← asWhole? (config .submissionLogSize)
    fetchTimeout := ← asQuantity? (config .fetchTimeout)
    headerRetries := asWhole? (config .headerRetries)
    totalSlots := ← asWhole? (config .totalSlots)
    maxChunkSize := asNumber? (config .maxChunkSize)
    getTimeout := asQuantity? (config .getTimeout)
    putAckTimeout := asQuantity? (config .putAckTimeout)
    headerIssueDelay := ← asQuantity? (config .headerIssueDelay)
    chunkIssueDelay := ← asQuantity? (config .chunkIssueDelay)
    headerSettle := ← asQuantity? (config .headerSettle)
    chunkSettle := ← asQuantity? (config .chunkSettle) }

/-- Where an engine's state is kept between runs. -/
def statePath (settings : Settings τ) : Path := settings.dataDir ++ Path.ofText settings.stateFile

/-- The longest of the waits that are not cut short when a session is stopped. -/
def maxShutdownLatency? (settings : Settings τ) : Option τ := do
  let getTimeout ← settings.getTimeout
  let putAckTimeout ← settings.putAckTimeout
  return Quantity.later (Quantity.later settings.fetchTimeout getTimeout) putAckTimeout

end Settings

end DhtRecords
