/-
The settings: where each stands in the file, what kind of value it has, which
values it may take, and what it is when nothing is said.
-/

import DhtRecords.Path
import DhtRecords.Quantity
import DhtRecords.Toml.Value

namespace DhtRecords

/-- The sections of the settings. -/
inductive Section where
  | node
  | session
  | records
  | batch
  deriving DecidableEq, Repr

/-- One setting. -/
inductive Setting where
  | dataDir
  | logLevel
  | engineFactory
  | listenInterfaces
  | bootstrapNodes
  | stateFile
  | readinessPollInterval
  | bootstrapTimeout
  | livenessInterval
  | joinTimeout
  | putCooldown
  | lockSweepEvery
  | submissionLogSize
  | fetchTimeout
  | headerRetries
  | totalSlots
  | maxChunkSize
  | getTimeout
  | putAckTimeout
  | headerIssueDelay
  | chunkIssueDelay
  | headerSettle
  | chunkSettle
  deriving DecidableEq, Repr

/-- The kinds of values. -/
inductive Kind where
  | truth
  | whole
  | fraction
  | text
  | texts
  | path
  deriving DecidableEq, Repr

/-- The least and the greatest value of a numeric setting. -/
inductive Bounds where
  | whole (low high : Nat)
  /-- Both are scaled by a power of ten. -/
  | fraction (low high : Nat) (exponent : Int)
  deriving DecidableEq, Repr

/-- The value of a setting: a path, or a value as files have them. -/
inductive SettingValue (τ : Type) where
  | path (value : Path)
  | plain (value : Toml.Value τ)
  deriving Inhabited

namespace Section

/-- The sections in the order in which they are read and written. -/
def all : List Section := [node, session, records, batch]

def name : Section → String
  | node => "node"
  | session => "session"
  | records => "records"
  | batch => "batch"

def ofName? (name : String) : Option Section := all.find? (·.name = name)

end Section

namespace Setting

/-- The settings in the order in which they are read and written. -/
def all : List Setting :=
  [dataDir, logLevel, engineFactory, listenInterfaces, bootstrapNodes, stateFile,
    readinessPollInterval, bootstrapTimeout, livenessInterval, joinTimeout, putCooldown,
    lockSweepEvery, submissionLogSize, fetchTimeout, headerRetries, totalSlots, maxChunkSize,
    getTimeout, putAckTimeout, headerIssueDelay, chunkIssueDelay, headerSettle, chunkSettle]

/-- The section that a setting stands in. -/
def home : Setting → Section
  | dataDir | logLevel => .node
  | engineFactory | listenInterfaces | bootstrapNodes | stateFile | readinessPollInterval
  | bootstrapTimeout | livenessInterval | joinTimeout => .session
  | putCooldown | lockSweepEvery | submissionLogSize | fetchTimeout | headerRetries | totalSlots
  | maxChunkSize | getTimeout | putAckTimeout => .records
  | headerIssueDelay | chunkIssueDelay | headerSettle | chunkSettle => .batch

/-- The name of a setting within its section. -/
def name : Setting → String
  | dataDir => "data_dir"
  | logLevel => "log_level"
  | engineFactory => "engine_factory"
  | listenInterfaces => "listen_interfaces"
  | bootstrapNodes => "bootstrap_nodes"
  | stateFile => "state_file"
  | readinessPollInterval => "readiness_poll_interval"
  | bootstrapTimeout => "bootstrap_timeout"
  | livenessInterval => "liveness_interval"
  | joinTimeout => "join_timeout"
  | putCooldown => "put_cooldown_seconds"
  | lockSweepEvery => "lock_sweep_every"
  | submissionLogSize => "submission_log_size"
  | fetchTimeout => "fetch_timeout"
  | headerRetries => "header_retries"
  | totalSlots => "total_slots"
  | maxChunkSize => "max_chunk_size"
  | getTimeout => "rpc_get_timeout"
  | putAckTimeout => "put_ack_timeout"
  | headerIssueDelay => "header_issue_delay"
  | chunkIssueDelay => "chunk_issue_delay"
  | headerSettle => "header_settle"
  | chunkSettle => "chunk_settle"

/-- The settings of a section, in order. -/
def within (place : Section) : List Setting := all.filter (·.home = place)

/-- The setting of a name in a section. -/
def ofName? (place : Section) (name : String) : Option Setting :=
  (within place).find? (·.name = name)

def kind : Setting → Kind
  | dataDir => .path
  | logLevel | engineFactory | listenInterfaces | stateFile => .text
  | bootstrapNodes => .texts
  | lockSweepEvery | submissionLogSize | headerRetries | totalSlots | maxChunkSize => .whole
  | _ => .fraction

/-- The bounds of the numeric settings. -/
def bounds? : Setting → Option Bounds
  | readinessPollInterval => some (.fraction 1 6000 (-2))
  | bootstrapTimeout => some (.fraction 1 6000 (-1))
  | livenessInterval => some (.fraction 1 360000 (-2))
  | joinTimeout => some (.fraction 1 6000 (-1))
  | putCooldown => some (.fraction 0 86400 0)
  | lockSweepEvery => some (.whole 1 100000)
  | submissionLogSize => some (.whole 1 1000000)
  | fetchTimeout => some (.fraction 1 60000 (-2))
  | headerRetries => some (.whole 0 100)
  | totalSlots => some (.whole 1 1024)
  | maxChunkSize => some (.whole 16 1000)
  | getTimeout => some (.fraction 1 60000 (-2))
  | putAckTimeout => some (.fraction 1 60000 (-2))
  | headerIssueDelay => some (.fraction 0 5 0)
  | chunkIssueDelay => some (.fraction 0 5 0)
  | headerSettle => some (.fraction 0 60 0)
  | chunkSettle => some (.fraction 0 60 0)
  | _ => none

/-- The words that a setting may be, in small letters. -/
def choices? : Setting → Option (List String)
  | logLevel => some ["debug", "info", "warning", "error", "critical"]
  | _ => none

/-- The folder within the home folder that holds settings and data. -/
def folderName : String := ".mutabledht"

/-- What a setting is when nothing is said. -/
def default {τ : Type} [Quantity τ] (home : Path) : Setting → SettingValue τ
  | dataDir => .path (home ++ Path.ofName folderName)
  | logLevel => .plain (.text "info")
  | engineFactory => .plain (.text "")
  | listenInterfaces => .plain (.text "0.0.0.0:6881")
  | bootstrapNodes => .plain (.list [])
  | stateFile => .plain (.text "dht_state.dat")
  | readinessPollInterval => .plain (.float (Quantity.fraction 1 0))
  | bootstrapTimeout => .plain (.float (Quantity.fraction 30 0))
  | livenessInterval => .plain (.float (Quantity.fraction 5 0))
  | joinTimeout => .plain (.float (Quantity.fraction 10 0))
  | putCooldown => .plain (.float (Quantity.fraction 60 0))
  | lockSweepEvery => .plain (.int 32)
  | submissionLogSize => .plain (.int 256)
  | fetchTimeout => .plain (.float (Quantity.fraction 2 0))
  | headerRetries => .plain (.int 3)
  | totalSlots => .plain (.int 32)
  | maxChunkSize => .plain (.int 900)
  | getTimeout => .plain (.float (Quantity.fraction 10 0))
  | putAckTimeout => .plain (.float (Quantity.fraction 10 0))
  | headerIssueDelay => .plain (.float (Quantity.fraction 1 (-2)))
  | chunkIssueDelay => .plain (.float (Quantity.fraction 2 (-2)))
  | headerSettle => .plain (.float (Quantity.fraction 3 (-1)))
  | chunkSettle => .plain (.float (Quantity.fraction 35 (-2)))

/-- The name of the environment variable that overrides a setting. -/
def variableName (setting : Setting) : String :=
  "_".intercalate ["MUTABLEDHT", setting.home.name.map Char.toUpper, setting.name.map Char.toUpper]

end Setting

end DhtRecords
