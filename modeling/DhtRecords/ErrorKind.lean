/-
The kinds of failed operations and their catalog.

Coordinators report a kind inside their results. `OperationError` is the
failure that the operations on single items end with: a kind and a
diagnostic, which is the catalog's own when none is given.
-/

namespace DhtRecords

/-- Why an operation on the overlay failed. -/
inductive ErrorKind where
  | engineUnavailable
  | locked
  | timeout
  | malformedRecord
  | putNotAcknowledged
  | notFound
  | invalidArgument
  deriving DecidableEq, Repr

namespace ErrorKind

/-- All kinds, in the order of their codes. -/
def all : List ErrorKind :=
  [engineUnavailable, locked, timeout, malformedRecord, putNotAcknowledged, notFound, invalidArgument]

theorem mem_all (kind : ErrorKind) : kind ∈ all := by cases kind <;> simp [all]

/-- The name under which a kind is reported. -/
def name : ErrorKind → String
  | engineUnavailable => "engine_unavailable"
  | locked => "locked"
  | timeout => "timeout"
  | malformedRecord => "malformed_record"
  | putNotAcknowledged => "put_not_acknowledged"
  | notFound => "not_found"
  | invalidArgument => "invalid_argument"

/-- The kind of a name. -/
def ofName? (name : String) : Option ErrorKind := all.find? (·.name = name)

theorem ofName?_name (kind : ErrorKind) : ofName? kind.name = some kind := by cases kind <;> rfl

/-- The code of a kind. -/
def code : ErrorKind → String
  | engineUnavailable => "MUTABLEDHT_E001"
  | locked => "MUTABLEDHT_E002"
  | timeout => "MUTABLEDHT_E003"
  | malformedRecord => "MUTABLEDHT_E004"
  | putNotAcknowledged => "MUTABLEDHT_E005"
  | notFound => "MUTABLEDHT_E006"
  | invalidArgument => "MUTABLEDHT_E007"

/-- What went wrong, in general. -/
def summary : ErrorKind → String
  | engineUnavailable => "DHT session is not started or could not be recovered"
  | locked => "Record is locked by the put cooldown"
  | timeout => "No result received before the deadline"
  | malformedRecord => "Record header and chunks are inconsistent"
  | putNotAcknowledged => "No DHT node acknowledged the put"
  | notFound => "Record not found"
  | invalidArgument => "Invalid argument"

/-- What to do about it. -/
def resolution : ErrorKind → String
  | engineUnavailable =>
    "Wait for the session to reach the running state or check the bootstrap nodes in config.toml"
  | locked => "Wait for the cooldown window to pass before updating again"
  | timeout => "Retry later or increase records.fetch_timeout"
  | malformedRecord => "Ask the record owner to resubmit the record"
  | putNotAcknowledged => "Check peer connectivity and resubmit after the cooldown"
  | notFound => "Verify the public key and operation type"
  | invalidArgument => "Supply both the public and private key, or neither"

/-- The catalog entry of a kind as text. -/
def describe (kind : ErrorKind) : String :=
  "Error [" ++ kind.code ++ "]: " ++ kind.summary ++ "\nResolution: " ++ kind.resolution

/-- The catalog entry of a name as text. -/
def describeName (name : String) : String :=
  match ofName? name with
  | some kind => kind.describe
  | none => "Unknown error: " ++ name

end ErrorKind

/-- A failed operation. -/
structure OperationError where
  kind : ErrorKind
  message : String
  deriving DecidableEq, Repr

namespace OperationError

/-- The error of a kind with a diagnostic; an empty one is replaced by the catalog's summary. -/
def of (kind : ErrorKind) (message : String) : OperationError :=
  ⟨kind, if message.isEmpty then kind.summary else message⟩

/-- Kind and diagnostic in one line. -/
def text (error : OperationError) : String := error.kind.name ++ ": " ++ error.message

end OperationError

end DhtRecords
