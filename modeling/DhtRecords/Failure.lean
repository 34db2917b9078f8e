/-
Why a call ends without a result: the causes of all parts of the library.
-/

import DhtRecords.EngineSpec
import DhtRecords.ErrorKind
import DhtRecords.Json
import DhtRecords.KeyPair.File
import DhtRecords.Ledger
import DhtRecords.Engine
import DhtRecords.Store

namespace DhtRecords

/-- The cause of a call that has no result. -/
inductive Failure where
  | operation (error : OperationError)
  | engine (fault : EngineFault)
  | key (error : KeyError)
  | keyFile (error : KeyFileError)
  | config (error : ConfigError)
  | spec (error : EngineSpecError)
  | json (error : JsonError)
  | store (error : StoreError)
  | disk (error : DiskError)
  /-- A number is beyond what its format or unit can hold. -/
  | beyondRange
  /-- A whole number has too many digits to be written. -/
  | tooLong
  /-- Chunks of no bytes were asked for. -/
  | noChunkSize
  /-- Room for a negative number of entries was asked for. -/
  | negativeCapacity
  /-- A setting has a value of a wrong type. -/
  | mistypedSetting
  /-- A time to wait is not a number. -/
  | undefinedTime
  /-- There is no kind of errors with this name. -/
  | unknownErrorKind (name : String)
  /-- There is no kind of events with this name. -/
  | unknownEventKind (name : String)

namespace Failure

/-- The text of a failure; some have none. -/
def message : Failure → String
  | operation error => error.text
  | engine fault => fault.message
  | key error => error.message
  | keyFile error => error.message
  | config error => error.message
  | spec error => error.message
  | json error => error.message
  | store _ => ""
  | disk error => error.message
  | beyondRange => ""
  | tooLong => Decimal.tooLongMessage ""
  | noChunkSize => "range() arg 3 must not be zero"
  | negativeCapacity => "maxlen must be non-negative"
  | mistypedSetting => ""
  | undefinedTime => "Invalid value NaN (not a number)"
  | unknownErrorKind name => Text.quoted name ++ " is not a valid ErrorKind"
  | unknownEventKind name => Text.quoted name ++ " is not a valid EventKind"

end Failure

end DhtRecords
