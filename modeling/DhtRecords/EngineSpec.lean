/-
Naming the constructor of an overlay engine.

The settings name a constructor as `package.module:callable`. Which modules
there are is given by a list: each has names that can be called and names
that cannot. `EngineSpec.resolve` finds the constructor or says why there is
none.
-/

import DhtRecords.Text.Quoted

namespace DhtRecords

/-- A module in which constructors are looked up. -/
structure EngineModule where
  name : String
  callables : List String
  others : List String

/-- The names that every module has for what it is itself; none of them can be called. -/
def EngineModule.inherent : List String :=
  ["dict", "doc", "loader", "name", "package", "spec"].map fun name => "__" ++ name ++ "__"

/-- Why a specification names no constructor. -/
inductive EngineSpecError where
  /-- The text has not the form of a specification. -/
  | malformed (spec : String)
  /-- The module's name begins with a point, and there is no package that it could be relative to. -/
  | relative
  | noModule (name : String)
  /-- A module inside of one that holds no modules. -/
  | notAPackage (name parent : String)
  | noMember (moduleName member : String)
  | notCallable (spec : String)
  /-- The setting is no text. -/
  | notText (type : String)
  deriving DecidableEq, Repr

def EngineSpecError.message : EngineSpecError → String
  | malformed spec =>
    "Invalid engine factory " ++ Text.quoted spec ++ "; expected 'package.module:callable'. "
      ++ "Set session.engine_factory in config.toml."
  | relative => "the 'package' argument is required to perform a relative import"
  | noModule name => "No module named " ++ Text.quoted name
  | notAPackage name parent =>
    "No module named " ++ Text.quoted name ++ "; " ++ Text.quoted parent ++ " is not a package"
  | noMember moduleName member =>
    "module '" ++ moduleName ++ "' has no attribute '" ++ member ++ "'"
  | notCallable spec => "Engine factory " ++ Text.quoted spec ++ " is not callable"
  | notText type => "'" ++ type ++ "' object has no attribute 'partition'"

namespace EngineSpec

/-- The module of a dotted name. No module holds others, so the second part of a name is never
found. -/
def findModule (space : List EngineModule) (name : List Char) : Except EngineSpecError EngineModule :=
  let (first, rest) := (name.takeWhile (· ≠ '.'), name.dropWhile (· ≠ '.'))
  if first.isEmpty then .error .relative
  else match space.find? (·.name = String.ofList first), rest with
    | none, _ => .error (.noModule (String.ofList first))
    | some found, [] => .ok found
    | some found, point :: inner =>
      let second := inner.takeWhile (· ≠ '.')
      .error (.notAPackage (String.ofList (first ++ point :: second)) found.name)

/-- The name of the constructor that a specification names. -/
def resolve (space : List EngineModule) (spec : String) : Except EngineSpecError String :=
  let cs := spec.toList
  let name := cs.takeWhile (· ≠ ':')
  let member := (cs.dropWhile (· ≠ ':')).drop 1
  if name.isEmpty ∨ member.isEmpty then .error (.malformed spec)
  else match findModule space name with
    | .error error => .error error
    | .ok found =>
      let member := String.ofList member
      if member ∈ found.callables then .ok member
      else if member ∈ found.others ++ EngineModule.inherent then .error (.notCallable spec)
      else .error (.noMember found.name member)

end EngineSpec

end DhtRecords
