import GameTable.Manifest.Basic
import GameTable.State.Basic
import GameTable.Value.Printer

/-!
# Parameters and targets

The parameters of a request are checked against what the command declares and put into the
declared shape: integers are read, targets have to exist, a list of targets is always a list.
Parameters that are not declared stay as they are. The targets of a command are those that the
request names and those of its target parameters, each once, in the order in which they are first
named.
-/

namespace GameTable

/-- What is wrong with a parameter. -/
inductive ParamFault where
  | missing
  | notAnInteger (found : Value)
  | notASingleTarget
  | notAnEntityId (found : Value)
  | unknownTarget (id : String)
deriving DecidableEq

def ParamFault.message : ParamFault → String
  | .missing => "missing required parameter"
  | .notAnInteger found => "expected an integer, got '" ++ found.display ++ "'"
  | .notASingleTarget => "expected a single target"
  | .notAnEntityId found => "'" ++ found.display ++ "' is not an entity id"
  | .unknownTarget id => "unknown target '" ++ id ++ "'"

/-- A parameter that was refused. -/
structure ParamIssue where
  param : String
  fault : ParamFault
deriving DecidableEq

/-- Whether a value counts as not given. -/
def Value.isBlank : Value → Bool
  | .null => true
  | .str s => (Text.trim s).isEmpty
  | .list items => items.isEmpty
  | _ => false

/-- The text of a value in a sentence; lists are joined by `and`. -/
def Value.phrase : Value → String
  | .list items => " and ".intercalate (items.map Value.text)
  | v => v.text

/-- The entity ids in a value: a text, or a list of texts. -/
def targetIds : Value → Except ParamFault (List String)
  | .str id => .ok [id]
  | .list items => items.mapM fun
    | .str id => .ok id
    | v => .error (.notAnEntityId v)
  | v => .error (.notAnEntityId v)

def State.checkTarget (s : State) (id : String) : Except ParamFault Unit :=
  if s.entities.contains id then .ok () else .error (.unknownTarget id)

namespace ParamType

/-- Puts a value that was given into the declared shape. -/
def shape (s : State) (type : ParamType) (v : Value) : Except ParamFault Value :=
  match type with
  | .text => .ok (.str v.phrase)
  | .int =>
    match v.toInt? with
    | some n => .ok (.int n)
    | none => .error (.notAnInteger v)
  | .target => do
    match ← targetIds v with
    | [id] =>
      s.checkTarget id
      return .str id
    | _ => throw .notASingleTarget
  | .targetList => do
    let ids ← targetIds v
    ids.forM s.checkTarget
    return .ofStrings ids

/-- The value of a parameter that was not given, if it has one all the same. -/
def default? : ParamType → Option Value
  | .targetList => some (.list [])
  | _ => none

end ParamType

namespace ParamDef

/-- The value that a parameter gets, if any. -/
def resolve (s : State) (params : Dict Value) (p : ParamDef) : Except ParamFault (Option Value) :=
  match (params.get? p.name).filter fun v => !v.isBlank with
  | some v => (p.type.shape s v).map some
  | none => if p.required then .error .missing else .ok p.type.default?

/-- Adds the value that a parameter gets to those checked so far. -/
def validate (s : State) (params checked : Dict Value) (p : ParamDef) :
    Except ParamIssue (Dict Value) :=
  match p.resolve s params with
  | .ok (some v) => .ok (checked.insert p.name v)
  | .ok none => .ok checked
  | .error fault => .error ⟨p.name, fault⟩

/-- The ids that a target parameter names. -/
def targets (params : Dict Value) (p : ParamDef) : List String :=
  if p.type.isTarget then
    match params.get? p.name with
    | some (.str id) => [id]
    | some (.list items) => items.filterMap Value.str?
    | _ => []
  else []

end ParamDef

namespace CommandDef

/-- Checks the parameters of a request in the order in which they are declared. -/
def validateParams (d : CommandDef) (s : State) (params : Dict Value) :
    Except ParamIssue (Dict Value) :=
  d.params.foldlM (fun checked p => p.validate s params checked) params

/-- Adds an id unless it is empty or there already. -/
def addTarget (targets : List String) (id : String) : List String :=
  if id.isEmpty || id ∈ targets then targets else targets ++ [id]

/-- The targets of a request, each once. -/
def resolveTargets (d : CommandDef) (explicit : List String) (params : Dict Value) :
    List String :=
  (explicit ++ d.params.flatMap (ParamDef.targets params)).foldl addTarget []

end CommandDef

end GameTable
