import VectorSearch.Exceptions
import VectorSearch.Lib.PyValue

namespace VectorSearch

/-!
# Tools and their arguments

`check_arguments` and `run_tool` of `mcp.py`.  A tool runs in any monad, so that
the server of the protocol and the loop of an agent share them.  What a handler
raises is a value here, since `run_tool` catches all of it.
-/

namespace Json

/-- `bool(value)`. -/
def truthy (value : Json) : Bool := (PyValue.ofJson value).truthy

def isObject : Json → Bool
  | obj _ => true
  | _ => false

/-- Whether a value can be looked up in a dict. -/
def hashable : Json → Bool
  | arr _ => false
  | obj _ => false
  | _ => true

/-- `value.get(key)`. -/
def get (value : Json) (key : String) : Except Error (Option Json) :=
  match value with
  | obj fields => .ok (Dict.find key fields)
  | _ => .error .attributeError

/-- `value[key]` for a dict. -/
def index (value : Json) (key : String) : Except Error Json :=
  match value with
  | obj fields =>
      match Dict.find key fields with
      | none => .error .keyError
      | some found => .ok found
  | _ => .error .typeError

/-- `value or {}`. -/
def orEmpty (value : Option Json) : Json :=
  match value with
  | none => obj []
  | some value => if value.truthy then value else obj []

end Json

namespace Mcp

/-! ## Argument types -/

/-- The keys of `_JSON_TYPES`. -/
inductive JsonType where
  | string
  | integer
  | number
  | boolean
  | array
  | object
  deriving DecidableEq

def JsonType.name : JsonType → String
  | string => "string"
  | integer => "integer"
  | number => "number"
  | boolean => "boolean"
  | array => "array"
  | object => "object"

/-- `_JSON_TYPES[name]`. -/
def jsonType : Json → Except Error JsonType
  | .str "string" => .ok .string
  | .str "integer" => .ok .integer
  | .str "number" => .ok .number
  | .str "boolean" => .ok .boolean
  | .str "array" => .ok .array
  | .str "object" => .ok .object
  | .arr _ => .error .typeError
  | .obj _ => .error .typeError
  | _ => .error .keyError

theorem jsonType_name (type : JsonType) : jsonType (.str type.name) = .ok type := by
  cases type <;> rfl

/-- `isinstance(value, _JSON_TYPES[type])`.  A boolean is an integer to Python. -/
def isInstance : JsonType → Json → Bool
  | .string, .str _ => true
  | .integer, .int _ => true
  | .integer, .bool _ => true
  | .number, .int _ => true
  | .number, .float _ => true
  | .number, .bool _ => true
  | .boolean, .bool _ => true
  | .array, .arr _ => true
  | .object, .obj _ => true
  | _, _ => false

def isBool : Json → Bool
  | .bool _ => true
  | _ => false

/-- The number a value is in a comparison.  Python compares an integer with a
float exactly. -/
def number? : Json → Option Binary64
  | .int value => some (.number value)
  | .float value => some (FloatText.value value)
  | .bool value => some (.number (if value then 1 else 0))
  | _ => none

/-- `left < right`.  Texts and lists, which Python compares as well, are no
bounds. -/
def lessThan (left right : Json) : Except Error Bool :=
  match number? left, number? right with
  | some left, some right => .ok (left.less right)
  | _, _ => .error .typeError

/-- What the code leaves to Python: `repr` of a value. -/
structure Python where
  repr : Json → String

namespace Python

variable (python : Python)

/-- A value in an f-string. -/
def shown (value : Json) : Except Error String :=
  if value.printable then .ok (python.repr value) else .error .tooManyDigits

/-- A list of texts, as an f-string prints it. -/
def showTexts (texts : List String) : String :=
  "[" ++ ", ".intercalate (texts.map fun text => python.repr (.str text)) ++ "]"

/-! ## Checking arguments -/

/-- The first required name that is missing. -/
def checkRequired (fields : List (String × Json)) : List Json → Except Error (Option String)
  | [] => .ok none
  | .str name :: names =>
      if (Dict.find name fields).isSome then checkRequired fields names
      else .ok (some s!"missing required argument {python.repr (.str name)}")
  | .arr _ :: _ => .error .typeError
  | .obj _ :: _ => .error .typeError
  | name :: _ => do return some s!"missing required argument {← python.shown name}"

/-- One bound of a rule; `problem` says what it asks for. -/
def checkBound (rule : Json) (key : String) (breaks : Json → Except Error Bool) (problem : String) :
    Except Error (Option String) := do
  match ← rule.get key with
  | none => return none
  | some bound =>
      if ← breaks bound then return some (problem ++ " " ++ (← python.shown bound))
      else return none

/-- The types of the items of an array. -/
def checkItems (name : String) (rule value : Json) : Except Error (Option String) := do
  match ← rule.get "items" with
  | none => return none
  | some items => do
      let type ← items.index "type"
      let itemType ← jsonType type
      match value with
      | .arr values =>
          if values.all (isInstance itemType) then return none
          else return some s!"every item of {python.repr (.str name)} must be of type {itemType.name}"
      | _ => return none

/-- One argument against the rule for it. -/
def checkArgument (name : String) (rule value : Json) : Except Error (Option String) := do
  let expected ← jsonType (← rule.index "type")
  let shown := python.repr (.str name)
  if !isInstance expected value || (isBool value && expected != .boolean) then
    return some s!"argument {shown} must be of type {expected.name}"
  else
    match ← python.checkBound rule "minimum" (fun bound => lessThan value bound)
        s!"argument {shown} must be at least" with
    | some problem => return some problem
    | none =>
        match ← python.checkBound rule "maximum" (fun bound => lessThan bound value)
            s!"argument {shown} must be at most" with
        | some problem => return some problem
        | none => if expected = .array then python.checkItems name rule value else return none

/-- The arguments one after the other. -/
def checkEach (properties : List (String × Json)) : List (String × Json) → Except Error (Option String)
  | [] => .ok none
  | (name, value) :: rest =>
      match Dict.find name properties with
      | none =>
          .ok (some (s!"unknown argument {python.repr (.str name)}; this tool takes " ++
            python.showTexts ((properties.map Prod.fst).mergeSort (· ≤ ·))))
      | some rule => do
          match ← python.checkArgument name rule value with
          | some problem => return some problem
          | none => checkEach properties rest

/-- `check_arguments`.  A schema whose properties are no object, or whose
required names are no array, is malformed. -/
def checkArguments (schema arguments : Json) : Except Error (Option String) :=
  match arguments with
  | .obj fields => do
      let properties := (← schema.get "properties").getD (.obj [])
      let required := (← schema.get "required").getD (.arr [])
      match properties, required with
      | .obj properties, .arr required =>
          match ← python.checkRequired fields required with
          | some problem => return some problem
          | none => python.checkEach properties fields
      | _, _ => throw .typeError
  | _ => .ok (some "the arguments must be an object")

end Python

/-! ## The part of JSON Schema that is covered -/

/-- A rule for one argument: its type, bounds where it is a number, and the type
of the items where it is an array. -/
structure CoveredRule (rule : Json) : Prop where
  typed : ∃ fields type, rule = .obj fields ∧ Dict.find "type" fields = some (.str (JsonType.name type)) ∧
    (∀ key ∈ ["minimum", "maximum"], ∀ bound, Dict.find key fields = some bound →
      (type = .integer ∨ type = .number) ∧ (number? bound).isSome) ∧
    (type = .array → ∀ items, Dict.find "items" fields = some items →
      ∃ itemFields itemType, items = .obj itemFields ∧
        Dict.find "type" itemFields = some (.str (JsonType.name itemType)))

/-- The part of JSON Schema that the check covers.  Its integers are those Python
prints, as in every schema that was read or written as text. -/
structure Covered (schema : Json) : Prop where
  printable : schema.printable = true
  shape : ∃ fields, schema = .obj fields ∧
    (∀ properties, Dict.find "properties" fields = some properties →
      ∃ rules, properties = .obj rules ∧ ∀ rule ∈ rules, CoveredRule rule.2) ∧
    ∀ required, Dict.find "required" fields = some required → ∃ names : List String,
      required = .arr (names.map .str)

/-! ## Running a tool -/

/-- What a handler raises. -/
inductive Raised where
  /-- `ToolError`. -/
  | tool (text : String)
  /-- Any other `Exception`: the name of its type, and its text. -/
  | other (type text : String)

/-- A tool whose handler runs in a monad.  The schema is of the covered part. -/
structure Tool (m : Type → Type) where
  name : String
  description : String
  inputSchema : Json
  handler : List (String × Json) → m (Except Raised String)
  covered : Covered inputSchema

/-- What `run_tool` makes of a handler's end. -/
def outcome (name : String) : Except Raised String → String × Bool
  | .ok text => (text, false)
  | .error (.tool text) => (text, true)
  | .error (.other type text) => (s!"{name} failed unexpectedly: {type}: {text}", true)

/-- `run_tool`: the text, and whether it is an error.  The arguments are checked
before anything is run. -/
def runTool {m : Type → Type} [Monad m] (python : Python) (tool : Tool m) (arguments : Json) :
    Except Error (m (String × Bool)) := do
  match ← python.checkArguments tool.inputSchema arguments with
  | some problem => return pure (s!"Cannot call {tool.name}: {problem}.", true)
  | none =>
      match arguments with
      | .obj fields => return do
          let ended ← tool.handler fields
          return outcome tool.name ended
      | _ => throw .typeError

end Mcp
end VectorSearch
