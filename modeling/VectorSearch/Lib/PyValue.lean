import VectorSearch.Lib.Binary64

namespace VectorSearch

/-!
# Python values that JSON can carry

The values `json.dumps` accepts, with Python's own dictionary keys, which need
not be strings.  Printing turns every key into a string; two keys that become
equal are both printed, and reading the text back keeps the later one.
-/

/-- A dictionary key that `json.dumps` accepts. -/
inductive PyKey where
  | str (value : String)
  | int (value : Int)
  | float (value : FloatText)
  | bool (value : Bool)
  | none
  deriving DecidableEq

/-- A list stands for a tuple as well: both are printed and tested alike. -/
inductive PyValue where
  | none
  | bool (value : Bool)
  | int (value : Int)
  | float (value : FloatText)
  | str (value : String)
  | list (items : List PyValue)
  | dict (entries : List (PyKey × PyValue))

/-- A literal of zero, or of a number that is rounded to zero. -/
def FloatText.isZero (literal : FloatText) : Bool := FloatText.value literal = .number 0

example : FloatText.isZero ⟨"1e-400".toList, by decide⟩ = true := by decide +kernel

/-- The string a key is printed as. -/
def PyKey.text : PyKey → String
  | str value => value
  | int value => String.ofList (JsonNumber.writeInt value)
  | float value => String.ofList value.val
  | bool true => "true"
  | bool false => "false"
  | none => "null"

/-- Whether Python converts the key. -/
def PyKey.printable : PyKey → Bool
  | int value => JsonNumber.convertible (JsonNumber.writeInt value)
  | _ => true

namespace PyValue

/-- `bool(value)`. -/
def truthy : PyValue → Bool
  | none => false
  | bool value => value
  | int value => value != 0
  | float value => !value.isZero
  | str value => value != ""
  | list items => !items.isEmpty
  | dict entries => !entries.isEmpty

mutual

/-- The value as `json.dumps` prints it. -/
def toJson : PyValue → Json
  | none => .null
  | bool value => .bool value
  | int value => .int value
  | float value => .float value
  | str value => .str value
  | list items => .arr (toJsonItems items)
  | dict entries => .obj (toJsonEntries entries)

def toJsonItems : List PyValue → List Json
  | [] => []
  | item :: rest => toJson item :: toJsonItems rest

def toJsonEntries : List (PyKey × PyValue) → List (String × Json)
  | [] => []
  | (key, value) :: rest => (key.text, toJson value) :: toJsonEntries rest

end

mutual

/-- The value `json.loads` builds. -/
def ofJson : Json → PyValue
  | .null => none
  | .bool value => bool value
  | .int value => int value
  | .float value => float value
  | .str value => str value
  | .arr items => list (ofJsonItems items)
  | .obj fields => dict (ofJsonFields fields)

def ofJsonItems : List Json → List PyValue
  | [] => []
  | item :: rest => ofJson item :: ofJsonItems rest

def ofJsonFields : List (String × Json) → List (PyKey × PyValue)
  | [] => []
  | (key, value) :: rest => (.str key, ofJson value) :: ofJsonFields rest

end

mutual

/-- Whether Python converts every integer of the value, dictionary keys included. -/
def printable : PyValue → Bool
  | int value => JsonNumber.convertible (JsonNumber.writeInt value)
  | list items => printableItems items
  | dict entries => printableEntries entries
  | _ => true

def printableItems : List PyValue → Bool
  | [] => true
  | item :: rest => printable item && printableItems rest

def printableEntries : List (PyKey × PyValue) → Bool
  | [] => true
  | (key, value) :: rest => key.printable && printable value && printableEntries rest

end

/-- `json.dumps(value, ensure_ascii=ensureAscii)`, for a value that is `printable`. -/
def dumps (value : PyValue) (ensureAscii : Bool) : String := Json.dumps value.toJson ensureAscii

/-- `json.loads(text)`. -/
def loads (text : String) : Option PyValue := (Json.loads text).map ofJson

end PyValue
end VectorSearch
