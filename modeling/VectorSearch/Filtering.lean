import VectorSearch.Exceptions
import VectorSearch.Lib.PyValue

namespace VectorSearch

/-!
# Filters and the payload index

`filtering.py`: the normal form of a filter, its encoding for the wire, and the
index from field values to local ids that answers it.  Only strings of bounded
length, integers and booleans are indexed; the kind of a value is part of its
key, so a boolean never meets an integer.
-/

def maxIndexedChars : Nat := 128

/-- A value that can stand in an index key, with its Python type. -/
inductive Scalar where
  | str (value : String)
  | bool (value : Bool)
  | int (value : Int)
  deriving DecidableEq

/-- An index key: `(field, type name, value)`. -/
abbrev Key := String × Scalar

/-- `_key`, for one field value. -/
def keyOf (field : String) : PyValue → Option Key
  | .str value => if value.length ≤ maxIndexedChars then some (field, .str value) else none
  | .bool value => some (field, .bool value)
  | .int value => some (field, .int value)
  | _ => none

/-- A filter in normal form: every field with the values it accepts. -/
abbrev Filter := Dict String (List Scalar)

def Scalar.toPyValue : Scalar → PyValue
  | str value => .str value
  | bool value => .bool value
  | int value => .int value

/-- The items of a field value: those of a list, or the value itself. -/
def itemsOf : PyValue → List PyValue
  | .list items => items
  | value => [value]

/-- The wanted values of one field, or the error of the first that is not indexed. -/
def normalizeValues (field : String) : List PyValue → Except Error (List Scalar)
  | [] => .ok []
  | value :: rest =>
      match keyOf field value with
      | none => .error (.filterValue field)
      | some (_, scalar) => do
          let scalars ← normalizeValues field rest
          return scalar :: scalars

def normalizeFields : List (PyKey × PyValue) → Filter → Except Error Filter
  | [], normalized => .ok normalized
  | (key, wanted) :: rest, normalized =>
      match key, itemsOf wanted with
      | .str field, value :: values => do
          let scalars ← normalizeValues field (value :: values)
          normalizeFields rest (normalized.set field scalars)
      | _, _ => .error (.filterField key.text)

/-- `normalize_filter`: `none` for no filter. -/
def normalizeFilter (filter : PyValue) : Except Error (Option Filter) :=
  if !filter.truthy then .ok none
  else
    match filter with
    | .dict entries => do
        let normalized ← normalizeFields entries Dict.empty
        return some normalized
    | _ => .error (.value "a filter must be a dict of field -> value or list of values")

/-- A normal form as the dict it is in Python. -/
def Filter.toPyValue (filter : Filter) : PyValue :=
  .dict (filter.entries.map fun entry => (.str entry.1, .list (entry.2.map Scalar.toPyValue)))

def filterValue : Option Filter → PyValue
  | none => .none
  | some filter => filter.toPyValue

/-- `json.dumps(value, ensure_ascii=ensureAscii)`, which raises for an integer that
Python does not print. -/
def jsonDumps (value : PyValue) (ensureAscii : Bool) : Except Error String :=
  if value.printable then .ok (value.dumps ensureAscii) else .error .tooManyDigits

theorem jsonDumps_ok {value : PyValue} {ensureAscii : Bool} {text : String}
    (written : jsonDumps value ensureAscii = .ok text) :
    value.printable = true ∧ text = value.dumps ensureAscii := by
  unfold jsonDumps at written
  split at written
  · rename_i printable
    exact ⟨printable, (Except.ok.inj written).symm⟩
  · cases written

/-- A text is given unless an integer has too many digits for one. -/
theorem jsonDumps_eq_ok {value : PyValue} (printable : value.printable = true) (ensureAscii : Bool) :
    jsonDumps value ensureAscii = .ok (value.dumps ensureAscii) := if_pos printable

/-- `encode_filter`. -/
def encodeFilter (filter : PyValue) : Except Error String := do
  match ← normalizeFilter filter with
  | none => return ""
  | some normalized => jsonDumps normalized.toPyValue true

/-- `decode_filter`. -/
def decodeFilter (text : String) : Except Error (Option Filter) :=
  if text = "" then .ok none
  else
    match PyValue.loads text with
    | none => .error .badJson
    | some value => normalizeFilter value

/-! ## The index -/

/-- `PayloadIndex`: the local ids of the vectors with each key, and how many
payloads have been read. -/
structure PayloadIndex where
  ids : Dict Key (List Nat)
  indexed : Nat

namespace PayloadIndex

def init : PayloadIndex := ⟨Dict.empty, 0⟩

/-- `self._ids.setdefault(key, []).append(local_id)`. -/
def record (ids : Dict Key (List Nat)) (localId : Nat) (key : Key) : Dict Key (List Nat) :=
  ids.set key ((ids.get? key).getD [] ++ [localId])

/-- The keys of one payload object, in the order `add` records them. -/
def keysOf (entries : List (PyKey × PyValue)) : List Key :=
  entries.flatMap fun entry =>
    match entry.1 with
    | .str field => (itemsOf entry.2).filterMap (keyOf field)
    | _ => []

/-- `add`. -/
def add (index : PayloadIndex) (localId : Nat) (payloadText : String) : Except Error PayloadIndex :=
  if payloadText = "" then .ok index
  else
    match PyValue.loads payloadText with
    | none => .error .badJson
    | some (.dict entries) =>
        .ok { index with ids := (keysOf entries).foldl (record · localId) index.ids }
    | some _ => .ok index

/-- Read the payloads from position `localId` on. -/
def addAll (index : PayloadIndex) : Nat → List String → PayloadIndex × Option Error
  | _, [] => (index, none)
  | localId, text :: rest =>
      match index.add localId text with
      | .error error => (index, some error)
      | .ok next => addAll next (localId + 1) rest

/-- `catch_up`.  After an exception the payloads read so far stay recorded,
and `indexed` is not advanced. -/
def catchUp (payloads : List String) : EStateM Error PayloadIndex Unit := do
  let index ← get
  match index.addAll index.indexed (payloads.drop index.indexed) with
  | (next, none) => set { next with indexed := payloads.length }
  | (next, some error) => do
      set next
      throw error

/-- `mask[ids] = True`. -/
def mark (mask : List Bool) (ids : List Nat) : Except Error (List Bool) :=
  if ids.all (· < mask.length) then .ok (mask.mapIdx fun i old => old || ids.contains i)
  else .error .indexError

/-- The vectors that have one of the wanted values in a field. -/
def hasField (index : PayloadIndex) (size : Nat) (field : String) (values : List Scalar) :
    Except Error (List Bool) :=
  values.foldlM (fun mask value => mark mask ((index.ids.get? (field, value)).getD []))
    (List.replicate size false)

/-- `matching`. -/
def matching (index : PayloadIndex) (filter : Filter) (size : Nat) : Except Error (List Bool) :=
  filter.entries.foldlM (fun allowed entry => do
      let mask ← index.hasField size entry.1 entry.2
      return List.zipWith (· && ·) allowed mask)
    (List.replicate size true)

end PayloadIndex
end VectorSearch
