import VectorSearch.Mcp.Survival

namespace VectorSearch

/-!
# Which arguments are accepted

The check accepts the arguments the schema describes, and two kinds more: a
boolean is refused as an integer or a number, but among the items of an array it
passes for one, and NaN, which `json` reads although it is no JSON, passes every
bound.
-/

namespace Mcp

/-! ## What a schema describes -/

/-- A value of a type.  A boolean is no number, and a number written with a
fraction or an exponent is no integer. -/
inductive HasType : JsonType → Json → Prop
  | string (text : String) : HasType .string (.str text)
  | integer (value : Int) : HasType .integer (.int value)
  | whole (value : Int) : HasType .number (.int value)
  | decimal (value : FloatText) : HasType .number (.float value)
  | boolean (value : Bool) : HasType .boolean (.bool value)
  | array (items : List Json) : HasType .array (.arr items)
  | object (fields : List (String × Json)) : HasType .object (.obj fields)

theorem JsonType.name_injective {first second : JsonType} (same : first.name = second.name) : first =
    second := by
  have types := congrArg (fun name => jsonType (.str name)) same
  rw [jsonType_name, jsonType_name] at types
  exact Except.ok.inj types

def JsonType.Numeric (type : JsonType) : Prop := type = .integer ∨ type = .number

/-- What passes for an item of a type. -/
def PassesFor (type : JsonType) (item : Json) : Prop :=
  HasType type item ∨ (type.Numeric ∧ isBool item = true)

/-- An item of an array whose rule gives its items a type. -/
def ItemOf (rule value : Json) (type : JsonType) (item : Json) : Prop :=
  ∃ items values, rule.get "items" = .ok (some items) ∧ items.get "type" = .ok (some (.str type.name)) ∧
    value = .arr values ∧ item ∈ values

/-- A given argument and the rule for it. -/
def Ruled (schema arguments rule value : Json) : Prop :=
  ∃ given properties name, arguments = .obj given ∧ (name, value) ∈ given ∧
    schema.get "properties" = .ok (some (.obj properties)) ∧ Dict.find name properties = some rule

/-! ## Types -/

theorem isInstance_iff (type : JsonType) (value : Json) : isInstance type value = true ↔
    PassesFor type value := by
  constructor
  · intro instanceOf
    cases type <;> cases value <;> first
      | exact Or.inl (by constructor)
      | exact Or.inr ⟨Or.inl rfl, rfl⟩
      | exact Or.inr ⟨Or.inr rfl, rfl⟩
      | cases instanceOf
  · rintro (typed | ⟨rfl | rfl, boolean⟩)
    · cases typed <;> rfl
    · cases value <;> first | rfl | cases boolean
    · cases value <;> first | rfl | cases boolean

theorem HasType.not_bool {type : JsonType} {value : Json} (typed : HasType type value)
    (numeric : type.Numeric) :
    isBool value = false := by
  rcases numeric with rfl | rfl <;> cases typed <;> rfl

/-- An argument itself is checked to be no boolean. -/
theorem guarded_iff (type : JsonType) (value : Json) :
    (!isInstance type value || (isBool value && type != .boolean)) = false ↔ HasType type value := by
  rw [Bool.or_eq_false_iff, Bool.not_eq_false', isInstance_iff]
  constructor
  · rintro ⟨typed | ⟨rfl | rfl, boolean⟩, guarded⟩
    · exact typed
    · rw [boolean] at guarded
      cases guarded
    · rw [boolean] at guarded
      cases guarded
  · intro typed
    refine ⟨Or.inl typed, ?_⟩
    cases typed <;> rfl

/-! ## What conforms to a schema -/

/-- One number is at most the other.  NaN is at most no number. -/
def AtMost (left right : Json) : Prop :=
  ∃ first second, number? left = some first ∧ number? right = some second ∧ first.atMost second = true

/-- What passes for it: the other number is not less. -/
def PassesAtMost (left right : Json) : Prop :=
  ∀ first second, number? left = some first → number? right = some second → second.less first = false

/-- A value of the type and in the range of its rule, with the items it asks for. -/
structure Accepts (atMost : Json → Json → Prop) (ofItem : JsonType → Json → Prop) (rule value : Json) :
    Prop where
  typed : ∃ type, rule.get "type" = .ok (some (.str (JsonType.name type))) ∧ HasType type value
  minimum : ∀ bound, rule.get "minimum" = .ok (some bound) → atMost bound value
  maximum : ∀ bound, rule.get "maximum" = .ok (some bound) → atMost value bound
  items : ∀ type item, ItemOf rule value type item → ofItem type item

/-- An object with every required property, none that is unknown, and each as
its rule says. -/
def Conforms (atMost : Json → Json → Prop) (ofItem : JsonType → Json → Prop) (schema arguments : Json) : Prop :=
  ∃ given, arguments = .obj given ∧
    (∀ names name, schema.get "required" = .ok (some (.arr names)) → .str name ∈ names →
      ∃ value, (name, value) ∈ given) ∧
    ∀ name value, (name, value) ∈ given → ∃ properties rule,
      schema.get "properties" = .ok (some (.obj properties)) ∧ Dict.find name properties = some rule ∧
        Accepts atMost ofItem rule value

/-- The arguments a schema describes. -/
def Valid (schema arguments : Json) : Prop := Conforms AtMost HasType schema arguments

/-- The arguments that pass for such. -/
def Passes (schema arguments : Json) : Prop := Conforms PassesAtMost PassesFor schema arguments

/-- No boolean stands where an array is to have numbers. -/
def BooleanFree (schema arguments : Json) : Prop :=
  ∀ rule value type item, Ruled schema arguments rule value → ItemOf rule value type item → type.Numeric →
    isBool item = false

/-- No bound of a given argument is compared with NaN, or is NaN. -/
def NanFree (schema arguments : Json) : Prop :=
  ∀ rule value key bound, Ruled schema arguments rule value → key ∈ ["minimum", "maximum"] →
    rule.get key = .ok (some bound) → number? value ≠ some .nan ∧ number? bound ≠ some .nan

/-! ## One argument -/

theorem lessThan_false {left right : Json} (first : (number? left).isSome) (second : (number? right).isSome) :
    lessThan left right = .ok false ↔ PassesAtMost right left := by
  rcases Option.isSome_iff_exists.mp first with ⟨low, isLow⟩
  rcases Option.isSome_iff_exists.mp second with ⟨high, isHigh⟩
  simp only [lessThan, PassesAtMost, isLow, isHigh, Except.ok.injEq, Option.some.injEq]
  constructor
  · rintro notLess _ _ rfl rfl
    exact notLess
  · intro notLess
    exact notLess high low rfl rfl

/-- NaN apart, what passes is at most. -/
theorem AtMost.iff_passes {left right : Json} (first : (number? left).isSome)
    (second : (number? right).isSome) :
    AtMost left right ↔ PassesAtMost left right ∧ number? left ≠ some .nan ∧ number? right ≠ some .nan := by
  rcases Option.isSome_iff_exists.mp first with ⟨low, isLow⟩
  rcases Option.isSome_iff_exists.mp second with ⟨high, isHigh⟩
  simp only [AtMost, PassesAtMost, isLow, isHigh, Option.some.injEq, ne_eq]
  constructor
  · rintro ⟨_, _, rfl, rfl, order⟩
    rcases Binary64.not_nan_of_atMost order with ⟨notLow, notHigh⟩
    refine ⟨?_, notLow, notHigh⟩
    rintro _ _ rfl rfl
    exact (Binary64.atMost_iff notLow notHigh).mp order
  · rintro ⟨passes, notLow, notHigh⟩
    exact ⟨low, high, rfl, rfl, (Binary64.atMost_iff notLow notHigh).mpr (passes low high rfl rfl)⟩

namespace Python

variable (python : Python)

theorem checkBound_none {fields : List (String × Json)} {key : String} {breaks : Json → Except Error Bool}
    {problem : String} :
    python.checkBound (.obj fields) key breaks problem = .ok none ↔
      ∀ bound, Dict.find key fields = some bound → breaks bound = .ok false := by
  unfold checkBound
  simp only [bind, Except.bind, Json.get]
  cases here : Dict.find key fields with
  | none =>
      refine iff_of_true rfl fun bound found => ?_
      cases found
  | some bound =>
      dsimp only
      constructor
      · intro passes other found
        cases found
        cases broken : breaks bound with
        | error error =>
            rw [broken] at passes
            cases passes
        | ok broke =>
            rw [broken] at passes
            cases broke with
            | true =>
                simp only [if_true] at passes
                split at passes
                · cases passes
                · cases passes
            | false => rfl
      · intro passes
        rw [passes bound rfl]
        rfl

theorem checkItems_none {name : String} {fields : List (String × Json)} {values : List Json}
    (typed : ∀ items, Dict.find "items" fields = some items → ∃ itemFields itemType, items = .obj itemFields ∧
      Dict.find "type" itemFields = some (.str (JsonType.name itemType))) :
    python.checkItems name (.obj fields) (.arr values) = .ok none ↔
      ∀ type item, ItemOf (.obj fields) (.arr values) type item → PassesFor type item := by
  unfold checkItems
  simp only [bind, Except.bind, Json.get]
  cases here : Dict.find "items" fields with
  | none =>
      refine iff_of_true rfl ?_
      rintro type item ⟨items, _, found, _⟩
      simp only [Json.get, here] at found
      cases found
  | some items =>
      rcases typed items here with ⟨itemFields, itemType, isObject, isType⟩
      have every : (∀ type item, ItemOf (.obj fields) (.arr values) type item → PassesFor type item) ↔
          values.all (isInstance itemType) = true := by
        rw [List.all_eq_true]
        constructor
        · intro passes item member
          apply (isInstance_iff itemType item).mpr
          refine passes itemType item ⟨items, values, congrArg Except.ok here, ?_, rfl, member⟩
          rw [isObject]
          exact congrArg Except.ok isType
        · rintro passes type item ⟨others, same, found, declared, isList, member⟩
          simp only [Json.get, here] at found
          cases found
          rw [isObject] at declared
          cases JsonType.name_injective
            (Json.str.inj (Option.some.inj (isType.symm.trans (Except.ok.inj declared))))
          cases isList
          exact (isInstance_iff itemType item).mp (passes item member)
      rw [every]
      simp only [isObject, Json.index, isType, jsonType_name]
      split
      · rename_i all
        exact iff_of_true rfl all
      · rename_i other
        refine iff_of_false ?_ other
        rintro ⟨⟩

theorem checkArgument_none (name : String) (value : Json) {rule : Json} (covered : CoveredRule rule)
    (printable : rule.printable = true) :
    python.checkArgument name rule value = .ok none ↔ Accepts PassesAtMost PassesFor rule value := by
  rcases covered.typed with ⟨fields, type, rfl, isType, bounds, items⟩
  have index : Json.index (.obj fields) "type" = .ok (.str type.name) := by
    simp only [Json.index, isType]
  have declared : ∀ other, Json.get (.obj fields) "type" = .ok (some (.str (JsonType.name other))) ↔
    other = type := by
    intro other
    constructor
    · intro found
      exact JsonType.name_injective (Json.str.inj (Option.some.inj ((Except.ok.inj found).symm.trans isType)))
    · rintro rfl
      exact congrArg Except.ok isType
  unfold checkArgument
  simp only [bind, Except.bind, index, jsonType_name]
  split
  · rename_i refused
    refine iff_of_false ?_ ?_
    · rintro ⟨⟩
    · rintro ⟨⟨other, found, typed⟩, _⟩
      rw [(declared other).mp found, ← guarded_iff, refused] at typed
      cases typed
  · rename_i fits
    have typed := (guarded_iff type value).mp (Bool.eq_false_iff.mpr fits)
    have compares : ∀ key ∈ ["minimum", "maximum"], ∀ bound, Dict.find key fields = some bound →
        (number? value).isSome ∧ (number? bound).isSome := by
      intro key isKey bound found
      have spec := bounds key isKey bound found
      exact ⟨isInstance_number spec.1 ((isInstance_iff type value).mpr (Or.inl typed)), spec.2⟩
    -- each check passes exactly when its part of the rule is met
    have low : ∀ problem, python.checkBound (.obj fields) "minimum" (fun bound => lessThan value bound)
      problem =
        .ok none ↔ ∀ bound, Json.get (.obj fields) "minimum" = .ok (some bound) → PassesAtMost bound value := by
      intro problem
      rw [checkBound_none]
      refine forall_congr' fun bound => ⟨fun passes found => ?_, fun passes found => ?_⟩
      · have numbers := compares "minimum" List.mem_cons_self bound (Except.ok.inj found)
        exact (lessThan_false numbers.1 numbers.2).mp (passes (Except.ok.inj found))
      · have numbers := compares "minimum" List.mem_cons_self bound found
        exact (lessThan_false numbers.1 numbers.2).mpr (passes (congrArg Except.ok found))
    have high : ∀ problem, python.checkBound (.obj fields) "maximum" (fun bound => lessThan bound value)
      problem =
        .ok none ↔ ∀ bound, Json.get (.obj fields) "maximum" = .ok (some bound) → PassesAtMost value bound := by
      intro problem
      have isKey : "maximum" ∈ ["minimum", "maximum"] := List.mem_cons_of_mem _ List.mem_cons_self
      rw [checkBound_none]
      refine forall_congr' fun bound => ⟨fun passes found => ?_, fun passes found => ?_⟩
      · have numbers := compares "maximum" isKey bound (Except.ok.inj found)
        exact (lessThan_false numbers.2 numbers.1).mp (passes (Except.ok.inj found))
      · have numbers := compares "maximum" isKey bound found
        exact (lessThan_false numbers.2 numbers.1).mpr (passes (congrArg Except.ok found))
    have listed : (if type = .array then python.checkItems name (.obj fields) value else .ok none) = .ok none ↔
        ∀ other item, ItemOf (.obj fields) value other item → PassesFor other item := by
      split
      · rename_i isArray
        rw [isArray] at typed
        cases typed
        exact python.checkItems_none (items isArray)
      · rename_i notArray
        refine iff_of_true rfl ?_
        rintro other item ⟨_, values, _, _, rfl, _⟩
        cases typed
        exact absurd rfl notArray
    have accepts : Accepts PassesAtMost PassesFor (.obj fields) value ↔
        (∀ bound, Json.get (.obj fields) "minimum" = .ok (some bound) → PassesAtMost bound value) ∧
        (∀ bound, Json.get (.obj fields) "maximum" = .ok (some bound) → PassesAtMost value bound) ∧
        ∀ other item, ItemOf (.obj fields) value other item → PassesFor other item :=
      ⟨fun accepted => ⟨accepted.minimum, accepted.maximum, accepted.items⟩,
        fun parts => ⟨⟨type, (declared type).mpr rfl, typed⟩, parts.1, parts.2.1, parts.2.2⟩⟩
    rcases python.checkBound_ok printable s!"argument {python.repr (.str name)} must be at least"
      (fun bound found =>
        let numbers := compares "minimum" List.mem_cons_self bound found
        lessThan_ok numbers.1 numbers.2) with ⟨first, isFirst⟩
    rcases python.checkBound_ok printable s!"argument {python.repr (.str name)} must be at most"
      (fun bound found =>
        let numbers := compares "maximum" (List.mem_cons_of_mem _ List.mem_cons_self) bound found
        lessThan_ok numbers.2 numbers.1) with ⟨second, isSecond⟩
    rw [accepts, ← low, ← high, ← listed, isFirst, isSecond]
    cases first with
    | some problem =>
        refine iff_of_false ?_ ?_
        · rintro ⟨⟩
        · rintro ⟨⟨⟩, _⟩
    | none =>
        cases second with
        | some problem =>
            refine iff_of_false ?_ ?_
            · rintro ⟨⟩
            · rintro ⟨_, ⟨⟩, _⟩
        | none => exact ⟨fun passes => ⟨rfl, rfl, passes⟩, fun passes => passes.2.2⟩

/-! ## All arguments -/

theorem checkEach_none {properties : List (String × Json)} (covered : ∀ rule ∈ properties, CoveredRule rule.2)
    (printable : (Json.obj properties).printable = true) (fields : List (String × Json)) :
    python.checkEach properties fields = .ok none ↔
      ∀ name value, (name, value) ∈ fields →
        ∃ rule, Dict.find name properties = some rule ∧ Accepts PassesAtMost PassesFor rule value := by
  induction fields with
  | nil => exact iff_of_true rfl fun _ _ impossible => nomatch impossible
  | cons field fields inductionHypothesis =>
      rcases field with ⟨name, value⟩
      have split : (∀ other given, (other, given) ∈ (name, value) :: fields →
            ∃ rule, Dict.find other properties = some rule ∧ Accepts PassesAtMost PassesFor rule given) ↔
          (∃ rule, Dict.find name properties = some rule ∧ Accepts PassesAtMost PassesFor rule value) ∧
            python.checkEach properties fields = .ok none := by
        rw [inductionHypothesis]
        constructor
        · exact fun every => ⟨every name value List.mem_cons_self,
            fun other given member => every other given (List.mem_cons_of_mem _ member)⟩
        · rintro ⟨first, rest⟩ other given member
          rcases List.mem_cons.mp member with same | later
          · cases same
            exact first
          · exact rest other given later
      rw [split]
      conv_lhs => unfold checkEach
      cases here : Dict.find name properties with
      | none =>
          refine iff_of_false ?_ ?_
          · rintro ⟨⟩
          · rintro ⟨⟨_, ⟨⟩, _⟩, _⟩
      | some rule =>
          have isCovered := covered (name, rule) (Dict.find_mem name rule properties here)
          have isPrintable := Json.printable_find printable here
          have first : (∃ found, some rule = some found ∧ Accepts PassesAtMost PassesFor found value) ↔
              python.checkArgument name rule value = .ok none := by
            rw [python.checkArgument_none name value isCovered isPrintable]
            constructor
            · rintro ⟨found, ⟨⟩, accepted⟩
              exact accepted
            · exact fun accepted => ⟨rule, rfl, accepted⟩
          rw [first]
          rcases python.checkArgument_ok name value isCovered isPrintable with ⟨problem, checked⟩
          simp only [bind, Except.bind, checked]
          cases problem with
          | some problem =>
              refine iff_of_false ?_ ?_
              · rintro ⟨⟩
              · rintro ⟨⟨⟩, _⟩
          | none => exact ⟨fun rest => ⟨rfl, rest⟩, fun both => both.2⟩

theorem checkRequired_none {fields : List (String × Json)} (names : List String) :
    python.checkRequired fields (names.map .str) = .ok none ↔ ∀ name ∈ names, ∃ value,
      (name, value) ∈ fields := by
  induction names with
  | nil => exact iff_of_true rfl fun _ impossible => nomatch impossible
  | cons name names inductionHypothesis =>
      have present : (Dict.find name fields).isSome ↔ ∃ value, (name, value) ∈ fields := by
        rw [Dict.find_isSome_iff, List.mem_map]
        constructor
        · rintro ⟨⟨key, value⟩, member, rfl⟩
          exact ⟨value, member⟩
        · rintro ⟨value, member⟩
          exact ⟨(name, value), member, rfl⟩
      rw [List.map_cons, List.forall_mem_cons, ← present]
      unfold checkRequired
      split
      · rename_i found
        rw [inductionHypothesis]
        exact ⟨fun rest => ⟨found, rest⟩, fun both => both.2⟩
      · rename_i missing
        refine iff_of_false ?_ fun both => missing both.1
        rintro ⟨⟩

theorem checkArguments_none {schema : Json} (covered : Covered schema) (arguments : Json) :
    python.checkArguments schema arguments = .ok none ↔ Passes schema arguments := by
  have printable := covered.printable
  rcases covered.shape with ⟨fields, rfl, rules, names⟩
  unfold checkArguments
  cases arguments with
  | obj given =>
      have properties : ∃ entries, ((Dict.find "properties" fields).getD (.obj [])) = .obj entries ∧
          (∀ rule ∈ entries, CoveredRule rule.2) ∧ (Json.obj entries).printable = true ∧
          ∀ name rule, Dict.find name entries = some rule ↔ ∃ properties,
            Json.get (.obj fields) "properties" = .ok (some (.obj properties)) ∧
              Dict.find name properties = some rule := by
        cases found : Dict.find "properties" fields with
        | none =>
            refine ⟨[], rfl, (fun _ impossible => absurd impossible List.not_mem_nil), rfl,
              fun name rule => iff_of_false ?_ ?_⟩
            · rintro ⟨⟩
            · rintro ⟨properties, isProperties, _⟩
              simp only [Json.get, found] at isProperties
              cases isProperties
        | some value =>
            rcases rules value found with ⟨entries, rfl, each⟩
            refine ⟨entries, rfl, each, Json.printable_find printable found,
              fun name rule => ⟨fun here => ⟨entries, congrArg Except.ok found, here⟩, ?_⟩⟩
            rintro ⟨properties, isProperties, here⟩
            simp only [Json.get, found] at isProperties
            cases isProperties
            exact here
      have required : ∃ texts : List String, ((Dict.find "required" fields).getD (.arr [])) =
        .arr (texts.map .str) ∧
          ((∀ name ∈ texts, ∃ value, (name, value) ∈ given) ↔ ∀ names name,
            Json.get (.obj fields) "required" = .ok (some (.arr names)) → .str name ∈ names →
              ∃ value, (name, value) ∈ given) := by
        cases found : Dict.find "required" fields with
        | none =>
            refine ⟨[], rfl, iff_of_true (fun _ impossible => absurd impossible List.not_mem_nil)
              fun names name isNames => ?_⟩
            simp only [Json.get, found] at isNames
            cases isNames
        | some value =>
            rcases names value found with ⟨texts, rfl⟩
            refine ⟨texts, rfl, ?_, ?_⟩
            · intro every names name isNames member
              simp only [Json.get, found] at isNames
              cases isNames
              rcases List.mem_map.mp member with ⟨text, isText, same⟩
              cases same
              exact every name isText
            · exact fun every name member => every _ name (congrArg Except.ok found)
                (List.mem_map_of_mem member)
      rcases properties with ⟨entries, areEntries, each, printed, found⟩
      rcases required with ⟨texts, areTexts, present⟩
      have conforms : Passes (.obj fields) (.obj given) ↔
          python.checkRequired given (texts.map .str) = .ok none ∧ python.checkEach entries given =
            .ok none := by
        rw [python.checkRequired_none, python.checkEach_none each printed, present]
        constructor
        · rintro ⟨_, ⟨⟩, all, every⟩
          refine ⟨all, fun name value member => ?_⟩
          rcases every name value member with ⟨properties, rule, isProperties, here, accepted⟩
          exact ⟨rule, (found name rule).mpr ⟨properties, isProperties, here⟩, accepted⟩
        · rintro ⟨all, every⟩
          refine ⟨given, rfl, all, fun name value member => ?_⟩
          rcases every name value member with ⟨rule, here, accepted⟩
          rcases (found name rule).mp here with ⟨properties, isProperties, inside⟩
          exact ⟨properties, rule, isProperties, inside, accepted⟩
      rw [conforms]
      simp only [bind, Except.bind, Json.get, areEntries, areTexts]
      rcases python.checkRequired_ok given texts with ⟨problem, checked⟩
      rw [checked]
      cases problem with
      | some problem =>
          refine iff_of_false ?_ ?_
          · rintro ⟨⟩
          · rintro ⟨⟨⟩, _⟩
      | none => exact ⟨fun rest => ⟨rfl, rest⟩, fun both => both.2⟩
  | _ =>
      refine iff_of_false ?_ ?_
      · rintro ⟨⟩
      · rintro ⟨_, ⟨⟩, _⟩

end Python

/-! ## The difference -/

section Difference

variable {schema arguments : Json}

/-- A rule for a given argument is one of the schema, with the bounds that a
covered schema has. -/
theorem Ruled.covered (covered : Covered schema) {rule value : Json}
    (ruled : Ruled schema arguments rule value) : CoveredRule rule := by
  rcases covered.shape with ⟨fields, rfl, rules, _⟩
  rcases ruled with ⟨_, properties, name, _, _, isProperties, found⟩
  rcases rules (.obj properties) (Except.ok.inj isProperties) with ⟨entries, same, each⟩
  cases same
  exact each (name, rule) (Dict.find_mem name rule properties found)

/-- A bound is compared only where the argument is a number, and it is one. -/
theorem CoveredRule.compares {rule value : Json} (covered : CoveredRule rule) {type : JsonType}
    (isType : rule.get "type" = .ok (some (.str type.name))) (typed : HasType type value) (key : String)
    (bound : Json) (isKey : key ∈ ["minimum", "maximum"]) (found : rule.get key = .ok (some bound)) :
    (number? value).isSome ∧ (number? bound).isSome := by
  rcases covered.typed with ⟨fields, declared, rfl, isDeclared, bounds, _⟩
  have same := JsonType.name_injective
    (Json.str.inj (Option.some.inj ((Except.ok.inj isType).symm.trans isDeclared)))
  rcases bounds key isKey bound (Except.ok.inj found) with ⟨numeric, isNumber⟩
  rw [← same] at numeric
  exact ⟨isInstance_number numeric ((isInstance_iff type value).mpr (Or.inl typed)), isNumber⟩

/-- What a schema describes is what passes with no boolean among numbers and no
NaN against a bound. -/
theorem valid_iff (covered : Covered schema) :
    Valid schema arguments ↔ Passes schema arguments ∧ BooleanFree schema arguments ∧
      NanFree schema arguments := by
  constructor
  · rintro ⟨given, isObject, required, every⟩
    -- the rule of an argument is the one it was accepted by
    have accepted : ∀ rule value, Ruled schema arguments rule value → Accepts AtMost HasType rule value := by
      rintro rule value ⟨others, properties, name, sameObject, member, isProperties, found⟩
      cases isObject.symm.trans sameObject
      rcases every name value member with ⟨same, other, isSame, foundOther, accepted⟩
      cases isProperties.symm.trans isSame
      cases found.symm.trans foundOther
      exact accepted
    refine ⟨⟨given, isObject, required, fun name value member => ?_⟩, ?_, ?_⟩
    · rcases every name value member with ⟨properties, rule, isProperties, found, accepts⟩
      have ruled : Ruled schema arguments rule value :=
        ⟨given, properties, name, isObject, member, isProperties, found⟩
      rcases accepts.typed with ⟨type, isType, typed⟩
      have compares := (ruled.covered covered).compares isType typed
      refine ⟨properties, rule, isProperties, found, accepts.typed, fun bound isBound => ?_,
        fun bound isBound => ?_,
        fun type item isItem => Or.inl (accepts.items type item isItem)⟩
      · have numbers := compares "minimum" bound List.mem_cons_self isBound
        exact ((AtMost.iff_passes numbers.2 numbers.1).mp (accepts.minimum bound isBound)).1
      · have numbers := compares "maximum" bound (List.mem_cons_of_mem _ List.mem_cons_self) isBound
        exact ((AtMost.iff_passes numbers.1 numbers.2).mp (accepts.maximum bound isBound)).1
    · intro rule value type item ruled isItem numeric
      exact ((accepted rule value ruled).items type item isItem).not_bool numeric
    · intro rule value key bound ruled isKey isBound
      rcases (accepted rule value ruled).typed with ⟨type, isType, typed⟩
      have numbers := (ruled.covered covered).compares isType typed key bound isKey isBound
      rcases List.mem_cons.mp isKey with rfl | rest
      · exact ((AtMost.iff_passes numbers.2 numbers.1).mp
          ((accepted rule value ruled).minimum bound isBound)).2.symm
      · cases List.mem_singleton.mp rest
        exact ((AtMost.iff_passes numbers.1 numbers.2).mp ((accepted rule value ruled).maximum bound isBound)).2
  · rintro ⟨⟨given, isObject, required, every⟩, booleanFree, nanFree⟩
    refine ⟨given, isObject, required, fun name value member => ?_⟩
    rcases every name value member with ⟨properties, rule, isProperties, found, accepts⟩
    have ruled : Ruled schema arguments rule value :=
      ⟨given, properties, name, isObject, member, isProperties, found⟩
    rcases accepts.typed with ⟨type, isType, typed⟩
    have compares := (ruled.covered covered).compares isType typed
    refine ⟨properties, rule, isProperties, found, accepts.typed, fun bound isBound => ?_,
      fun bound isBound => ?_,
      fun type item isItem => ?_⟩
    · have isKey : "minimum" ∈ ["minimum", "maximum"] := List.mem_cons_self
      have numbers := compares "minimum" bound isKey isBound
      exact (AtMost.iff_passes numbers.2 numbers.1).mpr
        ⟨accepts.minimum bound isBound, (nanFree rule value _ bound ruled isKey isBound).symm⟩
    · have isKey : "maximum" ∈ ["minimum", "maximum"] := List.mem_cons_of_mem _ List.mem_cons_self
      have numbers := compares "maximum" bound isKey isBound
      exact (AtMost.iff_passes numbers.1 numbers.2).mpr
        ⟨accepts.maximum bound isBound, nanFree rule value _ bound ruled isKey isBound⟩
    · rcases accepts.items type item isItem with isOne | ⟨numeric, boolean⟩
      · exact isOne
      · have never := booleanFree rule value type item ruled isItem numeric
        rw [boolean] at never
        cases never

end Difference

namespace Python

variable (python : Python)

/-- Checking raises nothing, and accepts what the schema describes unless a
boolean among the items of an array, or NaN against a bound, is all there is to
refuse. -/
theorem checkArguments_exact {schema : Json} (covered : Covered schema) (arguments : Json) :
    (∃ problem, python.checkArguments schema arguments = .ok problem) ∧
      ((python.checkArguments schema arguments = .ok none ↔ Valid schema arguments) ↔
        (BooleanFree schema arguments ∧ NanFree schema arguments) ∨ ¬ Passes schema arguments) := by
  refine ⟨python.checkArguments_ok covered arguments, ?_⟩
  rw [python.checkArguments_none covered, valid_iff covered]
  tauto

section Sample

/-- An array of integers. -/
def countsRule : Json := .obj [("type", .str "array"), ("items", .obj [("type", .str "integer")])]

def countsSchema : Json := .obj [("type", .str "object"), ("properties", .obj [("xs", countsRule)])]

theorem countsSchema_covered : Covered countsSchema := by
  have rule : CoveredRule countsRule := by
    refine ⟨_, .array, rfl, rfl, ?_, ?_⟩
    · intro key isKey bound found
      rcases List.mem_cons.mp isKey with rfl | rest
      · cases found
      · cases List.mem_singleton.mp rest
        cases found
    · rintro _ items found
      cases found
      exact ⟨_, .integer, rfl, rfl⟩
  refine ⟨rfl, _, rfl, ?_, ?_⟩
  · intro properties found
    cases found
    refine ⟨_, rfl, fun entry member => ?_⟩
    cases List.mem_singleton.mp member
    exact rule
  · intro required found
    cases found

theorem checkArguments_exact_counts :
    (∃ problem, McpServer.barePython.checkArguments countsSchema (.obj [("xs", .arr [.int 3])]) = .ok problem) ∧
      ((McpServer.barePython.checkArguments countsSchema (.obj [("xs", .arr [.int 3])]) = .ok none ↔
        Valid countsSchema (.obj [("xs", .arr [.int 3])])) ↔
        (BooleanFree countsSchema (.obj [("xs", .arr [.int 3])]) ∧
          NanFree countsSchema (.obj [("xs", .arr [.int 3])])) ∨
          ¬ Passes countsSchema (.obj [("xs", .arr [.int 3])])) :=
  McpServer.barePython.checkArguments_exact countsSchema_covered _

/-- A boolean among integers is accepted. -/
theorem boolean_item_accepted :
    ¬ ∀ (python : Python) (schema arguments : Json), Covered schema →
      (∃ problem, python.checkArguments schema arguments = .ok problem) ∧
        (python.checkArguments schema arguments = .ok none ↔ Valid schema arguments) := by
  intro claim
  have accepted : McpServer.barePython.checkArguments countsSchema (.obj [("xs", .arr [.bool true])]) =
    .ok none := rfl
  have valid := (claim _ _ _ countsSchema_covered).2.mp accepted
  have free := ((valid_iff countsSchema_covered).mp valid).2.1 countsRule (.arr [.bool true]) .integer
    (.bool true)
    ⟨_, _, "xs", rfl, List.mem_cons_self, rfl, rfl⟩ ⟨_, _, rfl, rfl, rfl, List.mem_cons_self⟩ (Or.inl rfl)
  cases free

end Sample

end Python
end Mcp
end VectorSearch
