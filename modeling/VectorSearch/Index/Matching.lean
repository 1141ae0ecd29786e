import Mathlib.Data.List.Induction
import VectorSearch.Filtering
import VectorSearch.Index.Shard
import VectorSearch.Lib.Stateful

namespace VectorSearch

/-!
# What the payload index answers

The index is read up to date before each filtered search.  It lists a local id
under a key exactly if the payload at that position has the key, so the mask it
gives for a filter in normal form marks exactly the payloads that match.
-/

open Stateful

/-! ## Matching, without an index -/

/-- A payload that can be read: empty, or JSON text. -/
def Readable (text : String) : Prop := text = "" ∨ ∃ value, PyValue.loads text = some value

/-- The payload is an object, and each field of the filter holds one of the
values wanted for it, or a list with one of them. -/
def Filter.Matches (filter : Filter) (text : String) : Prop :=
  text ≠ "" ∧ ∃ entries, PyValue.loads text = some (.dict entries) ∧
    ∀ wanted ∈ filter.entries, ∃ value, (PyKey.str wanted.1, value) ∈ entries ∧
      ∃ item ∈ itemsOf value, ∃ scalar ∈ wanted.2, item = scalar.toPyValue

/-- A value that the index has a key for. -/
def Scalar.Indexable : Scalar → Prop
  | .str value => value.length ≤ maxIndexedChars
  | .bool _ => True
  | .int _ => True

theorem keyOf_scalar (field : String) {scalar : Scalar} (indexable : scalar.Indexable) :
    keyOf field scalar.toPyValue = some (field, scalar) := by
  cases scalar with
  | str value => exact if_pos indexable
  | bool value => rfl
  | int value => rfl

theorem keyOf_some {field name : String} {item : PyValue} {scalar : Scalar}
    (found : keyOf field item = some (name, scalar)) :
    name = field ∧ item = scalar.toPyValue ∧ scalar.Indexable := by
  unfold keyOf at found
  split at found
  · split at found
    · rename_i short
      cases found
      exact ⟨rfl, rfl, short⟩
    · cases found
  · cases found
    exact ⟨rfl, rfl, trivial⟩
  · cases found
    exact ⟨rfl, rfl, trivial⟩
  · cases found

/-! ## Filters in normal form -/

/-- A filter with a field, whose values the index all has keys for. -/
structure Filter.Normal (filter : Filter) : Prop where
  nonempty : filter.entries ≠ []
  indexable : ∀ wanted ∈ filter.entries, ∀ scalar ∈ wanted.2, scalar.Indexable

theorem normalizeValues_indexable {field : String} {values : List PyValue} {scalars : List Scalar}
    (normalized : normalizeValues field values = .ok scalars) : ∀ scalar ∈ scalars, scalar.Indexable := by
  induction values generalizing scalars with
  | nil =>
      cases normalized
      exact fun scalar impossible => absurd impossible List.not_mem_nil
  | cons value rest inductionHypothesis =>
      unfold normalizeValues at normalized
      split at normalized
      · cases normalized
      · rename_i name scalar found
        rcases gave_bind normalized with ⟨others, later, isScalars⟩
        cases isScalars
        intro other member
        rcases List.mem_cons.mp member with same | further
        · rw [same]
          exact (keyOf_some found).2.2
        · exact inductionHypothesis later other further

theorem normalizeFields_indexable (fields : List (PyKey × PyValue)) {start filter : Filter}
    (indexable : ∀ wanted ∈ start.entries, ∀ scalar ∈ wanted.2, scalar.Indexable)
    (normalized : normalizeFields fields start = .ok filter) :
    (∀ wanted ∈ filter.entries, ∀ scalar ∈ wanted.2, scalar.Indexable) ∧
      (fields ≠ [] ∨ start.entries ≠ [] → filter.entries ≠ []) := by
  induction fields generalizing start with
  | nil =>
      cases normalized
      exact ⟨indexable, fun either => either.resolve_left fun none => none rfl⟩
  | cons head rest inductionHypothesis =>
      rcases head with ⟨key, wanted⟩
      unfold normalizeFields at normalized
      split at normalized
      · rename_i field value values _
        rcases gave_bind normalized with ⟨scalars, valuesNormalized, later⟩
        have each := normalizeValues_indexable valuesNormalized
        have stored : ∀ other ∈ (start.set field scalars).entries, ∀ scalar ∈ other.2, scalar.Indexable := by
          intro other member
          have found := Dict.get?_eq_some_iff.mpr member
          rw [Dict.get?_set] at found
          split at found
          · rw [← Option.some.inj found]
            exact each
          · exact indexable other (Dict.get?_mem found)
        rcases inductionHypothesis stored later with ⟨filterIndexable, filterNonempty⟩
        refine ⟨filterIndexable, fun _ => filterNonempty (Or.inr ?_)⟩
        intro nothing
        have found : (start.set field scalars).get? field = some scalars := by rw [Dict.get?_set, if_pos rfl]
        rw [Dict.get?, nothing] at found
        cases found
      · cases normalized

/-- What `normalize_filter` returns is in normal form. -/
theorem normalizeFilter_normal {value : PyValue} {filter : Filter}
    (normalized : normalizeFilter value = .ok (some filter)) : filter.Normal := by
  unfold normalizeFilter at normalized
  split at normalized
  · cases normalized
  · rename_i truthy
    split at normalized
    · rename_i entries
      rcases gave_bind normalized with ⟨result, fields, isFilter⟩
      cases isFilter
      have given := normalizeFields_indexable entries
        (fun wanted member => absurd member List.not_mem_nil) fields
      refine ⟨given.2 (Or.inl ?_), given.1⟩
      intro nothing
      rw [nothing] at truthy
      exact truthy rfl
    · cases normalized

theorem normalizeValues_toPyValue (field : String) {scalars : List Scalar}
    (indexable : ∀ scalar ∈ scalars, scalar.Indexable) :
    normalizeValues field (scalars.map Scalar.toPyValue) = .ok scalars := by
  induction scalars with
  | nil => rfl
  | cons scalar rest inductionHypothesis =>
      have later := inductionHypothesis fun other member => indexable other (List.mem_cons_of_mem _ member)
      rw [List.map_cons, normalizeValues, keyOf_scalar field (indexable scalar List.mem_cons_self)]
      simp only [later]
      rfl

theorem normalizeValues_nonempty {field : String} {value : PyValue} {values : List PyValue}
    {scalars : List Scalar}
    (normalized : normalizeValues field (value :: values) = .ok scalars) : scalars ≠ [] := by
  unfold normalizeValues at normalized
  split at normalized
  · cases normalized
  · rcases gave_bind normalized with ⟨others, _, isScalars⟩
    cases isScalars
    exact List.cons_ne_nil _ _

theorem normalizeFields_cons {field : String} {wanted : PyValue} {scalars : List Scalar}
    (nonempty : itemsOf wanted ≠ []) (given : normalizeValues field (itemsOf wanted) = .ok scalars)
    (rest : List (PyKey × PyValue)) (start : Filter) :
    normalizeFields ((.str field, wanted) :: rest) start = normalizeFields rest (start.set field scalars) := by
  cases items : itemsOf wanted with
  | nil => exact absurd items nonempty
  | cons value values =>
      rw [items] at given
      conv_lhs => unfold normalizeFields
      simp only [items, given]
      rfl

/-- Every field of a normalized filter accepts some value. -/
theorem normalizeFields_nonempty (fields : List (PyKey × PyValue)) {start filter : Filter}
    (nonempty : ∀ wanted ∈ start.entries, wanted.2 ≠ [])
    (normalized : normalizeFields fields start = .ok filter) :
    ∀ wanted ∈ filter.entries, wanted.2 ≠ [] := by
  induction fields generalizing start with
  | nil =>
      cases normalized
      exact nonempty
  | cons head rest inductionHypothesis =>
      rcases head with ⟨key, wanted⟩
      unfold normalizeFields at normalized
      split at normalized
      · rename_i field value values _
        rcases gave_bind normalized with ⟨scalars, valuesNormalized, later⟩
        apply inductionHypothesis _ later
        intro other member
        have found := Dict.get?_eq_some_iff.mpr member
        rw [Dict.get?_set] at found
        split at found
        · rw [← Option.some.inj found]
          exact normalizeValues_nonempty valuesNormalized
        · exact nonempty other (Dict.get?_mem found)
      · cases normalized

/-! ### The conditions a filter was made from -/

/-- The fields of a payload meet every condition: one of the items is wanted. -/
def Fulfils (conditions entries : List (PyKey × PyValue)) : Prop :=
  ∀ condition ∈ conditions, ∃ value, (condition.1, value) ∈ entries ∧
    ∃ item ∈ itemsOf value, item ∈ itemsOf condition.2

theorem normalizeValues_ok {field : String} {values : List PyValue} {scalars : List Scalar}
    (normalized : normalizeValues field values = .ok scalars) : scalars.map Scalar.toPyValue = values := by
  induction values generalizing scalars with
  | nil =>
      cases normalized
      rfl
  | cons value rest inductionHypothesis =>
      unfold normalizeValues at normalized
      split at normalized
      · cases normalized
      · rename_i name scalar found
        rcases gave_bind normalized with ⟨others, later, isScalars⟩
        cases isScalars
        rw [List.map_cons, inductionHypothesis later, ← (keyOf_some found).2.1]

/-- The fields of a normal form are the conditions in their order. -/
theorem normalizeFields_ok {conditions : List (PyKey × PyValue)} {start filter : Filter}
    (distinct : (conditions.map Prod.fst).Nodup)
    (new : ∀ field ∈ start.keys, PyKey.str field ∉ conditions.map Prod.fst)
    (normalized : normalizeFields conditions start = .ok filter) :
    ∃ added, filter.entries = start.entries ++ added ∧
      List.Forall₂ (fun condition entry => condition.1 = PyKey.str entry.1 ∧
        entry.2.map Scalar.toPyValue = itemsOf condition.2) conditions added := by
  induction conditions generalizing start with
  | nil =>
      cases normalized
      exact ⟨[], (List.append_nil _).symm, .nil⟩
  | cons condition rest inductionHypothesis =>
      rcases condition with ⟨key, wanted⟩
      rcases List.nodup_cons.mp distinct with ⟨newKey, restDistinct⟩
      unfold normalizeFields at normalized
      split at normalized
      · rename_i field value values isItems
        rcases gave_bind normalized with ⟨scalars, given, later⟩
        have notOld : field ∉ start.keys := fun old => new field old List.mem_cons_self
        have isSet : (start.set field scalars).entries = start.entries ++ [(field, scalars)] :=
          Dict.update_new field scalars start.entries notOld
        have restNew : ∀ other ∈ (start.set field scalars).keys, PyKey.str other ∉ rest.map Prod.fst := by
          intro other isKey
          rcases (Dict.mem_keys_set start field other scalars).mp isKey with rfl | old
          · exact newKey
          · exact fun member => new other old (List.mem_cons_of_mem _ member)
        rcases inductionHypothesis restDistinct restNew later with ⟨added, isFilter, each⟩
        refine ⟨(field, scalars) :: added, ?_, .cons ⟨rfl, ?_⟩ each⟩
        · rw [isFilter, isSet, List.append_assoc, List.singleton_append]
        · rw [normalizeValues_ok given, ← isItems]
      · cases normalized

/-- A payload matches a filter if its fields meet the conditions. -/
theorem normalizeFilter_matches {conditions : List (PyKey × PyValue)} {filter : Filter}
    (distinct : (conditions.map Prod.fst).Nodup)
    (normalized : normalizeFilter (.dict conditions) = .ok (some filter)) (text : String) :
    filter.Matches text ↔ text ≠ "" ∧ ∃ entries, PyValue.loads text = some (.dict entries) ∧
      Fulfils conditions entries := by
  have shape : ∃ added, filter.entries = added ∧ List.Forall₂ (fun condition entry =>
      condition.1 = PyKey.str entry.1 ∧ entry.2.map Scalar.toPyValue = itemsOf condition.2) conditions
        added := by
    unfold normalizeFilter at normalized
    split at normalized
    · cases normalized
    · rcases gave_bind normalized with ⟨result, fields, isFilter⟩
      cases isFilter
      exact normalizeFields_ok distinct (fun _ member => absurd member List.not_mem_nil) fields
  rcases shape with ⟨added, isAdded, each⟩
  have same : ∀ entries : List (PyKey × PyValue),
    (∀ wanted ∈ added, ∃ value, (PyKey.str wanted.1, value) ∈ entries ∧
      ∃ item ∈ itemsOf value, ∃ scalar ∈ wanted.2, item = scalar.toPyValue) ↔ Fulfils conditions entries := by
    intro entries
    clear isAdded normalized distinct
    unfold Fulfils
    induction each with
    | nil => simp only [List.not_mem_nil, false_imp_iff, implies_true]
    | @cons condition entry conditions added isEntry _ inductionHypothesis =>
        rw [List.forall_mem_cons, List.forall_mem_cons, inductionHypothesis, ← isEntry.1, ← isEntry.2]
        simp only [List.mem_map, eq_comm]
  unfold Filter.Matches
  simp only [isAdded, same]

/-! ## The index -/

namespace PayloadIndex

/-- The keys that a payload is listed under. -/
def keysOfText (text : String) : List Key :=
  if text = "" then []
  else
    match PyValue.loads text with
    | some (.dict entries) => keysOf entries
    | _ => []

theorem mem_keysOf {entries : List (PyKey × PyValue)} {field : String} {scalar : Scalar} :
    (field, scalar) ∈ keysOf entries ↔
      scalar.Indexable ∧ ∃ value, (PyKey.str field, value) ∈ entries ∧ scalar.toPyValue ∈ itemsOf value := by
  unfold keysOf
  rw [List.mem_flatMap]
  constructor
  · rintro ⟨⟨key, value⟩, member, found⟩
    dsimp only at found
    split at found
    · rename_i name
      rcases List.mem_filterMap.mp found with ⟨item, inItems, isKey⟩
      rcases keyOf_some isKey with ⟨isField, isItem, indexable⟩
      rw [isField]
      rw [isItem] at inItems
      exact ⟨indexable, value, member, inItems⟩
    · cases found
  · rintro ⟨indexable, value, member, inItems⟩
    exact ⟨(.str field, value), member, List.mem_filterMap.mpr ⟨_, inItems, keyOf_scalar field indexable⟩⟩

/-- A payload matches a filter if it has a wanted key for every field. -/
theorem matches_iff {filter : Filter} (normal : filter.Normal) (text : String) :
    filter.Matches text ↔ ∀ wanted ∈ filter.entries, ∃ scalar ∈ wanted.2, (wanted.1, scalar) ∈
      keysOfText text := by
  rcases List.exists_mem_of_ne_nil _ normal.nonempty with ⟨first, isFirst⟩
  unfold Filter.Matches keysOfText
  constructor
  · rintro ⟨nonempty, entries, loaded, fields⟩ wanted member
    rw [if_neg nonempty, loaded]
    rcases fields wanted member with ⟨value, inEntries, item, inItems, scalar, isWanted, isItem⟩
    rw [isItem] at inItems
    exact ⟨scalar, isWanted, mem_keysOf.mpr ⟨normal.indexable wanted member scalar isWanted,
      value, inEntries, inItems⟩⟩
  · intro keys
    rcases keys first isFirst with ⟨_, _, found⟩
    split at found
    · cases found
    · rename_i nonempty
      rw [if_neg nonempty] at keys
      refine ⟨nonempty, ?_⟩
      split at found
      · rename_i entries loaded
        refine ⟨entries, loaded, fun wanted member => ?_⟩
        rw [loaded] at keys
        rcases keys wanted member with ⟨scalar, isWanted, inKeys⟩
        rcases mem_keysOf.mp inKeys with ⟨_, value, inEntries, inItems⟩
        exact ⟨value, inEntries, _, inItems, scalar, isWanted, rfl⟩
      · cases found

/-- Each key lists the positions of the payloads with it, as far as they were read. -/
structure Indexed (payloads : List String) (index : PayloadIndex) : Prop where
  bound : index.indexed ≤ payloads.length
  listed : ∀ key localId, localId ∈ (index.ids.get? key).getD [] ↔
    localId < index.indexed ∧ ∃ text, payloads[localId]? = some text ∧ key ∈ keysOfText text

theorem init_indexed : Indexed [] init :=
  ⟨Nat.le_refl 0, fun _ _ => ⟨(fun impossible => nomatch impossible), fun both =>
    absurd both.1 (Nat.not_lt_zero _)⟩⟩

/-- Payloads are only added at the end. -/
theorem Indexed.append {payloads : List String} {index : PayloadIndex} (indexed : Indexed payloads index)
    (more : List String) : Indexed (payloads ++ more) index := by
  constructor
  · rw [List.length_append]
    exact Nat.le_trans indexed.bound (Nat.le_add_right _ _)
  · intro key localId
    rw [indexed.listed]
    apply and_congr_right
    intro read
    rw [List.getElem?_append_left (Nat.lt_of_lt_of_le read indexed.bound)]

theorem mem_record (ids : Dict Key (List Nat)) (localId : Nat) (key other : Key) (position : Nat) :
    position ∈ ((record ids localId key).get? other).getD [] ↔
      (other = key ∧ position = localId) ∨ position ∈ (ids.get? other).getD [] := by
  unfold record
  rw [Dict.get?_set]
  split
  · rename_i same
    rw [same, Option.getD_some, List.mem_append, List.mem_singleton]
    exact ⟨fun either => either.symm.imp_left fun new => ⟨rfl, new⟩, fun either =>
      either.symm.imp_right And.right⟩
  · rename_i different
    exact ⟨Or.inr, fun either => either.resolve_left fun same => different same.1⟩

theorem mem_recordAll (keys : List Key) (ids : Dict Key (List Nat)) (localId : Nat)
    (other : Key) (position : Nat) :
    position ∈ ((keys.foldl (record · localId) ids).get? other).getD [] ↔
      (other ∈ keys ∧ position = localId) ∨ position ∈ (ids.get? other).getD [] := by
  induction keys generalizing ids with
  | nil =>
      exact ⟨Or.inr, fun either => either.resolve_left fun impossible => absurd impossible.1 List.not_mem_nil⟩
  | cons key rest inductionHypothesis =>
      rw [List.foldl_cons, inductionHypothesis, mem_record, List.mem_cons]
      tauto

/-- Reading one payload. -/
theorem add_gives (index : PayloadIndex) (localId : Nat) {text : String} (readable : Readable text) :
    ∃ next, index.add localId text = .ok next ∧ next.indexed = index.indexed ∧ ∀ key position,
      position ∈ (next.ids.get? key).getD [] ↔
        (key ∈ keysOfText text ∧ position = localId) ∨ position ∈ (index.ids.get? key).getD [] := by
  unfold add keysOfText
  by_cases empty : text = ""
  · simp only [if_pos empty]
    exact ⟨index, rfl, rfl, fun key position =>
      ⟨Or.inr, fun either => either.resolve_left fun impossible => absurd impossible.1 List.not_mem_nil⟩⟩
  · simp only [if_neg empty]
    rcases readable.resolve_left empty with ⟨value, loaded⟩
    rw [loaded]
    split
    · cases ‹some value = none›
    · rename_i entries isDict
      cases isDict
      exact ⟨_, rfl, rfl, fun key position => mem_recordAll _ index.ids localId key position⟩
    · rename_i other notDict isValue
      cases isValue
      refine ⟨index, rfl, rfl, fun key position => ?_⟩
      split
      · rename_i entries isDict
        cases isDict
        exact absurd rfl (notDict entries)
      · exact ⟨Or.inr, fun either => either.resolve_left fun impossible => absurd impossible.1 List.not_mem_nil⟩

/-- Reading the payloads from a position on. -/
theorem addAll_gives (texts : List String) (readable : ∀ text ∈ texts, Readable text) (index : PayloadIndex)
    (start : Nat) :
    ∃ next, index.addAll start texts = (next, none) ∧ next.indexed = index.indexed ∧ ∀ key position,
      position ∈ (next.ids.get? key).getD [] ↔
        (∃ offset text, texts[offset]? = some text ∧ position = start + offset ∧ key ∈ keysOfText text) ∨
          position ∈ (index.ids.get? key).getD [] := by
  induction texts generalizing index start with
  | nil =>
      refine ⟨index, rfl, rfl, fun key position => ⟨Or.inr, fun either => either.resolve_left ?_⟩⟩
      rintro ⟨_, _, impossible, _⟩
      cases impossible
  | cons text rest inductionHypothesis =>
      rcases add_gives index start (readable text List.mem_cons_self) with ⟨middle, added, sameMiddle, first⟩
      rcases inductionHypothesis (fun other member => readable other (List.mem_cons_of_mem _ member)) middle
        (start + 1) with ⟨next, addedRest, sameNext, later⟩
      refine ⟨next, ?_, sameNext.trans sameMiddle, ?_⟩
      · unfold addAll
        rw [added]
        exact addedRest
      · intro key position
        rw [later, first]
        constructor
        · rintro (⟨offset, other, atOffset, isPosition, hasKey⟩ | ⟨hasKey, isStart⟩ | old)
          · exact Or.inl ⟨offset + 1, other, atOffset, by omega, hasKey⟩
          · exact Or.inl ⟨0, text, rfl, by omega, hasKey⟩
          · exact Or.inr old
        · rintro (⟨offset, other, atOffset, isPosition, hasKey⟩ | old)
          · cases offset with
            | zero =>
                cases atOffset
                exact Or.inr (Or.inl ⟨hasKey, isPosition⟩)
            | succ offset => exact Or.inl ⟨offset, other, atOffset, by omega, hasKey⟩
          · exact Or.inr (Or.inr old)

/-- Catching up reads every payload, and lists each under its keys. -/
theorem catchUp_returns {payloads : List String} (readable : ∀ text ∈ payloads, Readable text)
    {index : PayloadIndex} (indexed : Indexed payloads index) :
    ∃ next, catchUp payloads index = .ok () next ∧ next.indexed = payloads.length ∧ Indexed payloads next := by
  have restReadable : ∀ text ∈ payloads.drop index.indexed, Readable text := fun text member =>
    readable text (List.mem_of_mem_drop member)
  rcases addAll_gives _ restReadable index index.indexed with ⟨next, added, _, listed⟩
  refine ⟨{ next with indexed := payloads.length }, ?_, rfl, Nat.le_refl _, ?_⟩
  · simp only [catchUp, bind, EStateM.bind, get_run, added, set_run]
  · intro key localId
    change localId ∈ (next.ids.get? key).getD [] ↔ localId < payloads.length ∧ _
    rw [listed, indexed.listed]
    constructor
    · rintro (⟨offset, text, atOffset, isId, hasKey⟩ | ⟨read, text, atId, hasKey⟩)
      · rw [List.getElem?_drop, ← isId] at atOffset
        exact ⟨(List.getElem?_eq_some_iff.mp atOffset).1, text, atOffset, hasKey⟩
      · exact ⟨Nat.lt_of_lt_of_le read indexed.bound, text, atId, hasKey⟩
    · rintro ⟨inside, text, atId, hasKey⟩
      by_cases read : localId < index.indexed
      · exact Or.inr ⟨read, text, atId, hasKey⟩
      · have isId : localId = index.indexed + (localId - index.indexed) := by omega
        refine Or.inl ⟨localId - index.indexed, text, ?_, isId, hasKey⟩
        rw [List.getElem?_drop, ← isId]
        exact atId

/-! ## Masks -/

/-- The mask has one entry per position, true where the position is chosen. -/
structure Marks (size : Nat) (chosen : Nat → Prop) (mask : List Bool) : Prop where
  length : mask.length = size
  true_iff : ∀ position, mask[position]? = some true ↔ position < size ∧ chosen position

theorem Marks.imp {size : Nat} {chosen other : Nat → Prop} {mask : List Bool} (marks : Marks size chosen mask)
    (same : ∀ position, position < size → (chosen position ↔ other position)) : Marks size other mask :=
  ⟨marks.length, fun position => (marks.true_iff position).trans (and_congr_right (same position))⟩

theorem marks_replicate (size : Nat) (value : Bool) :
    Marks size (fun _ => value = true) (List.replicate size value) := by
  refine ⟨List.length_replicate, fun position => ?_⟩
  rw [List.getElem?_replicate]
  split
  · rename_i inside
    exact ⟨fun same => ⟨inside, Option.some.inj same⟩, fun both => congrArg some both.2⟩
  · rename_i outside
    exact ⟨(fun impossible => nomatch impossible), fun both => absurd both.1 outside⟩

theorem Marks.mark {size : Nat} {chosen : Nat → Prop} {mask : List Bool} (marks : Marks size chosen mask)
    {ids : List Nat} (inside : ∀ localId ∈ ids, localId < size) :
    Gives (mark mask ids) (Marks size fun position => chosen position ∨ position ∈ ids) := by
  unfold PayloadIndex.mark
  have allInside : (ids.all fun localId => decide (localId < mask.length)) = true := by
    rw [List.all_eq_true]
    intro localId member
    rw [decide_eq_true_eq, marks.length]
    exact inside localId member
  rw [if_pos allInside]
  refine Gives.pure ⟨by rw [List.length_mapIdx, marks.length], fun position => ?_⟩
  rw [List.getElem?_mapIdx]
  have marked := marks.true_iff position
  cases old : mask[position]? with
  | none =>
      have outside : ¬ position < size := by
        rw [← marks.length]
        exact Nat.not_lt_of_le (List.getElem?_eq_none_iff.mp old)
      exact ⟨(fun impossible => nomatch impossible), fun both => absurd both.1 outside⟩
  | some value =>
      have within : position < size := by
        rw [← marks.length]
        exact (List.getElem?_eq_some_iff.mp old).1
      rw [old] at marked
      rw [Option.map_some, Option.some.injEq, Bool.or_eq_true, List.contains_iff_mem]
      rw [Option.some.injEq] at marked
      rw [marked]
      tauto

theorem Marks.and {size : Nat} {left right : Nat → Prop} {leftMask rightMask : List Bool}
    (leftMarks : Marks size left leftMask) (rightMarks : Marks size right rightMask) :
    Marks size (fun position => left position ∧ right position) (List.zipWith (· && ·) leftMask rightMask) := by
  refine ⟨by rw [List.length_zipWith, leftMarks.length, rightMarks.length, Nat.min_self], fun position => ?_⟩
  rw [List.getElem?_zipWith]
  have isLeft := leftMarks.true_iff position
  have isRight := rightMarks.true_iff position
  cases first : leftMask[position]? with
  | none =>
      have outside : ¬ position < size := by
        rw [← leftMarks.length]
        exact Nat.not_lt_of_le (List.getElem?_eq_none_iff.mp first)
      exact ⟨(fun impossible => nomatch impossible), fun both => absurd both.1 outside⟩
  | some value =>
      cases second : rightMask[position]? with
      | none =>
          have outside : ¬ position < size := by
            rw [← rightMarks.length]
            exact Nat.not_lt_of_le (List.getElem?_eq_none_iff.mp second)
          exact ⟨(fun impossible => nomatch impossible), fun both => absurd both.1 outside⟩
      | some other =>
          rw [first, Option.some.injEq] at isLeft
          rw [second, Option.some.injEq] at isRight
          change some (value && other) = some true ↔ _
          rw [Option.some.injEq, Bool.and_eq_true, isLeft, isRight]
          tauto

/-- The positions of the payloads with one of the keys of a field. -/
theorem hasField_gives {payloads : List String} {index : PayloadIndex} (indexed : Indexed payloads index)
    (read : index.indexed = payloads.length) (field : String) (values : List Scalar) :
    Gives (index.hasField payloads.length field values) (Marks payloads.length fun position =>
      ∃ scalar ∈ values, ∃ text, payloads[position]? = some text ∧ (field, scalar) ∈ keysOfText text) := by
  suffices run : ∀ (later : List Scalar) (chosen : Nat → Prop) (mask : List Bool),
      Marks payloads.length chosen mask →
      Gives (later.foldlM (fun mask value => mark mask ((index.ids.get? (field, value)).getD [])) mask)
        (Marks payloads.length fun position => chosen position ∨
          ∃ scalar ∈ later, ∃ text, payloads[position]? = some text ∧ (field, scalar) ∈ keysOfText text) by
    apply (run values _ _ (marks_replicate payloads.length false)).imp
    intro mask marks
    exact marks.imp fun position _ => ⟨fun either => either.resolve_left Bool.false_ne_true, Or.inr⟩
  intro later
  induction later with
  | nil =>
      intro chosen mask marks
      refine Gives.pure (marks.imp fun position _ => ⟨Or.inl, fun either => either.resolve_right ?_⟩)
      rintro ⟨_, impossible, _⟩
      cases impossible
  | cons scalar rest inductionHypothesis =>
      intro chosen mask marks
      rw [List.foldlM_cons]
      have inside : ∀ localId ∈ (index.ids.get? (field, scalar)).getD [], localId < payloads.length := by
        intro localId member
        rw [← read]
        exact ((indexed.listed _ localId).mp member).1
      apply Gives.bind (marks.mark inside)
      intro next nextMarks
      apply (inductionHypothesis _ next nextMarks).imp
      intro final finalMarks
      apply finalMarks.imp
      intro position within
      rw [indexed.listed, read]
      constructor
      · rintro ((old | ⟨_, text, atPosition, hasKey⟩) | ⟨other, member, found⟩)
        · exact Or.inl old
        · exact Or.inr ⟨scalar, List.mem_cons_self, text, atPosition, hasKey⟩
        · exact Or.inr ⟨other, List.mem_cons_of_mem _ member, found⟩
      · rintro (old | ⟨other, member, text, atPosition, hasKey⟩)
        · exact Or.inl (Or.inl old)
        · rcases List.mem_cons.mp member with same | later
          · rw [same] at hasKey
            exact Or.inl (Or.inr ⟨within, text, atPosition, hasKey⟩)
          · exact Or.inr ⟨other, later, text, atPosition, hasKey⟩

/-- The mask of a filter marks the payloads that match it. -/
theorem matching_gives {payloads : List String} {index : PayloadIndex} (indexed : Indexed payloads index)
    (read : index.indexed = payloads.length) {filter : Filter} (normal : filter.Normal) :
    Gives (index.matching filter payloads.length) (Marks payloads.length fun position =>
      ∃ text, payloads[position]? = some text ∧ filter.Matches text) := by
  suffices run : ∀ (later : List (String × List Scalar)) (chosen : Nat → Prop) (mask : List Bool),
      Marks payloads.length chosen mask →
      Gives (later.foldlM (fun allowed entry => do
          let mask ← index.hasField payloads.length entry.1 entry.2
          return List.zipWith (· && ·) allowed mask) mask)
        (Marks payloads.length fun position => chosen position ∧
          ∀ wanted ∈ later, ∃ scalar ∈ wanted.2, ∃ text, payloads[position]? = some text ∧
            (wanted.1, scalar) ∈ keysOfText text) by
    apply (run filter.entries _ _ (marks_replicate payloads.length true)).imp
    intro mask marks
    apply marks.imp
    intro position within
    have atPosition : payloads[position]? = some payloads[position] := List.getElem?_eq_getElem within
    rw [atPosition]
    constructor
    · rintro ⟨_, fields⟩
      refine ⟨payloads[position], rfl, (matches_iff normal _).mpr fun wanted member => ?_⟩
      rcases fields wanted member with ⟨scalar, isWanted, text, same, hasKey⟩
      cases same
      exact ⟨scalar, isWanted, hasKey⟩
    · rintro ⟨text, same, matched⟩
      cases same
      refine ⟨rfl, fun wanted member => ?_⟩
      rcases (matches_iff normal _).mp matched wanted member with ⟨scalar, isWanted, hasKey⟩
      exact ⟨scalar, isWanted, _, rfl, hasKey⟩
  intro later
  induction later with
  | nil =>
      intro chosen mask marks
      exact Gives.pure (marks.imp fun position _ =>
        ⟨fun chosen => ⟨chosen, fun _ impossible => nomatch impossible⟩, And.left⟩)
  | cons entry rest inductionHypothesis =>
      intro chosen mask marks
      rw [List.foldlM_cons]
      rcases hasField_gives indexed read entry.1 entry.2 with ⟨fieldMask, given, fieldMarks⟩
      rw [given]
      apply (inductionHypothesis _ _ (marks.and fieldMarks)).imp
      intro final finalMarks
      apply finalMarks.imp
      intro position within
      rw [List.forall_mem_cons]
      exact and_assoc

end PayloadIndex

/-! ## The positions of a mask -/

namespace Shard

open PayloadIndex

/-- `np.count_nonzero` counts the positions. -/
theorem flatnonzero_length (mask : List Bool) : (flatnonzero mask).length = mask.count true := by
  unfold flatnonzero
  induction mask using List.reverseRecOn with
  | nil => rfl
  | append_singleton mask value inductionHypothesis =>
      have before : ((List.range mask.length).filter fun i => decide ((mask ++ [value])[i]? = some true)) =
          (List.range mask.length).filter fun i => decide (mask[i]? = some true) := by
        apply List.filter_congr
        intro i member
        rw [List.getElem?_append_left (List.mem_range.mp member)]
      have last : (mask ++ [value])[mask.length]? = some value := by
        rw [List.getElem?_append_right (Nat.le_refl _), Nat.sub_self]
        rfl
      rw [List.length_append, List.length_singleton, List.range_succ, List.filter_append,
        before, List.length_append,
        inductionHypothesis, List.count_append]
      congr 1
      rw [List.filter_cons, List.filter_nil, last]
      cases value <;> rfl

end Shard
end VectorSearch
