import VectorSearch.Index.Matching
import VectorSearch.Lib.JsonRoundTrip

namespace VectorSearch

/-!
# What a filter means

Payloads are appended, the index catches up now and then, and filters are
answered in between.  Whenever a filter is answered, the mask marks the payloads
that meet its conditions.  A filter with a condition that no index key stands for
is refused, when it is normalized and when it arrives over the wire.
-/

open Stateful

/-! ## Which filters are accepted -/

/-- A value there is an index key for. -/
def HasKey (item : PyValue) : Prop := ∃ scalar : Scalar, scalar.Indexable ∧ item = scalar.toPyValue

/-- The filters the index can answer: every field has a name and at least one
wanted value, and there are keys for all of them. -/
def Answerable : PyValue → Prop
  | .dict conditions => ∀ condition ∈ conditions, (∃ field, condition.1 = .str field) ∧
      itemsOf condition.2 ≠ [] ∧ ∀ item ∈ itemsOf condition.2, HasKey item
  | _ => False

theorem keyOf_isSome (field : String) {item : PyValue} : (∃ key, keyOf field item = some key) ↔
    HasKey item := by
  constructor
  · rintro ⟨⟨name, scalar⟩, found⟩
    exact ⟨scalar, (keyOf_some found).2.2, (keyOf_some found).2.1⟩
  · rintro ⟨scalar, indexable, rfl⟩
    exact ⟨_, keyOf_scalar field indexable⟩

theorem normalizeValues_accepts {field : String} {values : List PyValue} :
    (∃ scalars, normalizeValues field values = .ok scalars) ↔ ∀ item ∈ values, HasKey item := by
  induction values with
  | nil => exact iff_of_true ⟨[], rfl⟩ (fun _ impossible => nomatch impossible)
  | cons value rest inductionHypothesis =>
      rw [List.forall_mem_cons, ← inductionHypothesis, ← keyOf_isSome field]
      conv_lhs => unfold normalizeValues
      cases keyOf field value with
      | none =>
          constructor
          · rintro ⟨_, impossible⟩
            cases impossible
          · rintro ⟨⟨_, impossible⟩, _⟩
            cases impossible
      | some key =>
          constructor
          · rintro ⟨_, normalized⟩
            rcases gave_bind normalized with ⟨scalars, later, _⟩
            exact ⟨⟨key, rfl⟩, ⟨scalars, later⟩⟩
          · rintro ⟨_, ⟨scalars, later⟩⟩
            simp only [later]
            exact ⟨_, rfl⟩

theorem normalizeFields_accepts {conditions : List (PyKey × PyValue)} (start : Filter) :
    (∃ filter, normalizeFields conditions start = .ok filter) ↔ Answerable (.dict conditions) := by
  induction conditions generalizing start with
  | nil => exact iff_of_true ⟨start, rfl⟩ (fun _ impossible => nomatch impossible)
  | cons condition rest inductionHypothesis =>
      rcases condition with ⟨key, wanted⟩
      have parts : Answerable (.dict ((key, wanted) :: rest)) ↔
        ((∃ field, key = .str field) ∧ itemsOf wanted ≠ [] ∧
          ∀ item ∈ itemsOf wanted, HasKey item) ∧ Answerable (.dict rest) := List.forall_mem_cons
      rw [parts]
      conv_lhs => unfold normalizeFields
      constructor
      · rintro ⟨filter, normalized⟩
        split at normalized
        · rename_i field value values isItems
          rcases gave_bind normalized with ⟨scalars, given, later⟩
          refine ⟨⟨⟨field, rfl⟩, ?_, ?_⟩, (inductionHypothesis _).mp ⟨filter, later⟩⟩
          · rw [isItems]
            exact List.cons_ne_nil _ _
          · rw [isItems]
            exact normalizeValues_accepts.mp ⟨scalars, given⟩
        · cases normalized
      · rintro ⟨⟨⟨field, isField⟩, nonempty, indexed⟩, others⟩
        have given : ∃ scalars, normalizeValues field (itemsOf wanted) = .ok scalars :=
          normalizeValues_accepts.mpr indexed
        rcases given with ⟨scalars, given⟩
        rcases (inductionHypothesis (start.set field scalars)).mpr others with ⟨filter, later⟩
        refine ⟨filter, ?_⟩
        rw [← later, isField, ← normalizeFields_cons nonempty given]
        rfl

/-- Anything but an answerable filter is refused. -/
theorem normalizeFilter_refuses {value : PyValue} (truthy : value.truthy = true)
    (unanswerable : ¬ Answerable value) :
    ∃ error, normalizeFilter value = .error error := by
  cases normalized : normalizeFilter value with
  | error error => exact ⟨error, rfl⟩
  | ok normal =>
      unfold normalizeFilter at normalized
      rw [truthy, Bool.not_true, if_neg Bool.false_ne_true] at normalized
      split at normalized
      · rcases gave_bind normalized with ⟨filter, fields, _⟩
        exact absurd ((normalizeFields_accepts _).mp ⟨filter, fields⟩) unanswerable
      · cases normalized

theorem decodeFilter_eq {text : String} {value : PyValue} (loaded : PyValue.loads text = some value) :
    decodeFilter text = normalizeFilter value := by
  have nonempty : text ≠ "" := by
    rintro rfl
    cases loaded
  unfold decodeFilter
  rw [if_neg nonempty, loaded]

/-! ## Over the wire -/

theorem scalars_keyed (scalars : List Scalar) : PyValue.StringKeyedItems (scalars.map Scalar.toPyValue) := by
  induction scalars with
  | nil => exact trivial
  | cons scalar rest inductionHypothesis =>
      refine ⟨?_, inductionHypothesis⟩
      cases scalar <;> exact trivial

theorem Filter.toPyValue_keyed (filter : Filter) : filter.toPyValue.StringKeyed := by
  have entries : ∀ fields : List (String × List Scalar), PyValue.StringKeyedEntries
      (fields.map fun entry => (PyKey.str entry.1, PyValue.list (entry.2.map Scalar.toPyValue))) := by
    intro fields
    induction fields with
    | nil => exact trivial
    | cons field rest inductionHypothesis => exact ⟨⟨field.1, rfl⟩, scalars_keyed field.2, inductionHypothesis⟩
  refine ⟨?_, entries filter.entries⟩
  have names := filter.distinct.map fun _ _ => PyKey.str.inj
  rw [List.map_map] at names ⊢
  exact names

/-- Normalizing a normal form changes nothing. -/
theorem normalizeFields_normal {fields : List (String × List Scalar)}
    (indexable : ∀ wanted ∈ fields, ∀ scalar ∈ wanted.2, scalar.Indexable)
    (accepts : ∀ wanted ∈ fields, wanted.2 ≠ []) (start : Filter) :
    normalizeFields (fields.map fun entry => (PyKey.str entry.1, PyValue.list (entry.2.map Scalar.toPyValue)))
      start = .ok (fields.foldl (fun filter entry => filter.set entry.1 entry.2) start) := by
  induction fields generalizing start with
  | nil => rfl
  | cons wanted rest inductionHypothesis =>
      have given := normalizeValues_toPyValue wanted.1 (indexable wanted List.mem_cons_self)
      have some : itemsOf (.list (wanted.2.map Scalar.toPyValue)) ≠ [] := fun nothing =>
        accepts wanted List.mem_cons_self (List.map_eq_nil_iff.mp nothing)
      rw [List.map_cons, List.foldl_cons, ← inductionHypothesis
        (fun other member => indexable other (List.mem_cons_of_mem _ member))
        (fun other member => accepts other (List.mem_cons_of_mem _ member))]
      exact normalizeFields_cons some given _ start

/-- A normal form is its own normal form. -/
theorem normalizeFilter_again {value : PyValue} {filter : Filter}
    (normalized : normalizeFilter value = .ok (some filter)) :
    normalizeFilter filter.toPyValue = .ok (some filter) := by
  have normal := normalizeFilter_normal normalized
  have accepts : ∀ wanted ∈ filter.entries, wanted.2 ≠ [] := by
    unfold normalizeFilter at normalized
    split at normalized
    · cases normalized
    · split at normalized
      · rename_i entries _
        rcases gave_bind normalized with ⟨result, fields, isFilter⟩
        cases isFilter
        exact normalizeFields_nonempty entries (fun wanted member => absurd member List.not_mem_nil) fields
      · cases normalized
  have truthy : filter.toPyValue.truthy = true := by
    unfold Filter.toPyValue PyValue.truthy
    cases entries : filter.entries with
    | nil => exact absurd entries normal.nonempty
    | cons entry rest => rfl
  have again := normalizeFields_normal normal.indexable accepts Dict.empty
  have same : filter.entries.foldl (fun filter entry => filter.set entry.1 entry.2) Dict.empty = filter :=
    Dict.ofList_entries filter
  rw [same] at again
  unfold normalizeFilter
  rw [truthy]
  unfold Filter.toPyValue
  simp only [again]
  rfl

theorem encodeFilter_eq {value : PyValue} {filter : Filter}
    (normalized : normalizeFilter value = .ok (some filter)) :
    encodeFilter value = jsonDumps filter.toPyValue true := by
  simp only [encodeFilter, normalized, bind, Except.bind]

/-- A filter that was accepted arrives as it was sent. -/
theorem encodeFilter_decodes {value : PyValue} {filter : Filter}
    (normalized : normalizeFilter value = .ok (some filter)) {text : String}
    (encoded : encodeFilter value = .ok text) :
    decodeFilter text = .ok (some filter) := by
  rw [encodeFilter_eq normalized] at encoded
  rcases jsonDumps_ok encoded with ⟨printable, rfl⟩
  rw [decodeFilter_eq (PyValue.loads_dumps true filter.toPyValue_keyed printable)]
  exact normalizeFilter_again normalized

/-- What a coordinator sends for a normal form is decoded to it. -/
theorem filterValue_decodes {value : PyValue} {normal : Option Filter}
    (normalized : normalizeFilter value = .ok normal)
    {text : String} (encoded : encodeFilter (filterValue normal) = .ok text) :
    decodeFilter text = .ok normal := by
  cases normal with
  | none =>
      cases encoded
      rfl
  | some filter => exact encodeFilter_decodes (normalizeFilter_again normalized) encoded

/-! ## Any history of appends and searches -/

/-- What is done with the payloads of a shard and their index. -/
inductive PayloadCall where
  | append (text : String)
  | catchUp
  | search (filter : Filter)

/-- The payload texts of a shard and the index over them. -/
structure Indexing where
  texts : List String
  index : PayloadIndex

namespace Indexing

def init : Indexing := ⟨[], PayloadIndex.init⟩

/-- A search catches up and then only reads. -/
def run (state : Indexing) : PayloadCall → Indexing
  | .append text => { state with texts := state.texts ++ [text] }
  | .catchUp | .search _ => { state with index := final (PayloadIndex.catchUp state.texts) state.index }

def runAll (calls : List PayloadCall) : Indexing := calls.foldl run init

/-- Every payload is empty or JSON, and the index lists those it has read. -/
structure Sound (state : Indexing) : Prop where
  readable : ∀ text ∈ state.texts, Readable text
  indexed : PayloadIndex.Indexed state.texts state.index

theorem Sound.run {state : Indexing} (sound : state.Sound) {call : PayloadCall}
    (readable : ∀ text, call = .append text → Readable text) : (state.run call).Sound := by
  have catchesUp : Sound { state with index := final (PayloadIndex.catchUp state.texts) state.index } := by
    rcases PayloadIndex.catchUp_returns sound.readable sound.indexed with ⟨next, caught, _, indexed⟩
    unfold final
    rw [caught]
    exact ⟨sound.readable, indexed⟩
  cases call with
  | append text =>
      refine ⟨?_, sound.indexed.append [text]⟩
      intro other member
      rcases List.mem_append.mp member with old | new
      · exact sound.readable other old
      · rw [List.mem_singleton.mp new]
        exact readable text rfl
  | catchUp => exact catchesUp
  | search filter => exact catchesUp

theorem runAll_sound {calls : List PayloadCall} (readable : ∀ text, .append text ∈ calls → Readable text) :
    (runAll calls).Sound := by
  induction calls using List.reverseRecOn with
  | nil => exact ⟨(fun _ impossible => nomatch impossible), PayloadIndex.init_indexed⟩
  | append_singleton calls call inductionHypothesis =>
      unfold runAll
      rw [List.foldl_append]
      apply (inductionHypothesis fun text member => readable text (List.mem_append_left _ member)).run
      rintro text rfl
      exact readable text (List.mem_append_right _ (List.mem_singleton_self _))

/-- The payload is an object that meets the conditions: for every field its
value, or one item of it, equals a wanted value. -/
def Meets (conditions : List (PyKey × PyValue)) (text : String) : Prop :=
  text ≠ "" ∧ ∃ entries, PyValue.loads text = some (.dict entries) ∧ Fulfils conditions entries

/-- The mask of a filter, after catching up. -/
def Masks (state : Indexing) (filter : Filter) (conditions : List (PyKey × PyValue)) : Prop :=
  ∃ (next : PayloadIndex) (mask : List Bool), PayloadIndex.catchUp state.texts state.index = .ok () next ∧
    next.matching filter state.texts.length = .ok mask ∧ mask.length = state.texts.length ∧
    ∀ (localId : Nat) (text : String), state.texts[localId]? = some text →
      (mask[localId]? = some true ↔ Meets conditions text)

theorem Sound.masks {state : Indexing} (sound : state.Sound) {conditions : List (PyKey × PyValue)}
    {filter : Filter}
    (distinct : (conditions.map Prod.fst).Nodup)
    (normalized : normalizeFilter (.dict conditions) = .ok (some filter)) : state.Masks filter conditions := by
  rcases PayloadIndex.catchUp_returns sound.readable sound.indexed with ⟨next, caught, read, indexed⟩
  rcases PayloadIndex.matching_gives indexed read (normalizeFilter_normal normalized) with ⟨mask, given, marks⟩
  refine ⟨next, mask, caught, given, marks.length, ?_⟩
  intro localId text stored
  have inside := (List.getElem?_eq_some_iff.mp stored).1
  have meaning : filter.Matches text ↔ Meets conditions text := normalizeFilter_matches distinct normalized text
  rw [marks.true_iff, ← meaning]
  constructor
  · rintro ⟨_, other, isOther, fits⟩
    rw [stored] at isOther
    cases isOther
    exact fits
  · exact fun fits => ⟨inside, text, stored, fits⟩

/-- The trip of a filter over the wire: it arrives as it is, or it is not sent at
all because it has an integer that Python does not print. -/
def Travels (filter : Filter) (conditions : List (PyKey × PyValue)) : Prop :=
  if filter.toPyValue.printable then
    ∃ text, encodeFilter (.dict conditions) = .ok text ∧ decodeFilter text = .ok (some filter)
  else encodeFilter (.dict conditions) = .error .tooManyDigits

theorem travels_of_normalized {conditions : List (PyKey × PyValue)} {filter : Filter}
    (normalized : normalizeFilter (.dict conditions) = .ok (some filter)) : Travels filter conditions := by
  have isText := encodeFilter_eq normalized
  unfold Travels
  split
  · rename_i printable
    rw [jsonDumps_eq_ok printable] at isText
    exact ⟨_, isText, encodeFilter_decodes normalized isText⟩
  · rename_i notPrintable
    rw [isText]
    exact if_neg notPrintable

/-- At any time a filter is answered by the documented meaning, also after a trip
over the wire, or it is refused. -/
theorem filter_meaning (calls : List PayloadCall) (readable : ∀ text, .append text ∈ calls → Readable text) :
    (∀ (conditions : List (PyKey × PyValue)) (filter : Filter), (conditions.map Prod.fst).Nodup →
      normalizeFilter (.dict conditions) = .ok (some filter) →
        (runAll calls).Masks filter conditions ∧ Travels filter conditions) ∧
    ∀ value : PyValue, value.truthy = true → ¬ Answerable value →
      (∃ error, normalizeFilter value = .error error) ∧
      ∀ text, PyValue.loads text = some value → ∃ error, decodeFilter text = .error error := by
  constructor
  · intro conditions filter distinct normalized
    exact ⟨(runAll_sound readable).masks distinct normalized, travels_of_normalized normalized⟩
  · intro value truthy unanswerable
    have refused := normalizeFilter_refuses truthy unanswerable
    exact ⟨refused, fun text loaded => decodeFilter_eq loaded ▸ refused⟩

/-- A payload with values of three kinds in one list. -/
def taggedPayload : PyValue := .dict [(.str "tags", .list [.str "a", .bool true, .int 1])]

theorem filter_meaning_tagged :
    (∀ (conditions : List (PyKey × PyValue)) (filter : Filter), (conditions.map Prod.fst).Nodup →
      normalizeFilter (.dict conditions) = .ok (some filter) →
        (runAll [.append (taggedPayload.dumps true), .catchUp, .append ""]).Masks filter conditions ∧
        Travels filter conditions) ∧
    ∀ value : PyValue, value.truthy = true → ¬ Answerable value →
      (∃ error, normalizeFilter value = .error error) ∧
      ∀ text, PyValue.loads text = some value → ∃ error, decodeFilter text = .error error := by
  have keyed : taggedPayload.StringKeyed :=
    ⟨List.nodup_singleton _, ⟨_, rfl⟩, ⟨trivial, trivial, trivial, trivial⟩, trivial⟩
  apply filter_meaning
  intro text member
  rcases List.mem_cons.mp member with first | later
  · cases first
    exact .inr ⟨_, PyValue.loads_dumps true keyed (by decide)⟩
  · rcases List.mem_cons.mp later with second | third
    · cases second
    · cases List.mem_singleton.mp third
      exact .inl rfl

def countFilter (count : Int) : Filter := ⟨[("count", [.int count])], List.nodup_singleton _⟩

theorem countFilter_printable (count : Int) :
    (countFilter count).toPyValue.printable = JsonNumber.convertible (JsonNumber.writeInt count) := by
  have fields : (countFilter count).toPyValue = .dict [(.str "count", .list [.int count])] := rfl
  have key : (PyKey.str "count").printable = true := rfl
  rw [fields]
  simp only [PyValue.printable, PyValue.printableEntries, PyValue.printableItems, key,
    Bool.true_and, Bool.and_true]

/-- A filter with an integer that Python does not print is answered where it is, and
cannot be sent. -/
theorem long_integer_not_sent :
    ¬ ∀ (conditions : List (PyKey × PyValue)) (filter : Filter), (conditions.map Prod.fst).Nodup →
      normalizeFilter (.dict conditions) = .ok (some filter) →
        ∃ text, encodeFilter (.dict conditions) = .ok text ∧ decodeFilter text = .ok (some filter) := by
  intro claim
  have convertible : ∀ count : Int, JsonNumber.convertible (JsonNumber.writeInt count) = true := by
    intro count
    have normalized : normalizeFilter (.dict [(.str "count", .int count)]) =
      .ok (some (countFilter count)) := rfl
    rcases claim [(.str "count", .int count)] _ (List.nodup_singleton _) normalized with ⟨text, encoded, _⟩
    rw [encodeFilter_eq normalized] at encoded
    rw [← countFilter_printable]
    exact (jsonDumps_ok encoded).1
  -- the least integer with one digit too many
  have long : JsonNumber.convertible (JsonNumber.writeInt (10 ^ JsonNumber.maxDigits)) = false := by
    decide +kernel
  rw [convertible] at long
  cases long
end Indexing
end VectorSearch
