import VectorSearch.Cluster.OneNamespace
import VectorSearch.Home.OneSource

namespace VectorSearch

/-!
# The records of an owner

What is stored for an owner is a list of records, each a memory or a record that
takes one out of use.  A memory is dead when a record names it; an id is named
at most once.
-/

namespace Home

/-- A record in the namespace of an owner. -/
inductive MemoryRecord where
  | memory (id text : String) (tags : List String) (created : FloatText) (replaces : List String)
  | forgetting (id : String) (created : FloatText) (target : String)

namespace MemoryRecord

def payload : MemoryRecord → List (PyKey × PyValue)
  | memory id text tags created replaces => MemoryStore.memoryPayload id text tags created replaces
  | forgetting id created target => MemoryStore.forgetPayload id created target

/-- The ids a record takes out of use. -/
def targets : MemoryRecord → List String
  | memory _ _ _ _ replaces => replaces
  | forgetting _ _ target => [target]

/-- The ids that some record takes out of use. -/
def dead (records : List MemoryRecord) : List String := records.flatMap targets

theorem mem_dead {records : List MemoryRecord} {id : String} :
    id ∈ dead records ↔ ∃ record ∈ records, id ∈ record.targets := List.mem_flatMap

theorem dead_append (front back : List MemoryRecord) : dead (front ++ back) = dead front ++ dead back :=
  List.flatMap_append

/-! ## Counting the records that name an id -/

/-- The record names one of the ids. -/
def names (ids : List String) (record : MemoryRecord) : Bool := record.targets.any (· ∈ ids)

theorem names_iff {ids : List String} {record : MemoryRecord} :
    record.names ids = true ↔ ∃ id ∈ record.targets, id ∈ ids := by
  unfold names
  simp only [List.any_eq_true, decide_eq_true_eq]

/-- Where no id is named twice, no more records name some ids than there are ids. -/
theorem countP_names_le {records : List MemoryRecord} (once : (dead records).Nodup) (ids : List String) :
    records.countP (names ids) ≤ ids.length := by
  have counted : records.countP (names ids) ≤ ((dead records).filter (· ∈ ids)).length := by
    clear once
    induction records with
    | nil => exact Nat.zero_le _
    | cons record rest inductionHypothesis =>
        have split : dead (record :: rest) = record.targets ++ dead rest := rfl
        rw [List.countP_cons, split, List.filter_append, List.length_append]
        have here : (if names ids record = true then 1 else 0) ≤ (record.targets.filter (· ∈ ids)).length := by
          split
          · rename_i named
            rcases names_iff.mp named with ⟨id, isTarget, isId⟩
            exact List.length_pos_of_mem (List.mem_filter.mpr ⟨isTarget, decide_eq_true isId⟩)
          · exact Nat.zero_le _
        omega
  have few : ((dead records).filter (· ∈ ids)).length ≤ ids.length := by
    apply (List.subperm_of_subset (once.filter _) ?_).length_le
    intro id member
    exact of_decide_eq_true (List.mem_filter.mp member).2
  exact Nat.le_trans counted few

/-! ## What the fields of a record say -/

theorem storable (record : MemoryRecord) : Storable record.payload := by
  have strings : ∀ items : List String, PyValue.StringKeyedItems (items.map .str) := by
    intro items
    induction items with
    | nil => trivial
    | cons item rest inductionHypothesis => exact ⟨trivial, inductionHypothesis⟩
  have printed : ∀ items : List String, PyValue.printableItems (items.map .str) = true := by
    intro items
    induction items with
    | nil => rfl
    | cons item rest inductionHypothesis => exact Bool.and_eq_true_iff.mpr ⟨rfl, inductionHypothesis⟩
  cases record with
  | memory id text tags created replaces =>
      have keys : (memory id text tags created replaces).payload.map Prod.fst =
          ["type", "memory_id", "text", "tags", "created", "replaces"].map .str := rfl
      refine ⟨⟨by rw [keys]; decide, ?_⟩, ?_, rfl⟩
      · exact ⟨⟨_, rfl⟩, trivial, ⟨_, rfl⟩, trivial, ⟨_, rfl⟩, trivial, ⟨_, rfl⟩, strings _, ⟨_, rfl⟩, trivial,
          ⟨_, rfl⟩, strings _, trivial⟩
      · simp only [payload, MemoryStore.memoryPayload, PyValue.printable, PyValue.printableEntries,
          PyKey.printable, printed,
          Bool.and_true]
  | forgetting id created target =>
      have keys : (forgetting id created target).payload.map Prod.fst =
          ["type", "memory_id", "created", "replaces"].map .str := rfl
      refine ⟨⟨by rw [keys]; decide, ?_⟩, rfl, rfl⟩
      exact ⟨⟨_, rfl⟩, trivial, ⟨_, rfl⟩, trivial, ⟨_, rfl⟩, trivial, ⟨_, rfl⟩, strings [target], trivial⟩

theorem payload_nodup (record : MemoryRecord) : (record.payload.map Prod.fst).Nodup := record.storable.keyed.1

/-- The value of a field is among the wanted ones. -/
def Meets (record : MemoryRecord) (condition : PyKey × PyValue) : Prop :=
  ∃ value, Dict.find condition.1 record.payload = some value ∧ ∃ item ∈ itemsOf value,
    item ∈ itemsOf condition.2

theorem fulfils_iff {conditions : List (PyKey × PyValue)} (record : MemoryRecord) :
    Fulfils conditions record.payload ↔ ∀ condition ∈ conditions, record.Meets condition := by
  apply forall₂_congr
  intro condition _
  constructor
  · rintro ⟨value, member, wanted⟩
    exact ⟨value, Dict.find_of_mem record.payload_nodup member, wanted⟩
  · rintro ⟨value, found, wanted⟩
    exact ⟨value, Dict.find_mem _ _ _ found, wanted⟩

def isMemory : MemoryRecord → Bool
  | memory .. => true
  | forgetting .. => false

def id : MemoryRecord → String
  | memory id .. => id
  | forgetting id .. => id

def tags : MemoryRecord → List String
  | memory _ _ tags .. => tags
  | forgetting .. => []

theorem find_id (record : MemoryRecord) : Dict.find (.str "memory_id") record.payload =
    some (.str record.id) := by
  cases record <;> rfl

theorem find_targets (record : MemoryRecord) :
    Dict.find (.str "replaces") record.payload = some (.list (record.targets.map .str)) := by
  cases record <;> rfl

theorem mem_anyOf {text : String} {texts : List String} :
    PyValue.str text ∈ itemsOf (MemoryStore.anyOf texts) ↔ text ∈ texts := by
  change PyValue.str text ∈ texts.map PyValue.str ↔ _
  rw [List.mem_map]
  constructor
  · rintro ⟨other, member, same⟩
    cases same
    exact member
  · exact fun member => ⟨text, member, rfl⟩

/-- A field with a list of strings. -/
theorem meets_list {record : MemoryRecord} {field : String} {texts : List String}
    (found : Dict.find (.str field) record.payload = some (.list (texts.map .str))) (wanted : List String) :
    record.Meets (.str field, MemoryStore.anyOf wanted) ↔ ∃ text ∈ texts, text ∈ wanted := by
  unfold Meets
  simp only [found, Option.some.injEq, exists_eq_left', itemsOf, List.mem_map, exists_exists_and_eq_and]
  constructor
  · rintro ⟨text, member, isWanted⟩
    exact ⟨text, member, mem_anyOf.mp isWanted⟩
  · rintro ⟨text, member, isWanted⟩
    exact ⟨text, member, mem_anyOf.mpr isWanted⟩

theorem meets_memory (record : MemoryRecord) : record.Meets (.str "type", .str "memory") ↔
    record.isMemory = true := by
  cases record with
  | memory => exact ⟨fun _ => rfl, fun _ => ⟨_, rfl, _, List.mem_singleton_self _, List.mem_singleton_self _⟩⟩
  | forgetting =>
      constructor
      · rintro ⟨_, found, item, isItem, isWanted⟩
        cases found
        cases List.mem_singleton.mp (show item ∈ [.str "forget"] from isItem)
        have same := List.mem_singleton.mp (show PyValue.str "forget" ∈ [.str "memory"] from isWanted)
        exact absurd (PyValue.str.inj same) (by decide)
      · intro impossible
        cases impossible

theorem meets_id (ids : List String) (record : MemoryRecord) :
    record.Meets (.str "memory_id", MemoryStore.anyOf ids) ↔ record.id ∈ ids := by
  unfold Meets
  simp only [find_id, Option.some.injEq, exists_eq_left', itemsOf, List.mem_singleton, exists_eq_left]
  exact mem_anyOf

theorem meets_targets (ids : List String) (record : MemoryRecord) :
    record.Meets (.str "replaces", MemoryStore.anyOf ids) ↔ record.names ids = true := by
  rw [meets_list record.find_targets, names_iff]

theorem nodup_eraseDups (items : List String) : items.eraseDups.Nodup := by
  induction count : items.length using Nat.strong_induction_on generalizing items with
  | _ count inductionHypothesis =>
      cases items with
      | nil => exact List.nodup_nil
      | cons item rest =>
          subst count
          rw [List.eraseDups_cons, List.nodup_cons, List.mem_eraseDups]
          constructor
          · intro member
            have other := (List.mem_filter.mp member).2
            simp at other
          · refine inductionHypothesis _ ?_ _ rfl
            exact Nat.lt_succ_of_le (List.length_filter_le _ rest)

theorem mem_sortedSet {item : String} {items : List String} : item ∈ sortedSet items ↔ item ∈ items := by
  unfold sortedSet
  rw [List.mem_insertionSort, List.mem_eraseDups]

theorem meets_tags (wanted : List String) (record : MemoryRecord) :
    record.Meets (.str "tags", MemoryStore.anyOf wanted) ↔ ∃ tag ∈ record.tags, tag ∈ wanted := by
  cases record with
  | memory id text tags created replaces =>
      have found : Dict.find (.str "tags") (memory id text tags created replaces).payload =
          some (.list ((sortedSet tags).map .str)) := rfl
      rw [meets_list found]
      simp only [mem_sortedSet]
      rfl
  | forgetting =>
      constructor
      · rintro ⟨_, found, _⟩
        cases found
      · rintro ⟨_, member, _⟩
        cases member

/-! ## Reading a hit -/

variable {D : Type}

theorem find_append {key : PyKey} {value : PyValue} {front : List (PyKey × PyValue)}
    (found : Dict.find key front = some value) (back : List (PyKey × PyValue)) :
    Dict.find key (front ++ back) = some value := by
  induction front with
  | nil => cases found
  | cons entry rest inductionHypothesis =>
      rcases entry with ⟨other, old⟩
      unfold Dict.find at found
      rw [List.cons_append]
      unfold Dict.find
      split at found
      · rename_i same
        rw [if_pos same]
        exact found
      · rename_i different
        rw [if_neg different]
        exact inductionHypothesis found

/-- A field of a hit that shows a record. -/
theorem field_shown {owner : String} {hit : Hit D} {record : MemoryRecord}
    (shown : Coordinator.Shows owner hit record.payload) {name : String} {value : PyValue}
    (found : Dict.find (.str name) record.payload = some value) : field hit.payload name = .ok value := by
  unfold field
  rw [show hit.payload = .dict (taggedRecord owner record.payload) from shown]
  simp only [taggedRecord, find_append found]

theorem asStrings_strings (texts : List String) : asStrings (.list (texts.map .str)) = .ok texts := by
  change (texts.map PyValue.str).mapM asString = .ok texts
  induction texts with
  | nil => rfl
  | cons text rest inductionHypothesis =>
      rw [List.map_cons, List.mapM_cons, inductionHypothesis]
      rfl

theorem id_shown {owner : String} {hit : Hit D} {record : MemoryRecord}
    (shown : Coordinator.Shows owner hit record.payload) :
    (do asString (← field hit.payload "memory_id")) = .ok record.id := by
  rw [field_shown shown record.find_id]
  rfl

theorem targets_shown {owner : String} {hit : Hit D} {record : MemoryRecord}
    (shown : Coordinator.Shows owner hit record.payload) :
    (do asStrings (← field hit.payload "replaces")) = .ok record.targets := by
  rw [field_shown shown record.find_targets]
  exact asStrings_strings record.targets

end MemoryRecord
end Home
end VectorSearch
