import VectorSearch.Index.FilteredSearch
import VectorSearch.Lib.Coupled

namespace VectorSearch

/-!
# Shards with the same contents

The payload index of a shard is a cache: it has read some of the payloads, and
a filtered search lets it read the others first.  How far it has read never
shows in an answer, so shards that hold the same answer every search alike.
-/

open Stateful HNSW PayloadIndex

/-- There is one mask for the chosen positions. -/
theorem PayloadIndex.Marks.unique {size : Nat} {chosen : Nat → Prop} {mask other : List Bool}
    (marks : Marks size chosen mask) (others : Marks size chosen other) : mask = other := by
  apply List.ext_getElem?
  intro position
  have same : mask[position]? = some true ↔ other[position]? = some true :=
    (marks.true_iff position).trans (others.true_iff position).symm
  by_cases inside : position < size
  · rw [List.getElem?_eq_getElem (marks.length ▸ inside), List.getElem?_eq_getElem
      (others.length ▸ inside)] at same ⊢
    simp only [Option.some.injEq] at same ⊢
    exact Bool.eq_iff_iff.mpr same
  · rw [List.getElem?_eq_none_iff.mpr (marks.length ▸ Nat.le_of_not_lt inside),
      List.getElem?_eq_none_iff.mpr (others.length ▸ Nat.le_of_not_lt inside)]

namespace Shard

variable {F D G : Type} [LinearOrder D]

/-- Shards that hold the same, whatever their payload indexes have read. -/
structure Twins (first second : Shard F G) : Prop where
  index : first.index = second.index
  globalIds : first.globalIds = second.globalIds
  payloads : first.payloads = second.payloads
  searchable : first.Searchable
  indexed : Indexed second.payloads second.payloadIndex

variable {first second : Shard F G}

omit [LinearOrder D] in
theorem Twins.other (twins : first.Twins second) : second.Searchable where
  tidy := twins.index ▸ twins.searchable.tidy
  ids := by
    rw [← twins.globalIds, ← twins.payloads]
    exact twins.searchable.ids
  rows := by
    rw [← twins.index, ← twins.payloads]
    exact twins.searchable.rows
  readable := twins.payloads ▸ twins.searchable.readable
  indexed := twins.indexed

omit [LinearOrder D] in
theorem Twins.refl (searchable : first.Searchable) : first.Twins first :=
    ⟨rfl, rfl, rfl, searchable, searchable.indexed⟩

omit [LinearOrder D] in
/-- Shards that agree on what they hold and on their beam width. -/
theorem Twins.of_contents (searchable : first.Searchable)
    (indexed : Indexed second.payloads second.payloadIndex)
    (contents : first.contents = second.contents) (efSearch : first.index.efSearch = second.index.efSearch) :
    first.Twins second where
  index := by
    have graph : first.index.toGraph = second.index.toGraph := congrArg Contents.graph contents
    calc first.index = ⟨first.index.toGraph, first.index.efSearch⟩ := rfl
      _ = ⟨second.index.toGraph, second.index.efSearch⟩ := by rw [graph, efSearch]
      _ = second.index := rfl
  globalIds := congrArg Contents.globalIds contents
  payloads := congrArg Contents.payloads contents
  searchable := searchable
  indexed := indexed

omit [LinearOrder D] in
/-- Both payload indexes have read on. -/
theorem Twins.reads (twins : first.Twins second) {firstIndex secondIndex : PayloadIndex}
    (front : ({ first with payloadIndex := firstIndex } : Shard F G).Searchable)
    (back : ({ second with payloadIndex := secondIndex } : Shard F G).Searchable) :
    ({ first with payloadIndex := firstIndex } : Shard F G).Twins { second with payloadIndex := secondIndex } :=
  ⟨twins.index, twins.globalIds, twins.payloads, front, back.indexed⟩

variable (np : Numpy F D G)

omit [LinearOrder D] in
theorem asking_couples {α : Type} (result : Except Error α) :
    Couples Twins (asking result : Searching F G α) (asking result) := by
  cases result with
  | ok value => exact Couples.pure value
  | error error => exact Couples.throw error

omit [LinearOrder D] in
/-- The same answer, over payload indexes that have read on. -/
theorem Twins.asking (twins : first.Twins second) {α : Type} {firstAction secondAction : Searching F G α}
    (kept : Maintains Searchable firstAction) (keptOther : Maintains Searchable secondAction)
    {result : Except Error α} {firstIndex secondIndex : PayloadIndex}
    (front : firstAction first = Shard.asking result { first with payloadIndex := firstIndex })
    (back : secondAction second = Shard.asking result { second with payloadIndex := secondIndex }) :
    SameEnd Twins (firstAction first) (secondAction second) := by
  have searchable := kept first twins.searchable
  have others := keptOther second twins.other
  unfold final at searchable others
  rw [front] at searchable ⊢
  rw [back] at others ⊢
  cases result with
  | ok value => exact .returned (twins.reads searchable others)
  | error error => exact .raised (twins.reads searchable others)

variable {filter : Option Filter}

theorem nearest_couples (query : List F) (k : Int) (normal : ∀ wanted, filter = some wanted → wanted.Normal) :
    Couples Twins (nearest np query k filter) (nearest np query k filter) := by
  cases filter with
  | none =>
      apply Couples.get_bind
      intro first second twins
      rw [twins.index]
      exact asking_couples _
  | some wanted =>
      rintro ⟨index, globalIds, payloads, firstIndex⟩ ⟨_, _, _, secondIndex⟩ twins
      obtain rfl : index = _ := twins.index
      obtain rfl : globalIds = _ := twins.globalIds
      obtain rfl : payloads = _ := twins.payloads
      have isNormal := normal wanted rfl
      rcases nearest_eq np twins.searchable isNormal query k with ⟨front, mask, marks, _, ranFirst⟩
      rcases nearest_eq np twins.other isNormal query k with ⟨back, other, others, _, ranSecond⟩
      obtain rfl : mask = other := marks.unique others
      have kept : Maintains Searchable (nearest np query k (some wanted)) :=
        nearest_maintains np catchUpIndex_searchable query k (some wanted)
      by_cases none : wanted.matchingIds payloads = []
      · exact twins.asking kept kept (show _ = Shard.asking (.ok []) _ from ranFirst.trans (if_pos none))
          (ranSecond.trans (if_pos none))
      · rw [if_neg none] at ranFirst ranSecond
        by_cases compares : filterStrategyExact (wanted.matchingIds payloads).length globalIds.length
            (max (index.efSearch : Int) k) = true
        · exact twins.asking kept kept (ranFirst.trans (if_pos compares)) (ranSecond.trans (if_pos compares))
        · exact twins.asking kept kept (ranFirst.trans (if_neg compares)) (ranSecond.trans (if_neg compares))

theorem search_couples (query : List F) (k : Int) (normal : ∀ wanted, filter = some wanted → wanted.Normal) :
    Couples Twins (search np query k filter) (search np query k filter) := by
  apply Couples.bind (nearest_couples np query k normal)
  intro found
  apply Couples.get_bind
  intro first second twins
  unfold idAt
  rw [twins.globalIds]
  exact asking_couples _

theorem searchWithPayloads_couples (query : List F) (k : Int)
    (normal : ∀ wanted, filter = some wanted → wanted.Normal) :
    Couples Twins (searchWithPayloads np query k filter) (searchWithPayloads np query k filter) := by
  apply Couples.bind (nearest_couples np query k normal)
  intro found
  apply Couples.get_bind
  intro first second twins
  unfold idAt payloadAt
  rw [twins.globalIds, twins.payloads]
  exact asking_couples _

end Shard
end VectorSearch
