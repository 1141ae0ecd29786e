import VectorSearch.Index.Contents
import VectorSearch.Index.Structure

namespace VectorSearch

/-!
# Ids and payloads stay with their vectors

The local id of a vector is its position in three parallel lists, and the index
extends its list before it is known whether the insertion returns.  A vector that
does not fit is refused before that, so the lists stay aligned as long as no
vector is spread over a row and every stored vector gets a level.
-/

open Stateful HNSW

variable {F D G : Type}

/-- The arguments of one `add`. -/
abbrev Added (F : Type) := Int × List F × String

/-- A call on a shard.  Both searches leave the same shard behind. -/
inductive ShardCall (F : Type) where
  | add (item : Added F)
  | addBatch (globalIds : List Int) (vectors : List (List F)) (payloads : List String)
  | search (query : List F) (k : Int) (filter : Option Filter)

/-- What a call adds, one after the other. -/
def ShardCall.items : ShardCall F → List (Added F)
  | .add item => [item]
  | .addBatch globalIds vectors payloads =>
      globalIds.zip (vectors.zip (Shard.payloadsOrEmpty globalIds.length payloads))
  | .search _ _ _ => []

/-- The vector is refused before it is stored, or it is stored as it is and gets a level. -/
def Graph.TakesWhole (np : Numpy F D G) (index : Graph F G) (vector : List F) : Prop :=
  ¬ index.Spreads vector ∧ (index.Fits vector → (np.drawLevel index.M index.rng).1 ≠ none)

variable [LinearOrder D] (np : Numpy F D G)

namespace Shard

/-- The items that were added before one raised. -/
def added : List (Added F) → Shard F G → List (Added F)
  | [], _ => []
  | item :: rest, shard =>
      match add np item.1 item.2.1 item.2.2 shard with
      | .ok _ after => item :: added rest after
      | .error _ _ => []

/-- Every item that is tried is taken whole. -/
def TakesAll : List (Added F) → Shard F G → Prop
  | [], _ => True
  | item :: rest, shard => shard.index.TakesWhole np item.2.1 ∧
      match add np item.1 item.2.1 item.2.2 shard with
      | .ok _ after => TakesAll rest after
      | .error _ _ => True

end Shard

namespace ShardCall

def run : ShardCall F → Shard F G → Shard F G
  | .add item, shard => final (Shard.add np item.1 item.2.1 item.2.2) shard
  | .addBatch globalIds vectors payloads, shard => final (Shard.addBatch np globalIds vectors payloads) shard
  | .search query k filter, shard => final (Shard.searchWithPayloads np query k filter) shard

def runAll (calls : List (ShardCall F)) (shard : Shard F G) : Shard F G :=
  calls.foldl (fun shard call => call.run np shard) shard

/-- What the calls added, in order. -/
def addedBy : List (ShardCall F) → Shard F G → List (Added F)
  | [], _ => []
  | call :: rest, shard => Shard.added np call.items shard ++ addedBy rest (call.run np shard)

/-- Every single add of the calls is taken whole. -/
def TakenWhole : List (ShardCall F) → Shard F G → Prop
  | [], _ => True
  | call :: rest, shard => Shard.TakesAll np call.items shard ∧ TakenWhole rest (call.run np shard)

end ShardCall

namespace Shard

/-- The three lists are those of the items added. -/
structure Aligned (items : List (Added F)) (shard : Shard F G) : Prop where
  wellFormed : ∃ width, shard.index.WellFormed width
  rows : shard.index.data = items.map fun item => np.normalize item.2.1
  globalIds : shard.globalIds = items.map Prod.fst
  payloads : shard.payloads = items.map fun item => item.2.2

/-- The id and the payload are those of one item, and the distance is one of its vector. -/
def Reported (items : List (Added F)) (query : List F) (dist : D) (globalId : Int) (payload : String) : Prop :=
  ∃ vector, (globalId, vector, payload) ∈ items ∧
    np.Measures (np.normalize vector) (np.normalize query) dist

/-- The lists have one length, and every search reports items that were added. -/
structure Attributed (items : List (Added F)) (shard : Shard F G) : Prop where
  counts : shard.index.data.length = shard.globalIds.length ∧ shard.globalIds.length = shard.payloads.length
  withPayloads : ∀ query k filter hits after, searchWithPayloads np query k filter shard = .ok hits after →
    ∀ hit ∈ hits, Reported np items query hit.1 hit.2.1 hit.2.2
  withIds : ∀ query k filter hits after, search np query k filter shard = .ok hits after →
    ∀ hit ∈ hits, ∃ payload, Reported np items query hit.1 hit.2 payload

variable {np}

omit [LinearOrder D] in
theorem Aligned.start (params : HnswParams) : Aligned np [] (init np params : Shard F G) :=
  ⟨⟨0, init_wellFormed 0 _ _ _ _ _⟩, rfl, rfl, rfl⟩

theorem Aligned.add {items : List (Added F)} {shard : Shard F G} (aligned : Aligned np items shard)
    {item : Added F} (whole : shard.index.TakesWhole np item.2.1) :
    match Shard.add np item.1 item.2.1 item.2.2 shard with
    | .ok _ after => Aligned np (items ++ [item]) after
    | .error _ after => Aligned np items after := by
  rcases aligned.wellFormed with ⟨width, wellFormed⟩
  rcases item with ⟨globalId, vector, payload⟩
  unfold Shard.add
  dsimp only at whole ⊢
  by_cases fits : shard.index.Fits vector
  · rcases Option.ne_none_iff_exists'.mp (whole.2 fits) with ⟨level, isLevel⟩
    rcases insert_returns np (wellFormed.fitted fits) rfl (Prod.ext isLevel rfl) with
      ⟨_, after, run, formed, graph,
      entryPoint, topLayer, frame⟩
    rw [run]
    refine ⟨⟨vector.length, formed⟩, ?_, ?_, ?_⟩
    · change after.data = _
      rw [frame, List.map_append]
      exact congrArg (· ++ [np.normalize vector]) aligned.rows
    · rw [List.map_append]
      exact congrArg (· ++ [globalId]) aligned.globalIds
    · rw [List.map_append]
      exact congrArg (· ++ [payload]) aligned.payloads
  · rw [insert_refuses np fits fun one => whole.1 ⟨one, fits⟩]
    exact aligned

theorem Aligned.addAll (more : List (Added F)) {items : List (Added F)} {shard : Shard F G}
    (aligned : Aligned np items shard) (whole : TakesAll np more shard) :
    Aligned np (items ++ added np more shard) (final (Shard.addAll np more) shard) := by
  induction more generalizing items shard with
  | nil =>
      rw [added, List.append_nil]
      exact aligned
  | cons item rest inductionHypothesis =>
      rcases whole with ⟨here, later⟩
      have step := aligned.add here
      unfold added Shard.addAll
      rw [final_bind]
      cases run : Shard.add np item.1 item.2.1 item.2.2 shard with
      | ok value after =>
          rw [run] at step later
          have rests := inductionHypothesis step later
          rw [List.append_assoc] at rests
          exact rests
      | error error after =>
          rw [run] at step
          dsimp only
          rw [List.append_nil]
          exact step

omit [LinearOrder D] in
/-- A search leaves everything but the payload index as it was. -/
theorem Aligned.contents {items : List (Added F)} {shard after : Shard F G} (aligned : Aligned np items shard)
    (same : after.contents = shard.contents) : Aligned np items after := by
  have graph : after.index.toGraph = shard.index.toGraph := congrArg Contents.graph same
  have globalIds : after.globalIds = shard.globalIds := congrArg Contents.globalIds same
  have payloads : after.payloads = shard.payloads := congrArg Contents.payloads same
  constructor
  · rw [graph]
    exact aligned.wellFormed
  · rw [graph]
    exact aligned.rows
  · rw [globalIds]
    exact aligned.globalIds
  · rw [payloads]
    exact aligned.payloads

theorem Aligned.run {items : List (Added F)} {shard : Shard F G} (aligned : Aligned np items shard)
    {call : ShardCall F} (whole : TakesAll np call.items shard) :
    Aligned np (items ++ added np call.items shard) (call.run np shard) := by
  cases call with
  | add item =>
      have whole : TakesAll np [item] shard := whole
      have added := aligned.addAll _ whole
      have single : final (Shard.addAll np [item]) shard =
        final (Shard.add np item.1 item.2.1 item.2.2) shard := by
        unfold Shard.addAll
        rw [final_bind]
        unfold final
        cases Shard.add np item.1 item.2.1 item.2.2 shard <;> rfl
      rw [single] at added
      exact added
  | addBatch globalIds vectors payloads => exact aligned.addAll _ whole
  | search query k filter =>
      have same := searchWithPayloads_maintains np (catchUpIndex_maintains shard.contents)
        query k filter shard rfl
      change Aligned np (items ++ []) _
      rw [List.append_nil]
      exact aligned.contents same

theorem Aligned.runAll (calls : List (ShardCall F)) {items : List (Added F)} {shard : Shard F G}
    (aligned : Aligned np items shard) (whole : ShardCall.TakenWhole np calls shard) :
    Aligned np (items ++ ShardCall.addedBy np calls shard) (ShardCall.runAll np calls shard) := by
  induction calls generalizing items shard with
  | nil =>
      rw [ShardCall.addedBy, List.append_nil]
      exact aligned
  | cons call rest inductionHypothesis =>
      have rests := inductionHypothesis (aligned.run whole.1) whole.2
      rw [List.append_assoc] at rests
      exact rests

/-! ## What searches report -/

omit [LinearOrder D] in
theorem asking_ok {α : Type} {result : Except Error α} {value : α} {shard after : Shard F G}
    (given : asking result shard = .ok value after) : result = .ok value ∧ after = shard := by
  cases result with
  | error error => cases given
  | ok other =>
      cases given
      exact ⟨rfl, rfl⟩

/-- The links of layer 0 are distinct, which is what searches rely on. -/
def Ground (index : Graph F G) : Prop :=
  ∀ (adjacency : Layer), index.graph[0]? = some adjacency →
    ∀ node links, adjacency.get? node = some links → links.Nodup

/-- The pairs a search of the index or of the matches gives are stored rows with their distances. -/
theorem nearest_hit {shard after : Shard F G} (ground : Ground shard.index.toGraph) {query : List F} {k : Int}
    {filter : Option Filter} {found : List (D × Nat)}
    (ran : nearest np query k filter shard = .ok found after) :
    after.contents = shard.contents ∧ ∀ item ∈ found, Hit np shard.index.data (np.normalize query) item := by
  have same := nearest_maintains np (catchUpIndex_maintains shard.contents) query k filter shard rfl
  unfold final at same
  rw [ran] at same
  refine ⟨same, ?_⟩
  unfold nearest at ran
  generalize (filter.filter fun filter => !filter.entries.isEmpty) = conditions at ran
  cases conditions with
  | none =>
    rcases bind_ok ran with ⟨_, reached, got, asks⟩
    cases got
    exact (searchWithDistances_hits ground (asking_ok asks).1).1.measured
  | some conditions =>
    rcases bind_ok ran with ⟨_, middle, catches, rest⟩
    have isMiddle : middle.index = shard.index := by
      unfold catchUpIndex at catches
      split at catches
      · cases catches
        rfl
      · cases catches
    rcases bind_ok rest with ⟨_, reached, got, rest⟩
    cases got
    rcases bind_ok rest with ⟨allowed, reached, asks, rest⟩
    rw [(asking_ok asks).2] at rest
    dsimp only at rest
    split at rest
    · cases rest
      exact fun item impossible => absurd impossible List.not_mem_nil
    · split at rest
      · have hits := exactAmong_hit np (asking_ok rest).1
        rw [isMiddle] at hits
        exact fun item member => (hits item member).2
      · have searched := (asking_ok rest).1
        rw [isMiddle] at searched
        exact (searchWithDistances_hits ground searched).1.measured

omit [LinearOrder D] in
theorem Aligned.ground {items : List (Added F)} {shard : Shard F G} (aligned : Aligned np items shard) :
    Ground shard.index.toGraph := by
  rcases aligned.wellFormed with ⟨width, wellFormed⟩
  exact fun adjacency found => (wellFormed.layers 0 adjacency found).distinct

omit [LinearOrder D] in
/-- A stored row with the id and the payload at its position. -/
theorem Aligned.hit {items : List (Added F)} {shard : Shard F G} (aligned : Aligned np items shard)
    {query : List F} {item : D × Nat} (hit : Hit np shard.index.data query item) :
    ∃ globalId vector payload, (globalId, vector, payload) ∈ items ∧
      idAt shard item.2 = .ok globalId ∧ payloadAt shard item.2 = .ok payload ∧
      np.Measures (np.normalize vector) query item.1 := by
  rcases hit with ⟨row, stored, measures⟩
  rw [aligned.rows, List.getElem?_map] at stored
  rcases Option.map_eq_some_iff.mp stored with ⟨⟨globalId, vector, payload⟩, atItem, isRow⟩
  refine ⟨globalId, vector, payload, List.mem_of_getElem? atItem, ?_, ?_, ?_⟩
  · unfold idAt
    rw [aligned.globalIds, List.getElem?_map, atItem]
    rfl
  · unfold payloadAt
    rw [aligned.payloads, List.getElem?_map, atItem]
    rfl
  · rw [isRow]
    exact measures

/-- Every pair the index reports is a row with an id and a payload. -/
theorem Aligned.reports {items : List (Added F)} {shard middle : Shard F G} (aligned : Aligned np items shard)
    {query : List F} {k : Int} {filter : Option Filter} {found : List (D × Nat)}
    (searched : nearest np query k filter shard = .ok found middle) :
    ∀ item ∈ found, ∃ globalId payload, idAt middle item.2 = .ok globalId ∧
      payloadAt middle item.2 = .ok payload ∧ Reported np items query item.1 globalId payload := by
  rcases nearest_hit aligned.ground searched with ⟨same, measured⟩
  have sameData : middle.index.data = shard.index.data :=
    congrArg (fun contents : Contents F G => contents.graph.data) same
  intro item isFound
  have measure := measured item isFound
  rw [← sameData] at measure
  rcases (aligned.contents same).hit measure with ⟨globalId, vector, payload, isItem, isId, isPayload, measures⟩
  exact ⟨globalId, payload, isId, isPayload, vector, isItem, measures⟩

theorem Aligned.attributed {items : List (Added F)} {shard : Shard F G} (aligned : Aligned np items shard) :
    Attributed np items shard := by
  constructor
  · rw [aligned.rows, aligned.globalIds, aligned.payloads, List.length_map, List.length_map, List.length_map]
    exact ⟨rfl, rfl⟩
  · intro query k filter hits after ran hit member
    rcases bind_ok ran with ⟨found, middle, searched, rest⟩
    rcases bind_ok rest with ⟨_, _, got, asks⟩
    cases got
    rcases mapM_ok_mem (asking_ok asks).1 hit member with ⟨item, isFound, isHit⟩
    rcases aligned.reports searched item isFound with ⟨globalId, payload, isId, isPayload, reported⟩
    rw [isId, isPayload] at isHit
    cases isHit
    exact reported
  · intro query k filter hits after ran hit member
    rcases bind_ok ran with ⟨found, middle, searched, rest⟩
    rcases bind_ok rest with ⟨_, _, got, asks⟩
    cases got
    rcases mapM_ok_mem (asking_ok asks).1 hit member with ⟨item, isFound, isHit⟩
    rcases aligned.reports searched item isFound with ⟨globalId, payload, isId, _, reported⟩
    rw [isId] at isHit
    cases isHit
    exact ⟨payload, reported⟩

/-- As long as every add is taken whole, a shard reports what was added. -/
theorem attributed_after_calls (params : HnswParams) (calls : List (ShardCall F))
    (whole : ShardCall.TakenWhole np calls (init np params : Shard F G)) :
    Attributed np (ShardCall.addedBy np calls (init np params)) (ShardCall.runAll np calls (init np params)) :=
  ((Aligned.start params).runAll calls whole).attributed

/-! ## A spread vector shifts the lists -/

/-- The parameters of a small shard. -/
def smallParams : HnswParams := ⟨2, 100, none, 0, .heuristic⟩

/-- Two adds, one of them refused, and a batch. -/
def refusedCalls : List (ShardCall Int) :=
  [.add (0, [1, 0], "first"), .add (1, [0, 1, 0], "refused"), .addBatch [2] [[0, 1]] []]

theorem attributed_after_refusal :
    Attributed climbing (ShardCall.addedBy climbing refusedCalls (init climbing smallParams))
      (ShardCall.runAll climbing refusedCalls (init climbing smallParams)) := by
  apply attributed_after_calls
  have one : ∀ (index : Graph Int Nat) (vector : List Int), vector.length ≠ 1 →
    index.TakesWhole climbing vector :=
    fun index vector long => ⟨fun spreads => long spreads.1, fun _ => Option.some_ne_none _⟩
  have single : ∀ (item : Added Int) (shard : Shard Int Nat), item.2.1.length ≠ 1 →
      TakesAll climbing [item] shard := by
    intro item shard long
    refine ⟨one shard.index.toGraph item.2.1 long, ?_⟩
    split
    · trivial
    · trivial
  exact ⟨single _ _ (by decide), single _ _ (by decide), single _ _ (by decide), trivial⟩

/-- A vector of one entry is stored and then raises. -/
def spreadCalls : List (ShardCall Int) :=
  [.add (0, [1, 0], "first"), .add (1, [1], "spread"), .add (2, [0, 1], "second"), .add (3, [2, 0], "third")]

/-- Four rows are stored with three ids, so the rows from the second on have the next one's id. -/
theorem spread_vector_shifts_ids :
    ¬ Attributed climbing (ShardCall.addedBy climbing spreadCalls (init climbing smallParams))
      (ShardCall.runAll climbing spreadCalls (init climbing smallParams)) := by
  intro attributed
  have counts := attributed.counts
  revert counts
  decide +kernel

end Shard
end VectorSearch
