import VectorSearch.Cluster.OneNamespace

namespace VectorSearch

/-!
# Writes that succeed and searches that are answered

Where every draw of a level is finite, a coordinator takes every record with a
vector of the right length, and answers the searches in a namespace that compare
all matches.
-/

/-- Every draw of a level is finite. -/
def Numpy.Steady {F D G : Type} (np : Numpy F D G) : Prop :=
  ∀ M rng, ∃ level after, np.drawLevel M rng = (some level, after)

open Stateful

namespace Shard

variable {F D G : Type} [LinearOrder D] {np : Numpy F D G}

/-- A shard for vectors of one length. -/
structure Serving (width : Nat) (shard : Shard F G) : Prop where
  searchable : Searchable shard
  wellFormed : shard.index.WellFormed width

variable {width : Nat} {shard : Shard F G}

omit [LinearOrder D] in
theorem init_serving (width : Nat) (params : HnswParams) : Serving width (init np params : Shard F G) :=
  ⟨init_searchable np params, HNSW.init_wellFormed _ _ _ _ _ _⟩

theorem Serving.fits (serving : Serving width shard) {query : List F} (length : query.length = width) :
    shard.index.Fits query := by
  intro row member
  rw [length]
  exact (serving.wellFormed.rows row (List.mem_of_mem_head? member)).symm

/-- A vector of the right length is taken. -/
theorem Serving.add (steady : np.Steady) (serving : Serving width shard) (globalId : Int) {vector : List F}
    {text : String} (length : vector.length = width) (readable : Readable text) :
    ∃ after, add np globalId vector text shard = .ok () after ∧ Serving width after := by
  rcases steady shard.index.M shard.index.rng with ⟨level, rng, draw⟩
  rcases HNSW.insert_returns np serving.wellFormed length draw with ⟨_, graph, inserted, isInserted⟩
  have searchable := @add_searchable _ _ _ _ np (globalId, vector, text) readable shard serving.searchable
  unfold final at searchable
  unfold Shard.add at searchable ⊢
  rw [inserted] at searchable ⊢
  exact ⟨_, rfl, searchable, isInserted.wellFormed⟩

/-- A search that asks for enough compares all matches, and is answered. -/
theorem Serving.answers (partitions : np.Partitions) (serving : Serving width shard) {filter : Filter}
    (normal : filter.Normal) {query : List F} (length : query.length = width) {k : Nat}
    (enough : shard.payloads.length ≤ exactAdvantage * k) :
    ∃ reports after, searchWithPayloads np query k (some filter) shard =
      .ok reports after ∧ Serving width after ∧
      reports.length ≤ shard.payloads.length := by
  have fewer := filter.matchingIds_length_le shard.payloads
  have size : shard.size = shard.payloads.length := serving.searchable.ids
  have picked : filterStrategyExact (filter.matchingIds shard.payloads).length shard.size
      (max (shard.index.efSearch : Int) k) = true := by
    unfold filterStrategyExact
    rw [size]
    refine decide_eq_true ?_
    have wide : ((exactAdvantage * k : Nat) : Int) ≤ exactAdvantage * max (shard.index.efSearch : Int) k := by
      rw [Int.natCast_mul]
      exact Int.mul_le_mul_of_nonneg_left (le_max_right _ _) (by decide)
    have found : ((filter.matchingIds shard.payloads).length : Int) ≤ exactAdvantage * max
      (shard.index.efSearch : Int) k :=
      le_trans (Int.ofNat_le.mpr (Nat.le_trans fewer enough)) wide
    exact mul_le_mul found (Int.ofNat_le.mpr fewer) (Int.natCast_nonneg _)
      (le_trans (Int.natCast_nonneg _) found)
  rcases serving.searchable.exact partitions normal (serving.fits length) picked with
    ⟨hits, after, dists, ran, _, count, nearest⟩
  rcases serving.searchable.reported partitions normal ran with ⟨reports, answered, _, each⟩
  have kept := searchWithPayloads_maintains np catchUpIndex_searchable query k
    (some filter) shard serving.searchable
  have same := searchWithPayloads_maintains np (catchUpIndex_maintains shard.contents) query k
    (some filter) shard rfl
  unfold final at kept same
  rw [answered] at kept same
  refine ⟨reports, after, answered, ⟨kept, ?_⟩, ?_⟩
  · have graph : after.index.toGraph = shard.index.toGraph := congrArg Contents.graph same
    rw [graph]
    exact serving.wellFormed
  · rw [← each.length_eq, nearest.count, List.length_zip, count, Nat.min_self]
    exact Nat.le_trans (Nat.min_le_right _ _) fewer

end Shard

/-! ## Conditions that can be asked for -/

/-- Every condition is on a field, and wants values that are indexed. -/
def Indexable (conditions : List (PyKey × PyValue)) : Prop :=
  ∀ condition ∈ conditions, ∃ field, condition.1 = .str field ∧ itemsOf condition.2 ≠ [] ∧
    ∀ item ∈ itemsOf condition.2, keyOf field item ≠ none

theorem keyOf_short {field text : String} (short : text.length ≤ maxIndexedChars) :
    keyOf field (.str text) ≠ none := by
  have isKey : keyOf field (.str text) = some (field, .str text) := if_pos short
  rw [isKey]
  exact Option.some_ne_none _

theorem normalizeValues_returns {field : String} {items : List PyValue}
    (each : ∀ item ∈ items, keyOf field item ≠ none) :
    ∃ scalars, normalizeValues field items = .ok scalars := by
  induction items with
  | nil => exact ⟨[], rfl⟩
  | cons item rest inductionHypothesis =>
      rcases inductionHypothesis fun other member => each other (List.mem_cons_of_mem _ member) with
        ⟨scalars, given⟩
      rcases Option.ne_none_iff_exists'.mp (each item List.mem_cons_self) with ⟨⟨_, scalar⟩, isKey⟩
      refine ⟨scalar :: scalars, ?_⟩
      unfold normalizeValues
      simp only [isKey, given]
      rfl

theorem normalizeFields_returns {conditions : List (PyKey × PyValue)} (indexable : Indexable conditions)
    (normalized : Filter) : ∃ filter, normalizeFields conditions normalized = .ok filter := by
  induction conditions generalizing normalized with
  | nil => exact ⟨normalized, rfl⟩
  | cons condition rest inductionHypothesis =>
      rcases condition with ⟨key, wanted⟩
      rcases indexable _ List.mem_cons_self with ⟨field, isField, some, each⟩
      cases isField
      rcases normalizeValues_returns each with ⟨scalars, given⟩
      rcases inductionHypothesis (fun other member => indexable other (List.mem_cons_of_mem _ member))
        (normalized.set field scalars) with ⟨filter, isFilter⟩
      refine ⟨filter, ?_⟩
      unfold normalizeFields
      cases items : itemsOf wanted with
      | nil => exact absurd items some
      | cons value values =>
          rw [items] at given
          simp only [given]
          exact isFilter

theorem normalizeFilter_returns {conditions : List (PyKey × PyValue)} (indexable : Indexable conditions)
    (some : conditions ≠ []) : ∃ filter, normalizeFilter (.dict conditions) = .ok (.some filter) := by
  rcases normalizeFields_returns indexable Dict.empty with ⟨filter, given⟩
  refine ⟨filter, ?_⟩
  rcases List.exists_cons_of_ne_nil some with ⟨first, rest, rfl⟩
  change (normalizeFields (first :: rest) Dict.empty >>= fun normal => Except.ok (Option.some normal)) = _
  rw [given]
  rfl

namespace Coordinator

variable {D G : Type} [LinearOrder D] {np : Numpy Float32Bits D G}

/-- A coordinator whose namespace holds the records, and whose shards take vectors
of one length. -/
structure Serving (width : Nat) (name : String) (records : List (List (PyKey × PyValue)))
    (coordinator : Coordinator G) :
    Prop where
  holding : Holding name records coordinator
  shards : ∀ shard ∈ coordinator.shards, shard.Serving width
  nonempty : coordinator.shards ≠ []

variable {width : Nat} {name : String} {records : List (List (PyKey × PyValue))} {coordinator : Coordinator G}

omit [LinearOrder D] in
/-- The shard of the namespace. -/
theorem Serving.home (serving : Serving width name records coordinator) : ∃ target shard,
    shardForNamespace name coordinator.shards.length = .ok target ∧ coordinator.shards[target]? = some shard ∧
      shard.Serving width ∧ shard.payloads = records.map (recordText name) := by
  have isTarget : shardForNamespace name coordinator.shards.length =
      .ok ((crc32 (encodeUtf8 name)).toNat % coordinator.shards.length) :=
    if_neg fun none => serving.nonempty (List.length_eq_zero_iff.mp none)
  rcases serving.holding.stored _ isTarget with ⟨shard, isShard, stored⟩
  exact ⟨_, shard, isTarget, isShard, serving.shards shard (List.mem_of_getElem? isShard), stored⟩

omit [LinearOrder D] in
theorem Serving.put (serving : Serving width name records coordinator) {target size : Nat}
    {found : Shard Float32Bits G} (isServing : found.Serving width) {later : List (List (PyKey × PyValue))}
    (holding : Holding name later ⟨size, coordinator.shards.set target found⟩) :
    Serving width name later ⟨size, coordinator.shards.set target found⟩ := by
  refine ⟨holding, fun shard member => ?_, ?_⟩
  · rcases List.mem_or_eq_of_mem_set member with old | rfl
    · exact serving.shards shard old
    · exact isServing
  · exact fun none => serving.nonempty
      (List.length_eq_zero_iff.mp (List.length_set.symm.trans (congrArg List.length none)))

/-- What can be read is returned. -/
theorem oneAnswer_returns {reports : List (D × Int × String)}
    (readable : ∀ report ∈ reports, Readable report.2.2)
    (k : Nat) : ∃ hits, oneAnswer reports k = .ok hits ∧ hits.length ≤ reports.length := by
  have merged := mergeTopKScored_one reports k
  have perm := List.perm_insertionSort (fun left right : Scored D => left.key ≤ right.key)
    (reports.map fun hit => ⟨hit.1, hit.2.1, hit.2.2⟩)
  have gives : Gives (oneAnswer reports k) fun hits => List.Forall₂ (fun _ _ => True)
      (mergeTopKScored [reports.map fun hit => (⟨hit.1, hit.2.1, hit.2.2⟩ : Scored D)] k) hits := by
    refine Gives.mapM fun entry member => ?_
    rw [merged] at member
    rcases List.mem_map.mp (perm.subset (List.mem_of_mem_take member)) with ⟨report, isReport, rfl⟩
    unfold decodePayload
    rcases readable report isReport with empty | ⟨value, loads⟩
    · rw [if_pos empty]
      exact ⟨_, rfl, trivial⟩
    · by_cases empty : report.2.2 = ""
      · rw [if_pos empty]
        exact ⟨_, rfl, trivial⟩
      · rw [if_neg empty, loads]
        exact ⟨_, rfl, trivial⟩
  rcases gives with ⟨hits, given, each⟩
  refine ⟨hits, given, ?_⟩
  rw [← each.length_eq, merged]
  refine Nat.le_trans (List.length_take_le' _ _) ?_
  rw [perm.length_eq, List.length_map]

/-- A search in the namespace is answered. -/
theorem Serving.search (partitions : np.Partitions) (serving : Serving width name records coordinator)
    {query : List Float32Bits} (length : query.length = width) {k : Nat}
    (enough : records.length ≤ exactAdvantage * k)
    {conditions : List (PyKey × PyValue)} (unmentioned : mentionsNamespace conditions = false)
    (distinct : (conditions.map Prod.fst).Nodup) (indexable : Indexable (taggedRecord name conditions)) :
    ∃ hits after, searchHits np query k (some conditions) (some name) coordinator = .ok hits after ∧
      Serving width name records after ∧ hits.length ≤ records.length ∧
        Found name records conditions k hits := by
  rcases serving.home with ⟨target, shard, isTarget, isShard, isServing, stored⟩
  rcases normalizeFilter_returns indexable (List.append_ne_nil_of_right_ne_nil _ (List.cons_ne_nil _ _)) with
    ⟨filter, normalized⟩
  have size : shard.payloads.length = records.length := by rw [stored, List.length_map]
  have normal := normalizeFilter_normal normalized
  rcases isServing.answers partitions normal length (size ▸ enough) with
    ⟨reports, found, answer, foundServing, fewer⟩
  rw [← update_namespace unmentioned] at normalized
  have readable : ∀ report ∈ reports, Readable report.2.2 := by
    rcases isServing.searchable.answered partitions normal answer with ⟨_, _, _, _, each⟩
    intro report isReport
    rcases forall₂_mem_right each isReport with ⟨pair, _, _, atPair⟩
    exact isServing.searchable.readable _ (List.mem_of_getElem? atPair)
  rcases oneAnswer_returns readable k with ⟨hits, given, count⟩
  have ran := searchHits_of np isTarget unmentioned normalized isShard answer given
  rcases serving.holding.search partitions distinct ran with ⟨kept, _, isFound⟩
  exact ⟨hits, _, ran, serving.put foundServing kept, Nat.le_trans count (size ▸ fewer), isFound⟩

omit [LinearOrder D] in
/-- The batches of a record in a namespace. -/
theorem batchesOf_returns {vector : List Float32Bits} {record : List (PyKey × PyValue)} {numShards target : Nat}
    {startId : Int} (storable : Storable record) (named : name ≠ "" ∧ name.length ≤ maxIndexedChars)
    (isTarget : shardForNamespace name numShards = .ok target) :
    batchesOf [vector] (some [some record]) (some name) numShards startId =
      .ok ((List.replicate numShards RoutedBatch.empty).set target
        ⟨idRange startId 1, [vector], [recordText name record]⟩) := by
  have indexable : Indexable [(.str namespaceField, .str name)] := by
    intro condition member
    rw [List.mem_singleton.mp member]
    refine ⟨namespaceField, rfl, List.cons_ne_nil _ _, fun item isItem => ?_⟩
    rw [List.mem_singleton.mp isItem]
    exact keyOf_short named.2
  rcases normalizeFilter_returns indexable (List.cons_ne_nil _ _) with ⟨filter, normalized⟩
  have tagged : tagNamespace (some [some record]) 1 (some name) =
    .ok (some [some (tagPayload name (some record))]) := by
    unfold tagNamespace
    rw [if_neg (by simp), if_neg (by simp [storable.unmentioned])]
    dsimp only
    rw [if_neg named.1]
    unfold namespaceFilter
    rw [normalized]
    rfl
  have printable : (PyValue.dict (tagPayload name (some record))).printable = true := by
    unfold tagPayload
    rw [Option.getD_some, update_namespace storable.unmentioned]
    exact taggedRecord_printable name storable.printable
  have encoded : encodePayloads (some [some (tagPayload name (some record))]) 1 =
    .ok [recordText name record] := by
    have isText : encodePayload (some (tagPayload name (some record))) = .ok (recordText name record) :=
      jsonDumps_eq_ok printable false
    unfold encodePayloads
    dsimp only
    rw [if_neg (by simp), List.mapM_cons, isText]
    rfl
  unfold batchesOf
  rw [show [vector].length = 1 from rfl, tagged]
  simp only [bind, Except.bind, encoded, isTarget]
  rfl

/-- A record is taken. -/
theorem Serving.add (steady : np.Steady) (serving : Serving width name records coordinator)
    {vector : List Float32Bits} (length : vector.length = width) {record : List (PyKey × PyValue)}
    (storable : Storable record) (named : name ≠ "" ∧ name.length ≤ maxIndexedChars) :
    ∃ after, Coordinator.add np [vector] (some [some record]) (some name) coordinator = .ok () after ∧
      Serving width name (records ++ [record]) after := by
  rcases serving.home with ⟨target, shard, isTarget, isShard, isServing, stored⟩
  have readable : Readable (recordText name record) := Or.inr ⟨_, recordText_loads storable name⟩
  rcases isServing.add steady coordinator.size length readable with ⟨found, added, foundServing⟩
  have ran : Coordinator.add np [vector] (some [some record]) (some name) coordinator =
      .ok () ⟨coordinator.size + 1, coordinator.shards.set target found⟩ := by
    unfold Coordinator.add
    rw [batchesOf_returns storable named isTarget]
    simp only [addBatches_one coordinator.shards target _ isShard, addBatch_one, added, List.length_singleton]
  exact ⟨_, ran, serving.put foundServing (serving.holding.add storable ran).1⟩

end Coordinator

end VectorSearch
