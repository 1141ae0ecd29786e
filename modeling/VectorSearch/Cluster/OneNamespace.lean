import VectorSearch.Cluster.Coordinator
import VectorSearch.Index.FilteredSearch
import VectorSearch.Lib.JsonRoundTrip

namespace VectorSearch

/-!
# One namespace of a coordinator

The records of a namespace are on one shard.  What is stored there are their
texts, and a search in the namespace asks that shard alone: each hit is one of
the records that fulfil the conditions, and where there are no more of these
than the search asks for, all of them are found.
-/

open Stateful

namespace Shard

variable {F D G : Type} [LinearOrder D] {np : Numpy F D G}

/-- A filtered search that returned few matches returned all of them. -/
theorem Searchable.complete (partitions : np.Partitions) {shard after : Shard F G}
    (searchable : Searchable shard) {filter : Filter} (normal : filter.Normal) {query : List F} {k : Nat}
    {hits : List (D × Nat)} (few : (filter.matchingIds shard.payloads).length ≤ k)
    (ran : nearest np query k (some filter) shard = .ok hits after) :
    (hits.map Prod.snd).Perm (filter.matchingIds shard.payloads) := by
  have inside : (filter.matchingIds shard.payloads).length ≤ shard.size := by
    unfold size
    rw [searchable.ids]
    exact filter.matchingIds_length_le shard.payloads
  rcases nearest_eq np searchable normal query k with ⟨payloadIndex, mask, _, _, answer⟩
  rw [answer] at ran
  split at ran
  · rename_i none
    cases ran
    rw [none]
    exact List.Perm.nil
  · rename_i some
    rw [if_pos (filterStrategyExact_few few inside shard.index.efSearch)] at ran
    rcases HNSW.exactAmong_ok np some (asking_ok ran).1 with ⟨dists, scored, distances, preselected, isHits⟩
    have count := HNSW.distancesTo_length np distances
    rcases preselected.nearest partitions count with ⟨nearest, subperm, room⟩
    have whole : scored.Perm (dists.zip (filter.matchingIds shard.payloads)) := by
      apply subperm.perm_of_length_le
      rw [nearest.count, List.length_zip, count, Nat.min_self, Nat.min_eq_right few]
    have ids := ((HNSW.sorted_perm room).trans whole).map Prod.snd
    rw [List.map_snd_zip (Nat.le_of_eq count.symm)] at ids
    rw [isHits]
    exact ids

/-- What a search that returned has reported. -/
theorem Searchable.answered (partitions : np.Partitions) {shard after : Shard F G}
    (searchable : Searchable shard)
    {filter : Filter} (normal : filter.Normal) {query : List F} {k : Nat} {reports : List (D × Int × String)}
    (ran : searchWithPayloads np query k (some filter) shard = .ok reports after) :
    Searchable after ∧ after.contents = shard.contents ∧ ∃ hits,
      nearest np query k (some filter) shard = .ok hits after ∧
      List.Forall₂ (fun hit report => report.1 = hit.1 ∧ shard.payloads[hit.2]? = some report.2.2) hits
        reports := by
  have kept := searchWithPayloads_maintains np catchUpIndex_searchable query k (some filter) shard searchable
  have same := searchWithPayloads_maintains np (catchUpIndex_maintains shard.contents) query k
    (some filter) shard rfl
  unfold final at kept same
  rw [ran] at kept same
  refine ⟨kept, same, ?_⟩
  rcases bind_ok ran with ⟨hits, reached, searched, _⟩
  rcases searchable.reported partitions normal searched with ⟨others, again, _, each⟩
  rw [ran] at again
  cases again
  exact ⟨hits, searched, each.imp fun hit report facts => ⟨facts.1, facts.2.2⟩⟩

end Shard

/-! ## Records -/

theorem normalizeFilter_some {entries : List (PyKey × PyValue)} {filter : Option Filter}
    (nonempty : entries ≠ [])
    (normalized : normalizeFilter (.dict entries) = .ok filter) : ∃ normal, filter = some normal := by
  rcases List.exists_cons_of_ne_nil nonempty with ⟨entry, rest, rfl⟩
  rcases gave_bind (show (normalizeFields (entry :: rest) Dict.empty >>= fun normal =>
    .ok (some normal)) = .ok filter
    from normalized) with ⟨normal, _, isFilter⟩
  exact ⟨normal, (Except.ok.inj isFilter).symm⟩

/-- A record of a namespace, as it is stored. -/
def taggedRecord (name : String) (record : List (PyKey × PyValue)) : List (PyKey × PyValue) :=
  record ++ [(.str namespaceField, .str name)]

def recordText (name : String) (record : List (PyKey × PyValue)) : String :=
  (PyValue.dict (tagPayload name (some record))).dumps false

/-- A payload that can be stored in a namespace and read back. -/
structure Storable (record : List (PyKey × PyValue)) : Prop where
  keyed : (PyValue.dict record).StringKeyed
  printable : (PyValue.dict record).printable = true
  unmentioned : mentionsNamespace record = false

theorem mentionsNamespace_iff {entries : List (PyKey × PyValue)} :
    mentionsNamespace entries = false ↔ PyKey.str namespaceField ∉ entries.map Prod.fst := by
  unfold mentionsNamespace
  rw [List.any_eq_false, List.mem_map, not_exists]
  constructor
  · rintro none entry ⟨member, isField⟩
    exact none entry member (decide_eq_true isField)
  · intro none entry member isField
    exact none entry ⟨member, of_decide_eq_true isField⟩

theorem update_namespace {name : String} {entries : List (PyKey × PyValue)}
    (unmentioned : mentionsNamespace entries = false) :
    Dict.update (.str namespaceField) (.str name) entries = taggedRecord name entries :=
  Dict.update_new _ _ _ (mentionsNamespace_iff.mp unmentioned)

theorem stringKeyed_append {front back : List (PyKey × PyValue)} (first : PyValue.StringKeyedEntries front)
    (second : PyValue.StringKeyedEntries back) : PyValue.StringKeyedEntries (front ++ back) := by
  induction front with
  | nil => exact second
  | cons entry rest inductionHypothesis =>
      rcases entry with ⟨key, value⟩
      exact ⟨first.1, first.2.1, inductionHypothesis first.2.2⟩

theorem taggedRecord_nodup (name : String) {entries : List (PyKey × PyValue)}
    (distinct : (entries.map Prod.fst).Nodup) (unmentioned : mentionsNamespace entries = false) :
    ((taggedRecord name entries).map Prod.fst).Nodup := by
  unfold taggedRecord
  rw [List.map_append, List.nodup_append]
  refine ⟨distinct, List.nodup_singleton _, ?_⟩
  rintro key member _ isLast rfl
  have isField : key = .str namespaceField := List.mem_singleton.mp isLast
  exact mentionsNamespace_iff.mp unmentioned (isField ▸ member)

theorem taggedRecord_keyed (name : String) {record : List (PyKey × PyValue)}
    (keyed : (PyValue.dict record).StringKeyed) (unmentioned : mentionsNamespace record = false) :
    (PyValue.dict (taggedRecord name record)).StringKeyed :=
  ⟨taggedRecord_nodup name keyed.1 unmentioned, stringKeyed_append keyed.2 ⟨⟨_, rfl⟩, trivial, trivial⟩⟩

theorem taggedRecord_printable (name : String) {record : List (PyKey × PyValue)}
    (printable : (PyValue.dict record).printable = true) :
    (PyValue.dict (taggedRecord name record)).printable = true := by
  unfold taggedRecord
  induction record with
  | nil => rfl
  | cons entry rest inductionHypothesis =>
      rcases entry with ⟨key, value⟩
      have parts := Bool.and_eq_true_iff.mp printable
      exact Bool.and_eq_true_iff.mpr ⟨parts.1, inductionHypothesis parts.2⟩

/-- A stored record can be read back. -/
theorem recordText_loads {record : List (PyKey × PyValue)} (storable : Storable record) (name : String) :
    PyValue.loads (recordText name record) = some (.dict (taggedRecord name record)) := by
  unfold recordText tagPayload
  rw [Option.getD_some, update_namespace storable.unmentioned]
  exact PyValue.loads_dumps false (taggedRecord_keyed name storable.keyed storable.unmentioned)
    (taggedRecord_printable name storable.printable)

theorem recordText_nonempty {record : List (PyKey × PyValue)} (storable : Storable record) (name : String) :
    recordText name record ≠ "" := by
  intro empty
  have loads := recordText_loads storable name
  rw [empty] at loads
  cases loads

/-- The namespace of a record is no matter for the other fields. -/
theorem fulfils_tagged {conditions record : List (PyKey × PyValue)} (name : String)
    (unmentioned : mentionsNamespace conditions = false) :
    Fulfils (taggedRecord name conditions) (taggedRecord name record) ↔ Fulfils conditions record := by
  have noCondition := mentionsNamespace_iff.mp unmentioned
  unfold Fulfils taggedRecord
  constructor
  · intro each condition member
    rcases each condition (List.mem_append_left _ member) with ⟨value, inRecord, wanted⟩
    rcases List.mem_append.mp inRecord with old | last
    · exact ⟨value, old, wanted⟩
    · have isField : condition.1 = .str namespaceField := congrArg Prod.fst (List.mem_singleton.mp last)
      exact absurd (isField ▸ List.mem_map_of_mem member) noCondition
  · intro each condition member
    rcases List.mem_append.mp member with old | last
    · rcases each condition old with ⟨value, inRecord, wanted⟩
      exact ⟨value, List.mem_append_left _ inRecord, wanted⟩
    · rw [List.mem_singleton.mp last]
      exact ⟨.str name, List.mem_append_right _ (List.mem_singleton_self _), .str name,
        List.mem_singleton_self _,
        List.mem_singleton_self _⟩

namespace Coordinator

variable {D G : Type} [LinearOrder D] (np : Numpy Float32Bits D G)

/-! ## One search -/

theorem planQuery_ok {conditions : List (PyKey × PyValue)} {name : String} {numShards : Nat}
    {filter : Option Filter} {targets : List Nat}
    (planned : planQuery (some conditions) (some name) numShards = .ok (filter, targets)) :
    mentionsNamespace conditions = false ∧
      normalizeFilter (.dict (Dict.update (.str namespaceField) (.str name) conditions)) = .ok filter ∧
      ∃ target, shardForNamespace name numShards = .ok target ∧ targets = [target] := by
  unfold planQuery at planned
  dsimp only [Option.getD_some] at planned
  split at planned
  · cases planned
  · rename_i unmentioned
    rcases gave_bind planned with ⟨given, normalized, later⟩
    rcases gave_bind later with ⟨target, found, isPlan⟩
    cases isPlan
    exact ⟨Bool.eq_false_of_not_eq_true unmentioned, normalized, target, found, rfl⟩

/-- The hits of one shard's answer. -/
def oneAnswer (reports : List (D × Int × String)) (k : Int) : Except Error (List (Hit D)) :=
  hitsOf (mergeTopKScored [reports.map fun hit => ⟨hit.1, hit.2.1, hit.2.2⟩] k)

theorem askShards_one (query : List Float32Bits) (k : Int) (filter : Option Filter) {target : Nat}
    {coordinator : Coordinator G} {shard : Shard Float32Bits G}
    (isShard : coordinator.shards[target]? = some shard) :
    askShards np query k true filter [target] coordinator =
      match Shard.searchWithPayloads np query k filter shard with
      | .error error found => .error error { coordinator with shards := coordinator.shards.set target found }
      | .ok reports found =>
          .ok [reports.map fun hit => ⟨hit.1, hit.2.1, hit.2.2⟩]
            { coordinator with shards := coordinator.shards.set target found } := by
  simp only [askShards, bind, EStateM.bind, get_run, isShard, ask, if_true]
  cases Shard.searchWithPayloads np query k filter shard with
  | error error found => rfl
  | ok reports found => rfl

/-- A search in a namespace asks one shard. -/
theorem searchHits_ok {query : List Float32Bits} {k : Int} {conditions : List (PyKey × PyValue)} {name : String}
    {coordinator after : Coordinator G} {hits : List (Hit D)}
    (ran : searchHits np query k (some conditions) (some name) coordinator = .ok hits after) :
    ∃ target filter, shardForNamespace name coordinator.shards.length = .ok target ∧
      mentionsNamespace conditions = false ∧
      normalizeFilter (.dict (Dict.update (.str namespaceField) (.str name) conditions)) = .ok filter ∧
      ∀ shard, coordinator.shards[target]? = some shard →
        ∃ found reports, Shard.searchWithPayloads np query k filter shard = .ok reports found ∧
          after = { coordinator with shards := coordinator.shards.set target found } ∧
          oneAnswer reports k = .ok hits := by
  rcases bind_ok ran with ⟨perShard, reached, searched, later⟩
  rcases bind_ok searched with ⟨state, same, read, planned⟩
  cases read
  cases isPlan : planQuery (some conditions) (some name) coordinator.shards.length with
  | error error =>
      simp only [isPlan] at planned
      cases planned
  | ok plan =>
      rcases plan with ⟨filter, targets⟩
      simp only [isPlan] at planned
      rcases planQuery_ok isPlan with ⟨unmentioned, normalized, target, isTarget, rfl⟩
      refine ⟨target, filter, isTarget, unmentioned, normalized, fun shard isShard => ?_⟩
      rw [askShards_one np query k filter isShard] at planned
      cases answer : Shard.searchWithPayloads np query k filter shard with
      | error error found =>
          rw [answer] at planned
          cases planned
      | ok reports found =>
          rw [answer] at planned
          cases planned
          refine ⟨found, reports, rfl, ?_⟩
          cases given : oneAnswer reports k with
          | error error =>
              unfold oneAnswer at given
              simp only [given] at later
              cases later
          | ok answered =>
              unfold oneAnswer at given
              simp only [given] at later
              cases later
              exact ⟨rfl, rfl⟩

/-- Where the shard answers, so does the coordinator. -/
theorem searchHits_of {query : List Float32Bits} {k : Int} {conditions : List (PyKey × PyValue)} {name : String}
    {coordinator : Coordinator G} {target : Nat} {filter : Option Filter} {shard found : Shard Float32Bits G}
    {reports : List (D × Int × String)} {hits : List (Hit D)}
    (isTarget : shardForNamespace name coordinator.shards.length = .ok target)
    (unmentioned : mentionsNamespace conditions = false)
    (normalized : normalizeFilter (.dict (Dict.update (.str namespaceField) (.str name) conditions)) =
      .ok filter)
    (isShard : coordinator.shards[target]? = some shard)
    (answer : Shard.searchWithPayloads np query k filter shard = .ok reports found)
    (given : oneAnswer reports k = .ok hits) :
    searchHits np query k (some conditions) (some name) coordinator =
      .ok hits { coordinator with shards := coordinator.shards.set target found } := by
  have planned : planQuery (some conditions) (some name) coordinator.shards.length =
    .ok (filter, [target]) := by
    unfold planQuery
    simp only [Option.getD_some, unmentioned, normalized, isTarget]
    rfl
  have scattered := askShards_one np query k filter isShard
  rw [answer] at scattered
  unfold oneAnswer at given
  simp only [searchHits, scatter, bind, EStateM.bind, get_run, planned, scattered, pure, EStateM.pure,
    given]

/-! ## What a namespace holds -/

/-- The texts of the records, in the order they were written, are the payloads of
the namespace's shard. -/
structure Holding (name : String) (records : List (List (PyKey × PyValue)))
    (coordinator : Coordinator G) : Prop where
  searchable : ∀ shard ∈ coordinator.shards, shard.Searchable
  storable : ∀ record ∈ records, Storable record
  stored : ∀ target, shardForNamespace name coordinator.shards.length = .ok target →
    ∃ shard, coordinator.shards[target]? = some shard ∧ shard.payloads = records.map (recordText name)

variable {np} {name : String} {records : List (List (PyKey × PyValue))} {coordinator after : Coordinator G}

omit [LinearOrder D] in
/-- Another state of the namespace's shard. -/
theorem Holding.set (holding : Holding name records coordinator) {target : Nat}
    (isTarget : shardForNamespace name coordinator.shards.length = .ok target)
    {shard found : Shard Float32Bits G}
    (isShard : coordinator.shards[target]? = some shard) {more : List (List (PyKey × PyValue))}
    (storable : ∀ record ∈ more, Storable record) (searchable : found.Searchable)
    (payloads : found.payloads = shard.payloads ++ more.map (recordText name)) {size : Nat} :
    Holding name (records ++ more) ⟨size, coordinator.shards.set target found⟩ := by
  refine ⟨?_, ?_, ?_⟩
  · intro other member
    rcases List.mem_or_eq_of_mem_set member with old | same
    · exact holding.searchable other old
    · exact same ▸ searchable
  · intro record member
    rcases List.mem_append.mp member with old | new
    · exact holding.storable record old
    · exact storable record new
  · intro other isOther
    dsimp only at isOther
    rw [List.length_set, isTarget] at isOther
    cases isOther
    rcases holding.stored target isTarget with ⟨same, isSame, stored⟩
    rw [isShard] at isSame
    cases isSame
    refine ⟨found, ?_, ?_⟩
    · exact List.getElem?_set_self (List.getElem?_eq_some_iff.mp isShard).1
    · rw [payloads, stored, List.map_append]

open Classical in
/-- How many of the records fulfil the conditions. -/
noncomputable def countFulfilling (conditions : List (PyKey × PyValue))
    (records : List (List (PyKey × PyValue))) : Nat :=
  records.countP fun record => decide (Fulfils conditions record)

theorem length_filter_range {α : Type} (items : List α) (good : α → Prop) [DecidablePred good]
    [DecidablePred fun position : Nat => ∃ item, items[position]? = some item ∧ good item] :
    ((List.range items.length).filter fun position => ∃ item, items[position]? = some item ∧ good item).length =
      items.countP fun item => decide (good item) := by
  have counted := @List.countP_filterMap _ _ (fun item => decide (good item)) (items[·]?)
    (List.range items.length)
  rw [HNSW.filterMap_range] at counted
  rw [counted, ← List.countP_eq_length_filter]
  apply List.countP_congr
  intro position _
  rw [decide_eq_true_eq]
  cases items[position]? with
  | none => simp
  | some item => simp

open Classical in
theorem length_matchingIds {filter : Filter} {conditions : List (PyKey × PyValue)}
    (isFilter : ∀ record ∈ records, filter.Matches (recordText name record) ↔ Fulfils conditions record) :
    (filter.matchingIds (records.map (recordText name))).length = countFulfilling conditions records := by
  unfold Filter.matchingIds countFulfilling
  rw [length_filter_range (records.map (recordText name)) filter.Matches, List.countP_map]
  apply List.countP_congr
  intro record member
  simp only [Function.comp_apply, decide_eq_true_eq]
  exact isFilter record member

/-- A hit that is one of the records. -/
def Shows (name : String) (hit : Hit D) (record : List (PyKey × PyValue)) : Prop :=
  hit.payload = .dict (taggedRecord name record)

/-- The answer of one shard, merged. -/
theorem mergeTopKScored_one (reports : List (D × Int × String)) (k : Nat) :
    mergeTopKScored [reports.map fun hit => (⟨hit.1, hit.2.1, hit.2.2⟩ : Scored D)] k =
      ((reports.map fun hit => ⟨hit.1, hit.2.1, hit.2.2⟩).insertionSort fun left right =>
        left.key ≤ right.key).take
        k := by
  unfold mergeTopKScored nsmallest
  rw [List.flatten_cons, List.flatten_nil, List.append_nil, Int.toNat_natCast]

/-- The hits of one answer, in any order, show what was reported. -/
theorem oneAnswer_ok {reports : List (D × Int × String)} {k : Nat} {hits : List (Hit D)}
    (given : oneAnswer reports k = .ok hits) :
    hits.length ≤ k ∧ (∀ hit ∈ hits, ∃ report ∈ reports, decodePayload report.2.2 = .ok hit.payload) ∧
      (reports.length ≤ k → ∀ report ∈ reports, ∃ hit ∈ hits, decodePayload report.2.2 = .ok hit.payload) := by
  have each := mapM_ok given
  have merged := mergeTopKScored_one reports k
  rw [merged] at each
  have perm := List.perm_insertionSort (fun left right : Scored D => left.key ≤ right.key)
    (reports.map fun hit => ⟨hit.1, hit.2.1, hit.2.2⟩)
  have decoded : ∀ (entry : Scored D) (hit : Hit D),
      (do return (⟨entry.globalId, entry.distance, ← decodePayload entry.payload⟩ : Hit D)) = Except.ok hit →
        decodePayload entry.payload = .ok hit.payload := by
    intro entry hit same
    rcases gave_bind same with ⟨payload, loaded, isHit⟩
    cases isHit
    exact loaded
  refine ⟨?_, ?_, ?_⟩
  · rw [← each.length_eq]
    exact List.length_take_le k _
  · intro hit member
    rcases mapM_ok_mem given hit member with ⟨entry, inMerged, same⟩
    have inReports := perm.subset (List.mem_of_mem_take (show entry ∈ List.take k _ from merged ▸ inMerged))
    rcases List.mem_map.mp inReports with ⟨report, isReport, isEntry⟩
    have loaded := decoded _ _ same
    rw [← isEntry] at loaded
    exact ⟨report, isReport, loaded⟩
  · intro few report member
    have whole : reports.length = (List.insertionSort (fun left right : Scored D => left.key ≤ right.key)
        (reports.map fun hit => ⟨hit.1, hit.2.1, hit.2.2⟩)).length := by
      rw [perm.length_eq, List.length_map]
    rw [List.take_of_length_le (whole ▸ few)] at each
    rcases forall₂_mem_left each (perm.symm.subset (List.mem_map_of_mem member)) with ⟨hit, isHit, same⟩
    exact ⟨hit, isHit, decoded _ _ same⟩

/-- What a search in the namespace returns: records that fulfil the conditions,
and all of them where there are no more than it asks for. -/
structure Found (name : String) (records : List (List (PyKey × PyValue))) (conditions : List (PyKey × PyValue))
    (k : Nat) (hits : List (Hit D)) : Prop where
  few : hits.length ≤ k
  sound : ∀ hit ∈ hits, ∃ record ∈ records, Shows name hit record ∧ Fulfils conditions record
  complete : countFulfilling conditions records ≤ k → ∀ record ∈ records, Fulfils conditions record →
    ∃ hit ∈ hits, Shows name hit record

theorem decode_record {record : List (PyKey × PyValue)} (storable : Storable record) {payload : PyValue}
    (decoded : decodePayload (recordText name record) = .ok payload) : payload =
    .dict (taggedRecord name record) := by
  unfold decodePayload at decoded
  rw [if_neg (recordText_nonempty storable name), recordText_loads storable name] at decoded
  exact (Except.ok.inj decoded).symm

theorem Holding.search (partitions : np.Partitions) (holding : Holding name records coordinator)
    {query : List Float32Bits} {k : Nat} {conditions : List (PyKey × PyValue)} {hits : List (Hit D)}
    (distinct : (conditions.map Prod.fst).Nodup)
    (ran : searchHits np query k (some conditions) (some name) coordinator = .ok hits after) :
    Holding name records after ∧ after.shards.length = coordinator.shards.length ∧
      Found name records conditions k hits := by
  rcases searchHits_ok np ran with ⟨target, result, isTarget, unmentioned, normalized, asks⟩
  rcases holding.stored target isTarget with ⟨shard, isShard, stored⟩
  rcases asks shard isShard with ⟨found, reports, answer, rfl, given⟩
  have searchable := holding.searchable shard (List.mem_of_getElem? isShard)
  rw [update_namespace unmentioned] at normalized
  have keys := taggedRecord_nodup name distinct unmentioned
  have nonempty : taggedRecord name conditions ≠ [] := List.append_ne_nil_of_right_ne_nil
    _ (List.cons_ne_nil _ _)
  rcases normalizeFilter_some nonempty normalized with ⟨filter, rfl⟩
  have isFilter : ∀ record ∈ records, filter.Matches (recordText name record) ↔ Fulfils conditions record := by
    intro record member
    have storable := holding.storable record member
    rw [normalizeFilter_matches keys normalized, recordText_loads storable name]
    constructor
    · rintro ⟨_, entries, same, fulfils⟩
      cases same
      exact (fulfils_tagged name unmentioned).mp fulfils
    · intro fulfils
      exact ⟨recordText_nonempty storable name, _, rfl, (fulfils_tagged name unmentioned).mpr fulfils⟩
  have normal := normalizeFilter_normal normalized
  rcases searchable.answered partitions normal answer with ⟨foundSearchable, same, pairs, searched, each⟩
  have payloads : found.payloads = shard.payloads ++ ([] : List (List (PyKey × PyValue))).map
    (recordText name) := by
    rw [List.map_nil, List.append_nil]
    exact congrArg Contents.payloads same
  have kept : Holding name (records ++ []) ⟨coordinator.size, coordinator.shards.set target found⟩ :=
    holding.set isTarget isShard (fun _ member => absurd member List.not_mem_nil) foundSearchable payloads
  rw [List.append_nil] at kept
  refine ⟨kept, List.length_set, ?_⟩
  rcases oneAnswer_ok given with ⟨few, sound, complete⟩
  refine ⟨few, ?_, ?_⟩
  · intro hit member
    rcases sound hit member with ⟨report, isReport, decoded⟩
    rcases forall₂_mem_right each isReport with ⟨pair, isPair, _, atPair⟩
    have isMatch := ((searchable.sound partitions normal searched).1 pair isPair).1
    rcases Filter.mem_matchingIds.mp isMatch with ⟨text, atPosition, isMatching⟩
    rw [atPair] at atPosition
    cases atPosition
    have inPayloads := List.mem_of_getElem? atPair
    rw [stored] at inPayloads
    rcases List.mem_map.mp inPayloads with ⟨record, isRecord, isText⟩
    rw [← isText] at decoded isMatching
    have shows := decode_record (holding.storable record isRecord) decoded
    exact ⟨record, isRecord, shows, (isFilter record isRecord).mp isMatching⟩
  · intro enough record isRecord fulfils
    have matchCount : (filter.matchingIds shard.payloads).length ≤ k := by
      rw [stored, length_matchingIds isFilter]
      exact enough
    have all := searchable.complete partitions normal matchCount searched
    have isStored : recordText name record ∈ shard.payloads := stored ▸ List.mem_map_of_mem isRecord
    rcases List.mem_iff_getElem?.mp isStored with ⟨position, atPosition⟩
    have isMatch : position ∈ filter.matchingIds shard.payloads :=
      Filter.mem_matchingIds.mpr ⟨_, atPosition, (isFilter record isRecord).mpr fulfils⟩
    rcases List.mem_map.mp (all.symm.subset isMatch) with ⟨pair, isPair, isPosition⟩
    rcases forall₂_mem_left each isPair with ⟨report, isReport, _, atPair⟩
    rw [isPosition, atPosition] at atPair
    have reportCount : reports.length ≤ k := by
      rw [← each.length_eq, ← List.length_map, all.length_eq]
      exact matchCount
    rcases complete reportCount report isReport with ⟨hit, isHit, decoded⟩
    rw [← Option.some.inj atPair] at decoded
    exact ⟨hit, isHit, decode_record (holding.storable record isRecord) decoded⟩

/-! ## Any search -/

omit [LinearOrder D] in
/-- Another state of any shard that stores the same. -/
theorem Holding.same (holding : Holding name records coordinator) {target : Nat}
    {shard found : Shard Float32Bits G} (isShard : coordinator.shards[target]? = some shard)
    (searchable : found.Searchable) (payloads : found.payloads = shard.payloads) :
    Holding name records { coordinator with shards := coordinator.shards.set target found } := by
  refine ⟨?_, holding.storable, ?_⟩
  · intro other member
    rcases List.mem_or_eq_of_mem_set member with old | same
    · exact holding.searchable other old
    · exact same ▸ searchable
  · intro home isHome
    rw [List.length_set] at isHome
    rcases holding.stored home isHome with ⟨held, isHeld, stored⟩
    by_cases here : target = home
    · subst here
      rw [isShard] at isHeld
      cases isHeld
      exact ⟨found, List.getElem?_set_self (List.getElem?_eq_some_iff.mp isShard).1, payloads.trans stored⟩
    · exact ⟨held, (List.getElem?_set_ne here).trans isHeld, stored⟩

theorem ask_keeps (query : List Float32Bits) (k : Int) (withPayloads : Bool) (filter : Option Filter)
    {shard : Shard Float32Bits G} (searchable : shard.Searchable) :
    (final (ask np query k withPayloads filter) shard).Searchable ∧
      (final (ask np query k withPayloads filter) shard).payloads = shard.payloads := by
  have both : Maintains (fun found => Shard.Searchable found ∧ found.contents = shard.contents)
      (ask np query k withPayloads filter) := by
    unfold ask
    have catches : Maintains (fun found => Shard.Searchable found ∧ found.contents = shard.contents)
        (Shard.catchUpIndex : Shard.Searching Float32Bits G Unit) := fun found holds =>
      ⟨Shard.catchUpIndex_searchable found holds.1, Shard.catchUpIndex_maintains shard.contents found holds.2⟩
    split
    · exact Maintains.bind (Shard.searchWithPayloads_maintains np catches query k filter) fun _ =>
        Maintains.pure _
    · exact Maintains.bind (Shard.search_maintains np catches query k filter) fun _ => Maintains.pure _
  have after := both shard ⟨searchable, rfl⟩
  exact ⟨after.1, congrArg Contents.payloads after.2⟩

theorem askShards_holding (query : List Float32Bits) (k : Int) (withPayloads : Bool) (filter : Option Filter)
    (targets : List Nat) : Maintains (Holding name records)
    (askShards np query k withPayloads filter targets) := by
  induction targets with
  | nil => exact Maintains.pure _
  | cons target rest inductionHypothesis =>
      intro coordinator holding
      rw [askShards, final_bind]
      simp only [get_run]
      cases isShard : coordinator.shards[target]? with
      | none => exact holding
      | some shard =>
          have kept := @ask_keeps _ _ _ np query k withPayloads filter shard
            (holding.searchable shard (List.mem_of_getElem? isShard))
          unfold final at kept
          cases answer : ask np query k withPayloads filter shard with
          | error error found =>
              rw [answer] at kept
              simp only [answer]
              exact holding.same isShard kept.1 kept.2
          | ok answered found =>
              rw [answer] at kept
              have next : Maintains (Holding name records)
                  (askShards np query k withPayloads filter rest >>= fun answers =>
                    pure (answered :: answers)) :=
                Maintains.bind inductionHypothesis fun _ => Maintains.pure _
              simp only [answer]
              exact next _ (holding.same isShard kept.1 kept.2)

/-- No search changes what a namespace holds. -/
theorem searchHits_holding (query : List Float32Bits) (k : Int) (filter : Payload) (asked : Option String) :
    Maintains (Holding name records) (searchHits np query k filter asked :
      EStateM Error (Coordinator G) (List (Hit D))) := by
  unfold searchHits scatter
  apply Maintains.bind
  · apply Maintains.get_bind
    intro coordinator _
    split
    · exact Maintains.throw _
    · exact askShards_holding query k true _ _
  · intro perShard
    split
    · exact Maintains.pure _
    · exact Maintains.throw _

/-! ## Writing a record -/

theorem addBatch_empty (shard : Shard Float32Bits G) : Shard.addBatch np [] [] [] shard = .ok () shard := rfl

theorem addBatches_empty (shards : List (Shard Float32Bits G)) :
    addBatches np (shards.zip (List.replicate shards.length RoutedBatch.empty)) = (shards, none) := by
  induction shards with
  | nil => rfl
  | cons shard rest inductionHypothesis =>
      rw [List.length_cons, List.replicate_succ, List.zip_cons_cons]
      unfold addBatches
      simp only [RoutedBatch.empty, addBatch_empty] at inductionHypothesis ⊢
      rw [inductionHypothesis]

/-- One shard is given a batch. -/
theorem addBatches_one (shards : List (Shard Float32Bits G)) (target : Nat) (batch : RoutedBatch Float32Bits)
    {shard : Shard Float32Bits G} (isShard : shards[target]? = some shard) :
    addBatches np (shards.zip ((List.replicate shards.length RoutedBatch.empty).set target batch)) =
      match Shard.addBatch np batch.globalIds batch.vectors batch.payloads shard with
      | .error error found => (shards.set target found, some error)
      | .ok _ found => (shards.set target found, none) := by
  induction shards generalizing target with
  | nil => cases isShard
  | cons first rest inductionHypothesis =>
      rw [List.length_cons, List.replicate_succ]
      cases target with
      | zero =>
          cases isShard
          rw [List.set_cons_zero, List.zip_cons_cons]
          unfold addBatches
          cases Shard.addBatch np batch.globalIds batch.vectors batch.payloads shard with
          | error error found =>
              have fronts : (rest.zip (List.replicate rest.length
                (RoutedBatch.empty : RoutedBatch Float32Bits))).map
                  Prod.fst = rest := List.map_fst_zip (by rw [List.length_replicate])
              simp only [fronts, List.set_cons_zero]
          | ok _ found => simp only [addBatches_empty, List.set_cons_zero]
      | succ target =>
          rw [List.set_cons_succ, List.zip_cons_cons]
          unfold addBatches
          have same := inductionHypothesis target isShard
          simp only [RoutedBatch.empty, addBatch_empty] at same ⊢
          rw [same]
          cases Shard.addBatch np batch.globalIds batch.vectors batch.payloads shard with
          | error error found => rfl
          | ok _ found => rfl

/-- The batches of one record in a namespace. -/
theorem batchesOf_record {vector : List Float32Bits} {record : List (PyKey × PyValue)} {numShards : Nat}
    {startId : Int} {batches : List (RoutedBatch Float32Bits)}
    (routed : batchesOf [vector] (some [some record]) (some name) numShards startId = .ok batches) :
    ∃ target, shardForNamespace name numShards = .ok target ∧
      batches = (List.replicate numShards RoutedBatch.empty).set target
        ⟨idRange startId 1, [vector], [recordText name record]⟩ := by
  rcases gave_bind routed with ⟨payloads, tagged, later⟩
  have isTagged : payloads = some [some (tagPayload name (some record))] := by
    unfold tagNamespace at tagged
    split at tagged
    · cases tagged
    · split at tagged
      · cases tagged
      · dsimp only at tagged
        split at tagged
        · cases tagged
        · split at tagged
          · cases tagged
          · cases tagged
            rfl
  subst isTagged
  rcases gave_bind later with ⟨texts, encoded, rest⟩
  have isText : texts = [recordText name record] := by
    unfold encodePayloads at encoded
    dsimp only at encoded
    rw [if_neg (by simp)] at encoded
    rcases mapM_ok encoded with _ | ⟨written, _ | _⟩
    rw [(jsonDumps_ok written).2]
    rfl
  subst isText
  rcases gave_bind rest with ⟨target, isTarget, isBatches⟩
  exact ⟨target, isTarget, (Except.ok.inj isBatches).symm⟩

/-- A batch of one row. -/
theorem addBatch_one (startId : Nat) (vector : List Float32Bits) (text : String) (shard : Shard Float32Bits G) :
    Shard.addBatch np (idRange (startId : Int) 1) [vector] [text] shard =
      Shard.add np startId vector text shard := by
  unfold Shard.addBatch Shard.payloadsOrEmpty
  rw [if_neg (List.cons_ne_nil _ _)]
  change Shard.addAll np [((startId : Int) + (0 : Nat), vector, text)] shard = _
  rw [Int.natCast_zero, Int.add_zero]
  unfold Shard.addAll
  simp only [bind, EStateM.bind]
  cases Shard.add np startId vector text shard with
  | error error found => rfl
  | ok _ found => rfl

/-- Writing a record in a namespace is adding it to the namespace's shard. -/
theorem add_ok {vector : List Float32Bits} {record : List (PyKey × PyValue)}
    (ran : add np [vector] (some [some record]) (some name) coordinator = .ok () after) :
    ∃ target, shardForNamespace name coordinator.shards.length = .ok target ∧
      ∀ shard, coordinator.shards[target]? = some shard → ∃ found,
        Shard.add np coordinator.size vector (recordText name record) shard = .ok () found ∧
        after = ⟨coordinator.size + 1, coordinator.shards.set target found⟩ := by
  unfold add at ran
  cases routed : batchesOf [vector] (some [some record]) (some name) coordinator.shards.length
    coordinator.size with
  | error error =>
      rw [routed] at ran
      cases ran
  | ok batches =>
      rw [routed] at ran
      rcases batchesOf_record routed with ⟨target, isTarget, rfl⟩
      refine ⟨target, isTarget, fun shard isShard => ?_⟩
      simp only [addBatches_one coordinator.shards target _ isShard] at ran
      rw [addBatch_one] at ran
      cases added : Shard.add np coordinator.size vector (recordText name record) shard with
      | error error found =>
          rw [added] at ran
          cases ran
      | ok _ found =>
          rw [added] at ran
          cases ran
          exact ⟨found, rfl, rfl⟩

/-- A record that was written is held behind the others. -/
theorem Holding.add (holding : Holding name records coordinator) {vector : List Float32Bits}
    {record : List (PyKey × PyValue)} (storable : Storable record)
    (ran : Coordinator.add np [vector] (some [some record]) (some name) coordinator = .ok () after) :
    Holding name (records ++ [record]) after ∧ after.shards.length = coordinator.shards.length := by
  rcases add_ok ran with ⟨target, isTarget, adds⟩
  rcases holding.stored target isTarget with ⟨shard, isShard, stored⟩
  rcases adds shard isShard with ⟨found, added, rfl⟩
  have readable : Readable (recordText name record) := Or.inr ⟨_, recordText_loads storable name⟩
  have searchable := @Shard.add_searchable _ _ _ _ np ((coordinator.size : Int), vector, recordText name record)
    readable shard (holding.searchable shard (List.mem_of_getElem? isShard))
  unfold final at searchable
  rw [added] at searchable
  have payloads : found.payloads = shard.payloads ++ [record].map (recordText name) := by
    unfold Shard.add at added
    split at added
    · cases added
      rfl
    · cases added
  exact ⟨holding.set isTarget isShard (fun other member => List.mem_singleton.mp member ▸ storable)
    searchable payloads,
    List.length_set⟩

end Coordinator
end VectorSearch
