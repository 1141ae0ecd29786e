import VectorSearch.Index.Alignment
import VectorSearch.Index.Matching
import VectorSearch.Index.Tidy

namespace VectorSearch

/-!
# Filtered search

Whatever was added, every hit of a filtered search matches the filter and is
returned once, in order.  A search that compares all matches returns the nearest
of them, and as many as were asked for; it is chosen whenever there are no more
matches than that.
-/

open Stateful HNSW PayloadIndex

variable {F D G : Type} [LinearOrder D]

/-! ## Partial sorting -/

/-- `np.argpartition` gives all positions, some `k` smallest entries first. -/
def Numpy.Partitions (np : Numpy F D G) : Prop :=
  ∀ (dists : List D) (k : Nat), k < dists.length → ∃ order, np.argpartition dists k = .ok order ∧
    order.Perm (List.range dists.length) ∧
    ∀ before ∈ order.take k, ∀ behind ∈ order.drop k, ∀ low high,
      dists[before]? = some low → dists[behind]? = some high → low ≤ high

/-- The hits are as many pairs as were asked for, and no other pair is nearer. -/
structure Nearest (k : Nat) (pairs hits : List (D × Nat)) : Prop where
  count : hits.length = min k pairs.length
  among : ∀ hit ∈ hits, hit ∈ pairs
  least : ∀ pair ∈ pairs, pair ∉ hits → ∀ hit ∈ hits, hit.1 ≤ pair.1

namespace HNSW

omit [LinearOrder D] in
theorem filterMap_range {α : Type} (values : List α) :
    (List.range values.length).filterMap (values[·]?) = values := by
  induction values using List.reverseRecOn with
  | nil => rfl
  | append_singleton values value inductionHypothesis =>
      have before : (List.range values.length).filterMap ((values ++ [value])[·]?) =
          (List.range values.length).filterMap (values[·]?) := by
        apply List.filterMap_congr
        intro i member
        rw [List.getElem?_append_left (List.mem_range.mp member)]
      have last : (values ++ [value])[values.length]? = some value := by
        rw [List.getElem?_append_right (Nat.le_refl _), Nat.sub_self]
        rfl
      rw [List.length_append, List.length_singleton, List.range_succ, List.filterMap_append, before,
        inductionHypothesis, List.filterMap_cons, List.filterMap_nil, last]

omit [LinearOrder D] in
theorem picked_eq {α : Type} {values picked : List α} {positions : List Nat}
    (picks : List.Forall₂ (fun position value => values[position]? = some value) positions picked) :
    picked = positions.filterMap (values[·]?) := by
  induction picks with
  | nil => rfl
  | cons found _ inductionHypothesis => rw [List.filterMap_cons, found, ← inductionHypothesis]

theorem sliceTo_natCast {α : Type} (values : List α) (k : Nat) : sliceTo values (k : Int) = values.take k := by
  unfold sliceTo
  rw [if_pos (Int.natCast_nonneg k), Int.toNat_natCast]

/-- Sorting and cutting keeps everything that there is room for. -/
theorem sorted_perm {scored : List (D × Nat)} {k : Nat} (room : scored.length ≤ k) :
    (sliceTo (sortedPairs scored) (k : Int)).Perm scored := by
  have perm : (sortedPairs scored).Perm scored := List.perm_insertionSort _ scored
  rw [sliceTo_natCast, List.take_of_length_le (by rw [perm.length_eq]; exact room)]
  exact perm

variable {np : Numpy F D G}

/-- The preselection of an exact search holds the nearest pairs, and no id twice. -/
theorem Preselected.nearest (partitions : np.Partitions) {dists : List D} {nodeIds : List Nat} {k : Nat}
    {scored : List (D × Nat)} (count : dists.length = nodeIds.length)
    (preselected : Preselected np dists nodeIds (k : Int) scored) :
    Nearest k (dists.zip nodeIds) scored ∧ scored.Subperm (dists.zip nodeIds) ∧ scored.length ≤ k := by
  have size : (dists.zip nodeIds).length = dists.length := by rw [List.length_zip, count, Nat.min_self]
  rcases preselected with ⟨few, all⟩ | ⟨many, order, ordered, picks⟩
  · rw [all]
    have fits : dists.length ≤ k := by omega
    refine ⟨⟨?_, fun hit member => member, fun pair member missing => absurd member missing⟩,
      List.Subperm.refl _, by rw [size]; exact fits⟩
    rw [size, Nat.min_eq_right fits]
  · have less : k < dists.length := by omega
    rcases partitions dists k less with ⟨other, given, perm, smaller⟩
    rw [ordered] at given
    cases given
    rw [sliceTo_natCast] at picks
    have orderLength : order.length = dists.length := by rw [perm.length_eq, List.length_range]
    have length : scored.length = k := by
      rw [← picks.length_eq, List.length_take, orderLength, Nat.min_eq_left (Nat.le_of_lt less)]
    have whole : (order.filterMap ((dists.zip nodeIds)[·]?)).Perm (dists.zip nodeIds) := by
      have ranged := perm.filterMap ((dists.zip nodeIds)[·]?)
      rw [← size, filterMap_range] at ranged
      exact ranged
    have isScored := picked_eq picks
    have split : order.filterMap ((dists.zip nodeIds)[·]?) =
        scored ++ (order.drop k).filterMap ((dists.zip nodeIds)[·]?) := by
      rw [isScored, ← List.filterMap_append, List.take_append_drop]
    rw [split] at whole
    refine ⟨⟨?_, ?_, ?_⟩, (List.sublist_append_left _ _).subperm.trans whole.subperm, Nat.le_of_eq length⟩
    · rw [length, size, Nat.min_eq_left (Nat.le_of_lt less)]
    · exact fun hit member => whole.subset (List.mem_append_left _ member)
    · intro pair member missing hit isHit
      rcases List.mem_append.mp (whole.symm.subset member) with inside | outside
      · exact absurd inside missing
      · rcases List.mem_filterMap.mp outside with ⟨behind, inDrop, atBehind⟩
        rw [isScored] at isHit
        rcases List.mem_filterMap.mp isHit with ⟨before, inTake, atBefore⟩
        rw [List.getElem?_zip_eq_some] at atBehind atBefore
        exact smaller before inTake behind inDrop hit.1 pair.1 atBefore.1 atBehind.1

/-- Sorting keeps the nearest pairs. -/
theorem sorted_nearest {k : Nat} {pairs scored : List (D × Nat)} (nearest : Nearest k pairs scored)
    (room : scored.length ≤ k) : Nearest k pairs (sliceTo (sortedPairs scored) (k : Int)) := by
  have perm := sorted_perm room
  constructor
  · rw [perm.length_eq]
    exact nearest.count
  · exact fun hit member => nearest.among hit (perm.subset member)
  · exact fun pair member missing hit isHit =>
      nearest.least pair member (fun inside => missing (perm.symm.subset inside)) hit (perm.subset isHit)

theorem exactAmong_preselected (partitions : np.Partitions) {index : HNSW F G}
    {query : List F} {nodeIds : List Nat}
    {dists : List D} (given : distancesTo np index.data (np.normalize query) nodeIds = .ok dists)
    (count : dists.length = nodeIds.length) (nonempty : nodeIds ≠ []) (k : Nat) :
    Gives (exactAmong np index query nodeIds k) fun hits => ∃ scored,
      Preselected np dists nodeIds (k : Int) scored ∧ hits = sliceTo (sortedPairs scored) (k : Int) := by
  unfold exactAmong
  dsimp only
  rw [if_neg nonempty, given]
  change Gives (if (k : Int) < dists.length then _ else _) _
  split
  · rename_i many
    rcases partitions dists k (by omega) with ⟨order, ordered, perm, _⟩
    rw [ordered]
    change Gives (List.mapM _ (sliceTo order (k : Int)) >>= _) _
    refine Gives.bind (show Gives _
      (List.Forall₂ (fun position pair => (dists.zip nodeIds)[position]? = some pair)
      (sliceTo order (k : Int))) from Gives.mapM ?_) ?_
    · intro position member
      have ranged := perm.subset ((sliceTo_sublist order k).subset member)
      have inside : position < (dists.zip nodeIds).length := by
        rw [List.length_zip, count, Nat.min_self, ← count]
        exact List.mem_range.mp ranged
      rw [List.getElem?_eq_getElem inside]
      exact Gives.pure rfl
    · intro scored each
      exact Gives.pure ⟨scored, Or.inr ⟨many, order, ordered, each⟩, rfl⟩
  · rename_i few
    exact ⟨_, rfl, _, Or.inl ⟨Int.not_lt.mp few, rfl⟩, rfl⟩

/-- An exact search among stored rows returns the nearest of them. -/
theorem exactAmong_nearest (partitions : np.Partitions) {index : HNSW F G} (tidy : index.Tidy) {query : List F}
    (fits : index.Fits query) {nodeIds : List Nat} (inside : ∀ node ∈ nodeIds, node < index.data.length)
    (k : Nat) :
    Gives (exactAmong np index query nodeIds k) fun hits => ∃ dists,
      distancesTo np index.data (np.normalize query) nodeIds = .ok dists ∧ dists.length = nodeIds.length ∧
        Nearest k (dists.zip nodeIds) hits := by
  have rows : ∀ row ∈ index.data, row.length = query.length := by
    intro row member
    rcases List.exists_cons_of_ne_nil (List.ne_nil_of_mem member) with ⟨first, rest, isData⟩
    have isFirst : first ∈ index.data.head? := by rw [isData]; rfl
    rw [tidy.widths row member first isFirst, fits first isFirst]
  rcases distancesTo_gives np rows (np.normalize_length query) inside with ⟨dists, given, count⟩
  by_cases none : nodeIds = []
  · subst none
    have empty : dists = [] := List.eq_nil_of_length_eq_zero count
    rw [exactAmong, if_pos rfl]
    refine Gives.pure ⟨dists, given, count, ?_⟩
    rw [empty]
    exact ⟨(Nat.min_zero k).symm, (fun hit member => absurd member List.not_mem_nil),
      fun pair member => absurd member List.not_mem_nil⟩
  · apply (exactAmong_preselected partitions given count none k).imp
    rintro hits ⟨scored, preselected, isHits⟩
    rcases preselected.nearest partitions count with ⟨nearest, _, room⟩
    rw [isHits]
    exact ⟨dists, given, count, sorted_nearest nearest room⟩

/-- The hits of an exact search, sorted and each once. -/
theorem exactAmong_ascending (partitions : np.Partitions) {index : HNSW F G}
    {query : List F} {nodeIds : List Nat}
    (distinct : nodeIds.Nodup) {k : Nat} {hits : List (D × Nat)}
    (given : exactAmong np index query nodeIds k = .ok hits) : (hits.map Prod.snd).Nodup ∧ Ascending hits := by
  by_cases none : nodeIds = []
  · rw [exactAmong, if_pos none] at given
    cases given
    exact ⟨List.nodup_nil, List.Pairwise.nil⟩
  · rcases exactAmong_ok np none given with ⟨dists, scored, distances, preselected, isHits⟩
    have count := distancesTo_length np distances
    rcases preselected.nearest partitions count with ⟨_, subperm, _⟩
    have ids := subperm_map Prod.snd subperm
    rw [List.map_snd_zip (Nat.le_of_eq count.symm)] at ids
    have scoredDistinct : (scored.map Prod.snd).Nodup := by
      rcases ids with ⟨part, perm, sublist⟩
      exact perm.nodup_iff.mp (distinct.sublist sublist)
    have part := sliceTo_sublist (sortedPairs scored) (k : Int)
    have perm : (sortedPairs scored).Perm scored := List.perm_insertionSort _ scored
    rw [isHits]
    exact ⟨((perm.map Prod.snd).nodup_iff.mpr scoredDistinct).sublist (part.map Prod.snd),
      (sortedPairs_ascending scoredDistinct).sublist part⟩

end HNSW

/-! ## Shards that anything was added to -/

open Classical in
/-- The positions of the payloads that match. -/
noncomputable def Filter.matchingIds (filter : Filter) (payloads : List String) : List Nat :=
  (List.range payloads.length).filter fun position =>
    ∃ text, payloads[position]? = some text ∧ filter.Matches text

omit [LinearOrder D] in
theorem Filter.mem_matchingIds {filter : Filter} {payloads : List String} {position : Nat} :
    position ∈ filter.matchingIds payloads ↔ ∃ text, payloads[position]? = some text ∧ filter.Matches text := by
  simp only [matchingIds, List.mem_filter, List.mem_range, decide_eq_true_eq]
  refine ⟨And.right, fun found => ⟨?_, found⟩⟩
  rcases found with ⟨text, atPosition, _⟩
  exact (List.getElem?_eq_some_iff.mp atPosition).1

omit [LinearOrder D] in
theorem Filter.matchingIds_nodup (filter : Filter) (payloads : List String) :
    (filter.matchingIds payloads).Nodup := by
  unfold matchingIds
  exact List.nodup_range.filter _

omit [LinearOrder D] in
theorem Filter.matchingIds_length_le (filter : Filter) (payloads : List String) :
    (filter.matchingIds payloads).length ≤ payloads.length := by
  have sublist : (filter.matchingIds payloads).Sublist (List.range payloads.length) := List.filter_sublist
  have fewer := sublist.length_le
  rwa [List.length_range] at fewer

namespace Shard

/-- What any calls leave of a shard when all payloads can be read. -/
structure Searchable (shard : Shard F G) : Prop where
  tidy : shard.index.Tidy
  ids : shard.globalIds.length = shard.payloads.length
  rows : shard.payloads.length ≤ shard.index.data.length
  readable : ∀ text ∈ shard.payloads, Readable text
  indexed : Indexed shard.payloads shard.payloadIndex

variable (np : Numpy F D G)

omit [LinearOrder D] in
theorem init_searchable (params : HnswParams) : Searchable (init np params : Shard F G) :=
  ⟨init_tidy _ _ _ _ _, rfl, Nat.le_refl 0, fun _ member => absurd member List.not_mem_nil, init_indexed⟩

theorem add_searchable {item : Added F} (readable : Readable item.2.2) :
    Maintains Searchable (add np item.1 item.2.1 item.2.2 : EStateM Error (Shard F G) Unit) := by
  intro shard searchable
  have ends := insert_ends np searchable.tidy item.2.1
  unfold Ends at ends
  unfold final add
  cases run : insert np item.2.1 shard.index.toGraph with
  | ok value graph =>
      rw [run] at ends
      refine ⟨ends.1, ?_, ?_, ?_, searchable.indexed.append [item.2.2]⟩
      · change (shard.globalIds ++ [item.1]).length = (shard.payloads ++ [item.2.2]).length
        rw [List.length_append, List.length_append, searchable.ids]
        rfl
      · change (shard.payloads ++ [item.2.2]).length ≤ graph.data.length
        rw [ends.2, List.length_append]
        exact Nat.add_le_add_right searchable.rows 1
      · intro text member
        rcases List.mem_append.mp member with old | new
        · exact searchable.readable text old
        · rw [List.mem_singleton.mp new]
          exact readable
  | error error graph =>
      rw [run] at ends
      exact ⟨ends.1, searchable.ids, Nat.le_trans searchable.rows ends.2, searchable.readable,
        searchable.indexed⟩

theorem addAll_searchable (items : List (Added F)) (readable : ∀ item ∈ items, Readable item.2.2) :
    Maintains Searchable (addAll np items : EStateM Error (Shard F G) Unit) := by
  induction items with
  | nil => exact Maintains.pure ()
  | cons item rest inductionHypothesis =>
      apply Maintains.bind (add_searchable np (readable item List.mem_cons_self))
      exact fun _ => inductionHypothesis fun other member => readable other (List.mem_cons_of_mem _ member)

omit [LinearOrder D] in
/-- Bringing the payload index up to date. -/
theorem catchUpIndex_returns {shard : Shard F G} (searchable : Searchable shard) :
    ∃ payloadIndex, catchUpIndex shard = .ok () { shard with payloadIndex } ∧
      payloadIndex.indexed = shard.payloads.length ∧ Indexed shard.payloads payloadIndex := by
  rcases catchUp_returns searchable.readable searchable.indexed with ⟨next, run, read, indexed⟩
  refine ⟨next, ?_, read, indexed⟩
  unfold catchUpIndex
  rw [run]

omit [LinearOrder D] in
theorem catchUpIndex_searchable : Maintains Searchable (catchUpIndex : Searching F G Unit) := by
  intro shard searchable
  rcases catchUpIndex_returns searchable with ⟨payloadIndex, run, _, indexed⟩
  unfold final
  rw [run]
  exact ⟨searchable.tidy, searchable.ids, searchable.rows, searchable.readable, indexed⟩

theorem runAll_searchable (calls : List (ShardCall F))
    (readable : ∀ call ∈ calls, ∀ item ∈ call.items, Readable item.2.2) {shard : Shard F G}
    (searchable : Searchable shard) : Searchable (ShardCall.runAll np calls shard) := by
  induction calls generalizing shard with
  | nil => exact searchable
  | cons call rest inductionHypothesis =>
      apply inductionHypothesis fun other member => readable other (List.mem_cons_of_mem _ member)
      have items := readable call List.mem_cons_self
      cases call with
      | add item => exact add_searchable np (items item List.mem_cons_self) shard searchable
      | addBatch globalIds vectors payloads => exact addAll_searchable np _ items shard searchable
      | search query k filter =>
          exact searchWithPayloads_maintains np catchUpIndex_searchable query k filter shard searchable

/-! ## The two ways to answer -/

/-- A filtered search: the mask is that of the matches, and the answer is empty,
exact or from the graph. -/
theorem nearest_eq {shard : Shard F G} (searchable : Searchable shard) {filter : Filter}
    (normal : filter.Normal) (query : List F) (k : Int) :
    ∃ payloadIndex mask, Marks shard.payloads.length
        (fun position => ∃ text, shard.payloads[position]? = some text ∧ filter.Matches text) mask ∧
      flatnonzero mask = filter.matchingIds shard.payloads ∧
      nearest np query k (some filter) shard =
        if filter.matchingIds shard.payloads = [] then .ok [] { shard with payloadIndex }
        else if filterStrategyExact (filter.matchingIds shard.payloads).length shard.size
            (max (shard.index.efSearch : Int) k) then
          asking (exactAmong np shard.index query (filter.matchingIds shard.payloads) k)
            { shard with payloadIndex }
        else asking (searchWithDistances np shard.index query k (some mask)) { shard with payloadIndex } := by
  rcases catchUpIndex_returns searchable with ⟨payloadIndex, run, read, indexed⟩
  rcases matching_gives indexed read normal with ⟨mask, given, marks⟩
  have ids : flatnonzero mask = filter.matchingIds shard.payloads := by
    unfold flatnonzero Filter.matchingIds
    rw [marks.length]
    apply List.filter_congr
    intro position member
    apply decide_eq_decide.mpr
    rw [marks.true_iff]
    exact ⟨And.right, fun found => ⟨List.mem_range.mp member, found⟩⟩
  refine ⟨payloadIndex, mask, marks, ids, ?_⟩
  have count : mask.count true = (filter.matchingIds shard.payloads).length := by
    rw [← flatnonzero_length, ids]
  have kept : ((some filter).filter fun filter : Filter => !filter.entries.isEmpty) = some filter := by
    have nonempty : (!filter.entries.isEmpty) = true := by
      rw [Bool.not_eq_true', List.isEmpty_eq_false_iff]
      exact normal.nonempty
    rw [Option.filter_some, if_pos nonempty]
  have size : shard.size = shard.payloads.length := searchable.ids
  have sizes : ({ shard with payloadIndex } : Shard F G).size = shard.payloads.length := size
  unfold nearest
  rw [kept]
  change nearestMatching np query k filter shard = _
  unfold nearestMatching
  simp only [bind, EStateM.bind, run, get_run, size, sizes, given, count, ids,
    asking, pure, EStateM.pure, List.length_eq_zero_iff]
  split
  · rfl
  · split
    · rfl
    · rfl

/-- Few matches are always compared one by one. -/
theorem filterStrategyExact_few {found size k : Nat} (few : found ≤ k) (inside : found ≤ size)
    (efSearch : Nat) :
    filterStrategyExact found size (max (efSearch : Int) k) = true := by
  unfold filterStrategyExact
  rw [decide_eq_true_eq]
  have wide : (found : Int) ≤ max (efSearch : Int) k := by omega
  have square : (found * found : Int) ≤ max (efSearch : Int) k * size :=
    Int.mul_le_mul wide (by omega) (by omega) (by omega)
  have positive : (0 : Int) ≤ max (efSearch : Int) k * size := Int.mul_nonneg (by omega) (by omega)
  have advantage : (exactAdvantage : Int) * max (efSearch : Int) k * size = exactAdvantage *
    (max (efSearch : Int) k * size) :=
    Int.mul_assoc _ _ _
  rw [advantage]
  have isHundred : (exactAdvantage : Int) = 100 := rfl
  rw [isHundred]
  omega

/-- What a filtered search promises: each hit matches and is returned once, in
order; if all matches are compared, the nearest of them are returned; and few
matches are always compared, so that all of them are returned. -/
structure AnswersFilter (shard : Shard F G) (filter : Filter) (query : List F) (k : Nat) : Prop where
  sound : ∀ hits after, nearest np query k (some filter) shard = .ok hits after →
    (∀ hit ∈ hits, hit.2 ∈ filter.matchingIds shard.payloads ∧
      Hit np shard.index.data (np.normalize query) hit) ∧
    (hits.map Prod.snd).Nodup ∧ Ascending hits
  strategy : (filter.matchingIds shard.payloads).length ≤ k → ∀ efSearch : Nat,
    filterStrategyExact (filter.matchingIds shard.payloads).length shard.size (max (efSearch : Int) k) = true
  exact : filterStrategyExact (filter.matchingIds shard.payloads).length shard.size
      (max (shard.index.efSearch : Int) k) = true → shard.index.Fits query →
    ∃ hits after dists, nearest np query k (some filter) shard = .ok hits after ∧
      distancesTo np shard.index.data (np.normalize query) (filter.matchingIds shard.payloads) = .ok dists ∧
      Nearest k (dists.zip (filter.matchingIds shard.payloads)) hits
  complete : (filter.matchingIds shard.payloads).length ≤ k → shard.index.Fits query →
    ∃ hits after, nearest np query k (some filter) shard = .ok hits after ∧
      (hits.map Prod.snd).Perm (filter.matchingIds shard.payloads)
  /-- What is reported for the hits: their ids and payloads. -/
  reported : ∀ hits after, nearest np query k (some filter) shard = .ok hits after →
    ∃ reports, searchWithPayloads np query k (some filter) shard = .ok reports after ∧
      search np query k (some filter) shard = .ok (reports.map fun report => (report.1, report.2.1)) after ∧
      List.Forall₂ (fun hit report => report.1 = hit.1 ∧ shard.globalIds[hit.2]? = some report.2.1 ∧
        shard.payloads[hit.2]? = some report.2.2) hits reports

variable {np}

omit [LinearOrder D] in
theorem asking_eq {α : Type} {result : Except Error α} {value : α} (given : result = .ok value)
    (shard : Shard F G) : asking result shard = .ok value shard := by
  rw [given]
  rfl

omit [LinearOrder D] in
theorem Searchable.ground {shard : Shard F G} (searchable : Searchable shard) : Ground shard.index.toGraph :=
  fun adjacency found => (searchable.tidy.layers 0 adjacency found).distinct

/-- Every hit matches, and is returned once and in order. -/
theorem Searchable.sound (partitions : np.Partitions) {shard after : Shard F G} (searchable : Searchable shard)
    {filter : Filter} (normal : filter.Normal) {query : List F} {k : Nat} {hits : List (D × Nat)}
    (ran : nearest np query k (some filter) shard = .ok hits after) :
    (∀ hit ∈ hits, hit.2 ∈ filter.matchingIds shard.payloads ∧
      Hit np shard.index.data (np.normalize query) hit) ∧
    (hits.map Prod.snd).Nodup ∧ Ascending hits := by
  rcases nearest_eq np searchable normal query k with ⟨payloadIndex, mask, marks, _, answer⟩
  rw [answer] at ran
  split at ran
  · cases ran
    exact ⟨fun hit member => absurd member List.not_mem_nil, List.nodup_nil, List.Pairwise.nil⟩
  · split at ran
    · have given := (asking_ok ran).1
      exact ⟨exactAmong_hit np given, exactAmong_ascending partitions (filter.matchingIds_nodup _) given⟩
    · rcases searchWithDistances_hits searchable.ground (asking_ok ran).1 with ⟨found, ascending⟩
      refine ⟨fun hit member => ⟨?_, found.measured hit member⟩, found.distinct, ascending⟩
      exact Filter.mem_matchingIds.mpr ((marks.true_iff hit.2).mp (found.permitted hit member mask rfl)).2

/-- The exact path returns the nearest matches. -/
theorem Searchable.exact (partitions : np.Partitions) {shard : Shard F G} (searchable : Searchable shard)
    {filter : Filter} (normal : filter.Normal) {query : List F} (fits : shard.index.Fits query) {k : Nat}
    (picked : filterStrategyExact (filter.matchingIds shard.payloads).length shard.size
      (max (shard.index.efSearch : Int) k) = true) :
    ∃ hits after dists, nearest np query k (some filter) shard = .ok hits after ∧
      distancesTo np shard.index.data (np.normalize query) (filter.matchingIds shard.payloads) = .ok dists ∧
      dists.length = (filter.matchingIds shard.payloads).length ∧
      Nearest k (dists.zip (filter.matchingIds shard.payloads)) hits := by
  rcases nearest_eq np searchable normal query k with ⟨payloadIndex, mask, _, _, answer⟩
  have inside : ∀ node ∈ filter.matchingIds shard.payloads, node < shard.index.data.length := by
    intro node member
    rcases Filter.mem_matchingIds.mp member with ⟨text, atNode, _⟩
    exact Nat.lt_of_lt_of_le (List.getElem?_eq_some_iff.mp atNode).1 searchable.rows
  rcases exactAmong_nearest partitions searchable.tidy fits inside k with
    ⟨hits, given, dists, distances, count, nearest⟩
  refine ⟨hits, { shard with payloadIndex }, dists, ?_, distances, count, nearest⟩
  rw [answer]
  split
  · rename_i none
    rw [none, exactAmong, if_pos rfl] at given
    rw [← Except.ok.inj given]
  · exact asking_eq given _

/-- Each hit has an id and a payload. -/
theorem Searchable.reported (partitions : np.Partitions) {shard after : Shard F G}
    (searchable : Searchable shard) {filter : Filter} (normal : filter.Normal) {query : List F} {k : Nat}
    {hits : List (D × Nat)} (ran : nearest np query k (some filter) shard = .ok hits after) :
    ∃ reports, searchWithPayloads np query k (some filter) shard = .ok reports after ∧
      search np query k (some filter) shard = .ok (reports.map fun report => (report.1, report.2.1)) after ∧
      List.Forall₂ (fun hit report => report.1 = hit.1 ∧ shard.globalIds[hit.2]? = some report.2.1 ∧
        shard.payloads[hit.2]? = some report.2.2) hits reports := by
  have sound := (searchable.sound partitions normal ran).1
  have same := nearest_maintains np (catchUpIndex_maintains shard.contents) query k (some filter) shard rfl
  unfold final at same
  rw [ran] at same
  have globalIds : after.globalIds = shard.globalIds := congrArg Contents.globalIds same
  have payloads : after.payloads = shard.payloads := congrArg Contents.payloads same
  have reports : Gives (hits.mapM fun hit => do
      return (hit.1, ← idAt after hit.2, ← payloadAt after hit.2))
      (List.Forall₂ (fun hit report => report.1 = hit.1 ∧ shard.globalIds[hit.2]? = some report.2.1 ∧
        shard.payloads[hit.2]? = some report.2.2) hits) := by
    apply Gives.mapM
    intro hit member
    rcases Filter.mem_matchingIds.mp (sound hit member).1 with ⟨text, atHit, _⟩
    have inside : hit.2 < shard.globalIds.length := by
      rw [searchable.ids]
      exact (List.getElem?_eq_some_iff.mp atHit).1
    have atId : shard.globalIds[hit.2]? = some shard.globalIds[hit.2] := List.getElem?_eq_getElem inside
    unfold idAt payloadAt
    rw [globalIds, payloads, atId, atHit]
    exact Gives.pure ⟨rfl, rfl, rfl⟩
  rcases reports with ⟨reports, given, each⟩
  refine ⟨reports, ?_, ?_, each⟩
  · unfold searchWithPayloads
    simp only [bind, EStateM.bind, ran, get_run]
    exact asking_eq given after
  · have ids : hits.mapM (fun hit => do return (hit.1, ← idAt after hit.2)) =
        .ok (reports.map fun report => (report.1, report.2.1)) := by
      clear given ran sound same
      induction each with
      | nil => rfl
      | cons first _ inductionHypothesis =>
          rename_i hit report others reportsRest _
          have atId : idAt after hit.2 = .ok report.2.1 := by
            unfold idAt
            rw [globalIds, first.2.1]
          rw [List.mapM_cons, inductionHypothesis, atId, List.map_cons, first.1]
          rfl
    unfold search
    simp only [bind, EStateM.bind, ran, get_run]
    exact asking_eq ids after

theorem Searchable.answersFilter (partitions : np.Partitions) {shard : Shard F G}
    (searchable : Searchable shard) {filter : Filter} (normal : filter.Normal) (query : List F) (k : Nat) :
    AnswersFilter np shard filter query k := by
  have few : (filter.matchingIds shard.payloads).length ≤ shard.size := by
    unfold size
    rw [searchable.ids]
    exact filter.matchingIds_length_le shard.payloads
  constructor
  · exact fun hits after ran => searchable.sound partitions normal ran
  · exact fun atMost efSearch => filterStrategyExact_few atMost few efSearch
  · intro picked fits
    rcases searchable.exact partitions normal fits picked with ⟨hits, after, dists, ran, distances, _, nearest⟩
    exact ⟨hits, after, dists, ran, distances, nearest⟩
  · intro atMost fits
    rcases searchable.exact partitions normal fits
      (filterStrategyExact_few atMost few shard.index.efSearch) with
      ⟨hits, after, dists, ran, distances, count, nearest⟩
    rcases searchable.sound partitions normal ran with ⟨matched, distinct, _⟩
    refine ⟨hits, after, ran, ?_⟩
    have subset : hits.map Prod.snd ⊆ filter.matchingIds shard.payloads := by
      intro node member
      rcases List.mem_map.mp member with ⟨hit, isHit, isNode⟩
      rw [← isNode]
      exact (matched hit isHit).1
    apply (List.subperm_of_subset distinct subset).perm_of_length_le
    rw [List.length_map, nearest.count, List.length_zip, count, Nat.min_self, Nat.min_eq_right atMost]
  · exact fun hits after ran => searchable.reported partitions normal ran

/-- Filtered search over a shard that any calls have built. -/
theorem filtered_search (partitions : np.Partitions) (params : HnswParams) (calls : List (ShardCall F))
    (readable : ∀ call ∈ calls, ∀ item ∈ call.items, Readable item.2.2) {value : PyValue} {filter : Filter}
    (normalized : normalizeFilter value = .ok (some filter)) (query : List F) (k : Nat) :
    AnswersFilter np (ShardCall.runAll np calls (init np params)) filter query k :=
  (runAll_searchable np calls readable (init_searchable np params)).answersFilter partitions
    (normalizeFilter_normal normalized) query k

/-! ## Exact arithmetic -/

omit [LinearOrder D] in
/-- An entry of a slice of the sorted positions. -/
theorem mem_positions {dists : List D} {pairs : List (D × Nat)} (part : pairs ⊆ dists.zipIdx) {position : Nat}
    (member : position ∈ pairs.map Prod.snd) {dist : D} (atPosition : dists[position]? = some dist) :
    (dist, position) ∈ pairs := by
  rcases List.mem_map.mp member with ⟨⟨other, place⟩, inPairs, isPosition⟩
  cases isPosition
  have stored := List.mem_zipIdx_iff_getElem?.mp (part inPairs)
  rw [stored] at atPosition
  cases atPosition
  exact inPairs

theorem exact_partitions (normalize : List F → List F)
    (normalize_length : ∀ vector, (normalize vector).length = vector.length) (distance : List F → List F → D)
    (drawLevel : Nat → G → Option Nat × G) (defaultRng : Nat → G) :
    (Numpy.exact normalize normalize_length distance drawLevel defaultRng).Partitions := by
  intro dists k less
  have perm : (dists.zipIdx.insertionSort fun left right => left.1 ≤ right.1).Perm dists.zipIdx :=
    List.perm_insertionSort _ _
  have sorted := List.pairwise_insertionSort (fun left right : D × Nat => left.1 ≤ right.1) dists.zipIdx
  refine ⟨Numpy.sortedPositions dists, if_pos ⟨by omega, by omega⟩, ?_, ?_⟩
  · have positions := perm.map Prod.snd
    rw [List.zipIdx_map_snd, ← List.range_eq_range'] at positions
    exact positions
  · intro before inTake behind inDrop low high atBefore atBehind
    unfold Numpy.sortedPositions at inTake inDrop
    rw [← List.map_take] at inTake
    rw [← List.map_drop] at inDrop
    have first := mem_positions (fun pair member => perm.subset (List.mem_of_mem_take member)) inTake atBefore
    have second := mem_positions (fun pair member => perm.subset (List.mem_of_mem_drop member)) inDrop atBehind
    rw [← List.take_append_drop k (dists.zipIdx.insertionSort fun left right => left.1 ≤ right.1)] at sorted
    exact (List.pairwise_append.mp sorted).2.2 _ first _ second

/-- Vectors with payloads, one of them refused. -/
def taggedCalls : List (ShardCall Int) :=
  [.add (0, [1, 0], "\x7b\"tag\": 1\x7d"), .add (1, [1], ""), .addBatch [2, 3] [[0, 1], [1, 1]]
    ["\x7b\"tag\": 1\x7d", "[]"]]

theorem readable_of_loads {text : String} (loads : (PyValue.loads text).isSome = true) : Readable text :=
  Or.inr (Option.isSome_iff_exists.mp loads)

theorem filtered_search_tagged :
    AnswersFilter climbing (ShardCall.runAll climbing taggedCalls (init climbing smallParams))
      ⟨[("tag", [.int 1])], by decide⟩ [0, 1] 2 := by
  have readable : ∀ call ∈ taggedCalls, ∀ item ∈ call.items, Readable item.2.2 := by
    have tagged : Readable "\x7b\"tag\": 1\x7d" := readable_of_loads (by decide +kernel)
    have listed : Readable "[]" := readable_of_loads (by decide +kernel)
    have untagged : Readable "" := Or.inl rfl
    intro call isCall item isItem
    simp only [taggedCalls, List.mem_cons, List.not_mem_nil, or_false] at isCall
    rcases isCall with rfl | rfl | rfl
    · rw [List.mem_singleton.mp isItem]
      exact tagged
    · rw [List.mem_singleton.mp isItem]
      exact untagged
    · change item ∈ [(2, [0, 1], "\x7b\"tag\": 1\x7d"), (3, [1, 1], "[]")] at isItem
      rcases List.mem_cons.mp isItem with same | later
      · rw [same]
        exact tagged
      · rw [List.mem_singleton.mp later]
        exact listed
  have normalized : normalizeFilter (.dict [(.str "tag", .int 1)]) =
    .ok (some ⟨[("tag", [.int 1])], by decide⟩) := rfl
  exact filtered_search (exact_partitions _ _ _ _ _) smallParams taggedCalls readable normalized [0, 1] 2

end Shard
end VectorSearch
