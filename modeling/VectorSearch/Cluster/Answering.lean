import VectorSearch.Cluster.Serving
import VectorSearch.Index.Answers
import VectorSearch.Index.Twins

namespace VectorSearch

/-!
# Searches of the in-process coordinator

Shards for vectors of one length, none of whose insertions raised, answer every
search for a vector of that length, and stay the shards they are.  So does a
coordinator over such shards, and its answer is the merge of theirs.
-/

open Stateful

namespace Shard

variable {F D G : Type} [LinearOrder D] {np : Numpy F D G}

omit [LinearOrder D] in
theorem Twins.trans {first second third : Shard F G} (front : first.Twins second) (back : second.Twins third) :
    first.Twins third :=
  ⟨front.index.trans back.index, front.globalIds.trans back.globalIds, front.payloads.trans back.payloads,
    front.searchable,
    back.indexed⟩

omit [LinearOrder D] in
theorem Twins.symm {first second : Shard F G} (twins : first.Twins second) : second.Twins first :=
  ⟨twins.index.symm, twins.globalIds.symm, twins.payloads.symm, twins.other, twins.searchable.indexed⟩

omit [LinearOrder D] in
theorem catchUpIndex_twins (shard : Shard F G) : Maintains shard.Twins (catchUpIndex : Searching F G Unit) := by
  intro found twins
  refine twins.trans ?_
  rcases catchUpIndex_returns twins.other with ⟨payloadIndex, run, _, indexed⟩
  unfold final
  rw [run]
  exact ⟨rfl, rfl, rfl, twins.other, indexed⟩

/-- A shard for vectors of one length, none of whose insertions raised. -/
structure Whole (width : Nat) (shard : Shard F G) : Prop where
  serving : shard.Serving width
  rows : shard.index.data.length = shard.payloads.length
  wide : 0 < shard.index.efSearch

variable {width : Nat} {shard : Shard F G}

omit [LinearOrder D] in
theorem Whole.twin {other : Shard F G} (whole : shard.Whole width) (twins : shard.Twins other) :
    other.Whole width where
  serving := ⟨twins.other, twins.index ▸ whole.serving.wellFormed⟩
  rows := by
    rw [← twins.index, ← twins.payloads]
    exact whole.rows
  wide := twins.index ▸ whole.wide

/-- What is found is stored. -/
def Inside (shard : Shard F G) (hits : List (D × Nat)) : Prop := ∀ hit ∈ hits, hit.2 < shard.payloads.length

/-- A walk through the graph. -/
theorem Whole.walks (whole : shard.Whole width) {query : List F} (length : query.length = width) (k : Int)
    {allowed : Option (List Bool)} (masks : ∀ mask, allowed = some mask → mask.length = shard.payloads.length) :
    Gives (HNSW.searchWithDistances np shard.index query k allowed) (Inside shard) := by
  have askable : HNSW.Askable shard.index k allowed := fun mask isMask =>
    ⟨(masks mask isMask).trans whole.rows.symm, Or.inl whole.wide⟩
  rcases HNSW.searchWithDistances_returns np whole.serving.wellFormed length askable with ⟨hits, given, _⟩
  refine ⟨hits, given, fun hit member => ?_⟩
  rcases (HNSW.searchWithDistances_hits whole.serving.searchable.ground given).1.measured hit member with
    ⟨row, isRow, _⟩
  rw [← whole.rows]
  exact (List.getElem?_eq_some_iff.mp isRow).1

theorem Whole.nearest (partitions : np.Partitions) (whole : shard.Whole width) {query : List F}
    (length : query.length = width)
    (k : Nat) {filter : Option Filter} (normal : ∀ wanted, filter = some wanted → wanted.Normal) :
    Returns (nearest np query k filter) shard fun hits after => shard.Twins after ∧ Inside shard hits := by
  have kept := nearest_maintains np (catchUpIndex_twins shard) query k filter shard
    (.refl whole.serving.searchable)
  have ends : ∃ hits after, Shard.nearest np query k filter shard = .ok hits after ∧ Inside shard hits := by
    cases filter with
    | none =>
        have unmasked : ∀ mask : List Bool, none = some mask → mask.length = shard.payloads.length :=
          fun _ impossible => by cases impossible
        have walk : Gives (HNSW.searchWithDistances np shard.index query k none) (Inside shard) :=
          whole.walks length k unmasked
        rcases walk with ⟨hits, given, inside⟩
        refine ⟨hits, shard, ?_, inside⟩
        change asking (HNSW.searchWithDistances np shard.index query k none) shard = _
        exact asking_eq given shard
    | some wanted =>
        have isNormal := normal wanted rfl
        have found : ∃ hits after, Shard.nearest np query k (some wanted) shard = .ok hits after := by
          rcases nearest_eq np whole.serving.searchable isNormal query k with
            ⟨payloadIndex, mask, marks, _, answer⟩
          by_cases none : wanted.matchingIds shard.payloads = []
          · exact ⟨_, _, answer.trans (if_pos none)⟩
          · rw [if_neg none] at answer
            by_cases compares : filterStrategyExact (wanted.matchingIds shard.payloads).length shard.size
                (max (shard.index.efSearch : Int) k) = true
            · rcases whole.serving.searchable.exact partitions isNormal
                (whole.serving.fits length) compares with ⟨hits, after, _, ran, _⟩
              exact ⟨hits, after, ran⟩
            · have walk : Gives (HNSW.searchWithDistances np shard.index query k (some mask)) (Inside shard) :=
                whole.walks length k fun _ isMask => Option.some.inj isMask ▸ marks.length
              rcases walk with ⟨hits, given, _⟩
              rw [if_neg compares] at answer
              exact ⟨hits, _, answer.trans (asking_eq given _)⟩
        rcases found with ⟨hits, after, ran⟩
        refine ⟨hits, after, ran, fun hit member => ?_⟩
        have isMatch := ((whole.serving.searchable.sound partitions isNormal ran).1 hit member).1
        rcases Filter.mem_matchingIds.mp isMatch with ⟨text, atHit, _⟩
        exact (List.getElem?_eq_some_iff.mp atHit).1
  rcases ends with ⟨hits, after, ran, inside⟩
  unfold final at kept
  rw [ran] at kept
  exact ⟨hits, after, ran, kept, inside⟩

omit [LinearOrder D] in
/-- What is found can be reported. -/
theorem Whole.idAt (whole : shard.Whole width) {after : Shard F G} (twins : shard.Twins after)
    {hits : List (D × Nat)} (inside : Inside shard hits) {hit : D × Nat} (member : hit ∈ hits) :
    ∃ globalId text, Shard.idAt after hit.2 = .ok globalId ∧ payloadAt after hit.2 = .ok text := by
  have stored := inside hit member
  have isId := List.getElem?_eq_getElem (whole.serving.searchable.ids ▸ stored : hit.2 < shard.globalIds.length)
  have isText := List.getElem?_eq_getElem stored
  unfold Shard.idAt payloadAt
  rw [← twins.globalIds, ← twins.payloads, isId, isText]
  exact ⟨_, _, rfl, rfl⟩

theorem Whole.search (partitions : np.Partitions) (whole : shard.Whole width) {query : List F}
    (length : query.length = width)
    (k : Nat) {filter : Option Filter} (normal : ∀ wanted, filter = some wanted → wanted.Normal) :
    Returns (search np query k filter) shard fun _ after => shard.Twins after := by
  refine Returns.bind (whole.nearest partitions length k normal) fun hits after => ?_
  rintro ⟨twins, inside⟩
  apply Returns.get_bind
  have reported : Gives (hits.mapM fun hit => do return (hit.1, ← Shard.idAt after hit.2)) fun _ => True := by
    apply Gives.mapM_any
    intro hit member
    rcases whole.idAt twins inside member with ⟨globalId, _, isId, _⟩
    rw [isId]
    exact Gives.pure trivial
  rcases reported with ⟨reports, given, _⟩
  exact ⟨reports, after, asking_eq given after, twins⟩

theorem Whole.searchWithPayloads (partitions : np.Partitions) (whole : shard.Whole width) {query : List F}
    (length : query.length = width) (k : Nat) {filter : Option Filter}
    (normal : ∀ wanted, filter = some wanted → wanted.Normal) :
    Returns (searchWithPayloads np query k filter) shard fun _ after => shard.Twins after := by
  refine Returns.bind (whole.nearest partitions length k normal) fun hits after => ?_
  rintro ⟨twins, inside⟩
  apply Returns.get_bind
  have reported : Gives (hits.mapM fun hit => do return (hit.1, ← Shard.idAt after hit.2,
    ← payloadAt after hit.2))
      fun _ => True := by
    apply Gives.mapM_any
    intro hit member
    rcases whole.idAt twins inside member with ⟨globalId, text, isId, isText⟩
    rw [isId, isText]
    exact Gives.pure trivial
  rcases reported with ⟨reports, given, _⟩
  exact ⟨reports, after, asking_eq given after, twins⟩

end Shard

/-! ## How much is found -/

namespace HNSW

variable {F D G : Type} [LinearOrder D] (np : Numpy F D G)

theorem sliceTo_length_le {α : Type} (values : List α) (k : Nat) : (sliceTo values (k : Int)).length ≤ k := by
  rw [sliceTo_natCast, List.length_take]
  exact Nat.min_le_left k values.length

theorem searchWithDistances_length {index : HNSW F G} {query : List F} {k : Nat} {allowed : Option (List Bool)}
    {hits : List (D × Nat)} (found : searchWithDistances np index query k allowed = .ok hits) :
    hits.length ≤ k := by
  unfold searchWithDistances at found
  split at found
  · cases found
    exact Nat.zero_le k
  · rcases gave_bind found with ⟨entry, _, rest⟩
    dsimp only at rest
    split at rest
    · rcases gave_bind rest with ⟨scored, _, same⟩
      cases same
      exact sliceTo_length_le _ k
    · rcases gave_bind rest with ⟨scored, _, same⟩
      cases same
      exact sliceTo_length_le _ k

theorem exactAmong_length {index : HNSW F G} {query : List F} {nodeIds : List Nat} {k : Nat}
    {hits : List (D × Nat)} (found : exactAmong np index query nodeIds k = .ok hits) : hits.length ≤ k := by
  unfold exactAmong at found
  split at found
  · cases found
    exact Nat.zero_le k
  · rcases gave_bind found with ⟨dists, _, rest⟩
    dsimp only at rest
    split at rest
    · rcases gave_bind rest with ⟨nearest, _, rest⟩
      rcases gave_bind rest with ⟨scored, _, same⟩
      cases same
      exact sliceTo_length_le _ k
    · cases rest
      exact sliceTo_length_le _ k

end HNSW

namespace Shard

variable {F D G : Type} [LinearOrder D] {np : Numpy F D G}

theorem nearest_length {shard after : Shard F G} {query : List F} {k : Nat} {filter : Option Filter}
    {hits : List (D × Nat)} (ran : nearest np query k filter shard = .ok hits after) : hits.length ≤ k := by
  unfold nearest at ran
  cases given : filter.filter fun filter => !filter.entries.isEmpty with
  | none =>
      simp only [given] at ran
      exact HNSW.searchWithDistances_length np (asking_ok ran).1
  | some wanted =>
      simp only [given] at ran
      rcases bind_ok ran with ⟨_, caught, _, ran⟩
      rcases bind_ok ran with ⟨read, _, _, ran⟩
      rcases bind_ok ran with ⟨allowed, reached, _, ran⟩
      dsimp only at ran
      split at ran
      · cases ran
        exact Nat.zero_le k
      · split at ran
        · exact HNSW.exactAmong_length np (asking_ok ran).1
        · exact HNSW.searchWithDistances_length np (asking_ok ran).1

/-- A search reports no more than it was asked for. -/
theorem search_length {shard after : Shard F G} {query : List F} {k : Nat} {filter : Option Filter}
    {reports : List (D × Int)} (ran : search np query k filter shard = .ok reports after) :
    reports.length ≤ k := by
  rcases bind_ok ran with ⟨hits, reached, searched, ran⟩
  have each := mapM_ok (asking_ok ran).1
  rw [← each.length_eq]
  exact nearest_length searched

end Shard

namespace Coordinator

variable {D G : Type} [LinearOrder D] {np : Numpy Float32Bits D G}

theorem ask_couples (query : List Float32Bits) (k : Int) (withPayloads : Bool) {filter : Option Filter}
    (normal : ∀ wanted, filter = some wanted → wanted.Normal) :
    Couples Shard.Twins (ask np query k withPayloads filter) (ask np query k withPayloads filter) := by
  unfold ask
  split
  · exact Couples.bind (Shard.searchWithPayloads_couples np query k normal) fun _ => Couples.pure _
  · exact Couples.bind (Shard.search_couples np query k normal) fun _ => Couples.pure _

theorem ask_returns (partitions : np.Partitions) {width : Nat} {shard : Shard Float32Bits G}
    (whole : shard.Whole width) {query : List Float32Bits} (length : query.length = width) (k : Nat)
    (withPayloads : Bool) {filter : Option Filter} (normal : ∀ wanted, filter = some wanted → wanted.Normal) :
    Returns (ask np query k withPayloads filter) shard fun _ after => shard.Twins after := by
  unfold ask
  split
  · exact Returns.bind (whole.searchWithPayloads partitions length k normal) fun _ _ twins => Returns.pure twins
  · exact Returns.bind (whole.search partitions length k normal) fun _ _ twins => Returns.pure twins

/-- A coordinator whose shards are those of another one, up to their caches. -/
structure Twins (first second : Coordinator G) : Prop where
  size : first.size = second.size
  count : first.shards.length = second.shards.length
  shards : ∀ (target : Nat) (shard : Shard Float32Bits G), first.shards[target]? = some shard →
    ∃ found, second.shards[target]? = some found ∧ shard.Twins found

variable {coordinator : Coordinator G}

omit [LinearOrder D] in
theorem Twins.refl (searchable : ∀ shard ∈ coordinator.shards, shard.Searchable) :
    coordinator.Twins coordinator :=
  ⟨rfl, rfl, fun _ shard isShard => ⟨shard, isShard, .refl (searchable shard (List.mem_of_getElem? isShard))⟩⟩

omit [LinearOrder D] in
theorem Twins.trans {first second third : Coordinator G} (front : first.Twins second)
    (back : second.Twins third) :
    first.Twins third := by
  refine ⟨front.size.trans back.size, front.count.trans back.count, fun target shard isShard => ?_⟩
  rcases front.shards target shard isShard with ⟨middle, isMiddle, near⟩
  rcases back.shards target middle isMiddle with ⟨found, isFound, far⟩
  exact ⟨found, isFound, near.trans far⟩

omit [LinearOrder D] in
theorem Twins.set {target : Nat} {shard found : Shard Float32Bits G}
    (searchable : ∀ shard ∈ coordinator.shards, shard.Searchable)
    (isShard : coordinator.shards[target]? = some shard) (twins : shard.Twins found) :
    coordinator.Twins { coordinator with shards := coordinator.shards.set target found } := by
  refine ⟨rfl, (List.length_set ..).symm, fun other held isHeld => ?_⟩
  by_cases here : target = other
  · subst here
    obtain rfl : shard = held := Option.some.inj (isShard.symm.trans isHeld)
    exact ⟨found, List.getElem?_set_self (List.getElem?_eq_some_iff.mp isShard).1, twins⟩
  · exact ⟨held, (List.getElem?_set_ne here).trans isHeld,
      .refl (searchable held (List.mem_of_getElem? isHeld))⟩

omit [LinearOrder D] in
theorem Twins.whole {first second : Coordinator G} (twins : first.Twins second) {width : Nat}
    (whole : ∀ shard ∈ first.shards, shard.Whole width) : ∀ shard ∈ second.shards, shard.Whole width := by
  intro shard member
  rcases List.mem_iff_getElem?.mp member with ⟨target, isShard⟩
  have inside : target < first.shards.length := twins.count ▸ (List.getElem?_eq_some_iff.mp isShard).1
  rcases twins.shards target _ (List.getElem?_eq_getElem inside) with ⟨found, isFound, near⟩
  obtain rfl : found = shard := Option.some.inj (isFound.symm.trans isShard)
  exact (whole _ (List.getElem_mem inside)).twin near

/-- The answers of the shards, as each of them gives it before the search.  The
induction is on the shards to ask; those asked before are twins of themselves. -/
theorem askShards_returns (partitions : np.Partitions) {width : Nat}
    (whole : ∀ shard ∈ coordinator.shards, shard.Whole width) {query : List Float32Bits}
    (length : query.length = width) (k : Nat) (withPayloads : Bool) {filter : Option Filter}
    (normal : ∀ wanted, filter = some wanted → wanted.Normal) {targets : List Nat}
    (inside : ∀ target ∈ targets, target < coordinator.shards.length) :
    Returns (askShards np query k withPayloads filter targets) coordinator fun answers after =>
      coordinator.Twins after ∧ List.Forall₂ (fun target answer => ∃ shard found,
        coordinator.shards[target]? = some shard ∧
        ask np query k withPayloads filter shard = .ok answer found) targets answers := by
  have searchable : ∀ shard ∈ coordinator.shards, shard.Searchable := fun shard member =>
    (whole shard member).serving.searchable
  induction targets generalizing coordinator with
  | nil => exact Returns.pure ⟨.refl searchable, .nil⟩
  | cons target rest inductionHypothesis =>
      have isShard := List.getElem?_eq_getElem (inside target List.mem_cons_self)
      rcases ask_returns partitions (whole _ (List.getElem_mem (inside target List.mem_cons_self)))
        length k withPayloads normal
        with ⟨answer, found, ran, twins⟩
      have near := Twins.set searchable isShard twins
      rcases inductionHypothesis (near.whole whole) (fun other member => near.count ▸ inside other
        (List.mem_cons_of_mem _ member))
        (fun shard member => (near.whole whole shard member).serving.searchable) with
          ⟨answers, after, scattered, far, each⟩
      refine ⟨answer :: answers, after, ?_, near.trans far, .cons ⟨_, found, isShard, ran⟩ (each.imp ?_)⟩
      · simp only [askShards, bind, EStateM.bind, get_run, isShard, ran, set_run, scattered]
        rfl
      · rintro other given ⟨shard, left, isOther, asked⟩
        have known : other < coordinator.shards.length := near.count ▸ (List.getElem?_eq_some_iff.mp isOther).1
        have isOwn := List.getElem?_eq_getElem known
        rcases near.shards other _ isOwn with ⟨same, isSame, sameTwins⟩
        obtain rfl : same = shard := Option.some.inj (isSame.symm.trans isOther)
        rcases (ask_couples query k withPayloads normal).returned sameTwins.symm asked with ⟨reached, own, _⟩
        exact ⟨_, reached, isOwn, own⟩

end Coordinator
end VectorSearch
