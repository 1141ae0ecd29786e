import VectorSearch.Cluster.Processes

namespace VectorSearch

/-!
# Which row goes where

Routing deals the rows of one call out to the shards: each row goes to the one
shard that its global id determines, and the rows of a shard keep their order.
-/

variable {F : Type}

/-- A row with its global id and its payload text. -/
abbrev PlacedRow (F : Type) := Int × List F × String

/-- The rows of a call, with the ids they are given. -/
def placedRows (startId : Int) (vectors : List (List F)) (encoded : List String) : List (PlacedRow F) :=
  (idRange startId vectors.length).zip (vectors.zip encoded)

/-- The three lists of a shard. -/
def RoutedBatch.ofRows (rows : List (PlacedRow F)) : RoutedBatch F :=
  ⟨rows.map Prod.fst, rows.map fun row => row.2.1, rows.map fun row => row.2.2⟩

/-- The rows of a batch, as the loop of `add_batch` takes them. -/
theorem RoutedBatch.zip_ofRows (rows : List (PlacedRow F)) :
    (RoutedBatch.ofRows rows).globalIds.zip
      ((RoutedBatch.ofRows rows).vectors.zip (RoutedBatch.ofRows rows).payloads) = rows := by
  unfold RoutedBatch.ofRows
  rw [List.zip_map', List.zip_map']
  exact List.map_id _

/-- The rows of a shard. -/
def rowsFor (target : Int → Nat) (rows : List (PlacedRow F)) (shard : Nat) : List (PlacedRow F) :=
  rows.filter fun row => target row.1 = shard

/-- The rows are dealt out by their ids. -/
structure Distributes (target : Int → Nat) (rows : List (PlacedRow F)) (batches : List (RoutedBatch F)) :
    Prop where
  batch : ∀ shard batch, batches[shard]? = some batch → batch = RoutedBatch.ofRows (rowsFor target rows shard)
  inside : ∀ row ∈ rows, target row.1 < batches.length

theorem rowsFor_append (target : Int → Nat) (front back : List (PlacedRow F)) (shard : Nat) :
    rowsFor target (front ++ back) shard = rowsFor target front shard ++ rowsFor target back shard :=
  List.filter_append ..

theorem RoutedBatch.ofRows_append (rows : List (PlacedRow F)) (row : PlacedRow F) :
    RoutedBatch.ofRows (rows ++ [row]) = (RoutedBatch.ofRows rows).append row.1 row.2.1 row.2.2 := by
  simp only [ofRows, append, List.map_append, List.map_cons, List.map_nil]

/-! ## Round robin -/

/-- The rows from an offset on, as the loop meets them. -/
def rowsFrom (startId : Int) (encoded : List String) : Nat → List (List F) → List (PlacedRow F)
  | _, [] => []
  | offset, vector :: rest => (startId + offset, vector, encoded[offset]?.getD "") ::
      rowsFrom startId encoded (offset + 1) rest

theorem rowsFrom_eq (startId : Int) (earlier texts : List String) (vectors : List (List F))
    (same : texts.length = vectors.length) :
    rowsFrom startId (earlier ++ texts) earlier.length vectors =
      ((List.range' earlier.length vectors.length).map fun offset : Nat => startId + offset).zip
        (vectors.zip texts) := by
  induction vectors generalizing earlier texts with
  | nil => rfl
  | cons vector rest inductionHypothesis =>
      cases texts with
      | nil => cases same
      | cons text texts =>
          have later := inductionHypothesis (earlier ++ [text]) texts (Nat.succ.inj same)
          rw [List.append_assoc, List.singleton_append, List.length_append, List.length_singleton] at later
          have here : (earlier ++ text :: texts)[earlier.length]?.getD "" = text := by
            rw [List.getElem?_append_right (Nat.le_refl _), Nat.sub_self]
            rfl
          rw [rowsFrom, here, later]
          rfl

theorem rowsFrom_zero {startId : Int} {encoded : List String} {vectors : List (List F)}
    (same : encoded.length = vectors.length) : rowsFrom startId encoded 0 vectors =
    placedRows startId vectors encoded := by
  have whole := rowsFrom_eq startId [] encoded vectors same
  rw [List.nil_append, List.length_nil, ← List.range_eq_range'] at whole
  exact whole

/-- The loop over the rows.  The induction is on the rows that are left; those
before them have been dealt out. -/
theorem routeFrom_distributes {numShards offset : Nat} {encoded : List String} {startId : Int}
    {vectors : List (List F)} {earlier : List (PlacedRow F)} {batches routed : List (RoutedBatch F)}
    (before : ∀ shard batch, batches[shard]? = some batch →
      batch = RoutedBatch.ofRows (rowsFor (fun id => (id % numShards).toNat) earlier shard))
    (ok : routeFrom numShards encoded startId offset vectors batches = .ok routed) :
    ∀ shard batch, routed[shard]? = some batch →
      batch = RoutedBatch.ofRows
        (rowsFor (fun id => (id % numShards).toNat) (earlier ++ rowsFrom startId encoded offset vectors)
        shard) := by
  induction vectors generalizing offset earlier batches with
  | nil =>
      cases ok
      rw [rowsFrom, List.append_nil]
      exact before
  | cons vector rest inductionHypothesis =>
      unfold routeFrom at ok
      split at ok
      · cases ok
      · split at ok
        · cases ok
        · rename_i text found
          have row : rowsFrom startId encoded offset (vector :: rest) =
              (startId + offset, vector, text) :: rowsFrom startId encoded (offset + 1) rest := by
            rw [rowsFrom, found]
            rfl
          rw [row, ← List.singleton_append, ← List.append_assoc]
          refine inductionHypothesis ?_ ok
          intro shard batch isBatch
          rw [List.getElem?_modify] at isBatch
          rcases Option.map_eq_some_iff.mp isBatch with ⟨old, isOld, rfl⟩
          rw [before shard old isOld, rowsFor_append]
          by_cases here : ((startId + offset) % numShards).toNat = shard
          · have own : rowsFor (fun id => (id % numShards).toNat)
              [(startId + (offset : Int), vector, text)] shard =
                [(startId + (offset : Int), vector, text)] := List.filter_cons_of_pos (decide_eq_true here)
            rw [if_pos here, own, RoutedBatch.ofRows_append]
          · have other : rowsFor (fun id => (id % numShards).toNat)
              [(startId + (offset : Int), vector, text)] shard = [] :=
              List.filter_cons_of_neg (by simpa using here)
            rw [if_neg here, other, List.append_nil]

/-! ## Both ways of routing -/

theorem idRange_increasing (startId : Int) (count : Nat) : (idRange startId count).Pairwise (· < ·) := by
  unfold idRange
  rw [List.pairwise_map]
  refine List.pairwise_lt_range.imp ?_
  intro first second less
  omega

theorem mem_idRange {startId : Int} {count : Nat} {id : Int} (member : id ∈ idRange startId count) :
    startId ≤ id ∧ id < startId + count := by
  rcases List.mem_map.mp member with ⟨offset, inside, rfl⟩
  have := List.mem_range.mp inside
  omega

section Placed

variable {startId : Int} {vectors : List (List F)} {encoded : List String}

theorem placedRows_ids (same : encoded.length = vectors.length) :
    (placedRows startId vectors encoded).map Prod.fst = idRange startId vectors.length := by
  apply List.map_fst_zip
  rw [idRange, List.length_map, List.length_range, List.length_zip, same, Nat.min_self]

theorem ofRows_placed (same : encoded.length = vectors.length) :
    RoutedBatch.ofRows (placedRows startId vectors encoded) =
      ⟨idRange startId vectors.length, vectors, encoded⟩ := by
  have pairs : (placedRows startId vectors encoded).map Prod.snd = vectors.zip encoded := by
    apply List.map_snd_zip
    rw [idRange, List.length_map, List.length_range, List.length_zip, same, Nat.min_self]
  ext1
  · exact placedRows_ids same
  · calc (placedRows startId vectors encoded).map (fun row => row.2.1)
        = ((placedRows startId vectors encoded).map Prod.snd).map Prod.fst := List.map_map.symm
      _ = vectors := by rw [pairs, List.map_fst_zip (le_of_eq same.symm)]
  · calc (placedRows startId vectors encoded).map (fun row => row.2.2)
        = ((placedRows startId vectors encoded).map Prod.snd).map Prod.snd := List.map_map.symm
      _ = encoded := by rw [pairs, List.map_snd_zip (le_of_eq same)]

theorem routeRoundRobin_distributes {numShards : Nat} {batches : List (RoutedBatch F)} (some : vectors ≠ [])
    (same : encoded.length = vectors.length) (ok : routeRoundRobin vectors numShards startId encoded =
      .ok batches) :
    Distributes (fun id => (id % numShards).toNat) (placedRows startId vectors encoded) batches ∧
      batches.length = numShards := by
  unfold routeRoundRobin at ok
  have length : batches.length = numShards := (Processes.routeFrom_length ok).trans List.length_replicate
  have positive : numShards ≠ 0 := by
    rintro rfl
    rcases List.exists_cons_of_ne_nil some with ⟨vector, rest, rfl⟩
    cases ok
  refine ⟨⟨?_, fun row _ => ?_⟩, length⟩
  · have nothing : ∀ shard batch, (List.replicate numShards (RoutedBatch.empty (F := F)))[shard]? =
      Option.some batch →
        batch = RoutedBatch.ofRows (rowsFor (fun id => (id % numShards).toNat) [] shard) := by
      intro shard batch isBatch
      exact List.eq_of_mem_replicate (List.mem_of_getElem? isBatch)
    have dealt := routeFrom_distributes nothing ok
    rw [List.nil_append, rowsFrom_zero same] at dealt
    exact dealt
  · rw [length]
    have bounds := Int.emod_lt_of_pos row.1 (Int.natCast_pos.mpr (Nat.pos_of_ne_zero positive))
    have least := Int.emod_nonneg row.1 (Int.natCast_ne_zero.mpr positive)
    omega

theorem routeToShard_distributes {numShards shard : Nat} (same : encoded.length = vectors.length)
    (inside : shard < numShards) :
    Distributes (fun _ => shard) (placedRows startId vectors encoded)
      (routeToShard vectors numShards shard startId encoded) ∧
      (routeToShard vectors numShards shard startId encoded).length = numShards := by
  have length : (routeToShard vectors numShards shard startId encoded).length = numShards := by
    rw [routeToShard, List.length_set, List.length_replicate]
  refine ⟨⟨fun other batch isBatch => ?_, fun _ _ => inside.trans_eq length.symm⟩, length⟩
  unfold routeToShard at isBatch
  by_cases here : shard = other
  · subst here
    rw [List.getElem?_set_self (by rw [List.length_replicate]; exact inside)] at isBatch
    have all : rowsFor (fun _ => shard) (placedRows startId vectors encoded) shard =
      placedRows startId vectors encoded :=
      List.filter_eq_self.mpr fun _ _ => decide_eq_true rfl
    rw [← Option.some.inj isBatch, all, ofRows_placed same]
  · rw [List.getElem?_set_ne here] at isBatch
    have none : rowsFor (fun _ => shard) (placedRows startId vectors encoded) other = [] :=
      List.filter_eq_nil_iff.mpr fun _ _ equal => here (of_decide_eq_true equal)
    rw [none]
    exact List.eq_of_mem_replicate (List.mem_of_getElem? isBatch)

end Placed

theorem shardForNamespace_lt {name : String} {numShards shard : Nat}
    (ok : shardForNamespace name numShards = .ok shard) :
    shard < numShards := by
  unfold shardForNamespace at ok
  split at ok
  · cases ok
  · rename_i some
    rw [← Except.ok.inj ok]
    exact Nat.mod_lt _ (Nat.pos_of_ne_zero some)

/-- What the ids of a routed call are: those of a shard count up, they are all new,
and no two shards have one in common. -/
structure NewIds (startId : Int) (count : Nat) (batches : List (RoutedBatch F)) : Prop where
  increasing : ∀ batch ∈ batches, batch.globalIds.Pairwise (· < ·)
  bounds : ∀ batch ∈ batches, ∀ id ∈ batch.globalIds, startId ≤ id ∧ id < startId + count
  apart : ∀ (first second : Nat) (batch other : RoutedBatch F), batches[first]? = some batch →
    batches[second]? = some other → first ≠ second → ∀ id ∈ batch.globalIds, id ∉ other.globalIds

theorem Distributes.ids {target : Int → Nat} {startId : Int} {vectors : List (List F)} {encoded : List String}
    {batches : List (RoutedBatch F)} (same : encoded.length = vectors.length)
    (distributes : Distributes target (placedRows startId vectors encoded) batches) :
    NewIds startId vectors.length batches := by
  have some : ∀ batch ∈ batches, ∃ shard, batch = RoutedBatch.ofRows
    (rowsFor target (placedRows startId vectors encoded) shard) := by
    intro batch member
    rcases List.mem_iff_getElem?.mp member with ⟨shard, isBatch⟩
    exact ⟨shard, distributes.batch shard batch isBatch⟩
  have sublist : ∀ shard, (RoutedBatch.ofRows
    (rowsFor target (placedRows startId vectors encoded) shard)).globalIds.Sublist
      (idRange startId vectors.length) := by
    intro shard
    rw [← placedRows_ids same]
    exact List.filter_sublist.map Prod.fst
  refine ⟨?_, ?_, ?_⟩
  · intro batch member
    rcases some batch member with ⟨shard, rfl⟩
    exact (idRange_increasing startId vectors.length).sublist (sublist shard)
  · intro batch member id inside
    rcases some batch member with ⟨shard, rfl⟩
    exact mem_idRange ((sublist shard).subset inside)
  · intro first second batch other isBatch isOther different id inFirst inSecond
    rw [distributes.batch first batch isBatch] at inFirst
    rw [distributes.batch second other isOther] at inSecond
    rcases List.mem_map.mp inFirst with ⟨row, isRow, rfl⟩
    rcases List.mem_map.mp inSecond with ⟨again, isAgain, equal⟩
    have left := of_decide_eq_true (List.mem_filter.mp isRow).2
    have right := of_decide_eq_true (List.mem_filter.mp isAgain).2
    rw [equal] at right
    exact different (left.symm.trans right)

end VectorSearch
