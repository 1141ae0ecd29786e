import VectorSearch.Index.Exact
import VectorSearch.Index.Selection

namespace VectorSearch

/-!
# The selection rule

The scan of the heuristic keeps one running minimum for each candidate.  It
selects what the rule selects that compares a candidate with every neighbour kept
so far.
-/

open Stateful

namespace HNSW

variable {F D G : Type} [LinearOrder D]

/-! ## Stable order -/

/-- The pairs in order of distance, those at one distance as they came. -/
structure StablySorted (pairs order : List (D × Nat)) : Prop where
  perm : order.Perm pairs
  sorted : order.Pairwise fun left right => left.1 ≤ right.1
  stable : ∀ dist, order.filter (·.1 = dist) = pairs.filter (·.1 = dist)

theorem filter_orderedInsert (dist : D) (pair : D × Nat) (order : List (D × Nat)) :
    (List.orderedInsert (fun left right : D × Nat => left.1 ≤ right.1) pair order).filter (·.1 = dist) =
      (pair :: order).filter (·.1 = dist) := by
  induction order with
  | nil => rfl
  | cons first rest inductionHypothesis =>
      unfold List.orderedInsert
      split
      · rfl
      · rename_i farther
        have closer : first.1 < pair.1 := lt_of_not_ge farther
        rw [List.filter_cons, inductionHypothesis]
        by_cases here : first.1 = dist
        · have other : ¬ pair.1 = dist := fun same => absurd (same.trans here.symm) (ne_of_gt closer)
          simp [here, other]
        · simp [List.filter_cons, here]

theorem byDistance_stable (pairs : List (D × Nat)) : StablySorted pairs (byDistance pairs) := by
  refine ⟨byDistance_perm pairs, List.pairwise_insertionSort _ pairs, ?_⟩
  intro dist
  induction pairs with
  | nil => rfl
  | cons pair rest inductionHypothesis =>
      change (List.orderedInsert _ pair (byDistance rest)).filter _ = _
      rw [filter_orderedInsert, List.filter_cons, List.filter_cons, inductionHypothesis]

/-! ## The naive rule -/

/-- By increasing distance, keep a candidate that is closer to the base than to
every neighbour kept so far, until there are `m`. -/
def naiveSelection (between : Nat → Nat → D) (m : Nat) : List (D × Nat) → List Nat → List Nat
  | [], kept => kept
  | (toBase, id) :: rest, kept =>
      if kept.length = m then kept
      else if ∀ neighbor ∈ kept, toBase < between id neighbor then naiveSelection between m rest (kept ++ [id])
      else naiveSelection between m rest kept

theorem naiveSelection_full (between : Nat → Nat → D) {m : Nat} (rest : List (D × Nat)) {kept : List Nat}
    (full : kept.length = m) : naiveSelection between m rest kept = kept := by
  cases rest with
  | nil => rfl
  | cons first rest =>
      rcases first with ⟨toBase, id⟩
      unfold naiveSelection
      rw [if_pos full]

/-- The running minimum of a candidate. -/
def nearestOf (between : Nat → Nat → D) (kept : List Nat) (id : Nat) : WithTop D :=
  kept.foldr (fun neighbor least => min least (between neighbor id)) ⊤

theorem lt_nearestOf {between : Nat → Nat → D} {kept : List Nat} {id : Nat} {toBase : D} :
    (toBase : WithTop D) < nearestOf between kept id ↔ ∀ neighbor ∈ kept, toBase < between neighbor id := by
  induction kept with
  | nil => simp [nearestOf]
  | cons neighbor rest inductionHypothesis =>
      have split : nearestOf between (neighbor :: rest) id =
          min (nearestOf between rest id) (between neighbor id : WithTop D) := rfl
      rw [split, lt_min_iff, inductionHypothesis, WithTop.coe_lt_coe, List.forall_mem_cons, and_comm]

theorem nearestOf_append (between : Nat → Nat → D) (kept : List Nat) (neighbor id : Nat) :
    nearestOf between (kept ++ [neighbor]) id = min (nearestOf between kept id)
      (between neighbor id : WithTop D) := by
  induction kept with
  | nil => rfl
  | cons first rest inductionHypothesis =>
      have split : ∀ rest, nearestOf between (first :: rest) id =
          min (nearestOf between rest id) (between first id : WithTop D) := fun _ => rfl
      rw [List.cons_append, split, split, inductionHypothesis, min_right_comm]

/-- The scan over the rest of the candidates: the running minima are those over
the neighbours kept so far. -/
theorem keepDiverse_eq {between : Nat → Nat → D}
    (symmetric : ∀ left right, between left right = between right left)
    {m : Nat} {ids : List Nat} (rest : List (D × Nat)) (done : List Nat) (kept : List Nat)
    (whole : ids = done ++ rest.map Prod.snd) (room : kept.length < m) :
    keepDiverse m done.length (rest.map fun pair => (pair.1, pair.2, ids.map (between pair.2)))
      (ids.map (nearestOf between kept)) kept = naiveSelection between m rest kept := by
  induction rest generalizing done kept with
  | nil => rfl
  | cons pair rest inductionHypothesis =>
      rcases pair with ⟨toBase, id⟩
      have here : (ids.map (nearestOf between kept))[done.length]? = some (nearestOf between kept id) := by
        rw [whole, List.getElem?_map, List.getElem?_append_right (Nat.le_refl _), Nat.sub_self]
        rfl
      have next : ids = (done ++ [id]) ++ rest.map Prod.snd := by
        rw [whole, List.append_assoc]
        rfl
      have place : done.length + 1 = (done ++ [id]).length := by
        rw [List.length_append, List.length_singleton]
      have notFull : ¬ kept.length = m := Nat.ne_of_lt room
      unfold naiveSelection
      rw [List.map_cons, if_neg notFull]
      unfold keepDiverse
      rw [here]
      dsimp only
      have same : (toBase : WithTop D) < nearestOf between kept id ↔ ∀ neighbor ∈ kept, toBase <
        between id neighbor := by
        rw [lt_nearestOf]
        exact forall₂_congr fun neighbor _ => by rw [symmetric]
      by_cases closer : (toBase : WithTop D) < nearestOf between kept id
      · rw [if_pos closer, if_pos (same.mp closer)]
        split
        · rename_i full
          exact (naiveSelection_full between rest full).symm
        · rename_i more
          have minima : List.zipWith (fun (old : WithTop D) (new : D) => min old new)
              (ids.map (nearestOf between kept)) (ids.map (between id)) =
                ids.map (nearestOf between (kept ++ [id])) := by
            rw [List.zipWith_map_left, List.zipWith_map_right, List.zipWith_self]
            exact List.map_congr_left fun other _ => (nearestOf_append between kept id other).symm
          rw [minima, place]
          apply inductionHypothesis _ _ next
          rw [List.length_append, List.length_singleton] at more ⊢
          omega
      · rw [if_neg closer, if_neg fun every => closer (same.mpr every), place]
        exact inductionHypothesis _ _ next room

theorem naiveSelection_prefix (between : Nat → Nat → D) (m : Nat) (rest : List (D × Nat)) (kept : List Nat) :
    kept <+: naiveSelection between m rest kept := by
  induction rest generalizing kept with
  | nil => exact List.prefix_rfl
  | cons pair rest inductionHypothesis =>
      rcases pair with ⟨toBase, id⟩
      unfold naiveSelection
      split
      · exact List.prefix_rfl
      · split
        · exact (List.prefix_append kept [id]).trans (inductionHypothesis _)
        · exact inductionHypothesis kept

theorem naiveSelection_sublist (between : Nat → Nat → D) (m : Nat) (rest : List (D × Nat)) (kept : List Nat) :
    (naiveSelection between m rest kept).Sublist (kept ++ rest.map Prod.snd) := by
  induction rest generalizing kept with
  | nil =>
      rw [List.map_nil, List.append_nil]
      exact List.Sublist.refl kept
  | cons pair rest inductionHypothesis =>
      rcases pair with ⟨toBase, id⟩
      unfold naiveSelection
      rw [List.map_cons]
      split
      · exact List.sublist_append_left kept _
      · split
        · have moved : kept ++ id :: rest.map Prod.snd = kept ++ [id] ++ rest.map Prod.snd :=
            List.append_cons kept id _
          rw [moved]
          exact inductionHypothesis (kept ++ [id])
        · exact (inductionHypothesis kept).trans ((List.sublist_cons_self id _).append_left kept)

theorem naiveSelection_length_le (between : Nat → Nat → D) {m : Nat} (rest : List (D × Nat)) {kept : List Nat}
    (room : kept.length ≤ m) : (naiveSelection between m rest kept).length ≤ m := by
  induction rest generalizing kept with
  | nil => exact room
  | cons pair rest inductionHypothesis =>
      rcases pair with ⟨toBase, id⟩
      unfold naiveSelection
      split
      · exact room
      · rename_i notFull
        split
        · apply inductionHypothesis
          rw [List.length_append, List.length_singleton]
          omega
        · exact inductionHypothesis room

/-- The nearest candidate is kept first. -/
theorem naiveSelection_head (between : Nat → Nat → D) {m : Nat} (positive : 1 ≤ m) (order : List (D × Nat)) :
    (naiveSelection between m order []).head? = (order.map Prod.snd).head? := by
  cases order with
  | nil => rfl
  | cons first rest =>
      rcases first with ⟨toBase, id⟩
      unfold naiveSelection
      have room : ¬ ([] : List Nat).length = m := Nat.ne_of_lt positive
      rw [if_neg room, if_pos (List.forall_mem_nil _)]
      rcases naiveSelection_prefix between m rest ([] ++ [id]) with ⟨more, isKept⟩
      rw [← isKept]
      rfl

/-! ## The selection -/

/-- What is returned, for the order of the candidates. -/
theorem selectNeighbors_eq (np : Numpy F D G) (selection : NeighborSelection) {data : List (List F)}
    {width : Nat} {candidateIds : List Nat} {dists : List D} {m : Nat}
    (rows : ∀ row ∈ data, row.length = width) (inside : ∀ node ∈ candidateIds, node < data.length)
    (count : dists.length = candidateIds.length) (positive : 1 ≤ m) {between : Nat → Nat → D}
    (symmetric : ∀ left right, between left right = between right left)
    (measured : ∀ ids vectors, ids.Perm candidateIds → rowsAt data ids = .ok vectors →
      np.table vectors = ids.map fun id => ids.map (between id)) :
    selectNeighbors np selection data candidateIds dists m =
      .ok (if candidateIds.length ≤ m ∨ selection = .closest then
        ((byDistance (dists.zip candidateIds)).take m).map Prod.snd
      else naiveSelection between m (byDistance (dists.zip candidateIds)) []) := by
  have sorted := byDistance_perm (dists.zip candidateIds)
  have ids : ((byDistance (dists.zip candidateIds)).map Prod.snd).Perm candidateIds := by
    have mapped := sorted.map Prod.snd
    rwa [List.map_snd_zip (Nat.le_of_eq count.symm)] at mapped
  unfold selectNeighbors
  generalize byDistance (dists.zip candidateIds) = order at ids
  have size : order.length = candidateIds.length := by rw [← ids.length_eq, List.length_map]
  change (if order.length ≤ m ∨ selection = .closest then _ else _) = _
  rw [size]
  split
  · rfl
  · have insideOrder : ∀ node ∈ order.map Prod.snd, node < data.length := fun node member =>
      inside node (ids.subset member)
    rcases rowsAt_gives rows insideOrder with ⟨vectors, found, _⟩
    have table := measured _ vectors ids found
    have scan : List.zipWith (fun (scored : D × Nat) (row : List D) => (scored.1, scored.2, row)) order
        (np.table vectors) =
          order.map fun pair => (pair.1, pair.2, (order.map Prod.snd).map (between pair.2)) := by
      rw [table, List.map_map, List.zipWith_map_right, List.zipWith_self]
      rfl
    have start : List.replicate (order.map Prod.snd).length (⊤ : WithTop D) =
        (order.map Prod.snd).map (nearestOf between []) := List.map_const'.symm
    change (rowsAt data (order.map Prod.snd) >>= _) = _
    rw [found]
    change Except.ok (keepDiverse m 0 _ _ []) = _
    rw [scan, start]
    exact congrArg Except.ok (keepDiverse_eq symmetric order [] [] rfl positive)

/-- The running minimum decides as the comparison with every kept neighbour does:
the heuristic returns what the naive rule returns, and the other mode the nearest
candidates in stable order. -/
theorem selectNeighbors_naive (np : Numpy F D G) (selection : NeighborSelection) {data : List (List F)}
    {width : Nat} {candidateIds : List Nat} {dists : List D} {m : Nat}
    (rows : ∀ row ∈ data, row.length = width) (inside : ∀ node ∈ candidateIds, node < data.length)
    (distinct : candidateIds.Nodup) (count : dists.length = candidateIds.length) (positive : 1 ≤ m)
    {between : Nat → Nat → D} (symmetric : ∀ left right, between left right = between right left)
    (measured : ∀ ids vectors, ids.Perm candidateIds → rowsAt data ids = .ok vectors →
      np.table vectors = ids.map fun id => ids.map (between id)) :
    ∃ order kept, StablySorted (dists.zip candidateIds) order ∧
      selectNeighbors np selection data candidateIds dists m = .ok kept ∧
      (selection = .closest ∨ candidateIds.length ≤ m →
        kept = (order.take m).map Prod.snd ∧ kept.length = min m candidateIds.length) ∧
      (selection = .heuristic → m < candidateIds.length → kept = naiveSelection between m order []) ∧
      kept.Sublist (order.map Prod.snd) ∧ kept.Subperm candidateIds ∧ kept.Nodup ∧ kept.length ≤ m ∧
      kept.head? = (order.map Prod.snd).head? := by
  have stable := byDistance_stable (dists.zip candidateIds)
  have selected := selectNeighbors_eq np selection rows inside count positive symmetric measured
  generalize byDistance (dists.zip candidateIds) = order at stable selected
  have ids : (order.map Prod.snd).Perm candidateIds := by
    have mapped := stable.perm.map Prod.snd
    rwa [List.map_snd_zip (Nat.le_of_eq count.symm)] at mapped
  have size : order.length = candidateIds.length := by rw [← ids.length_eq, List.length_map]
  refine ⟨order, _, stable, selected, ?_, ?_, ?_⟩
  · intro all
    rw [if_pos all.symm, List.length_map, List.length_take, size]
    exact ⟨rfl, rfl⟩
  · rintro rfl more
    rw [if_neg]
    rintro (few | other)
    · exact absurd few (Nat.not_le_of_gt more)
    · cases other
  · have sublist : (if candidateIds.length ≤ m ∨ selection = .closest then (order.take m).map Prod.snd
        else naiveSelection between m order []).Sublist (order.map Prod.snd) := by
      split
      · exact (List.take_sublist m order).map Prod.snd
      · exact naiveSelection_sublist between m order []
    refine ⟨sublist, sublist.subperm.trans ids.subperm, sublist.nodup (ids.nodup_iff.mpr distinct), ?_, ?_⟩
    · split
      · rw [List.length_map]
        exact List.length_take_le m order
      · exact naiveSelection_length_le between order (Nat.zero_le m)
    · split
      · rw [List.map_take, List.head?_take, if_neg (Nat.ne_of_gt positive)]
      · exact naiveSelection_head between positive order

section Sample

omit [LinearOrder D] in
/-- The rows the ids stand for, or nothing is returned. -/
theorem rowsAt_getD {data vectors : List (List F)} {ids : List Nat} (found : rowsAt data ids = .ok vectors) :
    vectors = ids.map fun id => data.getD id [] := by
  induction ids generalizing vectors with
  | nil =>
      cases found
      rfl
  | cons id rest inductionHypothesis =>
      unfold rowsAt at found
      rw [List.mapM_cons] at found
      rcases gave_bind found with ⟨row, isRow, found⟩
      rcases gave_bind found with ⟨others, areOthers, isList⟩
      cases isList
      have here : row = data.getD id [] := by
        unfold rowAt at isRow
        rw [List.getD_eq_getElem?_getD]
        split at isRow
        · rename_i stored present
          cases isRow
          rw [present]
          rfl
        · cases isRow
      rw [List.map_cons, inductionHypothesis areOthers, here]

/-- Three unit rows along the axes. -/
def axisRows : List (List Int) := [[1, 0, 0], [0, 1, 0], [0, 0, 1]]

def axisBetween (left right : Nat) : Int := Numpy.axisDistance (axisRows.getD left []) (axisRows.getD right [])

theorem selectNeighbors_naive_axes :
    ∃ order kept, StablySorted ([2, 1, 1].zip [0, 1, 2]) order ∧
      selectNeighbors (Numpy.flat Numpy.axisDistance : Numpy Int Int Unit) .heuristic axisRows
        [0, 1, 2] [2, 1, 1] 2 =
        .ok kept ∧
      (NeighborSelection.heuristic = .closest ∨ [0, 1, 2].length ≤ 2 →
        kept = (order.take 2).map Prod.snd ∧ kept.length = min 2 [0, 1, 2].length) ∧
      (NeighborSelection.heuristic = .heuristic → 2 < [0, 1, 2].length → kept =
        naiveSelection axisBetween 2 order []) ∧
      kept.Sublist (order.map Prod.snd) ∧ kept.Subperm [0, 1, 2] ∧ kept.Nodup ∧ kept.length ≤ 2 ∧
      kept.head? = (order.map Prod.snd).head? := by
  have rows : ∀ row ∈ axisRows, row.length = 3 := by decide
  have inside : ∀ node ∈ [0, 1, 2], node < axisRows.length := by decide
  have distinct : [0, 1, 2].Nodup := by decide
  have symmetric : ∀ left right, axisBetween left right = axisBetween right left := by
    intro left right
    unfold axisBetween Numpy.axisDistance
    simp only [eq_comm]
  have measured : ∀ ids vectors, ids.Perm [0, 1, 2] → rowsAt axisRows ids = .ok vectors →
      (Numpy.flat Numpy.axisDistance : Numpy Int Int Unit).table vectors =
        ids.map fun id => ids.map (axisBetween id) := by
    intro ids vectors _ found
    rw [rowsAt_getD found]
    change (ids.map _).map (fun left => (ids.map _).map _) = _
    simp only [List.map_map]
    rfl
  exact selectNeighbors_naive (Numpy.flat Numpy.axisDistance : Numpy Int Int Unit) .heuristic
    rows inside distinct rfl
    (Nat.le_succ 1) symmetric measured

end Sample

end HNSW
end VectorSearch
