import VectorSearch.Index.BeamSearch

namespace VectorSearch

/-!
# Neighbour selection

Both modes return some of the candidates, each at most once, at most as many as
asked for, and at least one when there is one to choose.
-/

open Stateful

variable {F D G : Type} [LinearOrder D]

namespace HNSW

theorem byDistance_perm (items : List (D × Nat)) : (byDistance items).Perm items :=
  List.perm_insertionSort _ items

/-! ## The scan of the heuristic -/

theorem keepDiverse_prefix (m i : Nat) (scan : List (D × Nat × List D)) (nearestKept : List (WithTop D))
    (kept : List Nat) : kept <+: keepDiverse m i scan nearestKept kept := by
  induction scan generalizing i nearestKept kept with
  | nil => exact List.prefix_rfl
  | cons head rest inductionHypothesis =>
      rcases head with ⟨toBase, id, between⟩
      unfold keepDiverse
      split
      · exact List.prefix_rfl
      · split
        · split
          · exact List.prefix_append kept [id]
          · exact (List.prefix_append kept [id]).trans (inductionHypothesis _ _ _)
        · exact inductionHypothesis _ _ _

theorem keepDiverse_sublist (m i : Nat) (scan : List (D × Nat × List D)) (nearestKept : List (WithTop D))
    (kept : List Nat) :
    (keepDiverse m i scan nearestKept kept).Sublist (kept ++ scan.map fun candidate => candidate.2.1) := by
  induction scan generalizing i nearestKept kept with
  | nil =>
      rw [List.map_nil, List.append_nil]
      exact List.Sublist.refl kept
  | cons head rest inductionHypothesis =>
      rcases head with ⟨toBase, id, between⟩
      have skip : (kept ++ rest.map fun candidate => candidate.2.1).Sublist
          (kept ++ id :: rest.map fun candidate => candidate.2.1) :=
        (List.sublist_cons_self id _).append_left kept
      have moved : kept ++ id :: rest.map (fun candidate => candidate.2.1) =
          kept ++ [id] ++ rest.map fun candidate => candidate.2.1 := List.append_cons kept id _
      unfold keepDiverse
      change List.Sublist _ (kept ++ id :: rest.map fun candidate => candidate.2.1)
      split
      · exact List.sublist_append_left kept _
      · split
        · rw [moved]
          split
          · exact List.sublist_append_left (kept ++ [id]) _
          · exact inductionHypothesis _ _ (kept ++ [id])
        · exact (inductionHypothesis _ _ kept).trans skip

theorem keepDiverse_length_le {m : Nat} (i : Nat) (scan : List (D × Nat × List D))
    (nearestKept : List (WithTop D)) {kept : List Nat} (room : kept.length < m) :
    (keepDiverse m i scan nearestKept kept).length ≤ m := by
  induction scan generalizing i nearestKept kept with
  | nil => exact Nat.le_of_lt room
  | cons head rest inductionHypothesis =>
      rcases head with ⟨toBase, id, between⟩
      have longer : (kept ++ [id]).length = kept.length + 1 := by rw [List.length_append, List.length_singleton]
      unfold keepDiverse
      split
      · exact Nat.le_of_lt room
      · split
        · split
          · rename_i full
            exact Nat.le_of_eq full
          · rename_i notFull
            exact inductionHypothesis _ _ (by omega)
        · exact inductionHypothesis _ _ room

/-- The nearest candidate is always kept. -/
theorem keepDiverse_ne_nil (m : Nat) {scan : List (D × Nat × List D)} (nonempty : scan ≠ [])
    {nearestKept : List (WithTop D)} (first : nearestKept[0]? = some ⊤) :
    keepDiverse m 0 scan nearestKept [] ≠ [] := by
  rcases List.exists_cons_of_ne_nil nonempty with ⟨⟨toBase, id, between⟩, rest, isScan⟩
  rw [isScan]
  unfold keepDiverse
  rw [first]
  change (if (toBase : WithTop D) < ⊤ then _ else _) ≠ []
  rw [if_pos (WithTop.coe_lt_top toBase)]
  split
  · exact List.cons_ne_nil _ _
  · intro nothing
    have kept := keepDiverse_prefix m (0 + 1) rest
      (List.zipWith (fun (old : WithTop D) (new : D) => min old new) nearestKept between) ([] ++ [id])
    rw [nothing, List.nil_append, List.prefix_nil] at kept
    cases kept

/-! ## The selection -/

/-- What any selection of neighbours satisfies. -/
structure Selected (candidateIds : List Nat) (m : Nat) (kept : List Nat) : Prop where
  subperm : kept.Subperm candidateIds
  atMost : 0 < m → kept.length ≤ m
  nonempty : 0 < m → candidateIds ≠ [] → kept ≠ []

theorem selectNeighbors_gives (np : Numpy F D G) (selection : NeighborSelection) {data : List (List F)}
    {width : Nat} {candidateIds : List Nat} {dists : List D} (m : Nat)
    (rows : ∀ row ∈ data, row.length = width) (inside : ∀ node ∈ candidateIds, node < data.length)
    (count : dists.length = candidateIds.length) :
    Gives (selectNeighbors np selection data candidateIds dists m) fun kept =>
      Selected candidateIds m kept := by
  have sorted := byDistance_perm (dists.zip candidateIds)
  have ids : ((byDistance (dists.zip candidateIds)).map Prod.snd).Perm candidateIds := by
    have mapped := sorted.map Prod.snd
    rwa [List.map_snd_zip (Nat.le_of_eq count.symm)] at mapped
  unfold selectNeighbors
  generalize byDistance (dists.zip candidateIds) = order at ids
  have some : candidateIds ≠ [] → order ≠ [] := by
    intro nonempty nothing
    rw [nothing, List.map_nil] at ids
    exact nonempty ids.symm.eq_nil
  change Gives (if order.length ≤ m ∨ selection = .closest then _ else _) _
  split
  · refine Gives.pure ⟨?_, ?_, ?_⟩
    · rw [List.map_take]
      exact (List.take_sublist m _).subperm.trans ids.subperm
    · intro _
      rw [List.length_map]
      exact List.length_take_le m order
    · intro positive nonempty nothing
      rw [List.map_eq_nil_iff, List.take_eq_nil_iff] at nothing
      rcases nothing with zero | empty
      · exact absurd zero (Nat.ne_of_gt positive)
      · exact some nonempty empty
  · have insideOrder : ∀ node ∈ order.map Prod.snd, node < data.length := fun node member =>
      inside node (ids.subset member)
    apply Gives.bind (rowsAt_gives rows insideOrder)
    rintro vectors ⟨rowCount, _⟩
    have tableCount : (np.table vectors).length = order.length := by
      rw [np.table_length, rowCount, List.length_map]
    generalize scanned : List.zipWith (fun (scored : D × Nat) (row : List D) => (scored.1, scored.2, row))
      order (np.table vectors) = scan
    have scanIds : scan.map (fun candidate => candidate.2.1) = order.map Prod.snd := by
      have firsts : (order.zip (np.table vectors)).map Prod.fst = order :=
        List.map_fst_zip (Nat.le_of_eq tableCount.symm)
      rw [← scanned, ← List.map_uncurry_zip_eq_zipWith, List.map_map]
      nth_rewrite 2 [← firsts]
      rw [List.map_map]
      rfl
    refine Gives.pure ⟨?_, ?_, ?_⟩
    · have sublist := keepDiverse_sublist m 0 scan (List.replicate (order.map Prod.snd).length ⊤) []
      rw [List.nil_append, scanIds] at sublist
      exact sublist.subperm.trans ids.subperm
    · exact fun positive => keepDiverse_length_le 0 scan _ positive
    · intro positive nonempty
      have nonemptyScan : scan ≠ [] := by
        intro nothing
        rw [nothing, List.map_nil] at scanIds
        exact some nonempty (List.map_eq_nil_iff.mp scanIds.symm)
      apply keepDiverse_ne_nil m nonemptyScan
      rw [List.getElem?_replicate, List.length_map, if_pos]
      exact List.length_pos_iff.mpr (some nonempty)

end HNSW
end VectorSearch
