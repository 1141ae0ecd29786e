import VectorSearch.Index.Hits

namespace VectorSearch

/-!
# The filtered beam search ends

A filtered search may hold no result at all for a while, so its loop is not an
instance of the unfiltered one.  It ends for the same reason, and every lookup
it makes is of a node the layer has.
-/

open Stateful

variable {F D G : Type} [LinearOrder D]

namespace HNSW

/-- What the inner loop does to the walk. -/
structure Beam.Walks (found : List (Nat × D)) (beam next : Beam D) : Prop where
  visited : next.visited = beam.visited
  candidates : next.candidates.Subperm (scored found ++ beam.candidates)

theorem admits_roomy {ef : Nat} (positive : 0 < ef) (results : List (D × Nat)) (d : D) :
    Gives (admits ef results d) fun _ => True := by
  cases results with
  | nil => exact ⟨true, if_pos positive, trivial⟩
  | cons worst rest => exact (admits_gives ef (List.cons_ne_nil worst rest) d).imp fun _ _ => trivial

theorem pushResult_returns (ef : Nat) (results : List (D × Nat)) (item : D × Nat) :
    Gives (pushResult ef results item) fun _ => True := by
  have pushed := Heapq.heappush_perm farther results item
  unfold pushResult
  split
  · split
    · rename_i empty
      have nothing := Heapq.heappop_eq_none empty
      rw [nothing] at pushed
      exact absurd pushed.symm.eq_nil (List.cons_ne_nil item results)
    · exact ⟨_, rfl, trivial⟩
  · exact ⟨_, rfl, trivial⟩

theorem consider_walks {ef : Nat} (positive : 0 < ef) (ok : Bool) (beam : Beam D) (d : D) (neighbor : Nat) :
    Gives (consider ef ok beam d neighbor) fun next => beam.Walks [(neighbor, d)] next := by
  apply Gives.bind (admits_roomy positive beam.results d)
  intro admitted _
  cases admitted with
  | false => exact Gives.pure ⟨rfl, (List.sublist_cons_self (d, neighbor) beam.candidates).subperm⟩
  | true =>
      have pushed := (Heapq.heappush_perm closer beam.candidates (d, neighbor)).subperm
      cases ok with
      | false => exact Gives.pure ⟨rfl, pushed⟩
      | true =>
          apply Gives.bind (pushResult_returns ef beam.results (d, neighbor))
          intro results _
          exact Gives.pure ⟨rfl, pushed⟩

theorem considerAll_walks {ef : Nat} (positive : 0 < ef) {allowed : Nat → Except Error Bool}
    (found : List (Nat × D)) (known : ∀ item ∈ found, ∃ ok, allowed item.1 = .ok ok) (beam : Beam D) :
    Gives (considerAll ef allowed found beam) fun next => beam.Walks found next := by
  induction found generalizing beam with
  | nil => exact Gives.pure ⟨rfl, List.Subperm.refl _⟩
  | cons head rest inductionHypothesis =>
      rcases head with ⟨neighbor, d⟩
      rcases known (neighbor, d) List.mem_cons_self with ⟨ok, permits⟩
      unfold considerAll
      rw [permits]
      apply Gives.bind (consider_walks positive ok beam d neighbor)
      intro middle first
      apply Gives.imp (inductionHypothesis (fun item member => known item (List.mem_cons_of_mem _ member))
        middle)
      intro next later
      refine ⟨later.visited.trans first.visited, ?_⟩
      have more := (List.subperm_append_left (scored rest)).mpr first.candidates
      exact (later.candidates.trans more).trans (scored_cons_append neighbor d rest _).subperm

section Search

variable (np : Numpy F D G) {data : List (List F)} {adjacency : Layer} {query : List F} {width : Nat}
  (rows : ∀ row ∈ data, row.length = width) (sound : adjacency.Sound data.length)
  (length : query.length = width)

include rows sound length

/-- The loop of a filtered search ends.  Every round visits a fresh node or uses
up a candidate. -/
theorem beamLoop_ends {ef : Nat} (positive : 0 < ef) {full : Beam D → Bool}
    (fullHolds : ∀ beam, full beam = true → beam.results ≠ []) {allowed : Nat → Except Error Bool}
    (known : ∀ node, node < data.length → ∃ ok, allowed node = .ok ok) (fuel : Nat) (beam : Beam D)
    (inLayer : ∀ item ∈ beam.candidates, adjacency.Has item.2) (enough : pending adjacency beam < fuel) :
    Gives (beamLoop np data adjacency query ef full allowed fuel beam) fun _ => True := by
  induction fuel generalizing beam with
  | zero => exact absurd enough (Nat.not_lt_zero _)
  | succ fuel inductionHypothesis =>
      unfold beamLoop
      split
      · exact ⟨beam, rfl, trivial⟩
      · rename_i distC c rest popped
        have perm := Heapq.heappop_perm popped
        have tested : Gives (exhausted full beam distC) fun _ => True := by
          unfold exhausted
          split
          · rename_i isFull
            rcases List.exists_cons_of_ne_nil (fullHolds beam isFull) with ⟨worst, others, isResults⟩
            rw [isResults]
            exact ⟨_, rfl, trivial⟩
          · exact ⟨false, rfl, trivial⟩
        apply Gives.bind tested
        intro far _
        cases far with
        | true => exact ⟨_, rfl, trivial⟩
        | false =>
            rcases inLayer (distC, c) (perm.symm.subset List.mem_cons_self) with ⟨links, linked⟩
            have restIn : ∀ item ∈ rest, adjacency.Has item.2 := fun item member =>
              inLayer item (perm.symm.subset (List.mem_cons_of_mem _ member))
            have fewer : beam.candidates.length = rest.length + 1 := perm.length_eq
            have freshLinks := countP_fresh adjacency beam linked
            have inside : ∀ node ∈ fresh beam links, adjacency.Has node := fun node member =>
              sound.closed c links linked node (mem_fresh.mp member).1
            rw [neighborsOf_eq linked]
            change Gives (if fresh beam links = [] then _ else _) _
            split
            · apply inductionHypothesis _ restIn
              unfold pending at enough ⊢
              dsimp only
              omega
            · rcases distancesTo_gives np rows length fun node member => sound.inside node
                (inside node member) with ⟨dists, given, count⟩
              have ids : ((fresh beam links).zip dists).map Prod.fst = fresh beam links :=
                List.map_fst_zip (Nat.le_of_eq count.symm)
              have knownFresh : ∀ item ∈ (fresh beam links).zip dists, ∃ ok, allowed item.1 = .ok ok :=
                fun item member => known _ (sound.inside _ (inside _ (List.of_mem_zip member).1))
              rcases considerAll_walks positive _ knownFresh
                ⟨beam.visited ++ fresh beam links, rest, beam.results⟩ with ⟨next, considered, walks⟩
              change Gives (distancesTo np data query (fresh beam links) >>= _) _
              rw [given]
              change Gives (considerAll ef allowed ((fresh beam links).zip dists)
                ⟨beam.visited ++ fresh beam links, rest, beam.results⟩ >>= _) _
              rw [considered]
              apply inductionHypothesis next
              · intro item member
                rcases List.mem_append.mp (walks.candidates.subset member) with new | old
                · have isFresh : item.2 ∈ (scored ((fresh beam links).zip dists)).map Prod.snd :=
                    List.mem_map_of_mem new
                  rw [scored_snd, ids] at isFresh
                  exact inside item.2 isFresh
                · exact restIn item old
              · have more := walks.candidates.length_le
                have size : (scored ((fresh beam links).zip dists)).length = (fresh beam links).length := by
                  rw [← ids, List.length_map, scored, List.length_map]
                  rw [ids]
                rw [List.length_append, size] at more
                have isVisited : next.visited = beam.visited ++ fresh beam links := walks.visited
                unfold pending at enough ⊢
                rw [isVisited]
                dsimp only at more
                omega

theorem searchLayerFiltered_gives {graph : List Layer} {entry ef : Nat} {allowed : List Bool}
    (positive : 0 < ef) (size : allowed.length = data.length) (found : graph[0]? = some adjacency)
    (has : adjacency.Has entry) :
    Gives (searchLayerFiltered np data graph query entry ef allowed) fun _ => True := by
  have known : ∀ node, node < data.length → ∃ ok, allowedAt allowed node = .ok ok := by
    intro node inside
    unfold allowedAt
    rw [List.getElem?_eq_getElem (by rw [size]; exact inside)]
    exact ⟨_, rfl⟩
  apply Gives.bind (distanceTo_gives np rows length (sound.inside entry has))
  intro dEntry _
  rcases known entry (sound.inside entry has) with ⟨ok, permits⟩
  rw [permits]
  change Gives (layerAt graph 0 >>= _) _
  rw [layerAt_eq found]
  have started := startBeam_pending adjacency entry dEntry
  have start : Gives (beamLoop np data adjacency query ef (fun beam => decide (ef ≤ beam.results.length))
      (allowedAt allowed) (linkCount adjacency + 2)
      ⟨[entry], [(dEntry, entry)], if ok then [(dEntry, entry)] else []⟩) fun _ => True := by
    apply beamLoop_ends np rows sound length positive _ known
    · intro item member
      rw [List.mem_singleton.mp member]
      exact has
    · exact started
    · intro beam isFull nothing
      rw [nothing] at isFull
      have none := of_decide_eq_true isFull
      rw [List.length_nil] at none
      omega
  apply Gives.bind start
  intro final _
  exact Gives.pure trivial

end Search
end HNSW
end VectorSearch
