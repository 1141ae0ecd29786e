import VectorSearch.Index.Exact
import VectorSearch.Index.Traversal

namespace VectorSearch

/-!
# The greedy descent

A product of several rows can give one row another value than a product of
other rows with it, so a node is seen at different distances from different
nodes.  What one list shows is fixed.  A query or a row that holds NaN has
distance NaN, and then the loop need not end.
-/

open Stateful

namespace HNSW

variable {F D G : Type} [LinearOrder D]

/-! ## Distances that can be NaN -/

/-- `left >= right` of two floats.  NaN is `⊥`, which `np.argmin` takes for the
smallest entry, and no comparison with it holds. -/
def floatAtLeast (left right : WithBot D) : Bool := decide (left ≠ ⊥ ∧ right ≠ ⊥ ∧ right ≤ left)

variable (np : Numpy F (WithBot D) G)

/-- `_greedy_descend` on floats, for as many rounds as there is fuel. -/
def floatDescend (fuel : Nat) (data : List (List F)) (graph : List Layer) (query : List F) (entry layer : Nat) :
    Except Error Nat := do
  let currentDist ← distanceTo np data query entry
  let adjacency ← layerAt graph layer
  greedyWalk np floatAtLeast data adjacency query fuel entry currentDist

/-- No evaluation gives NaN: not that of the entry, and not that of any list of the layer. -/
structure NoNan (data : List (List F)) (adjacency : Layer) (query : List F) (entry : Nat) : Prop where
  entered : ∀ dist, distanceTo np data query entry = .ok dist → dist ≠ ⊥
  shown : ∀ node links dists, adjacency.get? node = some links → distancesTo np data query links = .ok dists →
    ∀ dist ∈ dists, dist ≠ ⊥

variable {np} {data : List (List F)} {adjacency : Layer} {query : List F}

/-- On numbers the loop compares as the order does.  The induction is on the rounds:
the distance a node is entered with is one that a list has shown. -/
theorem floatWalk_eq (shown : ∀ node links dists, adjacency.get? node = some links →
      distancesTo np data query links = .ok dists → ∀ dist ∈ dists, dist ≠ ⊥)
    (fuel current : Nat) {currentDist : WithBot D} (number : currentDist ≠ ⊥) :
    greedyWalk np floatAtLeast data adjacency query fuel current currentDist =
      greedyWalk np (fun left right => decide (right ≤ left)) data adjacency query fuel
        current currentDist := by
  induction fuel generalizing current currentDist with
  | zero => rfl
  | succ fuel inductionHypothesis =>
      simp only [greedyWalk]
      cases looked : neighborsOf adjacency current with
      | error error => rfl
      | ok neighbors =>
          simp only [bind, Except.bind]
          cases given : distancesTo np data query neighbors with
          | error error => simp only
          | ok dists =>
              cases least : argmin dists with
              | none => simp only [least]
              | some best =>
                  have numbers : best.2 ≠ ⊥ := shown current neighbors dists
                    (neighborsOf_ok looked) given best.2
                    (List.mem_of_getElem? (argmin_found least))
                  have same : floatAtLeast best.2 currentDist = decide (currentDist ≤ best.2) := by
                    simp [floatAtLeast, numbers, number]
                  simp only [least, same]
                  cases neighbors[best.1]? with
                  | none => rfl
                  | some next =>
                      dsimp only
                      rw [inductionHypothesis next numbers]

/-- More rounds change nothing once the loop has ended. -/
theorem greedyWalk_more {E : Type} [LinearOrder E] (np : Numpy F E G) {atLeast : E → E → Bool}
    {data : List (List F)} {adjacency : Layer} {query : List F} {fuel more current reached : Nat}
    {currentDist : E} (order : fuel ≤ more)
    (ended : greedyWalk np atLeast data adjacency query fuel current currentDist = .ok reached) :
    greedyWalk np atLeast data adjacency query more current currentDist = .ok reached := by
  induction fuel generalizing more current currentDist with
  | zero => cases ended
  | succ fuel inductionHypothesis =>
      rcases Nat.exists_eq_add_of_le' order with ⟨extra, rfl⟩
      simp only [greedyWalk] at ended ⊢
      rcases gave_bind ended with ⟨neighbors, looked, rest⟩
      rw [looked]
      dsimp only [bind, Except.bind]
      split at rest
      · rename_i none
        rwa [if_pos none]
      · rename_i some
        rw [if_neg some]
        rcases gave_bind rest with ⟨dists, given, rest⟩
        rw [given]
        dsimp only
        split at rest
        · cases rest
        · split at rest
          · rename_i near
            rwa [if_pos near]
          · rename_i far
            rw [if_neg far]
            split at rest
            · cases rest
            · exact inductionHypothesis (Nat.le_add_left fuel extra) rest

/-- Whatever numbers the lists show, a greedy descent ends at a local minimum of
the layer: no neighbour is closer, as the node's list shows it, than the distance
the node was entered with.  No link is followed twice. -/
theorem greedyDescend_ends (np : Numpy F D G) {data : List (List F)} {adjacency : Layer} {query : List F}
    {width : Nat} {graph : List Layer} {entry layer : Nat} (rows : ∀ row ∈ data, row.length = width)
    (length : query.length = width) (found : graph[layer]? = some adjacency)
    (inside : ∀ node, adjacency.Has node → node < data.length)
    (closed : ∀ node links, adjacency.get? node = some links → ∀ other ∈ links, adjacency.Has other)
    (has : adjacency.Has entry) :
    ∃ reached entryDist trail last, greedyDescend np data graph query entry layer = .ok reached ∧
      distanceTo np data query entry = .ok entryDist ∧ trail.head? = some (entry, entryDist) ∧
      trail.IsChain (Hop np data adjacency query) ∧ (linksOf trail).Nodup ∧
      trail.getLast? = some (reached, last) ∧ adjacency.Has reached ∧
      LocalMinimum np data adjacency query (reached, last) := by
  rcases greedyDescend_trail np rows inside closed length found has with
    ⟨reached, descended, entryDist, rest, given, walk⟩
  rcases walk.stops with ⟨last, isLast, isReached, least⟩
  have stays : adjacency.Has reached := by
    have reach := walk.reach (entry, entryDist) rfl
    clear walk descended isReached
    induction reach with
    | refl => exact has
    | tail _ link inductionHypothesis =>
        rcases link with ⟨links, isList, member⟩
        exact closed _ links isList _ member
  subst isReached
  exact ⟨last.1, entryDist, _, last.2, descended, given, rfl, walk.chain, walk.once, isLast, stays, least⟩

/-- Where no evaluation gives NaN, the loop on floats ends behind every number of
rounds above the number of links, as the loop on ordered distances does.  With NaN it
can hop for ever: see `nan_descends_for_ever`. -/
theorem floatDescend_ends (np : Numpy F (WithBot D) G) {data : List (List F)} {adjacency : Layer}
    {query : List F} {width : Nat} {graph : List Layer} {entry layer : Nat}
    (rows : ∀ row ∈ data, row.length = width) (length : query.length = width)
    (found : graph[layer]? = some adjacency) (inside : ∀ node, adjacency.Has node → node < data.length)
    (closed : ∀ node links, adjacency.get? node = some links → ∀ other ∈ links, adjacency.Has other)
    (has : adjacency.Has entry) (numbers : NoNan np data adjacency query entry) :
    ∃ reached entryDist trail last,
      (∀ fuel, linkCount adjacency < fuel → floatDescend np fuel data graph query entry layer = .ok reached) ∧
      distanceTo np data query entry = .ok entryDist ∧ trail.head? = some (entry, entryDist) ∧
      trail.IsChain (Hop np data adjacency query) ∧ (linksOf trail).Nodup ∧
      trail.getLast? = some (reached, last) ∧ adjacency.Has reached ∧
      LocalMinimum np data adjacency query (reached, last) := by
  rcases greedyDescend_ends np rows length found inside closed has with
    ⟨reached, entryDist, trail, last, descended, given, front, chain, once, back, stays, least⟩
  refine ⟨reached, entryDist, trail, last, fun fuel enough => ?_, given, front, chain, once, back, stays, least⟩
  simp only [greedyDescend, given, layerAt_eq found, bind, Except.bind] at descended
  simp only [floatDescend, given, layerAt_eq found, bind, Except.bind]
  rw [floatWalk_eq numbers.shown fuel entry (numbers.entered entryDist given)]
  exact greedyWalk_more np enough descended

section Sample

/-- Two nodes, each linked to the other. -/
def pairLayer : Layer := ⟨[(0, [1]), (1, [0])], by decide⟩

/-- `1 - row @ query`, with `none` for NaN: a product with NaN is NaN. -/
def nanDistance (row query : List (Option Int)) : WithBot Int :=
  if none ∈ row ++ query then ⊥ else (1 - (List.zipWith (· * ·) row.reduceOption query.reduceOption).sum : Int)

abbrev nanNumpy : Numpy (Option Int) (WithBot Int) Unit := Numpy.flat nanDistance

def pairRows : List (List (Option Int)) := [[some 1, some 0], [some 0, some 1]]

theorem pairLayer_has {node : Nat} : pairLayer.Has node ↔ node = 0 ∨ node = 1 := by
  constructor
  · rintro ⟨links, found⟩
    rcases List.mem_cons.mp (Dict.get?_mem found) with first | second
    · exact Or.inl (congrArg Prod.fst first)
    · exact Or.inr (congrArg Prod.fst (List.mem_singleton.mp second))
  · rintro (rfl | rfl)
    · exact ⟨[1], rfl⟩
    · exact ⟨[0], rfl⟩

theorem pairLayer_closed :
    ∀ node links, pairLayer.get? node = some links → ∀ other ∈ links, pairLayer.Has other := by
  intro node links found other member
  apply pairLayer_has.mpr
  rcases pairLayer_has.mp ⟨links, found⟩ with rfl | rfl
  · cases found
    exact Or.inr (List.mem_singleton.mp member)
  · cases found
    exact Or.inl (List.mem_singleton.mp member)

/-- A query that holds NaN is at distance NaN from both nodes, and the descent goes
from one to the other for ever. -/
theorem nan_descends_for_ever : (∀ node links, pairLayer.get? node = some links → ∀ other ∈
    links, pairLayer.Has other) ∧
    pairLayer.Has 0 ∧
    ∀ fuel, floatDescend nanNumpy fuel pairRows [pairLayer] [none, some 0] 0 0 = .error .outOfFuel := by
  have turns : ∀ fuel, greedyWalk nanNumpy floatAtLeast pairRows pairLayer [none, some 0] fuel 0 ⊥ =
    .error .outOfFuel ∧
      greedyWalk nanNumpy floatAtLeast pairRows pairLayer [none, some 0] fuel 1 ⊥ = .error .outOfFuel := by
    intro fuel
    induction fuel with
    | zero => exact ⟨rfl, rfl⟩
    | succ fuel inductionHypothesis => exact ⟨inductionHypothesis.2, inductionHypothesis.1⟩
  exact ⟨pairLayer_closed, ⟨[1], rfl⟩, fun fuel => (turns fuel).1⟩

theorem floatDescend_ends_pair :
    ∃ reached entryDist trail last,
      (∀ fuel, 2 < fuel → floatDescend nanNumpy fuel pairRows [pairLayer] [some 0, some 1] 0 0 = .ok reached) ∧
      distanceTo nanNumpy pairRows [some 0, some 1] 0 = .ok entryDist ∧ trail.head? = some (0, entryDist) ∧
      trail.IsChain (Hop nanNumpy pairRows pairLayer [some 0, some 1]) ∧ (linksOf trail).Nodup ∧
      trail.getLast? = some (reached, last) ∧ pairLayer.Has reached ∧
      LocalMinimum nanNumpy pairRows pairLayer [some 0, some 1] (reached, last) := by
  have rows : ∀ row ∈ pairRows, row.length = 2 := by decide
  have inside : ∀ node, pairLayer.Has node → node < pairRows.length := by
    intro node has
    rcases pairLayer_has.mp has with rfl | rfl
    · decide
    · decide
  have numbers : NoNan nanNumpy pairRows pairLayer [some 0, some 1] 0 := by
    constructor
    · intro dist given
      cases given
      decide
    · intro node links dists found given
      rcases pairLayer_has.mp ⟨links, found⟩ with rfl | rfl
      · cases found
        cases given
        decide
      · cases found
        cases given
        decide
  exact floatDescend_ends nanNumpy rows rfl rfl inside pairLayer_closed ⟨[1], rfl⟩ numbers

end Sample

end HNSW
end VectorSearch
