import Mathlib.Algebra.Order.BigOperators.Group.List
import Mathlib.Algebra.Order.Ring.Nat
import Mathlib.Data.List.Count
import VectorSearch.Index.Layers

namespace VectorSearch

/-!
# Walking through a layer

Both walks stay inside a sound layer and end.  The greedy descent ends because
the recorded distance falls at every hop and is one of the finitely many values
the layer's neighbour lists are evaluated to; nothing is assumed about how the
values of one node in two lists compare.  The beam search ends because every
candidate comes from a link to a node not visited before.  When the beam is as
wide as the index, the search returns every node it can reach.
-/

open Stateful

variable {F D G : Type}

namespace HNSW

/-! ## Distances exist -/

theorem rowAt_gives {data : List (List F)} {width node : Nat}
    (rows : ∀ row ∈ data, row.length = width) (inside : node < data.length) :
    Gives (rowAt data node) fun row => row.length = width := by
  have found : data[node]? = some data[node] := List.getElem?_eq_getElem inside
  refine ⟨data[node], ?_, rows _ (List.getElem_mem inside)⟩
  unfold rowAt
  rw [found]

theorem fits_of_width {rows : List (List F)} {query : List F} {width : Nat}
    (same : ∀ row ∈ rows, row.length = width) (length : query.length = width) : fits rows query = true := by
  unfold fits
  rw [List.all_eq_true]
  intro row member
  rw [decide_eq_true_eq, same row member, length]

theorem layerAt_eq {graph : List Layer} {layer : Nat} {adjacency : Layer}
    (found : graph[layer]? = some adjacency) : layerAt graph layer = .ok adjacency := by
  unfold layerAt
  rw [found]

theorem neighborsOf_eq {adjacency : Layer} {node : Nat} {links : List Nat}
    (found : adjacency.get? node = some links) : neighborsOf adjacency node = .ok links := by
  unfold neighborsOf
  rw [found]

theorem neighborsOf_ok {adjacency : Layer} {node : Nat} {links : List Nat}
    (looked : neighborsOf adjacency node = .ok links) : adjacency.get? node = some links := by
  unfold neighborsOf at looked
  split at looked
  · rename_i found stored
    rw [stored, Except.ok.inj looked]
  · cases looked

variable (np : Numpy F D G)

theorem distanceTo_gives {data : List (List F)} {query : List F} {width node : Nat}
    (rows : ∀ row ∈ data, row.length = width) (length : query.length = width) (inside : node < data.length) :
    Gives (distanceTo np data query node) fun _ => True := by
  apply Gives.bind (rowAt_gives rows inside)
  intro row rowLength
  have fit : fits [row] query = true :=
    fits_of_width (fun other member => by rw [List.mem_singleton.mp member, rowLength]) length
  rw [if_pos fit]
  exact Gives.pure trivial

theorem rowsAt_gives {data : List (List F)} {width : Nat} {ids : List Nat}
    (rows : ∀ row ∈ data, row.length = width) (inside : ∀ node ∈ ids, node < data.length) :
    Gives (rowsAt data ids) fun found => found.length = ids.length ∧ ∀ row ∈ found, row.length = width := by
  apply Gives.imp (Gives.mapM fun node member => rowAt_gives rows (inside node member))
  intro found each
  refine ⟨each.length_eq.symm, ?_⟩
  intro row member
  induction each with
  | nil => cases member
  | cons holds _ inductionHypothesis =>
      rcases List.mem_cons.mp member with first | later
      · rw [first]
        exact holds
      · exact inductionHypothesis (fun node inRest => inside node (List.mem_cons_of_mem _ inRest)) later

theorem distancesTo_gives {data : List (List F)} {query : List F} {width : Nat} {nodes : List Nat}
    (rows : ∀ row ∈ data, row.length = width) (length : query.length = width)
    (inside : ∀ node ∈ nodes, node < data.length) :
    Gives (distancesTo np data query nodes) fun dists => dists.length = nodes.length := by
  apply Gives.bind (rowsAt_gives rows inside)
  rintro found ⟨count, widths⟩
  rw [if_pos (fits_of_width widths length)]
  exact Gives.pure (by rw [np.products_length, count])

/-- The distances the layer's neighbour lists are evaluated to. -/
def listed (data : List (List F)) (adjacency : Layer) (query : List F) : List D :=
  adjacency.entries.flatMap fun entry =>
    match distancesTo np data query entry.2 with
    | .ok dists => dists
    | .error _ => []

theorem distancesTo_length {data : List (List F)} {query : List F} {nodes : List Nat} {dists : List D}
    (given : distancesTo np data query nodes = .ok dists) : dists.length = nodes.length := by
  unfold distancesTo at given
  cases read : rowsAt data nodes with
  | error error =>
      rw [read] at given
      cases given
  | ok rows =>
      rw [read] at given
      have count : rows.length = nodes.length := (mapM_ok read).length_eq.symm
      change (if fits rows query then _ else _) = _ at given
      split at given
      · rw [← Except.ok.inj given, np.products_length, count]
      · cases given

theorem listed_length_le (data : List (List F)) (adjacency : Layer) (query : List F) :
    (listed np data adjacency query).length ≤ linkCount adjacency := by
  unfold listed linkCount
  rw [List.length_flatMap]
  apply List.sum_le_sum
  intro entry _
  cases given : distancesTo np data query entry.2 with
  | ok dists => exact Nat.le_of_eq (distancesTo_length np given)
  | error error => exact Nat.zero_le _

theorem mem_listed {data : List (List F)} {adjacency : Layer} {query : List F} {node : Nat}
    {links : List Nat} {dists : List D} {dist : D} (found : adjacency.get? node = some links)
    (given : distancesTo np data query links = .ok dists) (member : dist ∈ dists) :
    dist ∈ listed np data adjacency query := by
  apply List.mem_flatMap.mpr
  refine ⟨(node, links), Dict.get?_mem found, ?_⟩
  rw [given]
  exact member

variable [LinearOrder D]

/-! ## Greedy descent -/

theorem argmin_found {dists : List D} {position : Nat} {least : D}
    (found : argmin dists = some (position, least)) : dists[position]? = some least := by
  induction dists generalizing position least with
  | nil => cases found
  | cons first rest inductionHypothesis =>
      unfold argmin at found
      split at found
      · cases found
        rfl
      · rename_i place value inRest
        split at found
        · cases found
          rfl
        · cases found
          exact inductionHypothesis inRest

theorem argmin_eq_none {dists : List D} (missing : argmin dists = none) : dists = [] := by
  cases dists with
  | nil => rfl
  | cons first rest =>
      unfold argmin at missing
      split at missing
      · cases missing
      · split at missing <;> cases missing

theorem argmin_least {dists : List D} {position : Nat} {least : D}
    (found : argmin dists = some (position, least)) : ∀ dist ∈ dists, least ≤ dist := by
  induction dists generalizing position least with
  | nil => cases found
  | cons first rest inductionHypothesis =>
      unfold argmin at found
      split at found
      · rename_i missing
        cases found
        rw [argmin_eq_none missing]
        exact fun dist member => le_of_eq (List.mem_singleton.mp member).symm
      · rename_i place value inRest
        have below := inductionHypothesis inRest
        split at found
        · rename_i smaller
          cases found
          intro dist member
          rcases List.mem_cons.mp member with rfl | later
          · exact le_refl dist
          · exact le_trans smaller (below dist later)
        · rename_i larger
          cases found
          intro dist member
          rcases List.mem_cons.mp member with rfl | later
          · exact le_of_lt (lt_of_not_ge larger)
          · exact below dist later

/-- Fewer values lie below a smaller bound that is itself one of the values. -/
theorem countP_lt_of_lt {values : List D} {lower upper : D} (member : lower ∈ values) (lt : lower < upper) :
    values.countP (· < lower) < values.countP (· < upper) := by
  have both : values.countP (· < lower) = (values.filter (· < upper)).countP (· < lower) := by
    rw [List.countP_filter]
    apply List.countP_congr
    intro value _
    simp only [Bool.and_eq_true, decide_eq_true_eq]
    exact ⟨fun below => ⟨below, lt_trans below lt⟩, And.left⟩
  rw [both, List.countP_eq_length_filter (p := fun value => decide (value < upper)), List.countP_lt_length_iff]
  refine ⟨lower, List.mem_filter.mpr ⟨member, decide_eq_true lt⟩, ?_⟩
  exact decide_eq_false (lt_irrefl lower)

/-- One hop of a walk, from a node with the distance it was entered with to the
neighbour that its list shows as the nearest, if that is closer. -/
structure Hop (data : List (List F)) (adjacency : Layer) (query : List F) (here next : Nat × D) : Prop where
  closer : next.2 < here.2
  nearest : ∃ links dists best, adjacency.get? here.1 = some links ∧
    distancesTo np data query links = .ok dists ∧ argmin dists = some (best, next.2) ∧
      links[best]? = some next.1

/-- No neighbour, as its list shows it, is closer than the distance the node was
entered with. -/
def LocalMinimum (data : List (List F)) (adjacency : Layer) (query : List F) (here : Nat × D) : Prop :=
  ∀ links dists, adjacency.get? here.1 = some links → distancesTo np data query links = .ok dists →
    ∀ dist ∈ dists, here.2 ≤ dist

/-- A walk by hops from a node to a local minimum. -/
inductive Trail (data : List (List F)) (adjacency : Layer) (query : List F) : List (Nat × D) → Nat → Prop
  | stop {here : Nat × D} (least : LocalMinimum np data adjacency query here) :
      Trail data adjacency query [here] here.1
  | hop {here next : Nat × D} {rest : List (Nat × D)} {found : Nat}
      (hop : Hop np data adjacency query here next)
      (later : Trail data adjacency query (next :: rest) found) :
      Trail data adjacency query (here :: next :: rest) found

/-- The links that a walk follows. -/
def linksOf (trail : List (Nat × D)) : List (Nat × Nat) :=
  (trail.zip trail.tail).map fun hop => (hop.1.1, hop.2.1)

section Trails

variable {np} {data : List (List F)} {adjacency : Layer} {query : List F}

theorem Hop.link {here next : Nat × D} (hop : Hop np data adjacency query here next) :
    adjacency.Link here.1 next.1 := by
  rcases hop.nearest with ⟨links, _, best, isList, _, _, atBest⟩
  exact ⟨links, isList, List.mem_of_getElem? atBest⟩

/-- The value a hop ends with is that of the node it starts from. -/
theorem Hop.fixed {here next other last : Nat × D} (first : Hop np data adjacency query here next)
    (second : Hop np data adjacency query other last) (same : here.1 = other.1) : next.2 = last.2 := by
  rcases first.nearest with ⟨links, dists, best, isList, given, least, _⟩
  rcases second.nearest with ⟨others, values, place, isOther, given', least', _⟩
  rw [← same, isList] at isOther
  cases isOther
  rw [given] at given'
  cases given'
  rw [least] at least'
  injection least' with same
  exact (Prod.mk.inj same).2

theorem Trail.reach {trail : List (Nat × D)} {found : Nat} (walk : Trail np data adjacency query trail found) :
    ∀ here ∈ trail.head?, adjacency.Reach here.1 found := by
  induction walk with
  | stop least =>
      rintro _ ⟨⟩
      exact Relation.ReflTransGen.refl
  | hop hop later inductionHypothesis =>
      rintro _ ⟨⟩
      exact Relation.ReflTransGen.head hop.link (inductionHypothesis _ rfl)

theorem Trail.chain {trail : List (Nat × D)} {found : Nat} (walk : Trail np data adjacency query trail found) :
    trail.IsChain (Hop np data adjacency query) := by
  induction walk with
  | stop least => exact .singleton _
  | hop hop later inductionHypothesis => exact List.isChain_cons_cons.mpr ⟨hop, inductionHypothesis⟩

theorem Trail.stops {trail : List (Nat × D)} {found : Nat} (walk : Trail np data adjacency query trail found) :
    ∃ last, trail.getLast? = some last ∧ last.1 = found ∧ LocalMinimum np data adjacency query last := by
  induction walk with
  | stop least => exact ⟨_, rfl, rfl, least⟩
  | hop hop later inductionHypothesis =>
      rcases inductionHypothesis with ⟨last, isLast, isFound, least⟩
      exact ⟨last, isLast, isFound, least⟩

/-- The recorded distances fall. -/
theorem Trail.falls {trail : List (Nat × D)} {found : Nat} (walk : Trail np data adjacency query trail found) :
    trail.Pairwise fun earlier later => later.2 < earlier.2 := by
  induction walk with
  | stop least => exact List.pairwise_singleton _ _
  | hop hop later inductionHypothesis =>
      rw [List.pairwise_cons]
      refine ⟨?_, inductionHypothesis⟩
      intro other member
      rcases List.mem_cons.mp member with rfl | behind
      · exact hop.closer
      · exact lt_trans ((List.pairwise_cons.mp inductionHypothesis).1 other behind) hop.closer

theorem Trail.mem_linksOf {trail : List (Nat × D)} {found : Nat}
    (walk : Trail np data adjacency query trail found)
    {link : Nat × Nat} (member : link ∈ linksOf trail) : ∃ here next, Hop np data adjacency query here next ∧
      here.1 = link.1 ∧ next ∈ trail.tail := by
  induction walk with
  | stop least => cases member
  | hop hop later inductionHypothesis =>
      rcases List.mem_cons.mp member with isFirst | behind
      · exact ⟨_, _, hop, (congrArg Prod.fst isFirst).symm, List.mem_cons_self⟩
      · rcases inductionHypothesis behind with ⟨here, next, isHop, isLink, inTail⟩
        exact ⟨here, next, isHop, isLink, List.mem_cons_of_mem _ inTail⟩

/-- No link is followed twice: what a node's list shows is fixed, and the
recorded distances fall. -/
theorem Trail.once {trail : List (Nat × D)} {found : Nat} (walk : Trail np data adjacency query trail found) :
    (linksOf trail).Nodup := by
  have falls := walk.falls
  induction walk with
  | stop least => exact List.nodup_nil
  | hop hop later inductionHypothesis =>
      have behind := (List.pairwise_cons.mp falls).2
      refine List.nodup_cons.mpr ⟨?_, inductionHypothesis behind⟩
      intro again
      rcases later.mem_linksOf again with ⟨other, last, isHop, isLink, inTail⟩
      have same := hop.fixed isHop isLink.symm
      have lower := (List.pairwise_cons.mp behind).1 last inTail
      exact absurd same (ne_of_gt lower)

end Trails

section Walks

variable {data : List (List F)} {adjacency : Layer} {query : List F} {width : Nat}
  (rows : ∀ row ∈ data, row.length = width) (inside : ∀ node, adjacency.Has node → node < data.length)
  (closed : ∀ node links, adjacency.get? node = some links → ∀ other ∈ links, adjacency.Has other)
  (length : query.length = width)

include rows inside closed length

/-- The walk ends at a local minimum: the distances it records fall, and below
the current one only finitely many are left. -/
theorem greedyWalk_trail (fuel current : Nat) (currentDist : D) (has : adjacency.Has current)
    (enough : (listed np data adjacency query).countP (· < currentDist) < fuel) :
    Gives (greedyWalk np (fun left right => decide (right ≤ left)) data adjacency query fuel current
      currentDist) fun found =>
      ∃ rest, Trail np data adjacency query ((current, currentDist) :: rest) found := by
  induction fuel generalizing current currentDist with
  | zero => exact absurd enough (Nat.not_lt_zero _)
  | succ fuel inductionHypothesis =>
      rcases has with ⟨links, found⟩
      have stored : ∀ node ∈ links, node < data.length := fun node member =>
        inside node (closed current links found node member)
      rcases distancesTo_gives np rows length stored with ⟨dists, given, count⟩
      have stops : (∀ dist ∈ dists, currentDist ≤ dist) →
          LocalMinimum np data adjacency query (current, currentDist) := by
        intro least others values isList isGiven
        rw [found] at isList
        cases isList
        rw [given] at isGiven
        cases isGiven
        exact least
      unfold greedyWalk
      rw [neighborsOf_eq found]
      change Gives (if links = [] then _ else _) _
      split
      · rename_i none
        rw [none] at count
        refine Gives.pure ⟨[], .stop (stops ?_)⟩
        rw [List.eq_nil_of_length_eq_zero count]
        exact fun dist member => absurd member List.not_mem_nil
      · rename_i nonempty
        rw [given]
        dsimp only [bind, Except.bind]
        split
        · rename_i missing
          rw [argmin_eq_none missing, List.length_nil] at count
          exact absurd (List.length_eq_zero_iff.mp count.symm) nonempty
        · rename_i best dist least
          split
          · rename_i near
            exact Gives.pure ⟨[], .stop (stops fun other member =>
              le_trans (of_decide_eq_true near) (argmin_least least other member))⟩
          · rename_i notNear
            have closer : ¬ currentDist ≤ dist := fun near => notNear (decide_eq_true near)
            have atBest := argmin_found least
            have bestInside : best < links.length := by
              rw [← count]
              exact (List.getElem?_eq_some_iff.mp atBest).1
            have atLink : links[best]? = some links[best] := List.getElem?_eq_getElem bestInside
            have hop : Hop np data adjacency query (current, currentDist) (links[best], dist) :=
              ⟨lt_of_not_ge closer, links, dists, best, found, given, least, atLink⟩
            have fewer := countP_lt_of_lt (mem_listed np found given (List.mem_of_getElem? atBest))
              (lt_of_not_ge closer)
            rw [atLink]
            have has := closed current links found links[best] (List.getElem_mem bestInside)
            apply Gives.imp (inductionHypothesis links[best] dist has (by omega))
            rintro reached ⟨rest, walk⟩
            exact ⟨_, .hop hop walk⟩

/-- Whatever the lists show, the descent ends at a local minimum of the layer,
and follows no link twice. -/
theorem greedyDescend_trail {graph : List Layer} {entry layer : Nat} (found : graph[layer]? = some adjacency)
    (has : adjacency.Has entry) :
    Gives (greedyDescend np data graph query entry layer) fun reached => ∃ entryDist rest,
      distanceTo np data query entry = .ok entryDist ∧
        Trail np data adjacency query ((entry, entryDist) :: rest) reached := by
  rcases distanceTo_gives np rows length (inside entry has) with ⟨entryDist, given, _⟩
  unfold greedyDescend
  rw [given, layerAt_eq found]
  have bound := listed_length_le np data adjacency query
  have part := List.countP_le_length (p := fun dist => decide (dist < entryDist))
    (l := listed np data adjacency query)
  apply Gives.imp (greedyWalk_trail np rows inside closed length _ entry entryDist has (by omega))
  rintro reached ⟨rest, walk⟩
  exact ⟨entryDist, rest, rfl, walk⟩

end Walks

theorem greedyDescend_gives {data : List (List F)} {adjacency : Layer} {query : List F} {width : Nat}
    (rows : ∀ row ∈ data, row.length = width) (sound : adjacency.Sound data.length)
    (length : query.length = width) {graph : List Layer} {entry layer : Nat}
    (found : graph[layer]? = some adjacency) (has : adjacency.Has entry) :
    Gives (greedyDescend np data graph query entry layer) fun reached => adjacency.Reach entry reached := by
  apply Gives.imp (greedyDescend_trail np rows sound.inside sound.closed length found has)
  rintro reached ⟨entryDist, rest, _, walk⟩
  exact walk.reach (entry, entryDist) rfl

end HNSW
end VectorSearch
