import Mathlib.Algebra.Ring.Int.Defs
import VectorSearch.Index.Answers
import VectorSearch.Index.Rounds

namespace VectorSearch

/-!
# Which vectors a search can find

A search finds what layer 0 leads to from the node its beam starts at.  Linking
a new node never loses anything, but cutting an over-full neighbour list does
when a rejected neighbour cannot be reached through a kept one.  In exact
arithmetic the stored links and the vectors decide what an insertion cuts.  While
every cut leaves a way round, any two nodes of layer 0 can be reached from one
another and a search wide enough returns every stored node.
-/

open Stateful HNSW

variable {F D G : Type}

namespace Graph

/-- Layer 0, empty as long as there is no node. -/
def ground (index : Graph F G) : Layer := index.graph[0]?.getD Dict.empty

variable {width : Nat} {index : Graph F G}

/-- Layer 0 with the next node, which has no links yet. -/
def opened (index : Graph F G) : Layer := index.ground.set index.data.length []

theorem opened_has (index : Graph F G) {node : Nat} :
    index.opened.Has node ↔ node = index.data.length ∨ index.ground.Has node :=
  Layer.has_set index.ground index.data.length [] node

theorem ground_eq {adjacency : Layer} (found : index.graph[0]? = some adjacency) :
    index.ground = adjacency := by
  simp only [ground, found, Option.getD_some]

theorem Consistent.ground_sound (consistent : index.Consistent width) : index.ground.Sound index.data.length :=
  Registered.base_sound consistent 0

/-- The nodes of layer 0 are the stored ones. -/
theorem Consistent.ground_has (consistent : index.Consistent width) {node : Nat} :
    index.ground.Has node ↔ node < index.data.length := by
  constructor
  · exact consistent.ground_sound.inside node
  · intro inside
    rcases consistent.ground node inside with ⟨adjacency, found, has⟩
    rw [ground_eq found]
    exact has

/-- The next node is not there yet. -/
theorem Consistent.ground_missing (consistent : index.Consistent width) : ¬ index.ground.Has index.data.length :=
  fun has => Nat.lt_irrefl _ (consistent.ground_has.mp has)

end Graph

namespace HNSW

variable (np : Numpy F D G) [LinearOrder D]

/-- Every stored node can be reached from the node at which a search starts its
layer-0 beam, and a search that is wide enough and asks for enough returns each
of them exactly once, whatever the query. -/
def Findable (width : Nat) (index : Graph F G) : Prop :=
  ∀ query : List F, query.length = width →
    (∀ entryPoint, index.entryPoint = some entryPoint → ∃ start ground,
      layerZeroEntry np index (np.normalize query) entryPoint = .ok start ∧
        index.graph[0]? = some ground ∧ ∀ node < index.data.length, ground.Reach start node) ∧
    ∀ (efSearch : Nat) (k : Int), index.data.length ≤ efSearch → index.data.length ≤ k → ∃ hits,
      searchWithDistances np { index with efSearch } query k none = .ok hits ∧
        (hits.map Prod.snd).Perm (List.range index.data.length)

/-! ## The condition -/

section Condition

variable (distance : List F → List F → D) (index : Graph F G) (unit : List F)

/-- The neighbours of the new node, chosen among the stored nodes in order of distance. -/
def newNeighbors (order : List (D × Nat)) : List Nat :=
  preferred index.neighborSelection (apart distance (index.data ++ [unit])) index.M order

/-- The links of a neighbour in layer 0 once the new node is among them. -/
def newLinks : Nat → List Nat :=
  relinked index.neighborSelection (apart distance (index.data ++ [unit])) (maxConn index.M 0) index.data.length
    index.ground

/-- Inserting this unit vector next loses nothing: in whatever order equally near
nodes are considered, each link that the neighbours of the new node drop can be gone
round, and one of them keeps its link to the new node. -/
def SafeInsert : Prop :=
  ∀ order, NearestFirst (apart distance (index.data ++ [unit])) index.data.length order →
    LosesNothing index.ground index.data.length (newNeighbors distance index unit order)
      (newLinks distance index unit)

end Condition

/-! ## One round in layer 0 -/

theorem insertInLayer_ok {unit : List F} {node entry layer next : Nat} {index after : Graph F G}
    (run : insertInLayer np unit node entry layer index = .ok next after) :
    ∃ scored neighbors, findNeighbors np index unit entry layer = .ok (scored, neighbors) ∧
      neighbors.forM (connect np node layer (maxConn index.M layer)) index = .ok ⟨⟩ after := by
  change (reading (findNeighbors np index unit entry layer) >>= _) index = _ at run
  rcases bind_ok run with ⟨⟨scored, neighbors⟩, reached, first, later⟩
  cases result : findNeighbors np index unit entry layer with
  | error error =>
      rw [result] at first
      cases first
  | ok value =>
      rw [result] at first
      cases first
      rcases bind_ok later with ⟨_, linked, connected, last⟩
      refine ⟨scored, neighbors, rfl, ?_⟩
      cases scored with
      | nil => cases last
      | cons head rest =>
          cases last
          exact connected

theorem wireGround_ok {unit : List F} {node level entry : Nat} {top : Int} {index after : Graph F G}
    (run : wireGround np unit node level (some (entry, top)) index = .ok ⟨⟩ after) :
    ∃ next reached, insertInLayer np unit node entry 0 index = .ok next reached ∧
      after.graph = reached.graph := by
  rcases bind_ok run with ⟨next, reached, first, later⟩
  refine ⟨next, reached, first, ?_⟩
  split at later
  · cases later
    rfl
  · cases later
    rfl

/-- What is known when the round in layer 0 begins to link the new node. -/
structure GroundRound (width entry : Nat) (unit : List F) (index before : Graph F G) : Prop where
  frame : before = { index with data := index.data ++ [unit], graph := before.graph, rng := before.rng }
  found : before.graph[0]? = some index.opened
  rows : before.Width width
  linking : Linking before.data.length index.opened index.data.length [] index.opened
  entered : index.ground.Has entry

theorem groundRound {width level node layers entry : Nat} {top : Int} {rng : G}
    {index start before : Graph F G} {vector : List F} (wellFormed : index.WellFormed width)
    (length : vector.length = width) (draw : np.drawLevel index.M index.rng = (some level, rng))
    (registers : register np vector index = .ok (node, layers) start)
    (above : wireAbove np (np.normalize vector) node layers start = .ok (some (entry, top)) before) :
    node = index.data.length ∧ GroundRound width entry (np.normalize vector) index before := by
  have unitLength : (np.normalize vector).length = width := by rw [np.normalize_length, length]
  rcases register_returns np wellFormed length draw with ⟨_, _, ran, isNode, registered, isStart⟩
  rw [registers] at ran
  cases ran
  cases isNode
  rcases wireAbove_returns np wellFormed registered unitLength with ⟨_, _, ran, holds⟩
  rw [above] at ran
  cases ran
  rcases holds with ⟨_, _, wiring, ⟨adjacency, atStart, hasEntry⟩, different⟩
  rcases wiring.frame with ⟨graph, frame⟩
  have isAdjacency := registered.getElem? 0
  rw [if_pos (Nat.zero_le level), atStart, Option.some.injEq] at isAdjacency
  have found : before.graph[0]? = some adjacency := (wiring.below 0 (Int.le_refl _)).trans atStart
  have sound := wiring.consistent.layers 0 adjacency found
  rcases registered.own wellFormed.toConsistent (Nat.zero_le _) atStart with ⟨own, unlinked⟩
  have isOpened : adjacency = index.opened := isAdjacency
  rw [isOpened] at found sound own unlinked hasEntry
  refine ⟨rfl, ?_, found, wiring.consistent.rows, Linking.start sound own unlinked, ?_⟩
  · rw [frame, isStart]
  · exact (index.opened_has.mp hasEntry).resolve_left different

section Rounds

variable {np} {distance : List F → List F → D} {width entry : Nat} {unit : List F} {index before : Graph F G}
  (begins : GroundRound width entry unit index before) (consistent : index.Consistent width)

include begins consistent

omit [LinearOrder D] in
/-- From the entry the old nodes can be reached, and they only. -/
theorem GroundRound.reach (joint : index.ground.Joint) (other : Nat) :
    index.opened.Reach entry other ↔ other < index.data.length := by
  have sound := consistent.ground_sound
  have hasEntry := begins.entered
  have unlinked : Layer.Unlinked index.opened index.data.length :=
    (sound.unlinked (Nat.le_refl index.data.length)).set_nil
  have old : ∀ node, index.opened.Has node → node ≠ index.data.length →
      node < index.data.length := by
    intro node has different
    exact sound.inside node ((index.opened_has.mp has).resolve_left different)
  have different : entry ≠ index.data.length := Nat.ne_of_lt (sound.inside entry hasEntry)
  constructor
  · intro path
    have has := begins.linking.sound.reach_has (index.opened_has.mpr (Or.inr hasEntry)) path
    exact old other has (unlinked.reach path different)
  · intro inside
    have path := joint entry other hasEntry (consistent.ground_has.mpr inside)
    have stays : ∀ node next, index.ground.Link node next → index.opened.Link node next := by
      intro node next link
      rcases link with ⟨links, linked, member⟩
      have isOld := Nat.ne_of_lt (sound.inside node ⟨links, linked⟩)
      refine ⟨links, ?_, member⟩
      rw [Graph.opened, Dict.get?_set, if_neg isOld, linked]
    exact Relation.ReflTransGen.mono stays _ _ path

/-- The round links the new node with its neighbours and cuts their lists. -/
theorem GroundRound.relinks (evaluates : np.Evaluates distance) (joint : index.ground.Joint)
    (length : unit.length = width) (positive : 1 ≤ index.M) (wide : index.data.length < index.efConstruction)
    {next : Nat} {reached : Graph F G}
    (inserted : insertInLayer np unit index.data.length entry 0 before = .ok next reached) :
    ∃ order, NearestFirst (apart distance (index.data ++ [unit])) index.data.length order ∧
      Linking before.data.length index.opened index.data.length (newNeighbors distance index unit order)
        reached.ground ∧
      Relinked index.opened index.data.length (newLinks distance index unit) (newNeighbors distance index unit order)
        reached.ground := by
  have isData : before.data = index.data ++ [unit] := by rw [begins.frame]
  have isM : before.M = index.M := by rw [begins.frame]
  have isSelection : before.neighborSelection = index.neighborSelection := by rw [begins.frame]
  have isBeam : before.efConstruction = index.efConstruction := by rw [begins.frame]
  have enough : before.data.length ≤ before.efConstruction := by
    rw [isData, isBeam, List.length_append, List.length_singleton]
    exact wide
  rcases insertInLayer_ok np inserted with ⟨scored, neighbors, finds, connected⟩
  rcases findNeighbors_nearest evaluates begins.rows isData rfl length begins.found begins.linking.sound
    (index.opened_has.mpr (Or.inr begins.entered)) (begins.reach consistent joint) enough
    (by rw [isM]; exact positive) finds with ⟨order, nearest, isNeighbors⟩
  rw [isData] at nearest
  have isNew : neighbors = newNeighbors distance index unit order := by
    rw [isNeighbors, isData, isM, isSelection]
    rfl
  rw [isNew] at connected
  have has : ∀ neighbor ∈ newNeighbors distance index unit order,
      index.opened.Has neighbor ∧ neighbor ≠ index.data.length := by
    intro neighbor member
    have inside := nearest.preferred_inside member
    exact ⟨index.opened_has.mpr (Or.inr (consistent.ground_has.mpr inside)), Nat.ne_of_lt inside⟩
  have distinct : (newNeighbors distance index unit order).Nodup := nearest.preferred_nodup _ _
  have cap : 1 ≤ maxConn before.M 0 := by
    rw [isM]
    exact Nat.le_trans positive (le_maxConn index.M 0)
  rcases connectAll_relinks evaluates begins.rows begins.found cap begins.linking distinct has with
    ⟨_, _, ran, now, linking, relinks, isReached⟩
  rw [connected] at ran
  cases ran
  have isNow : reached.ground = now := by
    rw [isReached]
    exact Graph.ground_eq (List.getElem?_set_self (List.getElem?_eq_some_iff.mp begins.found).1)
  have sameLinks : relinked before.neighborSelection (apart distance before.data) (maxConn before.M 0)
      index.data.length index.opened = newLinks distance index unit := by
    funext owner
    simp only [newLinks, relinked, Graph.opened, linksAt_set consistent.ground_missing, isData, isM, isSelection]
  rw [sameLinks] at relinks
  rw [isNow]
  exact ⟨order, nearest, linking, relinks⟩

/-- A round that loses nothing leaves the layer joint. -/
theorem GroundRound.joins (evaluates : np.Evaluates distance) (joint : index.ground.Joint)
    (length : unit.length = width) (positive : 1 ≤ index.M) (wide : index.data.length < index.efConstruction)
    (safe : SafeInsert distance index unit) {next : Nat} {reached : Graph F G}
    (inserted : insertInLayer np unit index.data.length entry 0 before = .ok next reached) :
    reached.ground.Joint := by
  rcases begins.relinks consistent evaluates joint length positive wide inserted with
    ⟨order, nearest, linking, relinks⟩
  have sound := consistent.ground_sound
  have ordered : order ≠ [] := nearest.ne_nil (Nat.zero_lt_of_lt (sound.inside entry begins.entered))
  have some : newNeighbors distance index unit order ≠ [] := preferred_ne_nil _ _ positive ordered
  have has : ∀ neighbor ∈ newNeighbors distance index unit order, index.ground.Has neighbor :=
    fun neighbor member => consistent.ground_has.mpr (nearest.preferred_inside member)
  have old : ∀ other, reached.ground.Has other → other = index.data.length ∨ index.ground.Has other :=
    fun other has => index.opened_has.mp ((linking.same other).mp has)
  have stays : ∀ owner other, Lasting index.ground index.data.length (newNeighbors distance index unit order)
      (newLinks distance index unit) owner other → reached.ground.Link owner other := by
    intro owner other lasting
    rw [relinks.link, Graph.opened, lasting_set consistent.ground_missing]
    exact lasting
  intro first second hasFirst hasSecond
  have path := (safe order nearest).joint sound consistent.ground_missing joint some has (old first hasFirst)
    (old second hasSecond)
  exact Relation.ReflTransGen.mono stays _ _ path

end Rounds

/-- An insertion that loses nothing keeps layer 0 joint. -/
theorem insert_joint {distance : List F → List F → D} (evaluates : np.Evaluates distance) {width level : Nat} {rng : G}
    {index after : Graph F G} {vector : List F} (wellFormed : index.WellFormed width)
    (joint : index.ground.Joint) (length : vector.length = width)
    (draw : np.drawLevel index.M index.rng = (some level, rng)) (positive : 1 ≤ index.M)
    (wide : index.data.length < index.efConstruction) (safe : SafeInsert distance index (np.normalize vector))
    (run : insert np vector index = .ok ⟨⟩ after) : after.ground.Joint := by
  have unitLength : (np.normalize vector).length = width := by rw [np.normalize_length, length]
  rcases bind_ok run with ⟨⟨node, layers⟩, start, registers, wired⟩
  rcases register_returns np wellFormed length draw with ⟨_, _, ran, isNode, registered, isStart⟩
  rw [registers] at ran
  cases ran
  cases isNode
  have layered : ∀ entry, start.entryPoint = some entry → 0 ≤ start.topLayer := by
    intro entry entryPoint
    rw [registered.entryPoint] at entryPoint
    rcases entry_layers wellFormed entryPoint with ⟨top, topLayer, _⟩
    rw [registered.topLayer, topLayer]
    exact Int.natCast_nonneg top
  change wire np (np.normalize vector) index.data.length level start = _ at wired
  rw [wire_eq np _ _ _ layered] at wired
  rcases bind_ok wired with ⟨round, before, above, below⟩
  cases round with
  | none =>
      -- the first node is alone in its layers
      rcases wireAbove_returns np wellFormed registered unitLength with ⟨_, _, ran, holds⟩
      rw [above] at ran
      cases ran
      rcases holds with ⟨entryPoint, isBefore⟩
      cases below
      have isGround : after.ground = Dict.empty.set index.data.length [] := by
        apply Graph.ground_eq
        rw [isBefore]
        change start.graph[0]? = _
        rw [registered.getElem?, if_pos (Nat.zero_le _), (wellFormed.vacant entryPoint).2]
        rfl
      have alone : ∀ other, after.ground.Has other → other = index.data.length := by
        intro other has
        rw [isGround, Layer.has_set] at has
        exact has.resolve_right (Layer.empty_not_has other)
      intro first second hasFirst hasSecond
      rw [alone first hasFirst, alone second hasSecond]
      exact Relation.ReflTransGen.refl
  | some round =>
      rcases round with ⟨entry, top⟩
      rcases wireGround_ok np below with ⟨next, reached, inserted, isAfter⟩
      have begins := (groundRound np wellFormed length draw registers above).2
      have isGround : after.ground = reached.ground := by simp only [Graph.ground, isAfter]
      rw [isGround]
      exact begins.joins wellFormed.toConsistent evaluates joint unitLength positive wide safe inserted

/-! ## Few nodes -/

/-- While there are at most as many nodes as a list may have links, nothing is ever cut. -/
theorem safeInsert_of_few (distance : List F → List F → D) {width : Nat} {index : Graph F G}
    (consistent : index.Consistent width) (unit : List F) (few : index.data.length ≤ maxConn index.M 0) :
    SafeInsert distance index unit := by
  intro order nearest
  have sound := consistent.ground_sound
  have stays : ∀ owner < index.data.length,
      newLinks distance index unit owner = linksAt index.ground owner ++ [index.data.length] := by
    intro owner inside
    rcases consistent.ground_has.mpr inside with ⟨links, linked⟩
    have isLinks : linksAt index.ground owner = links := by
      simp only [linksAt, linked, Option.getD_some]
    -- the list and its owner are distinct nodes of the index
    have crowd : (owner :: links).Nodup :=
      List.nodup_cons.mpr ⟨sound.loopless owner links linked, sound.distinct owner links linked⟩
    have within : owner :: links ⊆ List.range index.data.length := by
      intro other member
      apply List.mem_range.mpr
      rcases List.mem_cons.mp member with isOwner | stored
      · rw [isOwner]
        exact inside
      · exact sound.inside other (sound.closed owner links linked other stored)
    have bound := (crowd.subperm within).length_le
    rw [List.length_cons, List.length_range] at bound
    have room : (linksAt index.ground owner ++ [index.data.length]).length ≤ maxConn index.M 0 := by
      rw [isLinks, List.length_append, List.length_singleton]
      exact Nat.le_trans bound few
    simp only [newLinks, relinked, if_pos room]
  constructor
  · intro owner member other stored rejected
    rw [stays owner (nearest.preferred_inside member)] at rejected
    exact absurd (List.mem_append_left _ stored) rejected
  · intro some
    rcases List.exists_mem_of_ne_nil _ some with ⟨owner, member⟩
    refine ⟨owner, member, ?_⟩
    rw [stays owner (nearest.preferred_inside member)]
    exact List.mem_append_right _ (List.mem_singleton_self _)

/-! ## Searching a joint index -/

theorem sortedPairs_perm (scored : List (D × Nat)) : (sortedPairs scored).Perm scored :=
  List.perm_insertionSort _ scored

theorem sliceTo_all {α : Type} {values : List α} {k : Int} (enough : values.length ≤ k) :
    sliceTo values k = values := by
  unfold sliceTo
  rw [if_pos (Int.le_trans (Int.natCast_nonneg _) enough)]
  exact List.take_of_length_le (by omega)

/-- A search of a well-formed index whose layer 0 is joint misses nothing. -/
theorem findable_of_joint {width : Nat} {index : Graph F G} (wellFormed : index.WellFormed width)
    (jointGround : index.ground.Joint) : Findable np width index := by
  intro query length
  have unitLength : (np.normalize query).length = width := by rw [np.normalize_length, length]
  have consistent := wellFormed.toConsistent
  have joint : ∀ (ground : Layer), index.graph[0]? = some ground → ground.Joint := by
    intro ground found
    rw [← Graph.ground_eq found]
    exact jointGround
  have hasAll : ∀ (ground : Layer), index.graph[0]? = some ground → ∀ node,
      ground.Has node ↔ node < index.data.length := by
    intro ground found node
    rw [← Graph.ground_eq found]
    exact consistent.ground_has
  constructor
  · intro entryPoint isEntry
    rcases layerZeroEntry_gives np wellFormed unitLength isEntry with ⟨start, ground, run, found, has⟩
    exact ⟨start, ground, run, found, fun node inside =>
      joint ground found start node has ((hasAll ground found node).mpr inside)⟩
  · intro efSearch k wide enough
    cases isEntry : index.entryPoint with
    | none =>
        refine ⟨[], ?_, ?_⟩
        · unfold searchWithDistances
          simp only [isEntry]
        · rw [(wellFormed.vacant isEntry).1]
          exact List.Perm.refl _
    | some entryPoint =>
        rcases layerZeroEntry_gives np wellFormed unitLength isEntry with ⟨start, ground, run, found, has⟩
        rcases searchLayer_complete np consistent.rows (consistent.layers 0 ground found)
          unitLength found has wide
          with ⟨results, searched, distinct, reached⟩
        have nodes : (results.map Prod.snd).Perm (List.range index.data.length) := by
          apply (List.perm_ext_iff_of_nodup distinct List.nodup_range).mpr
          intro node
          rw [reached, List.mem_range, ← hasAll ground found]
          exact ⟨(consistent.layers 0 ground found).reach_has has, joint ground found start node has⟩
        have all := ((sortedPairs_perm results).map Prod.snd).trans nodes
        have count := all.length_eq
        rw [List.length_map, List.length_range] at count
        refine ⟨sortedPairs results, ?_, all⟩
        unfold searchWithDistances
        simp only [isEntry, run]
        change (searchLayerWithDistances np index.data index.graph (np.normalize query)
          start 0 efSearch >>= _) = _
        rw [searched]
        change Except.ok (sliceTo (sortedPairs results) k) = _
        rw [sliceTo_all (by omega)]

/-! ## Whole builds -/

theorem build_joint {distance : List F → List F → D} (evaluates : np.Evaluates distance) {width : Nat}
    (vectors : List (List F)) {index after : Graph F G} (wellFormed : index.WellFormed width)
    (joint : index.ground.Joint) (lengths : ∀ vector ∈ vectors, vector.length = width) (positive : 1 ≤ index.M)
    (wide : index.data.length + vectors.length ≤ index.efConstruction)
    (draws : ∀ rng, (np.drawLevel index.M rng).1 ≠ none)
    (safe : ∀ done vector rest, vectors = done ++ vector :: rest → ∀ middle, build np done index =
      .ok ⟨⟩ middle →
      SafeInsert distance middle (np.normalize vector))
    (run : build np vectors index = .ok ⟨⟩ after) : after.ground.Joint := by
  induction vectors generalizing index with
  | nil =>
      cases run
      exact joint
  | cons vector rest inductionHypothesis =>
      rcases bind_ok run with ⟨_, middle, inserts, later⟩
      have length := lengths vector List.mem_cons_self
      rcases Option.ne_none_iff_exists'.mp (draws index.rng) with ⟨level, drawn⟩
      have draw : np.drawLevel index.M index.rng = (some level, (np.drawLevel index.M index.rng).2) :=
        Prod.ext drawn rfl
      rcases insert_returns np wellFormed length draw with
        ⟨_, _, ran, middleFormed, graph, entryPoint, top, frame⟩
      rw [inserts] at ran
      cases ran
      have isM : middle.M = index.M := by rw [frame]
      have isBeam : middle.efConstruction = index.efConstruction := by rw [frame]
      have size : middle.data.length = index.data.length + 1 := by
        rw [frame, List.length_append, List.length_singleton]
      rw [List.length_cons] at wide
      have jointMiddle : middle.ground.Joint :=
        insert_joint np evaluates wellFormed joint length draw positive (by omega)
          (safe [] vector rest rfl index rfl)
          inserts
      apply inductionHypothesis middleFormed jointMiddle
        (fun other member => lengths other (List.mem_cons_of_mem _ member))
      · rw [isM]
        exact positive
      · rw [isBeam, size]
        omega
      · rw [isM]
        exact draws
      · intro done next others whole reached built
        apply safe (vector :: done) next others (by rw [whole, List.cons_append])
        change (insert np vector >>= fun _ => build np done) index = _
        simp only [bind, EStateM.bind, inserts]
        exact built
      · exact later

/-- When no insertion of a build loses anything, no stored vector becomes unfindable. -/
theorem every_vector_findable {distance : List F → List F → D} (evaluates : np.Evaluates distance)
    {width M efConstruction : Nat} (selection : NeighborSelection) (rng : G) (vectors : List (List F))
    (lengths : ∀ vector ∈ vectors, vector.length = width) (atLeastTwo : 2 ≤ M)
    (wide : vectors.length ≤ efConstruction) (draws : ∀ rng, (np.drawLevel M rng).1 ≠ none)
    (safe : ∀ done vector rest, vectors = done ++ vector :: rest →
      ∀ index, build np done (init M efConstruction 0 selection rng).toGraph = .ok ⟨⟩ index →
        SafeInsert distance index (np.normalize vector)) :
    Returns (build np vectors) (init M efConstruction 0 selection rng).toGraph
      fun _ index => Findable np width index := by
  have wellFormed := init_wellFormed (F := F) width M efConstruction 0 selection rng
  rcases build_returns np vectors wellFormed lengths draws with ⟨_, index, run, grown⟩
  have vacant : Layer.Joint (init M efConstruction 0 selection rng : HNSW F G).toGraph.ground :=
    fun node _ has _ => absurd has (Layer.empty_not_has node)
  have positive : 1 ≤ M := Nat.le_of_succ_le atLeastTwo
  have enough : 0 + vectors.length ≤ efConstruction := by
    rw [Nat.zero_add]
    exact wide
  have joint := build_joint np evaluates vectors wellFormed vacant lengths positive enough draws safe run
  exact ⟨_, index, run, findable_of_joint np grown.wellFormed joint⟩

/-! ## A cut with a way round -/

/-- Twenty-five times the cosine distance of integer vectors of length five. -/
def circleDistance (left right : List Int) : Int :=
  25 - (List.zipWith (· * ·) left right).sum

/-- Six points of a circle.  The last one makes the list of the first one too long. -/
def circle : List (List Int) := [[5, 0], [-4, 3], [-3, -4], [0, 5], [3, -4], [4, 3]]

def circleStart : Graph Int Unit := (init 2 100 0 .heuristic ()).toGraph

/-- The index just before its first cut. -/
def beforeCut : Graph Int Unit := final (build (Numpy.flat circleDistance) (circle.take 5)) circleStart

def beforeCutRelinks : Nat → List Nat :=
  relinked .heuristic (apart circleDistance circle) 4 5 beforeCut.ground

theorem circleDistance_comm (left right : List Int) :
    circleDistance left right = circleDistance right left := by
  unfold circleDistance
  rw [List.zipWith_comm]
  simp only [mul_comm]

theorem nearestFirst_circle {order : List (Int × Nat)}
    (nearest : NearestFirst (apart circleDistance circle) 5 order) :
    order = [(5, 0), (10, 3), (25, 4), (32, 1), (49, 2)] := by
  have expected : ((List.range 5).map fun other => (apart circleDistance circle other 5, other)).Perm
      [(5, 0), (10, 3), (25, 4), (32, 1), (49, 2)] := by decide +kernel
  have perm := nearest.perm.trans expected
  apply List.Perm.eq_of_pairwise _ nearest.sorted (by decide) perm
  intro left right isLeft isRight le ge
  have same := le_antisymm le ge
  have all : ∀ left ∈ [((5 : Int), 0), (10, 3), (25, 4), (32, 1), (49, 2)],
      ∀ right ∈ [((5 : Int), 0), (10, 3), (25, 4), (32, 1), (49, 2)],
        left.1 = right.1 → left = right := by decide
  exact all left (perm.subset isLeft) right isRight same

/-- The first point keeps two of its five links; the other three points can still be
reached through these. -/
theorem losesNothing_circle : LosesNothing beforeCut.ground 5 [0, 3] beforeCutRelinks := by
  have first : beforeCutRelinks 0 = [5, 4] := by decide +kernel
  have second : beforeCutRelinks 3 = [1, 0, 5] := by decide +kernel
  have firstLinks : linksAt beforeCut.ground 0 = [1, 2, 3, 4] := by decide +kernel
  have secondLinks : linksAt beforeCut.ground 3 = [1, 0] := by decide +kernel
  have newToThird : Lasting beforeCut.ground 5 [0, 3] beforeCutRelinks 5 3 := by decide
  have thirdToFirst : Lasting beforeCut.ground 5 [0, 3] beforeCutRelinks 3 1 := by
    rw [lasting_neighbor (by decide) (by decide), second]
    decide
  have fourthToSecond : Lasting beforeCut.ground 5 [0, 3] beforeCutRelinks 4 2 := by decide +kernel
  constructor
  · intro owner member other stored rejected
    rcases List.mem_pair.mp member with isFirst | isSecond
    · rw [isFirst] at stored rejected ⊢
      rw [firstLinks] at stored
      rw [first] at rejected ⊢
      simp only [List.mem_cons, List.not_mem_nil, or_false] at stored rejected
      rcases stored with one | two | three | four
      · rw [one]
        exact ⟨5, by decide, Relation.ReflTransGen.head newToThird (Relation.ReflTransGen.single thirdToFirst)⟩
      · rw [two]
        exact ⟨4, by decide, Relation.ReflTransGen.single fourthToSecond⟩
      · rw [three]
        exact ⟨5, by decide, Relation.ReflTransGen.single newToThird⟩
      · exact absurd (Or.inr four) rejected
    · rw [isSecond] at stored rejected
      rw [secondLinks] at stored
      rw [second] at rejected
      simp only [List.mem_cons, List.not_mem_nil, or_false] at stored rejected
      omega
  · intro _
    refine ⟨0, by decide, ?_⟩
    rw [first]
    decide

/-- A build with a cut that loses nothing. -/
theorem every_vector_findable_circle :
    Returns (build (Numpy.flat circleDistance) circle) circleStart
      fun _ index => Findable (Numpy.flat circleDistance) 2 index := by
  have evaluates : (Numpy.flat circleDistance).Evaluates circleDistance :=
    ⟨circleDistance_comm, fun _ _ => rfl, fun _ _ => rfl, fun _ => rfl⟩
  have draws : ∀ rng, ((Numpy.flat circleDistance).drawLevel 2 rng).1 ≠ none := fun _ => Option.some_ne_none _
  have lengths : ∀ vector ∈ circle, vector.length = 2 := by decide
  apply every_vector_findable (Numpy.flat circleDistance) evaluates .heuristic () circle lengths (Nat.le_refl 2)
    (by decide) draws
  intro done vector rest whole index built
  have size : done.length + (rest.length + 1) = 6 := by
    have count := congrArg List.length whole
    rw [List.length_append, List.length_cons] at count
    exact count.symm
  have lengthsDone : ∀ other ∈ done, other.length = 2 := fun other member =>
    lengths other (whole ▸ List.mem_append_left _ member)
  rcases build_returns (Numpy.flat circleDistance) done (init_wellFormed 2 2 100 0 .heuristic ()) lengthsDone
    draws with ⟨_, _, ran, grown⟩
  rw [built] at ran
  cases ran
  have isM : index.M = 2 := grown.sameM
  have stored : index.data.length = done.length := by
    rw [grown.data, List.length_append, List.length_map]
    exact Nat.zero_add _
  by_cases few : done.length ≤ 4
  · apply safeInsert_of_few circleDistance grown.wellFormed.toConsistent
    rw [isM, stored]
    exact few
  · have five : done.length = 5 := by omega
    have parts : done = circle.take 5 ∧ vector :: rest = [[4, 3]] :=
      List.append_inj (whole.symm.trans (List.take_append_drop 5 circle).symm) five
    have isVector : vector = [4, 3] := (List.cons.inj parts.2).1
    have isIndex : index = beforeCut := by
      unfold beforeCut final circleStart
      rw [← parts.1, built]
    have isData : index.data ++ [(Numpy.flat circleDistance).normalize vector] = circle := by
      rw [isIndex, isVector]
      decide +kernel
    intro order nearest
    rw [isData, stored, five] at nearest
    simp only [newNeighbors, newLinks, isData, stored, five]
    have isOrder := nearestFirst_circle nearest
    have selection : index.neighborSelection = .heuristic := by
      rw [isIndex]
      decide +kernel
    have chosen : preferred .heuristic (apart circleDistance circle) 2 order = [0, 3] := by
      rw [isOrder]
      decide +kernel
    rw [selection, isM, chosen, isIndex]
    exact losesNothing_circle

/-! ## Orthogonal vectors -/

/-- The cosine distance of unit vectors with integer entries. -/
def unitCosine (left right : List Int) : Int :=
  1 - (List.zipWith (· * ·) left right).sum

/-- The unit vectors along the first `count` axes. -/
def axes (count : Nat) : List (List Int) :=
  (List.range count).map fun i => (List.range count).map fun j => if j = i then 1 else 0

/-- An index with `M = 2` and wide beams, in exact arithmetic, with all nodes in layer 0. -/
def axesStart : Graph Int Unit :=
  (init 2 100 100 .heuristic ()).toGraph

/-- Six orthogonal vectors: the heuristic keeps one of five equally distant
neighbours and loses the others. -/
theorem orthogonal_vectors_lost :
    Returns (build (Numpy.flat unitCosine) (axes 6)) axesStart
      fun _ index => ¬ Findable (Numpy.flat unitCosine) 6 index := by
  have wellFormed : axesStart.WellFormed 6 := init_wellFormed 6 2 100 100 .heuristic ()
  rcases build_returns (Numpy.flat unitCosine) (axes 6) wellFormed (by decide)
    (by intro rng; exact Option.some_ne_none _) with ⟨_, index, run, grown⟩
  refine ⟨_, index, run, ?_⟩
  have isIndex : index = final (build (Numpy.flat unitCosine) (axes 6)) axesStart := by
    unfold final
    rw [run]
  have size : index.data.length = 6 := by
    rw [grown.data]
    rfl
  have found : searchWithDistances (Numpy.flat unitCosine) { index with efSearch := 100 } [1, 0, 0, 0, 0, 0] 100
      none = .ok [(0, 0), (1, 1), (1, 2)] := by
    rw [isIndex]
    decide +kernel
  intro findable
  rcases (findable [1, 0, 0, 0, 0, 0] rfl).2 100 100 (by rw [size]; decide) (by rw [size]; decide) with
    ⟨hits, searched, perm⟩
  rw [found] at searched
  cases searched
  have count := perm.length_eq
  rw [size] at count
  cases count

end HNSW
end VectorSearch
