import Mathlib.Logic.Relation
import VectorSearch.Index.Rows

namespace VectorSearch

/-!
# One layer of the graph

A layer maps each of its nodes to the list of the nodes it links to.  A sound
layer links only nodes it has, none of them twice and none to itself, so that a
walk that starts inside it never leaves it.
-/

variable {F D G : Type}

namespace Layer

/-- The node is in the layer. -/
def Has (adjacency : Layer) (node : Nat) : Prop :=
  ∃ links, adjacency.get? node = some links

/-- One of the node's links leads to the other. -/
def Link (adjacency : Layer) (node other : Nat) : Prop :=
  ∃ links, adjacency.get? node = some links ∧ other ∈ links

/-- The other node is found by following links. -/
def Reach (adjacency : Layer) : Nat → Nat → Prop :=
  Relation.ReflTransGen adjacency.Link

/-- What every layer of an index with `count` nodes satisfies. -/
structure Sound (count : Nat) (adjacency : Layer) : Prop where
  inside : ∀ node, adjacency.Has node → node < count
  closed : ∀ node links, adjacency.get? node = some links → ∀ other ∈ links, adjacency.Has other
  distinct : ∀ node links, adjacency.get? node = some links → links.Nodup
  loopless : ∀ node links, adjacency.get? node = some links → node ∉ links

/-- No node of the layer links to this one. -/
def Unlinked (adjacency : Layer) (node : Nat) : Prop :=
  ∀ other, ¬ adjacency.Link other node

theorem has_set (adjacency : Layer) (node : Nat) (links : List Nat) (other : Nat) :
    Has (adjacency.set node links) other ↔ other = node ∨ adjacency.Has other := by
  unfold Has
  rw [Dict.get?_set]
  by_cases same : other = node
  · rw [if_pos same]
    exact ⟨fun _ => Or.inl same, fun _ => ⟨links, rfl⟩⟩
  · rw [if_neg same]
    exact ⟨Or.inr, fun has => has.resolve_left same⟩

theorem empty_not_has (node : Nat) : ¬ Has Dict.empty node := by
  rintro ⟨links, found⟩
  cases found

/-- A walk that does not start at an unlinked node never gets there. -/
theorem Unlinked.reach {adjacency : Layer} {start node found : Nat} (unlinked : adjacency.Unlinked node)
    (reach : adjacency.Reach start found) (different : start ≠ node) : found ≠ node := by
  cases reach with
  | refl => exact different
  | tail _ link =>
      intro same
      rw [same] at link
      exact unlinked _ link

/-- A node without links that nobody links to may be added to any layer. -/
theorem Unlinked.set_nil {adjacency : Layer} {node : Nat} (unlinked : adjacency.Unlinked node) :
    Unlinked (adjacency.set node []) node := by
  rintro other ⟨links, found, member⟩
  rw [Dict.get?_set] at found
  split at found
  · rw [← Option.some.inj found] at member
    cases member
  · exact unlinked other ⟨links, found, member⟩

namespace Sound

variable {count : Nat} {adjacency : Layer}

theorem empty (count : Nat) : Sound count Dict.empty := by
  constructor
  · exact fun node has => absurd has (empty_not_has node)
  · exact fun _ _ found => nomatch found
  · exact fun _ _ found => nomatch found
  · exact fun _ _ found => nomatch found

theorem grow (sound : Sound count adjacency) {more : Nat} (le : count ≤ more) : Sound more adjacency := by
  constructor
  · exact fun node has => Nat.lt_of_lt_of_le (sound.inside node has) le
  · exact sound.closed
  · exact sound.distinct
  · exact sound.loopless

theorem link_has (sound : Sound count adjacency) {node other : Nat} (link : adjacency.Link node other) :
    adjacency.Has other := by
  rcases link with ⟨links, found, member⟩
  exact sound.closed node links found other member

theorem reach_has (sound : Sound count adjacency) {start found : Nat} (has : adjacency.Has start)
    (reach : adjacency.Reach start found) : adjacency.Has found := by
  cases reach with
  | refl => exact has
  | tail _ link => exact sound.link_has link

/-- A node beyond the count is neither in the layer nor linked to. -/
theorem unlinked (sound : Sound count adjacency) {node : Nat} (beyond : count ≤ node) :
    adjacency.Unlinked node := by
  intro other link
  exact Nat.not_lt_of_ge beyond (sound.inside node (sound.link_has link))

/-- Giving one node a new list of links. -/
theorem set (sound : Sound count adjacency) {node : Nat} {links : List Nat} (inside : node < count)
    (closed : ∀ other ∈ links, adjacency.Has other) (distinct : links.Nodup) (loopless : node ∉ links) :
    Sound count (adjacency.set node links) := by
  constructor
  · intro other has
    rcases (has_set adjacency node links other).mp has with same | old
    · rw [same]
      exact inside
    · exact sound.inside other old
  · intro owner stored found other member
    apply (has_set adjacency node links other).mpr
    rw [Dict.get?_set] at found
    split at found
    · rw [← Option.some.inj found] at member
      exact Or.inr (closed other member)
    · exact Or.inr (sound.closed owner stored found other member)
  · intro owner stored found
    rw [Dict.get?_set] at found
    split at found
    · rw [← Option.some.inj found]
      exact distinct
    · exact sound.distinct owner stored found
  · intro owner stored found
    rw [Dict.get?_set] at found
    split at found
    · rename_i same
      rw [← Option.some.inj found, same]
      exact loopless
    · exact sound.loopless owner stored found

end Sound

end Layer

/-! ## The layers of an index -/

namespace Graph

/-- The node is in the layer with this number. -/
def Holds (index : Graph F G) (layer node : Nat) : Prop :=
  ∃ adjacency, index.graph[layer]? = some adjacency ∧ adjacency.Has node

theorem holds_iff_has {index : Graph F G} {layer : Nat} {adjacency : Layer}
    (found : index.graph[layer]? = some adjacency) (node : Nat) :
    index.Holds layer node ↔ adjacency.Has node := by
  constructor
  · rintro ⟨other, same, has⟩
    rw [found] at same
    exact Option.some.inj same ▸ has
  · exact fun has => ⟨adjacency, found, has⟩

theorem not_holds {index : Graph F G} {layer : Nat} (missing : index.graph[layer]? = none) (node : Nat) :
    ¬ index.Holds layer node := by
  rintro ⟨_, found, _⟩
  rw [missing] at found
  cases found

/-- What the rows and the layers satisfy, also half way through an insertion. -/
structure Consistent (width : Nat) (index : Graph F G) : Prop where
  rows : index.Width width
  layers : ∀ (layer : Nat) (adjacency : Layer), index.graph[layer]? = some adjacency →
    adjacency.Sound index.data.length
  ground : ∀ node, node < index.data.length → index.Holds 0 node
  nested : ∀ layer node, index.Holds (layer + 1) node → index.Holds layer node

/-- What an index satisfies between insertions. -/
structure WellFormed (width : Nat) (index : Graph F G) : Prop extends index.Consistent width where
  top : (index.graph.length : Int) = index.topLayer + 1
  vacant : index.entryPoint = none → index.data = [] ∧ index.graph = []
  entry : ∀ node, index.entryPoint = some node →
    index.graph ≠ [] ∧ ∀ layer < index.graph.length, index.Holds layer node

theorem Consistent.inside {width : Nat} {index : Graph F G} (consistent : index.Consistent width)
    {layer node : Nat} (holds : index.Holds layer node) : node < index.data.length := by
  rcases holds with ⟨adjacency, found, has⟩
  exact (consistent.layers layer adjacency found).inside node has

end Graph

namespace HNSW

/-! ## Registering a node -/

theorem growGraph_getElem? (level : Nat) (graph : List Layer) (layer : Nat) :
    (growGraph level graph)[layer]? =
      if layer < graph.length then graph[layer]?
      else if layer ≤ level then some Dict.empty else none := by
  unfold growGraph
  by_cases old : layer < graph.length
  · rw [if_pos old, List.getElem?_append_left old]
  · rw [if_neg old, List.getElem?_append_right (Nat.le_of_not_lt old), List.getElem?_replicate]
    by_cases new : layer ≤ level
    · rw [if_pos (by omega), if_pos new]
    · rw [if_neg (by omega), if_neg new]

theorem growGraph_length (level : Nat) (graph : List Layer) :
    (growGraph level graph).length = max graph.length (level + 1) := by
  unfold growGraph
  rw [List.length_append, List.length_replicate]
  omega

theorem setNeighbors_getElem? (graph : List Layer) (layer node : Nat) (links : List Nat) (other : Nat) :
    (setNeighbors graph layer node links)[other]? =
      if other = layer then (graph[other]?).map (·.set node links) else graph[other]? := by
  unfold setNeighbors
  rw [List.getElem?_modify]
  by_cases same : layer = other
  · simp only [if_pos same, if_pos same.symm]
    rfl
  · simp only [if_neg same, if_neg (Ne.symm same), id_map']

theorem setNeighbors_length (graph : List Layer) (layer node : Nat) (links : List Nat) :
    (setNeighbors graph layer node links).length = graph.length :=
  List.length_modify _ _ _

theorem registerNode_getElem? (level node : Nat) (graph : List Layer) (layer : Nat) :
    (registerNode level node graph)[layer]? =
      if layer ≤ level then (graph[layer]?).map (·.set node []) else graph[layer]? := by
  unfold registerNode
  induction level with
  | zero =>
      rw [Nat.zero_add, List.range_one, List.foldl_cons, List.foldl_nil, setNeighbors_getElem?]
      simp only [Nat.le_zero]
  | succ level inductionHypothesis =>
      rw [List.range_succ, List.foldl_append, List.foldl_cons, List.foldl_nil, setNeighbors_getElem?,
        inductionHypothesis]
      by_cases last : layer = level + 1
      · have notEarlier : ¬ layer ≤ level := by omega
        rw [if_pos last, if_neg notEarlier, if_pos (Nat.le_of_eq last)]
      · have same : layer ≤ level + 1 ↔ layer ≤ level := by omega
        rw [if_neg last]
        simp only [same]

theorem registerNode_length (level node : Nat) (graph : List Layer) :
    (registerNode level node graph).length = graph.length := by
  unfold registerNode
  induction level with
  | zero => exact setNeighbors_length graph 0 node []
  | succ level inductionHypothesis =>
      rw [List.range_succ, List.foldl_append, List.foldl_cons, List.foldl_nil, setNeighbors_length]
      exact inductionHypothesis

/-! ## Counting down -/

theorem rangeDown_nil {start stop : Int} (le : start ≤ stop) : rangeDown start stop = [] := by
  unfold rangeDown
  rw [Int.toNat_of_nonpos (by omega)]
  rfl

theorem rangeDown_cons {start stop : Int} (lt : stop < start) :
    rangeDown start stop = start.toNat :: rangeDown (start - 1) stop := by
  unfold rangeDown
  have more : (start - stop).toNat = (start - 1 - stop).toNat + 1 := by omega
  rw [more, List.range_succ_eq_map, List.map_cons, List.map_map]
  have first : start - ((0 : Nat) : Int) = start := by omega
  rw [first]
  congr 1
  apply List.map_congr_left
  intro i _
  have shifted : start - (i.succ : Int) = start - 1 - i := by omega
  exact congrArg Int.toNat shifted

/-- The values down to 0 are those above 0 and then 0. -/
theorem rangeDown_ground {start : Int} (nonnegative : 0 ≤ start) :
    rangeDown start (-1) = rangeDown start 0 ++ [0] := by
  lift start to Nat using nonnegative
  induction start with
  | zero =>
      rw [rangeDown_cons (by omega), rangeDown_nil (by omega), rangeDown_nil (by omega)]
      rfl
  | succ start inductionHypothesis =>
      have below : ((start + 1 : Nat) : Int) - 1 = (start : Int) := by push_cast; omega
      rw [rangeDown_cons (by omega), rangeDown_cons (Int.natCast_pos.mpr (Nat.succ_pos start)),
        below, inductionHypothesis]
      rfl

end HNSW
end VectorSearch
