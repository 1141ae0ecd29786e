import VectorSearch.Index.Linking

namespace VectorSearch

/-!
# Insertion

An insertion of a vector of the index's dimension returns whenever its level
draw is finite, and leaves a well-formed index with one more row.  In between,
the new node is registered in its layers and unlinked; the rounds work down
from the highest shared layer, and the layers below the current one are still
as registering left them.
-/

open Stateful HNSW

variable {F D G : Type}

/-! ## Registering -/

namespace Graph

/-- An index to which the next node was added, with its row and without links. -/
structure Registered (width level : Nat) (before index : Graph F G) : Prop where
  data : ∃ row, row.length = width ∧ index.data = before.data ++ [row]
  graph : index.graph = registerNode level before.data.length (growGraph level before.graph)
  entryPoint : index.entryPoint = before.entryPoint
  topLayer : index.topLayer = before.topLayer

namespace Registered

variable {width level : Nat} {before index : Graph F G} (registered : Registered width level before index)
  (consistent : before.Consistent width)

include registered

theorem length : index.data.length = before.data.length + 1 := by
  rcases registered.data with ⟨row, _, data⟩
  rw [data, List.length_append, List.length_singleton]

theorem graph_length : index.graph.length = max before.graph.length (level + 1) := by
  rw [registered.graph, registerNode_length, growGraph_length]

theorem getElem? (layer : Nat) :
    index.graph[layer]? =
      if layer ≤ level then some ((before.graph[layer]?.getD Dict.empty).set before.data.length [])
      else before.graph[layer]? := by
  rw [registered.graph, registerNode_getElem?, growGraph_getElem?]
  by_cases old : layer < before.graph.length
  · rw [if_pos old, List.getElem?_eq_getElem old]
    rfl
  · rw [if_neg old, List.getElem?_eq_none (Nat.le_of_not_lt old)]
    by_cases low : layer ≤ level
    · rw [if_pos low, if_pos low, if_pos low]
      rfl
    · rw [if_neg low, if_neg low, if_neg low]

theorem holds_iff (layer node : Nat) :
    index.Holds layer node ↔
      (layer ≤ level ∧ node = before.data.length) ∨ before.Holds layer node := by
  have here := registered.getElem? layer
  by_cases low : layer ≤ level
  · rw [if_pos low] at here
    rw [holds_iff_has here, Layer.has_set]
    cases found : before.graph[layer]? with
    | some adjacency =>
        rw [Option.getD_some, holds_iff_has found]
        exact ⟨fun either => either.imp_left fun new => ⟨low, new⟩, fun either => either.imp_left And.right⟩
    | none =>
        rw [Option.getD_none]
        constructor
        · exact fun either => Or.inl ⟨low, either.resolve_right (Layer.empty_not_has node)⟩
        · exact fun either => Or.inl (either.resolve_right (not_holds found node)).2
  · rw [if_neg low] at here
    have same : index.Holds layer node ↔ before.Holds layer node := by
      unfold Holds
      rw [here]
    rw [same]
    exact ⟨Or.inr, fun either => either.resolve_left fun new => low new.1⟩

include consistent

omit registered in
theorem base_sound (layer : Nat) :
    (before.graph[layer]?.getD Dict.empty).Sound before.data.length := by
  cases found : before.graph[layer]? with
  | none => exact Layer.Sound.empty _
  | some adjacency => exact consistent.layers layer adjacency found

/-- The new node's layers, as registering leaves them. -/
theorem own {layer : Nat} (low : layer ≤ level) {adjacency : Layer}
    (found : index.graph[layer]? = some adjacency) :
    adjacency.get? before.data.length = some [] ∧ adjacency.Unlinked before.data.length := by
  rw [registered.getElem?, if_pos low] at found
  rw [← Option.some.inj found]
  refine ⟨by rw [Dict.get?_set, if_pos rfl], ?_⟩
  exact ((base_sound consistent layer).unlinked (Nat.le_refl _)).set_nil

/-- Nobody links to the new node yet. -/
theorem unlinked {layer : Nat} {adjacency : Layer} (found : index.graph[layer]? = some adjacency) :
    adjacency.Unlinked before.data.length := by
  by_cases low : layer ≤ level
  · exact (registered.own consistent low found).2
  · rw [registered.getElem?, if_neg low] at found
    exact (consistent.layers layer adjacency found).unlinked (Nat.le_refl _)

theorem toConsistent : index.Consistent width := by
  constructor
  · intro row member
    rcases registered.data with ⟨new, length, data⟩
    rw [data] at member
    rcases List.mem_append.mp member with old | last
    · exact consistent.rows row old
    · rw [List.mem_singleton.mp last]
      exact length
  · intro layer adjacency found
    have longer : before.data.length ≤ index.data.length := by
      rw [registered.length]
      exact Nat.le_succ _
    rw [registered.getElem?] at found
    split at found
    · rw [← Option.some.inj found]
      apply ((base_sound consistent layer).grow longer).set
      · rw [registered.length]
        exact Nat.lt_succ_self _
      · exact fun other member => absurd member List.not_mem_nil
      · exact List.nodup_nil
      · exact List.not_mem_nil
    · exact (consistent.layers layer adjacency found).grow longer
  · intro node inside
    rw [registered.holds_iff]
    rw [registered.length] at inside
    rcases Nat.lt_succ_iff_lt_or_eq.mp inside with old | new
    · exact Or.inr (consistent.ground node old)
    · exact Or.inl ⟨Nat.zero_le _, new⟩
  · intro layer node holds
    rw [registered.holds_iff] at holds ⊢
    rcases holds with ⟨low, new⟩ | old
    · exact Or.inl ⟨Nat.le_of_succ_le low, new⟩
    · exact Or.inr (consistent.nested layer node old)

end Registered

end Graph

/-! ## Working down the layers -/

namespace Graph

/-- Half way through the rounds: the layers up to `layer` are untouched, and
every layer has the nodes it had. -/
structure Wiring (width : Nat) (start : Graph F G) (layer : Int) (index : Graph F G) : Prop where
  frame : ∃ graph, index = { start with graph }
  length : index.graph.length = start.graph.length
  consistent : index.Consistent width
  below : ∀ lower : Nat, (lower : Int) ≤ layer → index.graph[lower]? = start.graph[lower]?
  holds : ∀ other node, index.Holds other node ↔ start.Holds other node

theorem Wiring.start {width : Nat} {start : Graph F G} (consistent : start.Consistent width) (layer : Int) :
    Wiring width start layer start :=
  ⟨⟨start.graph, rfl⟩, rfl, consistent, fun _ _ => rfl, fun _ _ => Iff.rfl⟩

/-- Replacing one layer by a sound one with the same nodes. -/
theorem Wiring.set {width : Nat} {start index : Graph F G} {layer : Nat}
    (wiring : Wiring width start layer index) {adjacency now : Layer}
    (found : index.graph[layer]? = some adjacency) (sound : now.Sound index.data.length)
    (same : ∀ node, now.Has node ↔ adjacency.Has node) :
    Wiring width start (layer - 1) { index with graph := index.graph.set layer now } := by
  have inside := (List.getElem?_eq_some_iff.mp found).1
  have here : (index.graph.set layer now)[layer]? = some now := List.getElem?_set_self inside
  have elsewhere : ∀ other, other ≠ layer → (index.graph.set layer now)[other]? = index.graph[other]? :=
    fun other different => List.getElem?_set_ne (Ne.symm different)
  have holds : ∀ other node, Holds { index with graph := index.graph.set layer now } other node ↔
      index.Holds other node := by
    intro other node
    by_cases isLayer : other = layer
    · rw [isLayer, holds_iff_has found]
      exact (holds_iff_has here node).trans (same node)
    · unfold Holds
      simp only [elsewhere other isLayer]
  rcases wiring.frame with ⟨graph, frame⟩
  constructor
  · exact ⟨index.graph.set layer now, by rw [frame]⟩
  · rw [← wiring.length]
    exact List.length_set
  · constructor
    · exact wiring.consistent.rows
    · intro other adjacency atOther
      by_cases isLayer : other = layer
      · subst isLayer
        rw [here] at atOther
        cases atOther
        exact sound
      · rw [elsewhere other isLayer] at atOther
        exact wiring.consistent.layers other adjacency atOther
    · exact fun node below => (holds 0 node).mpr (wiring.consistent.ground node below)
    · exact fun other node upper =>
        (holds other node).mpr (wiring.consistent.nested other node ((holds _ node).mp upper))
  · intro lower le
    rw [← wiring.below lower (by omega)]
    exact elsewhere lower (by omega)
  · exact fun other node => (holds other node).trans (wiring.holds other node)

end Graph

namespace HNSW

variable (np : Numpy F D G)

theorem newRow_ok {width : Nat} {data : List (List F)} {unit : List F}
    (rows : ∀ row ∈ data, row.length = width) (length : unit.length = width) :
    newRow data unit = .ok unit := by
  cases data with
  | nil => rfl
  | cons first rest =>
      have same : unit.length = first.length := by rw [length, rows first List.mem_cons_self]
      exact if_pos same

variable [LinearOrder D]

/-- Descending from a layer ends in the lowest layer that was asked for, at a
node that some link leads to unless it is the entry. -/
theorem descend_gives {width : Nat} {index : Graph F G} (consistent : index.Consistent width)
    {query : List F} (length : query.length = width) {safe : Nat → Prop}
    (closed : ∀ (layer : Nat) (adjacency : Layer), index.graph[layer]? = some adjacency →
      ∀ node other, adjacency.Link node other → safe other)
    (top stop : Nat) {entry : Nat} (holds : index.Holds top entry) (isSafe : safe entry) :
    Gives ((rangeDown top stop).foldlM (greedyDescend np index.data index.graph query) entry) fun found =>
      index.Holds (min top stop) found ∧ safe found := by
  induction top generalizing entry with
  | zero =>
      rw [rangeDown_nil (by omega), Nat.zero_min]
      exact Gives.pure ⟨holds, isSafe⟩
  | succ top inductionHypothesis =>
      by_cases above : stop ≤ top
      · rcases holds with ⟨adjacency, atTop, has⟩
        have sound := consistent.layers _ adjacency atTop
        have down : ((top + 1 : Nat) : Int) - 1 = (top : Int) := by omega
        rw [rangeDown_cons (by omega), List.foldlM_cons, down]
        change Gives (greedyDescend np index.data index.graph query entry (top + 1) >>= _) _
        apply Gives.bind (greedyDescend_gives np consistent.rows sound length atTop has)
        intro found reach
        have foundSafe : safe found := by
          cases reach with
          | refl => exact isSafe
          | tail _ link => exact closed _ adjacency atTop _ found link
        have below := consistent.nested top found ⟨adjacency, atTop, sound.reach_has has reach⟩
        have lowest : min (top + 1) stop = min top stop := by omega
        rw [lowest]
        exact inductionHypothesis below foundSafe
      · have lowest : min (top + 1) stop = top + 1 := by omega
        rw [rangeDown_nil (by omega), lowest]
        exact Gives.pure ⟨holds, isSafe⟩

section Rounds

variable {width level : Nat} {before start : Graph F G} (consistent : before.Consistent width)
  (registered : Graph.Registered width level before start) {unit : List F} (length : unit.length = width)

include consistent registered length

/-- One round, in a layer the new node is in. -/
theorem round_returns {layer : Nat} (low : layer ≤ level) {entry : Nat} {index : Graph F G}
    (wiring : Graph.Wiring width start layer index) (holds : start.Holds layer entry)
    (different : entry ≠ before.data.length) :
    Returns (insertInLayer np unit before.data.length entry layer) index fun next after =>
      Graph.Wiring width start (layer - 1) after ∧ start.Holds layer next ∧ next ≠ before.data.length := by
  rcases holds with ⟨adjacency, atStart, has⟩
  have found : index.graph[layer]? = some adjacency := (wiring.below layer (Int.le_refl _)).trans atStart
  have sound := wiring.consistent.layers layer adjacency found
  rcases registered.own consistent low atStart with ⟨own, unlinked⟩
  apply Returns.imp (insertInLayer_returns np wiring.consistent.rows found sound length own
    unlinked has different)
  rintro next after ⟨neighbors, now, linking, isAfter, reach⟩
  rw [isAfter]
  exact ⟨wiring.set found linking.sound linking.same,
    ⟨adjacency, atStart, sound.reach_has has reach⟩, unlinked.reach reach different⟩

/-- The rounds down from a layer the new node is in. -/
theorem rounds_return (stop : Int) (lower : -1 ≤ stop) (top : Nat) (low : top ≤ level) {entry : Nat}
    {index : Graph F G} (wiring : Graph.Wiring width start top index) (holds : start.Holds top entry)
    (different : entry ≠ before.data.length) :
    Returns ((rangeDown top stop).foldlM (insertInLayer np unit before.data.length) entry) index
      fun found after => Graph.Wiring width start (min top stop) after ∧ found ≠ before.data.length ∧
        (0 ≤ stop → start.Holds (min (top : Int) stop).toNat found) := by
  induction top generalizing entry index with
  | zero =>
      by_cases last : stop < 0
      · have isLowest : stop = -1 := by omega
        rw [rangeDown_cons (by omega), rangeDown_nil (by omega), List.foldlM_cons]
        apply Returns.bind (round_returns np consistent registered length low wiring holds different)
        rintro next after ⟨further, _, other⟩
        rw [isLowest]
        exact Returns.pure ⟨further, other, fun impossible => absurd impossible (by decide)⟩
      · have lowest : min ((0 : Nat) : Int) stop = (0 : Nat) := by omega
        rw [rangeDown_nil (by omega), lowest]
        exact Returns.pure ⟨wiring, different, fun _ => holds⟩
  | succ top inductionHypothesis =>
      by_cases above : stop ≤ top
      · have down : ((top + 1 : Nat) : Int) - 1 = (top : Int) := by omega
        have lowest : min ((top + 1 : Nat) : Int) stop = min (top : Int) stop := by omega
        rw [rangeDown_cons (by omega), List.foldlM_cons, down, lowest]
        apply Returns.bind (round_returns np consistent registered length low wiring holds different)
        rintro next after ⟨further, reached, other⟩
        rw [down] at further
        exact inductionHypothesis (by omega) further
          ((registered.toConsistent consistent).nested top next reached) other
      · have lowest : min ((top + 1 : Nat) : Int) stop = (top + 1 : Nat) := by omega
        rw [rangeDown_nil (by omega), lowest]
        exact Returns.pure ⟨wiring, different, fun _ => holds⟩

end Rounds

/-! ## The whole insertion -/

/-- What an insertion leaves as it was, apart from the graph and its entry. -/
structure Graph.Inserted (width : Nat) (unit : List F) (rng : G) (before after : Graph F G) : Prop where
  wellFormed : after.WellFormed width
  frame : ∃ graph entryPoint topLayer, after =
    { before with rng, data := before.data ++ [unit], graph, entryPoint, topLayer }

/-- The first node is the whole graph. -/
theorem wire_first {width level : Nat} {before start : Graph F G} (wellFormed : before.WellFormed width)
    (registered : Graph.Registered width level before start) (entryPoint : before.entryPoint = none) :
    Graph.WellFormed width
      { start with entryPoint := some before.data.length, topLayer := (level : Int) } := by
  have consistent := registered.toConsistent wellFormed.toConsistent
  have isLength : start.graph.length = level + 1 := by
    rw [registered.graph_length, (wellFormed.vacant entryPoint).2]
    exact Nat.max_eq_right (Nat.zero_le _)
  constructor
  · exact ⟨consistent.rows, consistent.layers, consistent.ground, consistent.nested⟩
  · change (start.graph.length : Int) = level + 1
    omega
  · exact fun impossible => nomatch impossible
  · rintro node isEntry
    cases isEntry
    constructor
    · intro nothing
      change start.graph = [] at nothing
      rw [nothing] at isLength
      cases isLength
    · intro layer below
      change layer < start.graph.length at below
      exact (registered.holds_iff layer _).mpr (Or.inl ⟨by omega, rfl⟩)

/-- The entry point of an index with nodes, with its layers counted. -/
theorem entry_layers {width : Nat} {before : Graph F G} (wellFormed : before.WellFormed width) {entry : Nat}
    (entryPoint : before.entryPoint = some entry) :
    ∃ top : Nat, before.topLayer = top ∧ before.graph.length = top + 1 ∧
      entry < before.data.length ∧ ∀ layer ≤ top, before.Holds layer entry := by
  rcases wellFormed.entry entry entryPoint with ⟨nonempty, holds⟩
  have positive : 0 < before.graph.length := List.length_pos_iff.mpr nonempty
  have counted := wellFormed.top
  refine ⟨before.graph.length - 1, by omega, by omega, ?_, fun layer le => holds layer (by omega)⟩
  exact wellFormed.toConsistent.inside (holds 0 positive)

/-- Later nodes: the rounds are over and the entry point is the taller node. -/
theorem wire_later {width level top : Nat} {before start after : Graph F G}
    (wellFormed : before.WellFormed width) (registered : Graph.Registered width level before start)
    {entry : Nat} (entryPoint : before.entryPoint = some entry) (topLayer : before.topLayer = top)
    (wiring : Graph.Wiring width start (-1) after) :
    (after.topLayer < level → Graph.WellFormed width
      { after with topLayer := level, entryPoint := some before.data.length }) ∧
    (¬ after.topLayer < level → after.WellFormed width) := by
  rcases entry_layers wellFormed entryPoint with ⟨_, isTop, count, _, holds⟩
  rw [topLayer] at isTop
  cases isTop
  rcases wiring.frame with ⟨graph, frame⟩
  have isTop : after.topLayer = top := by rw [frame, ← topLayer, ← registered.topLayer]
  have isEntry : after.entryPoint = some entry := by rw [frame, ← entryPoint, ← registered.entryPoint]
  have isLength : after.graph.length = max (top + 1) (level + 1) := by
    rw [wiring.length, registered.graph_length, count]
  have holdsAfter : ∀ layer node, (layer ≤ level ∧ node = before.data.length) ∨ before.Holds layer node →
      after.Holds layer node := fun layer node either =>
    (wiring.holds layer node).mpr ((registered.holds_iff layer node).mpr either)
  have consistent := wiring.consistent
  constructor
  · intro taller
    constructor
    · exact ⟨consistent.rows, consistent.layers, consistent.ground, consistent.nested⟩
    · change (after.graph.length : Int) = level + 1
      omega
    · exact fun impossible => nomatch impossible
    · rintro node same
      cases same
      refine ⟨?_, fun layer below => ?_⟩
      · intro nothing
        change after.graph = [] at nothing
        rw [nothing, List.length_nil] at isLength
        omega
      · change layer < after.graph.length at below
        exact holdsAfter layer _ (Or.inl ⟨by omega, rfl⟩)
  · intro notTaller
    constructor
    · exact consistent
    · omega
    · intro none
      rw [isEntry] at none
      cases none
    · intro node same
      rw [isEntry] at same
      cases same
      refine ⟨?_, fun layer below => holdsAfter layer _ (Or.inr (holds layer (by omega)))⟩
      intro nothing
      rw [nothing, List.length_nil] at isLength
      omega

/-- `wire` up to its round in layer 0: the entry of that round and the top
layer, or nothing for the first node. -/
def wireAbove (unit : List F) (node level : Nat) : EStateM Error (Graph F G) (Option (Nat × Int)) := do
  let index ← get
  match index.entryPoint with
  | none => do
      set { index with entryPoint := some node, topLayer := level }
      return none
  | some entryPoint => do
      let entry ← reading ((rangeDown index.topLayer level).foldlM
        (greedyDescend np index.data index.graph unit) entryPoint)
      let entry ← (rangeDown (min level index.topLayer) 0).foldlM (insertInLayer np unit node) entry
      return some (entry, index.topLayer)

/-- The round in layer 0, and the new entry point. -/
def wireGround (unit : List F) (node level : Nat) :
    Option (Nat × Int) → EStateM Error (Graph F G) Unit
  | none => return ⟨⟩
  | some (entry, topLayer) => do
      let _ ← insertInLayer np unit node entry 0
      if topLayer < level then
        modify fun index => { index with topLayer := level, entryPoint := some node }

theorem wire_eq (unit : List F) (node level : Nat) {index : Graph F G}
    (layered : ∀ entry, index.entryPoint = some entry → 0 ≤ index.topLayer) :
    wire np unit node level index = (wireAbove np unit node level >>= wireGround np unit node level) index := by
  cases entryPoint : index.entryPoint with
  | none =>
      simp only [wire, wireAbove, bind, EStateM.bind, get_run, entryPoint]
      rfl
  | some entry =>
      have nonnegative : 0 ≤ min (level : Int) index.topLayer := by
        have top := layered entry entryPoint
        omega
      let descend : Except Error Nat :=
        (rangeDown index.topLayer level).foldlM (greedyDescend np index.data index.graph unit) entry
      let finish : EStateM Error (Graph F G) Unit :=
        if index.topLayer < level then
          modify fun index => { index with topLayer := level, entryPoint := some node }
        else pure ⟨⟩
      let rounds (stop : Int) (entry : Nat) : EStateM Error (Graph F G) Nat :=
        (rangeDown (min level index.topLayer) stop).foldlM (insertInLayer np unit node) entry
      have whole : wire np unit node level index =
          (reading descend >>= fun entry => rounds (-1) entry >>= fun _ => finish) index := by
        simp only [wire, bind, EStateM.bind, get_run, entryPoint]
        rfl
      have split : (wireAbove np unit node level >>= wireGround np unit node level) index =
          ((reading descend >>= fun entry => rounds 0 entry >>= fun entry =>
            pure (some (entry, index.topLayer))) >>= wireGround np unit node level) index := by
        simp only [wireAbove, bind, EStateM.bind, get_run, entryPoint]
        rfl
      have last : ∀ entry, rounds (-1) entry = rounds 0 entry >>= fun entry =>
          insertInLayer np unit node entry 0 := by
        intro entry
        simp only [rounds, rangeDown_ground nonnegative, List.foldlM_append, List.foldlM_cons, List.foldlM_nil,
          bind_pure]
      rw [whole, split]
      simp only [last, bind_assoc, pure_bind]
      rfl

/-- Above layer 0. -/
theorem wireAbove_returns {width level : Nat} {before start : Graph F G} (wellFormed : before.WellFormed width)
    (registered : Graph.Registered width level before start) {unit : List F} (length : unit.length = width) :
    Returns (wireAbove np unit before.data.length level) start fun round after =>
      match round with
      | none => before.entryPoint = none ∧
          after = { start with entryPoint := some before.data.length, topLayer := (level : Int) }
      | some (entry, topLayer) => (∃ old, before.entryPoint = some old) ∧ topLayer = before.topLayer ∧
          Graph.Wiring width start 0 after ∧ start.Holds 0 entry ∧ entry ≠ before.data.length := by
  unfold wireAbove
  apply Returns.get_bind
  cases entryPoint : before.entryPoint with
  | none =>
      rw [registered.entryPoint, entryPoint]
      exact Returns.run_bind rfl (Returns.pure ⟨rfl, rfl⟩)
  | some entry =>
      have consistent := registered.toConsistent wellFormed.toConsistent
      rcases entry_layers wellFormed entryPoint with ⟨top, topLayer, _, inside, holds⟩
      have closed : ∀ (layer : Nat) (adjacency : Layer), start.graph[layer]? = some adjacency →
          ∀ node other, adjacency.Link node other → other ≠ before.data.length := by
        intro layer adjacency found node other link same
        rw [same] at link
        exact registered.unlinked wellFormed.toConsistent found node link
      rw [registered.entryPoint, entryPoint, registered.topLayer, topLayer]
      rcases descend_gives np consistent length closed top level
        ((registered.holds_iff top entry).mpr (Or.inr (holds top (Nat.le_refl top)))) (Nat.ne_of_lt inside) with
          ⟨found, run, reached, different⟩
      have shared : min (level : Int) (top : Int) = ((min top level : Nat) : Int) := by omega
      simp only [run, shared]
      apply Returns.run_bind rfl
      apply Returns.bind (rounds_return np wellFormed.toConsistent registered length 0 (by decide)
        (min top level) (Nat.min_le_right _ _) (Graph.Wiring.start consistent _) reached different)
      rintro next after ⟨wiring, other, reachedNext⟩
      have lowest : min ((min top level : Nat) : Int) 0 = 0 := by omega
      rw [lowest] at wiring reachedNext
      exact Returns.pure ⟨⟨entry, rfl⟩, rfl, wiring, reachedNext (Int.le_refl 0), other⟩

theorem wire_returns {width level : Nat} {before start : Graph F G} (wellFormed : before.WellFormed width)
    (registered : Graph.Registered width level before start) {unit : List F} (length : unit.length = width) :
    Returns (wire np unit before.data.length level) start fun _ after => after.WellFormed width ∧
      ∃ graph entryPoint topLayer, after = { start with graph, entryPoint, topLayer } := by
  have layered : ∀ entry, start.entryPoint = some entry → 0 ≤ start.topLayer := by
    intro entry entryPoint
    rw [registered.entryPoint] at entryPoint
    rcases entry_layers wellFormed entryPoint with ⟨top, topLayer, _⟩
    rw [registered.topLayer, topLayer]
    exact Int.natCast_nonneg top
  unfold Returns
  rw [wire_eq np unit before.data.length level layered]
  apply Returns.bind (wireAbove_returns np wellFormed registered length)
  intro round after holds
  cases round with
  | none =>
      rcases holds with ⟨entryPoint, isAfter⟩
      rw [isAfter]
      exact Returns.pure ⟨wire_first wellFormed registered entryPoint, _, _, _, rfl⟩
  | some round =>
      rcases round with ⟨entry, topLayer⟩
      rcases holds with ⟨⟨old, entryPoint⟩, isTop, wiring, held, different⟩
      rcases entry_layers wellFormed entryPoint with ⟨top, topLayer, _⟩
      apply Returns.bind (round_returns np wellFormed.toConsistent registered length (Nat.zero_le level)
        wiring held different)
      rintro _ last ⟨finished, _⟩
      rcases wire_later wellFormed registered entryPoint topLayer finished with ⟨taller, notTaller⟩
      rcases finished.frame with ⟨graph, frame⟩
      have isLast : last.topLayer = before.topLayer := by rw [frame, ← registered.topLayer]
      rw [isLast, ← isTop] at taller notTaller
      split
      · rename_i higher
        refine Returns.modify ⟨taller higher, graph, some before.data.length, (level : Int), ?_⟩
        rw [frame]
      · rename_i lower
        refine Returns.pure ⟨notTaller lower, graph, start.entryPoint, start.topLayer, ?_⟩
        rw [frame]

omit [LinearOrder D] in
theorem register_returns {width : Nat} {index : Graph F G} (wellFormed : index.WellFormed width)
    {vector : List F} (length : vector.length = width) {level : Nat} {rng : G}
    (draw : np.drawLevel index.M index.rng = (some level, rng)) :
    Returns (register np vector) index fun registered start =>
      registered = (index.data.length, level) ∧ Graph.Registered width level index start ∧
        start = { index with
          rng, data := index.data ++ [np.normalize vector], graph := start.graph } := by
  have unitLength : (np.normalize vector).length = width := by rw [np.normalize_length, length]
  have appended : append (np.normalize vector) index =
      .ok index.data.length { index with data := index.data ++ [np.normalize vector] } := by
    change (reading (newRow index.data (np.normalize vector)) >>= fun row => do
      set { index with data := index.data ++ [row] }
      return index.data.length) index = _
    rw [newRow_ok wellFormed.rows unitLength]
    rfl
  have drawn : randomLevel np { index with data := index.data ++ [np.normalize vector] } =
      .ok level { index with data := index.data ++ [np.normalize vector], rng } := by
    unfold randomLevel
    simp only [bind, EStateM.bind, get_run, draw, set_run, pure,
      EStateM.pure]
  unfold register
  apply Returns.run_bind appended
  apply Returns.run_bind drawn
  apply Returns.run_bind rfl
  exact Returns.pure ⟨rfl, ⟨⟨_, unitLength, rfl⟩, rfl, rfl, rfl⟩, rfl⟩

/-- An insertion returns whenever the level draw is finite, and keeps the index
well-formed. -/
theorem insert_returns {width : Nat} {index : Graph F G} (wellFormed : index.WellFormed width)
    {vector : List F} (length : vector.length = width) {level : Nat} {rng : G}
    (draw : np.drawLevel index.M index.rng = (some level, rng)) :
    Returns (insert np vector) index fun _ after => Graph.Inserted width
      (np.normalize vector) rng index after := by
  have unitLength : (np.normalize vector).length = width := by rw [np.normalize_length, length]
  apply Returns.bind (register_returns np wellFormed length draw)
  rintro _ start ⟨rfl, registered, isStart⟩
  apply Returns.imp (wire_returns np wellFormed registered unitLength)
  rintro _ after ⟨holds, graph, entryPoint, topLayer, isAfter⟩
  refine ⟨holds, graph, entryPoint, topLayer, ?_⟩
  rw [isAfter, isStart]

omit [LinearOrder D] in
/-- Registering draws a level from the generator of the index. -/
theorem register_drew {vector : List F} {index start : Graph F G} {registered : Nat × Nat}
    (run : register np vector index = .ok registered start) :
    ∃ level rng, np.drawLevel index.M index.rng = (some level, rng) := by
  cases draw : np.drawLevel index.M index.rng with
  | mk level rng =>
      cases level with
      | some level => exact ⟨level, rng, rfl⟩
      | none =>
          rcases bind_ok run with ⟨node, appended, append, rest⟩
          rcases bind_ok rest with ⟨level, drawn, draws, _⟩
          cases row : newRow index.data (np.normalize vector) with
          | error error =>
              simp only [HNSW.append, bind, EStateM.bind, get_run, row, reading,
                throw_run] at append
              cases append
          | ok row' =>
              simp only [HNSW.append, bind, EStateM.bind, get_run, row, reading,
                pure, EStateM.pure, set_run] at append
              cases append
              simp only [randomLevel, bind, EStateM.bind, get_run, draw, set_run, throw_run] at draws
              cases draws

/-- An insertion that returned drew a level and kept the index well-formed. -/
theorem insert_inserted {width : Nat} {index after : Graph F G} (wellFormed : index.WellFormed width)
    {vector : List F} (length : vector.length = width) (run : insert np vector index = .ok () after) :
    ∃ level rng, np.drawLevel index.M index.rng = (some level, rng) ∧
      Graph.Inserted width (np.normalize vector) rng index after := by
  rcases bind_ok run with ⟨registered, start, registers, _⟩
  rcases register_drew np registers with ⟨level, rng, draw⟩
  rcases insert_returns np wellFormed length draw with ⟨_, reached, returned, inserted⟩
  rw [run] at returned
  cases returned
  exact ⟨level, rng, draw, inserted⟩

theorem init_wellFormed (width M efConstruction efSearch : Nat) (selection : NeighborSelection) (rng : G) :
    (init M efConstruction efSearch selection rng : HNSW F G).toGraph.WellFormed width := by
  constructor
  · constructor
    · exact fun row member => absurd member List.not_mem_nil
    · exact fun layer adjacency found => nomatch found
    · exact fun node below => absurd below (Nat.not_lt_zero _)
    · rintro layer node ⟨_, found, _⟩
      cases found
  · rfl
  · exact fun _ => ⟨rfl, rfl⟩
  · exact fun node impossible => nomatch impossible

/-- What a whole build leaves: the stored rows are the unit vectors, in order. -/
structure Graph.Grown (width : Nat) (units : List (List F)) (before after : Graph F G) : Prop where
  wellFormed : after.WellFormed width
  data : after.data = before.data ++ units
  sameM : after.M = before.M

/-- While every level draw is finite, a build returns and keeps the index well-formed. -/
theorem build_returns {width : Nat} (vectors : List (List F)) {index : Graph F G}
    (wellFormed : index.WellFormed width) (lengths : ∀ vector ∈ vectors, vector.length = width)
    (draws : ∀ rng, (np.drawLevel index.M rng).1 ≠ none) :
    Returns (build np vectors) index fun _ after =>
      Graph.Grown width (vectors.map np.normalize) index after := by
  induction vectors generalizing index with
  | nil => exact Returns.pure ⟨wellFormed, (List.append_nil _).symm, rfl⟩
  | cons vector rest inductionHypothesis =>
      rcases Option.ne_none_iff_exists'.mp (draws index.rng) with ⟨level, drawn⟩
      apply Returns.bind (insert_returns np wellFormed (lengths vector List.mem_cons_self) (Prod.ext drawn rfl))
      rintro _ after ⟨afterFormed, graph, entryPoint, topLayer, frame⟩
      have isM : after.M = index.M := by rw [frame]
      apply Returns.imp (inductionHypothesis afterFormed
        (fun other member => lengths other (List.mem_cons_of_mem _ member)) (by rw [isM]; exact draws))
      rintro _ last ⟨lastFormed, data, sameM⟩
      refine ⟨lastFormed, ?_, sameM.trans isM⟩
      rw [data, frame, List.map_cons, List.append_assoc, List.singleton_append]

end HNSW
end VectorSearch
