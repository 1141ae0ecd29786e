import VectorSearch.Index.Insertion

namespace VectorSearch

/-!
# The number of links

No node has more links than the cap of its layer.  A node that gets one link too
many keeps a selection of them at once, and a new node starts with at most `M`.
-/

open Stateful HNSW

variable {F D G : Type}

/-- No list of the layer is longer than the cap. -/
def Layer.Capped (cap : Nat) (adjacency : Layer) : Prop :=
  ∀ node links, adjacency.get? node = some links → links.length ≤ cap

/-- Every list of the graph is within the cap of its layer. -/
def Graph.Capped (index : Graph F G) : Prop :=
  ∀ (layer : Nat) (adjacency : Layer), index.graph[layer]? = some adjacency →
    adjacency.Capped (maxConn index.M layer)

theorem Layer.Capped.set {cap node : Nat} {adjacency : Layer} {links : List Nat}
    (capped : adjacency.Capped cap) (few : links.length ≤ cap) : Layer.Capped cap
    (adjacency.set node links) := by
  intro owner stored found
  rw [Dict.get?_set] at found
  split at found
  · rw [← Option.some.inj found]
    exact few
  · exact capped owner stored found

namespace HNSW

/-- The new node is registered without links. -/
theorem registered_capped {width level : Nat} {before start : Graph F G}
    (registered : Graph.Registered width level before start) (sameM : start.M = before.M)
    (capped : before.Capped) : start.Capped := by
  intro layer adjacency found
  rw [registered.getElem?] at found
  rw [sameM]
  split at found
  · rw [← Option.some.inj found]
    apply Layer.Capped.set _ (Nat.zero_le _)
    cases stored : before.graph[layer]? with
    | none => exact fun _ _ impossible => nomatch impossible
    | some old => exact capped layer old stored
  · exact capped layer adjacency found

variable [LinearOrder D] (np : Numpy F D G)

theorem selectNeighbors_length {selection : NeighborSelection} {data : List (List F)} {ids : List Nat}
    {dists : List D} {m : Nat} {kept : List Nat} (positive : 0 < m)
    (selected : selectNeighbors np selection data ids dists m = .ok kept) : kept.length ≤ m := by
  unfold selectNeighbors at selected
  dsimp only at selected
  split at selected
  · cases selected
    rw [List.length_map]
    exact List.length_take_le m _
  · cases read : rowsAt data ((byDistance (dists.zip ids)).map Prod.snd) with
    | error error =>
        rw [read] at selected
        cases selected
    | ok vectors =>
        rw [read] at selected
        cases selected
        exact keepDiverse_length_le 0 _ _ positive

variable {np} in
theorem Kept.length_le {selection : NeighborSelection} {data : List (List F)} {cap owner : Nat}
    {links kept : List Nat} (keeps : Kept np selection data cap owner links kept) (positive : 0 < cap) :
    kept.length ≤ cap := by
  rcases keeps with ⟨few, all⟩ | ⟨_, selected⟩
  · rw [all]
    exact few
  · unfold keptLinks at selected
    cases base : rowAt data owner with
    | error error =>
        rw [base] at selected
        cases selected
    | ok row =>
        cases given : distancesTo np data row links with
        | error error =>
            simp only [base, bind, Except.bind, given] at selected
            cases selected
        | ok dists =>
            simp only [base, bind, Except.bind, given] at selected
            exact selectNeighbors_length np positive selected

/-- All lists but those of one node are within the cap. -/
def OthersCapped (cap node : Nat) (adjacency : Layer) : Prop :=
  ∀ owner links, owner ≠ node → adjacency.get? owner = some links → links.length ≤ cap

variable {np} in
theorem Joined.capped {selection : NeighborSelection} {data : List (List F)} {node cap neighbor : Nat}
    {now after : Layer} {forward back kept : List Nat} (positive : 0 < cap)
    (joined : Joined np selection data node cap neighbor now forward back kept after)
    (capped : OthersCapped cap node now) : OthersCapped cap node after := by
  intro owner links other found
  rw [joined.result, Dict.get?_set] at found
  split at found
  · rw [← Option.some.inj found]
    exact joined.keeps.length_le positive
  · rw [Dict.get?_set, if_neg other] at found
    exact capped owner links other found

section Rounds

variable {width level : Nat} {before start : Graph F G} (consistent : before.Consistent width)
  (registered : Graph.Registered width level before start) {unit : List F} (length : unit.length = width)

include consistent registered length

theorem round_capped {layer : Nat} (low : layer ≤ level) {entry : Nat} {index : Graph F G}
    (wiring : Graph.Wiring width start layer index) (holds : start.Holds layer entry)
    (different : entry ≠ before.data.length) (positive : 0 < index.M) (capped : index.Capped) :
    Returns (insertInLayer np unit before.data.length entry layer) index fun next after =>
      Graph.Wiring width start (layer - 1) after ∧ start.Holds layer next ∧ next ≠ before.data.length ∧
        after.M = index.M ∧ after.Capped := by
  rcases holds with ⟨adjacency, atStart, has⟩
  have found : index.graph[layer]? = some adjacency := (wiring.below layer (Int.le_refl _)).trans atStart
  have sound := wiring.consistent.layers layer adjacency found
  rcases registered.own consistent low atStart with ⟨own, unlinked⟩
  have cap : 0 < maxConn index.M layer := Nat.lt_of_lt_of_le positive (le_maxConn index.M layer)
  have othersBefore : OthersCapped (maxConn index.M layer) before.data.length adjacency :=
    fun owner links _ linked => capped layer adjacency found owner links linked
  apply Returns.imp (insertInLayer_keeps np wiring.consistent.rows found sound length own unlinked has different
    (OthersCapped (maxConn index.M layer) before.data.length) othersBefore
    fun _ _ _ _ _ _ others joined => joined.capped cap others)
  rintro next after ⟨neighbors, now, linking, others, few, isAfter, reach⟩
  have inside := (List.getElem?_eq_some_iff.mp found).1
  rw [isAfter]
  refine ⟨wiring.set found linking.sound linking.same, ⟨adjacency, atStart, sound.reach_has has reach⟩,
    unlinked.reach reach different, rfl, ?_⟩
  intro other stored atOther
  change (index.graph.set layer now)[other]? = some stored at atOther
  by_cases here : other = layer
  · subst here
    rw [List.getElem?_set_self inside] at atOther
    cases atOther
    intro owner links linked
    by_cases isNode : owner = before.data.length
    · rw [isNode, linking.own] at linked
      rw [← Option.some.inj linked]
      exact Nat.le_trans (few positive) (le_maxConn index.M other)
    · exact others owner links isNode linked
  · rw [List.getElem?_set_ne (Ne.symm here)] at atOther
    exact capped other stored atOther

theorem rounds_capped (top : Nat) (low : top ≤ level) {entry : Nat} {index : Graph F G}
    (wiring : Graph.Wiring width start top index) (holds : start.Holds top entry)
    (different : entry ≠ before.data.length) (positive : 0 < index.M) (capped : index.Capped) :
    Returns ((rangeDown top (-1)).foldlM (insertInLayer np unit before.data.length) entry) index
      fun _ after => after.M = index.M ∧ after.Capped := by
  induction top generalizing entry index with
  | zero =>
      rw [rangeDown_cons (by omega), rangeDown_nil (by omega), List.foldlM_cons]
      apply Returns.bind (round_capped np consistent registered length low wiring holds
        different positive capped)
      rintro next after ⟨_, _, _, sameM, afterCapped⟩
      exact Returns.pure ⟨sameM, afterCapped⟩
  | succ top inductionHypothesis =>
      have down : ((top + 1 : Nat) : Int) - 1 = (top : Int) := by omega
      rw [rangeDown_cons (by omega), List.foldlM_cons, down]
      apply Returns.bind (round_capped np consistent registered length low wiring holds
        different positive capped)
      rintro next after ⟨further, reached, other, sameM, afterCapped⟩
      rw [down] at further
      apply Returns.imp (inductionHypothesis (by omega) further
        ((registered.toConsistent consistent).nested top next reached) other (by rw [sameM]; exact positive)
        afterCapped)
      rintro _ last ⟨lastM, lastCapped⟩
      exact ⟨lastM.trans sameM, lastCapped⟩

end Rounds

theorem wire_capped {width level : Nat} {before start : Graph F G} (wellFormed : before.WellFormed width)
    (registered : Graph.Registered width level before start) {unit : List F} (length : unit.length = width)
    (positive : 0 < start.M) (capped : start.Capped) :
    Returns (wire np unit before.data.length level) start fun _ after => after.Capped := by
  unfold wire
  apply Returns.get_bind
  cases entryPoint : before.entryPoint with
  | none =>
      rw [registered.entryPoint, entryPoint]
      exact Returns.set capped
  | some entry =>
      have consistent := registered.toConsistent wellFormed.toConsistent
      rcases entry_layers wellFormed entryPoint with ⟨top, topLayer, _, inside, holds⟩
      have closed : ∀ (layer : Nat) (adjacency : Layer), start.graph[layer]? = some adjacency →
          ∀ node other, adjacency.Link node other → other ≠ before.data.length := by
        intro layer adjacency found node other link same
        rw [same] at link
        exact registered.unlinked wellFormed.toConsistent found node link
      rw [registered.entryPoint, entryPoint, registered.topLayer, topLayer]
      rcases descend_gives np consistent length closed top level
        ((registered.holds_iff top entry).mpr (Or.inr (holds top (Nat.le_refl top)))) (Nat.ne_of_lt inside) with
          ⟨found, run, reached, different⟩
      have shared : min (level : Int) (top : Int) = ((min top level : Nat) : Int) := by omega
      simp only [run, shared]
      apply Returns.run_bind rfl
      apply Returns.bind (rounds_capped np wellFormed.toConsistent registered length (min top level)
        (Nat.min_le_right _ _) (Graph.Wiring.start consistent _) reached different positive capped)
      rintro next after ⟨_, afterCapped⟩
      split
      · exact Returns.modify afterCapped
      · exact Returns.pure afterCapped

/-- An insertion keeps every list within its cap. -/
theorem insert_capped {width : Nat} {index after : Graph F G} (wellFormed : index.WellFormed width)
    {vector : List F} (length : vector.length = width) (positive : 0 < index.M) (capped : index.Capped)
    (run : insert np vector index = .ok () after) : after.Capped := by
  have unitLength : (np.normalize vector).length = width := by rw [np.normalize_length, length]
  rcases insert_inserted np wellFormed length run with ⟨level, rng, draw, _⟩
  rcases register_returns np wellFormed length draw with ⟨_, start, registers, rfl, registered, isStart⟩
  have sameM : start.M = index.M := by rw [isStart]
  rcases wire_capped np wellFormed registered unitLength (by rw [sameM]; exact positive)
    (registered_capped registered sameM capped) with ⟨_, reached, wires, reachedCapped⟩
  have whole : insert np vector index = .ok () reached := by
    simp only [insert, bind, EStateM.bind, registers, wires]
  rw [run] at whole
  cases whole
  exact reachedCapped

end HNSW
end VectorSearch
