import VectorSearch.Index.Answers
import VectorSearch.Index.Structure

namespace VectorSearch

/-!
# What every insertion leaves

Some properties of the graph survive any insertion, also one that raises half
way through: no list names a node twice, every link leads to a stored row, and
all rows have one width.  Searches need no more than that for each hit to be
reported once.
-/

open Stateful HNSW

variable {F D G : Type}

namespace Layer

/-- Lists of distinct nodes below the count. -/
structure Tidy (count : Nat) (adjacency : Layer) : Prop where
  bounded : ∀ node other, adjacency.Link node other → other < count
  distinct : ∀ node links, adjacency.get? node = some links → links.Nodup

/-- The links of one node are those done so far, and only they may link back. -/
structure Half (node : Nat) (done : List Nat) (adjacency : Layer) : Prop where
  tidy : adjacency.Tidy (node + 1)
  own : ∀ links, adjacency.get? node = some links → links = done
  back : ∀ other, adjacency.Link other node → other ∈ done

theorem Tidy.grow {count more : Nat} {adjacency : Layer} (tidy : adjacency.Tidy count) (le : count ≤ more) :
    adjacency.Tidy more :=
  ⟨fun node other link => Nat.lt_of_lt_of_le (tidy.bounded node other link) le, tidy.distinct⟩

theorem Tidy.set {count : Nat} {adjacency : Layer} (tidy : adjacency.Tidy count) {node : Nat} {links : List Nat}
    (bounded : ∀ other ∈ links, other < count) (distinct : links.Nodup) :
    Tidy count (adjacency.set node links) := by
  constructor
  · rintro owner other ⟨stored, found, member⟩
    rw [Dict.get?_set] at found
    split at found
    · rw [← Option.some.inj found] at member
      exact bounded other member
    · exact tidy.bounded owner other ⟨stored, found, member⟩
  · intro owner stored found
    rw [Dict.get?_set] at found
    split at found
    · rw [← Option.some.inj found]
      exact distinct
    · exact tidy.distinct owner stored found

theorem Tidy.empty (count : Nat) : Tidy count Dict.empty :=
  ⟨fun _ _ link => (by rcases link with ⟨_, found, _⟩; cases found), fun _ _ found => nomatch found⟩

/-- A new node is registered without links. -/
theorem Tidy.half {node : Nat} {adjacency : Layer} (tidy : adjacency.Tidy node) :
    Half node [] (adjacency.set node []) := by
  constructor
  · exact (tidy.grow (Nat.le_succ node)).set (fun other member => absurd member List.not_mem_nil) List.nodup_nil
  · intro links found
    rw [Dict.get?_set, if_pos rfl] at found
    exact (Option.some.inj found).symm
  · rintro other ⟨links, found, member⟩
    rw [Dict.get?_set] at found
    split at found
    · rw [← Option.some.inj found] at member
      cases member
    · exact absurd (tidy.bounded other node ⟨links, found, member⟩) (Nat.lt_irrefl node)

namespace Half

variable {node : Nat} {done : List Nat} {adjacency : Layer} (half : adjacency.Half node done)

include half

/-- While nothing is done, nobody links to the node. -/
theorem closed (none : done = []) (owner other : Nat) (link : adjacency.Link owner other) : other < node := by
  rcases Nat.lt_succ_iff_lt_or_eq.mp (half.tidy.bounded owner other link) with below | same
  · exact below
  · rw [same] at link
    have member := half.back owner link
    rw [none] at member
    cases member

/-- The link forward. -/
theorem forward {neighbor : Nat} (below : neighbor < node) (new : neighbor ∉ done)
    (own : adjacency.get? node = some done) : Half node (done ++ [neighbor])
    (adjacency.set node (done ++ [neighbor])) := by
  constructor
  · apply half.tidy.set
    · intro other member
      rcases List.mem_append.mp member with old | last
      · exact half.tidy.bounded node other ⟨done, own, old⟩
      · rw [List.mem_singleton.mp last]
        exact Nat.lt_succ_of_lt below
    · exact nodup_append_one (half.tidy.distinct node done own) new
  · intro links found
    rw [Dict.get?_set, if_pos rfl] at found
    exact (Option.some.inj found).symm
  · rintro other ⟨links, found, member⟩
    rw [Dict.get?_set] at found
    split at found
    · rename_i same
      rw [← Option.some.inj found] at member
      rw [same]
      exact member
    · exact List.mem_append_left _ (half.back other ⟨links, found, member⟩)

/-- Any list for a neighbour that the node links to. -/
theorem backward {neighbor : Nat} (member : neighbor ∈ done) (different : neighbor ≠ node) {links : List Nat}
    (bounded : ∀ other ∈ links, other < node + 1) (distinct : links.Nodup) :
    Half node done (adjacency.set neighbor links) := by
  constructor
  · exact half.tidy.set bounded distinct
  · intro stored found
    rw [Dict.get?_set, if_neg (Ne.symm different)] at found
    exact half.own stored found
  · rintro other ⟨stored, found, inside⟩
    rw [Dict.get?_set] at found
    split at found
    · rename_i same
      rw [same]
      exact member
    · exact half.back other ⟨stored, found, inside⟩

end Half
end Layer

namespace HNSW

variable (np : Numpy F D G) [LinearOrder D]

/-! ## Results of computations that returned -/

theorem greedyWalk_within {atLeast : D → D → Bool} {data : List (List F)} {adjacency : Layer}
    {query : List F} {within : Nat → Prop} (closed : ∀ node other, adjacency.Link node other → within other)
    (fuel : Nat) {current : Nat} {currentDist : D} (start : within current) {found : Nat}
    (walked : greedyWalk np atLeast data adjacency query fuel current currentDist = .ok found) :
    within found := by
  induction fuel generalizing current currentDist with
  | zero => cases walked
  | succ fuel inductionHypothesis =>
      unfold greedyWalk at walked
      rcases gave_bind walked with ⟨neighbors, looked, rest⟩
      split at rest
      · cases rest
        exact start
      · rcases gave_bind rest with ⟨dists, _, rest⟩
        split at rest
        · cases rest
        · split at rest
          · cases rest
            exact start
          · split at rest
            · cases rest
            · rename_i next found
              exact inductionHypothesis (closed current next
                ⟨neighbors, neighborsOf_ok looked, List.mem_of_getElem? found⟩) rest

theorem greedyDescend_within {data : List (List F)} {graph : List Layer} {query : List F} {within : Nat → Prop}
    {entry layer found : Nat}
    (closed : ∀ (adjacency : Layer), graph[layer]? = some adjacency →
      ∀ node other, adjacency.Link node other → within other) (start : within entry)
    (descended : greedyDescend np data graph query entry layer = .ok found) : within found := by
  rcases gave_bind descended with ⟨dist, _, rest⟩
  rcases gave_bind rest with ⟨adjacency, looked, walks⟩
  exact greedyWalk_within np (closed adjacency (layerAt_ok looked)) _ start walks

theorem descent_within {data : List (List F)} {graph : List Layer} {query : List F} {within : Nat → Prop}
    (closed : ∀ (layer : Nat) (adjacency : Layer), graph[layer]? = some adjacency →
      ∀ node other, adjacency.Link node other → within other) (layers : List Nat) {entry found : Nat}
    (start : within entry) (descended : layers.foldlM (greedyDescend np data graph query) entry = .ok found) :
    within found := by
  induction layers generalizing entry with
  | nil =>
      cases descended
      exact start
  | cons layer rest inductionHypothesis =>
      rw [List.foldlM_cons] at descended
      rcases gave_bind descended with ⟨middle, first, later⟩
      exact inductionHypothesis (greedyDescend_within np (closed layer) start first) later

omit [LinearOrder D] in
theorem map_fst_zip_sublist {α β : Type} (left : List α) (right : List β) :
    ((left.zip right).map Prod.fst).Sublist left := by
  induction left generalizing right with
  | nil => exact List.Sublist.refl _
  | cons first rest inductionHypothesis =>
      cases right with
      | nil => exact List.nil_sublist _
      | cons other others => exact (inductionHypothesis others).cons_cons first

theorem selectNeighbors_subperm {selection : NeighborSelection} {data : List (List F)} {candidateIds : List Nat}
    {dists : List D} {m : Nat} {kept : List Nat}
    (selected : selectNeighbors np selection data candidateIds dists m = .ok kept) :
    kept.Subperm candidateIds := by
  have ids : ((byDistance (dists.zip candidateIds)).map Prod.snd).Subperm candidateIds := by
    have mapped := ((byDistance_perm (dists.zip candidateIds)).map Prod.snd).subperm
    have swapped : (dists.zip candidateIds).map Prod.snd = (candidateIds.zip dists).map Prod.fst := by
      rw [← List.zip_swap candidateIds dists, List.map_map]
      rfl
    rw [swapped] at mapped
    exact mapped.trans (map_fst_zip_sublist candidateIds dists).subperm
  unfold selectNeighbors at selected
  dsimp only at selected
  split at selected
  · cases selected
    rw [List.map_take]
    exact (List.take_sublist m _).subperm.trans ids
  · rcases gave_bind selected with ⟨vectors, _, isKept⟩
    cases isKept
    rw [← List.map_uncurry_zip_eq_zipWith]
    have sublist := keepDiverse_sublist m 0 (((byDistance (dists.zip candidateIds)).zip (np.table vectors)).map
      (Function.uncurry fun (scored : D × Nat) (row : List D) => (scored.1, scored.2, row)))
      (List.replicate ((byDistance (dists.zip candidateIds)).map Prod.snd).length ⊤) []
    rw [List.nil_append, List.map_map] at sublist
    have scanned := (map_fst_zip_sublist (byDistance (dists.zip candidateIds)) (np.table vectors)).map Prod.snd
    rw [List.map_map] at scanned
    exact (sublist.trans scanned).subperm.trans ids

theorem keptLinks_subperm {selection : NeighborSelection} {data : List (List F)} {cap owner : Nat}
    {links kept : List Nat} (selected : keptLinks np selection data cap owner links = .ok kept) :
    kept.Subperm links := by
  rcases gave_bind selected with ⟨base, _, rest⟩
  rcases gave_bind rest with ⟨dists, _, selects⟩
  exact selectNeighbors_subperm np selects

/-! ## One round -/

omit [LinearOrder D] in
/-- What follows a computation that returned. -/
theorem reading_bind_ends {α β : Type} {result : Except Error α} {next : α → EStateM Error (Graph F G) β}
    {state : Graph F G} {post : β → Graph F G → Prop} {failed : Graph F G → Prop} (refused : failed state)
    (rest : ∀ value, result = .ok value → Ends (next value) state post failed) :
    Ends (reading result >>= next) state post failed := by
  cases result with
  | error error => exact refused
  | ok value => exact rest value rfl

/-- The state half way through a round in a layer: everything else is as it was. -/
structure Rounding (start : Graph F G) (layer node : Nat) (done : List Nat) (index : Graph F G) : Prop where
  frame : ∃ graph, index = { start with graph }
  here : ∀ adjacency, index.graph[layer]? = some adjacency → adjacency.Half node done
  elsewhere : ∀ other, other ≠ layer → index.graph[other]? = start.graph[other]?

/-- The state behind a round that raised. -/
def Abandoned (start : Graph F G) (layer node : Nat) (index : Graph F G) : Prop :=
  ∃ done, Rounding start layer node done index

omit [LinearOrder D] in
theorem Rounding.set {start index : Graph F G} {layer node : Nat} {done more : List Nat}
    (rounding : Rounding start layer node done index) {adjacency now : Layer}
    (found : index.graph[layer]? = some adjacency) (half : now.Half node more) :
    Rounding start layer node more { index with graph := index.graph.set layer now } := by
  rcases rounding.frame with ⟨graph, frame⟩
  have inside := (List.getElem?_eq_some_iff.mp found).1
  constructor
  · exact ⟨index.graph.set layer now, by rw [frame]⟩
  · intro other atLayer
    change (index.graph.set layer now)[layer]? = some other at atLayer
    rw [List.getElem?_set_self inside] at atLayer
    rw [← Option.some.inj atLayer]
    exact half
  · intro other different
    rw [← rounding.elsewhere other different]
    exact List.getElem?_set_ne (Ne.symm different)

omit [LinearOrder D] in
theorem appendLink_ends {index : Graph F G} {layer node other : Nat} {failed : Graph F G → Prop}
    (refused : failed index) {post : List Nat → Graph F G → Prop}
    (rest : ∀ adjacency links, index.graph[layer]? = some adjacency → adjacency.get? node = some links →
      post (links ++ [other])
        { index with graph := index.graph.set layer (adjacency.set node (links ++ [other])) }) :
    Ends (appendLink layer node other) index post failed := by
  unfold appendLink
  apply Ends.get_bind
  apply reading_bind_ends refused
  intro links looked
  rcases gave_bind looked with ⟨adjacency, atLayer, linked⟩
  have found := layerAt_ok atLayer
  have holds := rest adjacency links found (neighborsOf_ok linked)
  rw [← setNeighbors_eq found] at holds
  exact holds

theorem connect_ends {start index : Graph F G} {layer node : Nat} {done : List Nat} {cap neighbor : Nat}
    (below : neighbor < node) (new : neighbor ∉ done) (rounding : Rounding start layer node done index) :
    Ends (connect np node layer cap neighbor) index
      (fun _ after => Rounding start layer node (done ++ [neighbor]) after) (Abandoned start layer node) := by
  have different : neighbor ≠ node := Nat.ne_of_lt below
  have last : neighbor ∈ done ++ [neighbor] := List.mem_append_right _ (List.mem_singleton_self neighbor)
  have forward : Ends (appendLink layer node neighbor) index
      (fun _ after => Rounding start layer node (done ++ [neighbor]) after ∧ ∀ adjacency,
        after.graph[layer]? = some adjacency → ∀ back, adjacency.get? neighbor = some back → node ∉ back)
      (Abandoned start layer node) := by
    apply appendLink_ends ⟨done, rounding⟩
    intro adjacency links found own
    have half := rounding.here adjacency found
    have isDone := half.own links own
    subst isDone
    refine ⟨rounding.set found (half.forward below new own), ?_⟩
    intro now atLayer back theirs member
    have inside := (List.getElem?_eq_some_iff.mp found).1
    change (index.graph.set layer _)[layer]? = some now at atLayer
    rw [List.getElem?_set_self inside] at atLayer
    rw [← Option.some.inj atLayer, Dict.get?_set, if_neg different] at theirs
    exact new (half.back neighbor ⟨back, theirs, member⟩)
  apply Ends.bind forward
  rintro _ middle ⟨linked, notBack⟩
  have backward : Ends (appendLink layer neighbor node) middle
      (fun links after => Rounding start layer node (done ++ [neighbor]) after ∧
        links.Nodup ∧ ∀ other ∈ links, other < node + 1)
      (Abandoned start layer node) := by
    apply appendLink_ends ⟨done ++ [neighbor], linked⟩
    intro adjacency back found theirs
    have half := linked.here adjacency found
    have bounded : ∀ other ∈ back ++ [node], other < node + 1 := by
      intro other member
      rcases List.mem_append.mp member with old | new
      · exact half.tidy.bounded neighbor other ⟨back, theirs, old⟩
      · rw [List.mem_singleton.mp new]
        exact Nat.lt_succ_self node
    have distinct := nodup_append_one (half.tidy.distinct neighbor back theirs)
      (notBack adjacency found back theirs)
    exact ⟨linked.set found (half.backward last different bounded distinct), distinct, bounded⟩
  apply Ends.bind backward
  rintro links after ⟨both, distinct, bounded⟩
  split
  · apply Ends.get_bind
    apply reading_bind_ends ⟨_, both⟩
    intro kept selected
    have subperm := keptLinks_subperm np selected
    have keptDistinct : kept.Nodup := by
      rcases subperm with ⟨part, perm, sublist⟩
      exact perm.nodup_iff.mp (distinct.sublist sublist)
    apply Ends.set
    cases found : after.graph[layer]? with
    | none =>
        have same : setNeighbors after.graph layer neighbor kept = after.graph := by
          apply List.ext_getElem?
          intro other
          rw [setNeighbors_getElem?]
          split
          · rename_i isLayer
            rw [isLayer, found]
            rfl
          · rfl
        rw [same]
        exact both
    | some adjacency =>
        rw [setNeighbors_eq found]
        exact both.set found ((both.here adjacency found).backward last different
          (fun other member => bounded other (subperm.subset member)) keptDistinct)
  · exact Ends.pure both

/-- A round in a layer where nobody links to the node yet. -/
theorem insertInLayer_ends {start index : Graph F G} {unit : List F} {layer node entry : Nat}
    (rounding : Rounding start layer node [] index) (below : entry < node) :
    Ends (insertInLayer np unit node entry layer) index
      (fun next after => next < node ∧ Abandoned start layer node after) (Abandoned start layer node) := by
  unfold insertInLayer
  apply Ends.get_bind
  apply reading_bind_ends ⟨[], rounding⟩
  rintro ⟨scored, neighbors⟩ found
  rcases gave_bind found with ⟨hits, searched, rest⟩
  rcases gave_bind rest with ⟨selected, selects, isFound⟩
  cases isFound
  have hitsBelow := searchLayerWithDistances_hits np
    (fun adjacency atLayer => (rounding.here adjacency atLayer).tidy.distinct)
    (fun adjacency atLayer => (rounding.here adjacency atLayer).closed rfl) below searched
  have sorted := byDistance_perm hits
  have subperm := selectNeighbors_subperm np selects
  have ids := (sorted.map Prod.snd).subperm
  have distinct : neighbors.Nodup := by
    rcases subperm.trans ids with ⟨part, perm, sublist⟩
    exact perm.nodup_iff.mp (hitsBelow.distinct.sublist sublist)
  have neighborsBelow : ∀ neighbor ∈ neighbors, neighbor < node := by
    intro neighbor member
    rcases List.mem_map.mp (ids.subset (subperm.subset member)) with ⟨item, isHit, isNeighbor⟩
    rw [← isNeighbor]
    exact hitsBelow.permitted item isHit
  apply Ends.bind (Ends.forM (Rounding start layer node) rounding ?_)
  · rintro _ after linked
    split
    · exact Ends.throw ⟨neighbors, linked⟩
    · rename_i dist nearest others isScored
      refine Ends.pure ⟨?_, neighbors, linked⟩
      have member : (dist, nearest) ∈ byDistance hits := by
        rw [isScored]
        exact List.mem_cons_self
      exact hitsBelow.permitted _ (sorted.subset member)
  · intro earlier neighbor later whole reached linked
    rw [whole] at distinct neighborsBelow
    have new : neighbor ∉ earlier := fun member =>
      (List.nodup_append.mp distinct).2.2 neighbor member neighbor List.mem_cons_self rfl
    exact connect_ends np (neighborsBelow neighbor (List.mem_append_right _ List.mem_cons_self)) new linked

/-! ## All rounds -/

/-- The state between two rounds: the layers down from this one are still without links to the node. -/
structure Working (start : Graph F G) (node : Nat) (layer : Int) (index : Graph F G) : Prop where
  frame : ∃ graph, index = { start with graph }
  tidy : ∀ (other : Nat) (adjacency : Layer), index.graph[other]? = some adjacency → adjacency.Tidy (node + 1)
  below : ∀ other : Nat, (other : Int) ≤ layer →
    ∀ adjacency, index.graph[other]? = some adjacency → adjacency.Half node []

omit [LinearOrder D] in
theorem Working.round {start index after : Graph F G} {node layer : Nat}
    (working : Working start node layer index)
    (abandoned : Abandoned index layer node after) : Working start node (layer - 1) after := by
  rcases working.frame with ⟨graph, frame⟩
  rcases abandoned with ⟨done, rounding⟩
  rcases rounding.frame with ⟨graphAfter, frameAfter⟩
  constructor
  · exact ⟨graphAfter, by rw [frameAfter, frame]⟩
  · intro other adjacency found
    by_cases here : other = layer
    · rw [here] at found
      exact (rounding.here adjacency found).tidy
    · rw [rounding.elsewhere other here] at found
      exact working.tidy other adjacency found
  · intro other lower adjacency found
    rw [rounding.elsewhere other (by omega)] at found
    exact working.below other (by omega) adjacency found

theorem rounds_end {start : Graph F G} {unit : List F} {node : Nat} (top : Nat) {index : Graph F G}
    {entry : Nat} (working : Working start node top index) (below : entry < node) :
    Ends ((rangeDown top (-1)).foldlM (insertInLayer np unit node) entry) index
      (fun _ after => Working start node (-1) after) (Working start node (-1)) := by
  have weaken : ∀ {layer : Int} {index : Graph F G}, -1 ≤ layer → Working start node layer index →
      Working start node (-1) index := fun lower working =>
    ⟨working.frame, working.tidy, fun other low => working.below other (Int.le_trans low lower)⟩
  have rounding : ∀ {layer : Nat} {index : Graph F G}, Working start node layer index →
      Rounding index layer node [] index := fun working =>
    ⟨⟨_, rfl⟩, working.below _ (Int.le_refl _), fun _ _ => rfl⟩
  induction top generalizing index entry with
  | zero =>
      rw [rangeDown_cons (by omega), rangeDown_nil (by omega), List.foldlM_cons]
      apply Ends.bind ((insertInLayer_ends np (rounding working) below).imp (fun _ _ holds => holds)
        fun after abandoned => working.round abandoned)
      rintro next after ⟨_, abandoned⟩
      exact Ends.pure (working.round abandoned)
  | succ top inductionHypothesis =>
      have down : ((top + 1 : Nat) : Int) - 1 = (top : Int) := by omega
      have step : ∀ after, Abandoned index (top + 1) node after → Working start node top after := by
        intro after abandoned
        have working := working.round abandoned
        rwa [down] at working
      rw [rangeDown_cons (by omega), List.foldlM_cons, down]
      apply Ends.bind ((insertInLayer_ends np (rounding working) below).imp (fun _ _ holds => holds)
        fun after abandoned => weaken (by omega) (step after abandoned))
      rintro next after ⟨nextBelow, abandoned⟩
      exact inductionHypothesis (step after abandoned) nextBelow

/-! ## The whole insertion -/

end HNSW

/-- What holds of an index after any insertions. -/
structure Graph.Tidy (index : Graph F G) : Prop where
  layers : ∀ (layer : Nat) (adjacency : Layer), index.graph[layer]? = some adjacency →
    adjacency.Tidy index.data.length
  entry : ∀ node, index.entryPoint = some node → node < index.data.length
  widths : ∀ row ∈ index.data, ∀ first ∈ index.data.head?, row.length = first.length

namespace HNSW

variable [LinearOrder D] (np : Numpy F D G)

omit [LinearOrder D] in
theorem newRow_head {data : List (List F)} {unit row : List F} (stored : newRow data unit = .ok row)
    (widths : ∀ row ∈ data, ∀ first ∈ data.head?, row.length = first.length) :
    ∀ other ∈ data ++ [row], ∀ first ∈ (data ++ [row]).head?, other.length = first.length := by
  cases data with
  | nil =>
      intro other member first isFirst
      rw [List.mem_singleton.mp member]
      exact congrArg List.length (Option.some.inj isFirst)
  | cons head rest =>
      intro other member first isFirst
      cases isFirst
      rcases List.mem_append.mp member with old | new
      · exact widths other old head rfl
      · rw [List.mem_singleton.mp new]
        exact assignRow_length stored

/-- The layers of an index in which the node was registered up to a level. -/
structure Entered (node level : Nat) (index : Graph F G) : Prop where
  tidy : ∀ (layer : Nat) (adjacency : Layer), index.graph[layer]? = some adjacency → adjacency.Tidy (node + 1)
  closed : ∀ (layer : Nat) (adjacency : Layer), index.graph[layer]? = some adjacency →
    ∀ owner other, adjacency.Link owner other → other < node
  below : ∀ layer ≤ level, ∀ adjacency, index.graph[layer]? = some adjacency → adjacency.Half node []

omit [LinearOrder D] in
theorem registerNode_entered {index : Graph F G} {node : Nat}
    (tidy : ∀ (layer : Nat) (adjacency : Layer), index.graph[layer]? = some adjacency → adjacency.Tidy node)
    (level : Nat) : Entered node level
    { index with graph := registerNode level node (growGraph level index.graph) } := by
  have layers : ∀ (layer : Nat) (adjacency : Layer),
      (registerNode level node (growGraph level index.graph))[layer]? = some adjacency →
      (layer ≤ level → adjacency.Half node []) ∧ (¬ layer ≤ level → adjacency.Tidy node) := by
    intro layer adjacency found
    rw [registerNode_getElem?, growGraph_getElem?] at found
    constructor
    · intro low
      rw [if_pos low] at found
      rcases Option.map_eq_some_iff.mp found with ⟨old, atOld, isNew⟩
      rw [← isNew]
      split at atOld
      · exact (tidy layer old atOld).half
      · rw [← Option.some.inj atOld]
        exact (Layer.Tidy.empty node).half
    · intro high
      rw [if_neg high] at found
      split at found
      · exact tidy layer adjacency found
      · cases found
  constructor
  · intro layer adjacency found
    by_cases low : layer ≤ level
    · exact ((layers layer adjacency found).1 low).tidy
    · exact ((layers layer adjacency found).2 low).grow (Nat.le_succ node)
  · intro layer adjacency found
    by_cases low : layer ≤ level
    · exact ((layers layer adjacency found).1 low).closed rfl
    · exact ((layers layer adjacency found).2 low).bounded
  · exact fun layer low adjacency found => (layers layer adjacency found).1 low

/-- Linking keeps the rows, and leaves tidy layers and a stored entry point. -/
theorem wire_ends {start : Graph F G} {node level : Nat} (entered : Entered node level start)
    (inside : ∀ entry, start.entryPoint = some entry → entry < node) (count : start.data.length = node + 1)
    (widths : ∀ row ∈ start.data, ∀ first ∈ start.data.head?, row.length = first.length) (unit : List F) :
    Ends (wire np unit node level) start (fun _ after => after.Tidy ∧ after.data = start.data)
      (fun after => after.Tidy ∧ after.data = start.data) := by
  have tidyOf : ∀ {index : Graph F G}, Working start node (-1) index → index.Tidy ∧
    index.data = start.data := by
    intro index working
    rcases working.frame with ⟨graph, frame⟩
    have data : index.data = start.data := by rw [frame]
    refine ⟨⟨?_, ?_, by rw [data]; exact widths⟩, data⟩
    · intro layer adjacency found
      rw [data, count]
      exact working.tidy layer adjacency found
    · intro entry isEntry
      rw [data, count]
      rw [frame] at isEntry
      exact Nat.lt_succ_of_lt (inside entry isEntry)
  have initial : Working start node (-1) start := by
    refine ⟨⟨start.graph, rfl⟩, entered.tidy, ?_⟩
    intro other low
    omega
  unfold wire
  apply Ends.get_bind
  split
  · refine Ends.set ⟨⟨?_, ?_, widths⟩, rfl⟩
    · rw [count]
      exact entered.tidy
    · rintro entry isEntry
      cases isEntry
      rw [count]
      exact Nat.lt_succ_self node
  · rename_i entryPoint isEntry
    apply reading_bind_ends (tidyOf initial)
    intro entry descended
    have below := descent_within np entered.closed _ (inside entryPoint isEntry) descended
    have rounds : Ends ((rangeDown (min (level : Int) start.topLayer) (-1)).foldlM
      (insertInLayer np unit node) entry)
        start (fun _ after => Working start node (-1) after) (Working start node (-1)) := by
      by_cases some : 0 ≤ start.topLayer
      · have isNat : min (level : Int) start.topLayer =
          ((min level start.topLayer.toNat : Nat) : Int) := by omega
        rw [isNat]
        apply rounds_end np _ _ below
        refine ⟨⟨start.graph, rfl⟩, entered.tidy, ?_⟩
        intro other low
        exact entered.below other (by omega)
      · rw [rangeDown_nil (by omega)]
        exact Ends.pure initial
    apply Ends.bind (rounds.imp (fun _ _ holds => holds) fun _ working => tidyOf working)
    intro _ after working
    rcases tidyOf working with ⟨tidy, data⟩
    split
    · refine Ends.modify ⟨⟨tidy.layers, ?_, tidy.widths⟩, data⟩
      rintro entry isEntry
      cases isEntry
      change node < after.data.length
      rw [data, count]
      exact Nat.lt_succ_self node
    · exact Ends.pure ⟨tidy, data⟩

omit [LinearOrder D] in
theorem append_ends {index : Graph F G} (unit : List F) {failed : Graph F G → Prop} (refused : failed index) :
    Ends (append unit) index
      (fun node after => node = index.data.length ∧ ∃ row, newRow index.data unit = .ok row ∧
        after = { index with data := index.data ++ [row] })
      failed := by
  unfold Ends
  rw [append_eq]
  cases stored : newRow index.data unit with
  | error error => exact refused
  | ok row => exact ⟨rfl, row, rfl, rfl⟩

omit [LinearOrder D] in
theorem randomLevel_ends (index : Graph F G) :
    Ends (randomLevel np) index (fun _ after => ∃ rng, after = { index with rng })
      (fun after => ∃ rng, after = { index with rng }) := by
  have stores : Ends (set { index with rng := (np.drawLevel index.M index.rng).2 } :
    EStateM Error (Graph F G) PUnit)
      index (fun _ after => ∃ rng, after = { index with rng })
        (fun after => ∃ rng, after = { index with rng }) :=
    Ends.set ⟨_, rfl⟩
  apply Ends.get_bind
  apply Ends.bind stores
  rintro _ after same
  split
  · exact Ends.pure same
  · exact Ends.throw same

omit [LinearOrder D] in
/-- Registering stores one row, or raises behind the store or in front of it. -/
theorem register_ends {index : Graph F G} (tidy : index.Tidy) (vector : List F) :
    Ends (register np vector) index
      (fun registered start => registered.1 = index.data.length ∧
        Entered registered.1 registered.2 start ∧ start.entryPoint = index.entryPoint ∧
        start.data.length = index.data.length + 1 ∧
        ∀ row ∈ start.data, ∀ first ∈ start.data.head?, row.length = first.length)
      (fun after => after.Tidy ∧ index.data.length ≤ after.data.length) := by
  apply Ends.bind (append_ends (np.normalize vector) ⟨tidy, Nat.le_refl _⟩)
  rintro node middle ⟨isNode, row, stored, isMiddle⟩
  have count : middle.data.length = index.data.length + 1 := by
    rw [isMiddle, List.length_append, List.length_singleton]
  have widths : ∀ other ∈ middle.data, ∀ first ∈ middle.data.head?, other.length = first.length := by
    rw [isMiddle]
    exact newRow_head stored tidy.widths
  have layers : ∀ (layer : Nat) (adjacency : Layer), middle.graph[layer]? = some adjacency →
      adjacency.Tidy node := by
    rw [isMiddle, isNode]
    exact tidy.layers
  have isEntry : middle.entryPoint = index.entryPoint := by rw [isMiddle]
  apply Ends.bind ((randomLevel_ends np middle).imp (fun _ _ holds => holds) ?_)
  · rintro level after ⟨rng, isAfter⟩
    have afterLayers : ∀ (layer : Nat) (adjacency : Layer), after.graph[layer]? = some adjacency →
        adjacency.Tidy node := by
      rw [isAfter]
      exact layers
    have entered := registerNode_entered afterLayers level
    have rest : after.entryPoint = index.entryPoint ∧ after.data.length = index.data.length + 1 ∧
        ∀ row ∈ after.data, ∀ first ∈ after.data.head?, row.length = first.length := by
      rw [isAfter]
      exact ⟨isEntry, count, widths⟩
    exact ⟨isNode, entered, rest⟩
  · rintro after ⟨rng, isAfter⟩
    rw [isAfter]
    refine ⟨⟨?_, ?_, widths⟩, Nat.le_of_lt (by rw [count]; exact Nat.lt_succ_self _)⟩
    · intro layer adjacency found
      change adjacency.Tidy middle.data.length
      rw [count, ← isNode]
      exact (layers layer adjacency found).grow (Nat.le_succ _)
    · intro entry entryPoint
      change entry < middle.data.length
      rw [count]
      exact Nat.lt_succ_of_lt (tidy.entry entry (isEntry ▸ entryPoint))

/-- Any insertion leaves a tidy index, with one more row if it returns. -/
theorem insert_ends {index : Graph F G} (tidy : index.Tidy) (vector : List F) :
    Ends (insert np vector) index
      (fun _ after => after.Tidy ∧ after.data.length = index.data.length + 1)
      (fun after => after.Tidy ∧ index.data.length ≤ after.data.length) := by
  apply Ends.bind (register_ends np tidy vector)
  rintro ⟨node, level⟩ start ⟨isNode, entered, isEntry, count, widths⟩
  change node = index.data.length at isNode
  have inside : ∀ entry, start.entryPoint = some entry → entry < node := by
    intro entry entryPoint
    rw [isNode]
    exact tidy.entry entry (isEntry ▸ entryPoint)
  have isCount : start.data.length = node + 1 := by rw [count, isNode]
  apply (wire_ends np entered inside isCount widths (np.normalize vector)).imp
  · rintro _ after ⟨afterTidy, data⟩
    exact ⟨afterTidy, by rw [data, count]⟩
  · rintro after ⟨afterTidy, data⟩
    exact ⟨afterTidy, by rw [data, count]; exact Nat.le_succ _⟩

omit [LinearOrder D] in
theorem init_tidy (M efConstruction efSearch : Nat) (selection : NeighborSelection) (rng : G) :
    (init M efConstruction efSearch selection rng : HNSW F G).toGraph.Tidy := by
  constructor
  · exact fun layer adjacency found => nomatch found
  · exact fun node impossible => nomatch impossible
  · exact fun row member => absurd member List.not_mem_nil

end HNSW
end VectorSearch
