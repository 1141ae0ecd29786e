import VectorSearch.Index.Selection

namespace VectorSearch

/-!
# Linking a new node into a layer

One round of an insertion changes one layer.  The new node starts without links
and nobody links to it; each selected neighbour gets a link in both directions,
and keeps a selection of its links when it has too many.
-/

open Stateful

variable {F D G : Type} [LinearOrder D]

namespace HNSW

theorem le_maxConn (M layer : Nat) : M ≤ maxConn M layer := by
  unfold maxConn
  split
  · omega
  · exact Nat.le_refl M

variable (np : Numpy F D G)

/-- The links a node is left with: all of them, or a selection when there are
more than the cap. -/
def Kept (selection : NeighborSelection) (data : List (List F)) (cap owner : Nat) (links kept : List Nat) :
    Prop :=
  (links.length ≤ cap ∧ kept = links) ∨
    (cap < links.length ∧ keptLinks np selection data cap owner links = .ok kept)

/-- What connecting the new node with one neighbour does to the layer. -/
structure Joined (selection : NeighborSelection) (data : List (List F)) (node cap neighbor : Nat)
    (adjacency : Layer) (forward back kept : List Nat) (after : Layer) : Prop where
  own : adjacency.get? node = some forward
  theirs : adjacency.get? neighbor = some back
  keeps : Kept np selection data cap neighbor (back ++ [node]) kept
  result : after = (adjacency.set node (forward ++ [neighbor])).set neighbor kept

variable {np}

theorem setNeighbors_eq {graph : List Layer} {layer : Nat} {adjacency : Layer}
    (found : graph[layer]? = some adjacency) (node : Nat) (links : List Nat) :
    setNeighbors graph layer node links = graph.set layer (adjacency.set node links) := by
  apply List.ext_getElem?
  intro other
  rw [setNeighbors_getElem?, List.getElem?_set]
  by_cases same : other = layer
  · have inside := (List.getElem?_eq_some_iff.mp found).1
    rw [if_pos same, if_pos same.symm, if_pos inside, same, found]
    rfl
  · rw [if_neg same, if_neg (Ne.symm same)]

theorem appendLink_run {index : Graph F G} {layer node : Nat} {adjacency : Layer} {links : List Nat}
    (found : index.graph[layer]? = some adjacency) (linked : adjacency.get? node = some links) (other : Nat) :
    appendLink layer node other index = .ok (links ++ [other])
      { index with graph := index.graph.set layer (adjacency.set node (links ++ [other])) } := by
  rw [← setNeighbors_eq found]
  have looked : (layerAt index.graph layer >>= (neighborsOf · node)) = .ok links := by
    rw [layerAt_eq found]
    exact neighborsOf_eq linked
  change (reading (layerAt index.graph layer >>= (neighborsOf · node)) >>= fun links => do
    set { index with graph := setNeighbors index.graph layer node (links ++ [other]) }
    return links ++ [other]) index = _
  rw [looked]
  rfl

/-- Linking in both directions, before any cut. -/
theorem appendBoth_run {index : Graph F G} {layer node neighbor : Nat} {adjacency : Layer}
    (found : index.graph[layer]? = some adjacency) (different : neighbor ≠ node) {forward back : List Nat}
    (own : adjacency.get? node = some forward) (theirs : adjacency.get? neighbor = some back) :
    (appendLink layer node neighbor >>= fun _ => appendLink layer neighbor node) index =
      .ok (back ++ [node])
        { index with
          graph := index.graph.set layer
            ((adjacency.set node (forward ++ [neighbor])).set neighbor (back ++ [node])) } := by
  have inside : layer < index.graph.length := (List.getElem?_eq_some_iff.mp found).1
  have foundFirst : (index.graph.set layer (adjacency.set node (forward ++ [neighbor])))[layer]? =
      some (adjacency.set node (forward ++ [neighbor])) := List.getElem?_set_self inside
  have theirsFirst : (adjacency.set node (forward ++ [neighbor])).get? neighbor = some back := by
    rw [Dict.get?_set, if_neg different, theirs]
  change (appendLink layer node neighbor).bind _ index = _
  unfold EStateM.bind
  rw [appendLink_run found own neighbor]
  change appendLink layer neighbor node _ = _
  rw [appendLink_run foundFirst theirsFirst node, List.set_set]

theorem keptLinks_gives (np : Numpy F D G) (selection : NeighborSelection) {data : List (List F)}
    {width : Nat} (rows : ∀ row ∈ data, row.length = width) (cap : Nat) {owner : Nat}
    (here : owner < data.length) {links : List Nat} (inside : ∀ node ∈ links, node < data.length) :
    Gives (keptLinks np selection data cap owner links) fun kept => Selected links cap kept := by
  apply Gives.bind (rowAt_gives rows here)
  intro base length
  apply Gives.bind (distancesTo_gives np rows length inside)
  intro dists count
  exact selectNeighbors_gives np selection cap rows inside count

theorem Kept.subperm {selection : NeighborSelection} {data : List (List F)} {cap owner : Nat}
    {links kept : List Nat} (keeps : Kept np selection data cap owner links kept) {width : Nat}
    (rows : ∀ row ∈ data, row.length = width) (here : owner < data.length)
    (inside : ∀ node ∈ links, node < data.length) : kept.Subperm links := by
  rcases keeps with ⟨_, all⟩ | ⟨_, selected⟩
  · rw [all]
  · rcases keptLinks_gives np selection rows cap here inside with ⟨value, run, holds⟩
    rw [Except.ok.inj (run.symm.trans selected)] at holds
    exact holds.subperm

variable (np)

theorem connect_returns {width : Nat} {index : Graph F G} (rows : index.Width width) {layer : Nat}
    {adjacency : Layer} (found : index.graph[layer]? = some adjacency)
    (sound : adjacency.Sound index.data.length) (cap : Nat) {node neighbor : Nat} (different : neighbor ≠ node)
    {forward back : List Nat} (own : adjacency.get? node = some forward)
    (theirs : adjacency.get? neighbor = some back) :
    Returns (connect np node layer cap neighbor) index fun _ after => ∃ kept now,
      Joined np index.neighborSelection index.data node cap neighbor adjacency forward back kept now ∧
        after = { index with graph := index.graph.set layer now } := by
  have inside : layer < index.graph.length := (List.getElem?_eq_some_iff.mp found).1
  unfold connect
  rw [← bind_assoc]
  apply Returns.run_bind (appendBoth_run found different own theirs)
  split
  · rename_i long
    have foundBoth : (index.graph.set layer ((adjacency.set node (forward ++ [neighbor])).set neighbor
        (back ++ [node])))[layer]? = some ((adjacency.set node (forward ++ [neighbor])).set neighbor
          (back ++ [node])) := List.getElem?_set_self inside
    have here : neighbor < index.data.length := sound.inside neighbor ⟨back, theirs⟩
    have linksInside : ∀ other ∈ back ++ [node], other < index.data.length := by
      intro other member
      rcases List.mem_append.mp member with old | new
      · exact sound.inside other (sound.closed neighbor back theirs other old)
      · rw [List.mem_singleton.mp new]
        exact sound.inside node ⟨forward, own⟩
    rcases keptLinks_gives np index.neighborSelection rows cap here linksInside with ⟨kept, isKept, _⟩
    unfold cutLinks
    apply Returns.get_bind
    rw [isKept]
    apply Returns.run_bind rfl
    refine Returns.set ⟨kept, _, ⟨own, theirs, Or.inr ⟨long, isKept⟩, rfl⟩, ?_⟩
    rw [setNeighbors_eq foundBoth, List.set_set, Dict.set_set]
  · rename_i few
    exact Returns.pure ⟨back ++ [node], _, ⟨own, theirs, Or.inl ⟨Nat.le_of_not_lt few, rfl⟩, rfl⟩, rfl⟩

/-! ## All selected neighbours -/

/-- The layer half way through a round: the new node is linked with the nodes
done so far, and only they may link back. -/
structure Linking (count : Nat) (start : Layer) (node : Nat) (done : List Nat) (now : Layer) : Prop where
  sound : now.Sound count
  same : ∀ other, now.Has other ↔ start.Has other
  own : now.get? node = some done
  back : ∀ other, now.Link other node → other ∈ done

theorem Linking.start {count : Nat} {adjacency : Layer} {node : Nat} (sound : adjacency.Sound count)
    (own : adjacency.get? node = some []) (unlinked : adjacency.Unlinked node) :
    Linking count adjacency node [] adjacency :=
  ⟨sound, fun _ => Iff.rfl, own, fun other link => absurd link (unlinked other)⟩

theorem nodup_append_one {items : List Nat} {item : Nat} (distinct : items.Nodup) (new : item ∉ items) :
    (items ++ [item]).Nodup := by
  rw [← List.concat_eq_append]
  exact distinct.concat new

variable {np}

theorem Linking.join {selection : NeighborSelection} {data : List (List F)} {width : Nat}
    (rows : ∀ row ∈ data, row.length = width) {start now after : Layer}
    {node neighbor cap : Nat} {done back kept : List Nat} (linking : Linking data.length start node done now)
    (different : neighbor ≠ node) (new : neighbor ∉ done)
    (joined : Joined np selection data node cap neighbor now done back kept after) :
    Linking data.length start node (done ++ [neighbor]) after := by
  have sound := linking.sound
  have nodeHas : now.Has node := ⟨done, joined.own⟩
  have neighborHas : now.Has neighbor := ⟨back, joined.theirs⟩
  have notBack : node ∉ back := fun member =>
    new (linking.back neighbor ⟨back, joined.theirs, member⟩)
  have bothHas : ∀ other ∈ back ++ [node], now.Has other := by
    intro other member
    rcases List.mem_append.mp member with old | last
    · exact sound.closed neighbor back joined.theirs other old
    · rw [List.mem_singleton.mp last]
      exact nodeHas
  have bothDistinct := nodup_append_one (sound.distinct neighbor back joined.theirs) notBack
  have subperm := joined.keeps.subperm rows (sound.inside neighbor neighborHas) fun other member =>
    sound.inside other (bothHas other member)
  have first : Layer.Sound data.length (now.set node (done ++ [neighbor])) := by
    apply sound.set (sound.inside node nodeHas)
    · intro other member
      rcases List.mem_append.mp member with old | last
      · exact sound.closed node done joined.own other old
      · rw [List.mem_singleton.mp last]
        exact neighborHas
    · exact nodup_append_one (sound.distinct node done joined.own) new
    · rw [List.mem_append, List.mem_singleton, not_or]
      exact ⟨sound.loopless node done joined.own, Ne.symm different⟩
  have keptLoopless : neighbor ∉ kept := by
    intro member
    rcases List.mem_append.mp (subperm.subset member) with old | last
    · exact sound.loopless neighbor back joined.theirs old
    · exact different (List.mem_singleton.mp last)
  have keptDistinct : kept.Nodup := by
    rcases subperm with ⟨part, perm, sublist⟩
    exact perm.nodup_iff.mp (bothDistinct.sublist sublist)
  have isNode : ∀ other, now.Has other ∨ other = node ↔ now.Has other := fun other =>
    ⟨fun either => either.elim id fun same => same ▸ nodeHas, Or.inl⟩
  rw [joined.result]
  constructor
  · apply first.set (sound.inside neighbor neighborHas) _ keptDistinct keptLoopless
    intro other member
    exact (Layer.has_set now node _ other).mpr (Or.inr (bothHas other (subperm.subset member)))
  · intro other
    rw [Layer.has_set, Layer.has_set, ← linking.same]
    constructor
    · rintro (same | same | has)
      · exact same ▸ neighborHas
      · exact same ▸ nodeHas
      · exact has
    · exact fun has => Or.inr (Or.inr has)
  · rw [Dict.get?_set, if_neg (Ne.symm different), Dict.get?_set, if_pos rfl]
  · rintro other ⟨links, found, member⟩
    rw [Dict.get?_set] at found
    split at found
    · rename_i same
      rw [same]
      exact List.mem_append_right _ (List.mem_singleton_self neighbor)
    · rw [Dict.get?_set] at found
      split at found
      · -- the new node's own links do not include itself
        rename_i same
        rw [← Option.some.inj found] at member
        rcases List.mem_append.mp member with old | last
        · exact absurd old (sound.loopless node done joined.own)
        · exact absurd (List.mem_singleton.mp last).symm different
      · exact List.mem_append_left _ (linking.back other ⟨links, found, member⟩)

variable (np)

theorem set_found {graph : List Layer} {layer : Nat} {adjacency : Layer}
    (found : graph[layer]? = some adjacency) : graph.set layer adjacency = graph := by
  rcases List.getElem?_eq_some_iff.mp found with ⟨inside, value⟩
  rw [← value]
  exact List.set_getElem_self inside

/-- The loop over the selected neighbours, with what every join keeps. -/
theorem connectAll_keeps {width : Nat} {index : Graph F G} (rows : index.Width width) {layer : Nat}
    {adjacency : Layer} (found : index.graph[layer]? = some adjacency) (cap : Nat) {node : Nat}
    {neighbors : List Nat} (start : Linking index.data.length adjacency node [] adjacency)
    (distinct : neighbors.Nodup) (has : ∀ neighbor ∈ neighbors, adjacency.Has neighbor ∧ neighbor ≠ node)
    (invariant : List Nat → Layer → Prop) (first : invariant [] adjacency)
    (step : ∀ neighbor done back kept now later, neighbor ≠ node → neighbor ∉ done →
      Linking index.data.length adjacency node done now → invariant done now →
      Joined np index.neighborSelection index.data node cap neighbor now done back kept later →
      invariant (done ++ [neighbor]) later) :
    Returns (neighbors.forM (connect np node layer cap)) index fun _ after => ∃ now,
      Linking index.data.length adjacency node neighbors now ∧ invariant neighbors now ∧
        after = { index with graph := index.graph.set layer now } := by
  have inside : layer < index.graph.length := (List.getElem?_eq_some_iff.mp found).1
  apply Returns.forM fun (done : List Nat) (reached : Graph F G) => ∃ now,
    Linking index.data.length adjacency node done now ∧ invariant done now ∧
      reached = { index with graph := index.graph.set layer now }
  · exact ⟨adjacency, start, first, by rw [set_found found]⟩
  · rintro done neighbor rest whole _ ⟨now, linking, keeps, rfl⟩
    rw [whole] at distinct has
    rcases has neighbor (List.mem_append_right _ List.mem_cons_self) with ⟨neighborHas, different⟩
    rcases (linking.same neighbor).mpr neighborHas with ⟨back, theirs⟩
    have new : neighbor ∉ done := fun member =>
      (List.nodup_append.mp distinct).2.2 neighbor member neighbor List.mem_cons_self rfl
    have rowsNow : Graph.Width width { index with graph := index.graph.set layer now } := rows
    apply Returns.imp (connect_returns np rowsNow (List.getElem?_set_self inside)
      linking.sound cap different linking.own theirs)
    rintro _ after ⟨kept, later, joined, isAfter⟩
    exact ⟨later, linking.join rows different new joined,
      step _ _ _ _ _ _ different new linking keeps joined, by rw [isAfter, List.set_set]⟩

/-! ## One round -/

/-- What a search for neighbours returns: nodes reached from the entry, and a
selection among them. -/
structure Found (adjacency : Layer) (entry m : Nat) (scored : List (D × Nat)) (neighbors : List Nat) :
    Prop where
  nonempty : scored ≠ []
  distinct : (scored.map Prod.snd).Nodup
  reached : ∀ node ∈ scored.map Prod.snd, adjacency.Reach entry node
  selected : Selected (scored.map Prod.snd) m neighbors

theorem findNeighbors_gives {width : Nat} {index : Graph F G} (rows : index.Width width) {layer : Nat}
    {adjacency : Layer} (found : index.graph[layer]? = some adjacency)
    (sound : adjacency.Sound index.data.length) {unit : List F} (length : unit.length = width) {entry : Nat}
    (has : adjacency.Has entry) :
    Gives (findNeighbors np index unit entry layer) fun result =>
      Found adjacency entry index.M result.1 result.2 := by
  apply Gives.bind (searchLayer_gives np rows sound length found has)
  rintro results ⟨nonempty, distinct, reached⟩
  have sorted := byDistance_perm results
  have ids := sorted.map Prod.snd
  have inside : ∀ node ∈ (byDistance results).map Prod.snd, node < index.data.length := fun node member =>
    sound.inside node (sound.reach_has has (reached node (ids.subset member)))
  have count : ((byDistance results).map Prod.fst).length = ((byDistance results).map Prod.snd).length := by
    rw [List.length_map, List.length_map]
  apply Gives.bind (selectNeighbors_gives np index.neighborSelection index.M rows inside count)
  intro neighbors selected
  refine Gives.pure ⟨?_, ids.nodup_iff.mpr distinct, fun node member => reached node (ids.subset member),
    selected⟩
  intro nothing
  change byDistance results = [] at nothing
  rw [nothing] at sorted
  exact nonempty sorted.symm.eq_nil

/-- A round links the new node with nodes that were reached, and goes on from
one of them; what every join keeps holds at its end. -/
theorem insertInLayer_keeps {width : Nat} {index : Graph F G} (rows : index.Width width) {layer : Nat}
    {adjacency : Layer} (found : index.graph[layer]? = some adjacency)
    (sound : adjacency.Sound index.data.length) {unit : List F} (length : unit.length = width)
    {node entry : Nat} (own : adjacency.get? node = some []) (unlinked : adjacency.Unlinked node)
    (has : adjacency.Has entry) (different : entry ≠ node) (invariant : Layer → Prop)
    (first : invariant adjacency)
    (step : ∀ neighbor done back kept now later, invariant now →
      Joined np index.neighborSelection index.data node (maxConn index.M layer) neighbor
        now done back kept later →
      invariant later) :
    Returns (insertInLayer np unit node entry layer) index fun next after => ∃ neighbors now,
      Linking index.data.length adjacency node neighbors now ∧ invariant now ∧
        (0 < index.M → neighbors.length ≤ index.M) ∧
        after = { index with graph := index.graph.set layer now } ∧ adjacency.Reach entry next := by
  rcases findNeighbors_gives np rows found sound length has with ⟨⟨scored, neighbors⟩, run, result⟩
  unfold insertInLayer
  apply Returns.get_bind
  rw [run]
  apply Returns.run_bind rfl
  have distinct : neighbors.Nodup := by
    rcases result.selected.subperm with ⟨part, perm, sublist⟩
    exact perm.nodup_iff.mp (result.distinct.sublist sublist)
  have hasAll : ∀ neighbor ∈ neighbors, adjacency.Has neighbor ∧ neighbor ≠ node := by
    intro neighbor member
    have reach := result.reached neighbor (result.selected.subperm.subset member)
    exact ⟨sound.reach_has has reach, unlinked.reach reach different⟩
  apply Returns.bind (connectAll_keeps np rows found (maxConn index.M layer)
    (Linking.start sound own unlinked) distinct hasAll (fun _ => invariant) first
    fun _ _ _ _ _ _ _ _ _ => step _ _ _ _ _ _)
  rintro _ after ⟨now, linking, keeps, isAfter⟩
  rcases List.exists_cons_of_ne_nil result.nonempty with ⟨⟨dist, nearest⟩, rest, isScored⟩
  have reach := result.reached nearest
  change scored = _ at isScored
  rw [isScored] at reach ⊢
  exact Returns.pure ⟨neighbors, now, linking, keeps, result.selected.atMost, isAfter, reach List.mem_cons_self⟩

theorem insertInLayer_returns {width : Nat} {index : Graph F G} (rows : index.Width width) {layer : Nat}
    {adjacency : Layer} (found : index.graph[layer]? = some adjacency)
    (sound : adjacency.Sound index.data.length) {unit : List F} (length : unit.length = width)
    {node entry : Nat} (own : adjacency.get? node = some []) (unlinked : adjacency.Unlinked node)
    (has : adjacency.Has entry) (different : entry ≠ node) :
    Returns (insertInLayer np unit node entry layer) index fun next after => ∃ neighbors now,
      Linking index.data.length adjacency node neighbors now ∧
        after = { index with graph := index.graph.set layer now } ∧ adjacency.Reach entry next := by
  apply Returns.imp (insertInLayer_keeps np rows found sound length own unlinked has different (fun _ => True)
    trivial fun _ _ _ _ _ _ _ _ => trivial)
  rintro next after ⟨neighbors, now, linking, _, _, isAfter, reach⟩
  exact ⟨neighbors, now, linking, isAfter, reach⟩

end HNSW
end VectorSearch
