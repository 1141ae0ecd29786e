import VectorSearch.Index.Rows

namespace VectorSearch

/-!
# Writing to the contents of a shard

A write reads and changes only the contents of a shard.  Stating this once
lets the storage layer speak of histories of writes without the beam width and
the payload index, which a restart does not preserve.
-/

open Stateful

variable {F D G : Type}

namespace Contents

/-- An empty shard's contents. -/
def init (np : Numpy F D G) (params : HnswParams) : Contents F G :=
  (Shard.init np params).contents

variable [LinearOrder D] (np : Numpy F D G)

def add (globalId : Int) (vector : List F) (payload : String) :
    EStateM Error (Contents F G) Unit := fun contents =>
  match HNSW.insert np vector contents.graph with
  | .ok _ graph => .ok () ⟨graph, contents.globalIds ++ [globalId], contents.payloads ++ [payload]⟩
  | .error error graph => .error error { contents with graph }

def addAll : List (Int × List F × String) → EStateM Error (Contents F G) Unit
  | [] => pure ()
  | (globalId, vector, payload) :: rest => do
      add np globalId vector payload
      addAll rest

end Contents

namespace Shard

/-- The shard with other contents. -/
def withContents (shard : Shard F G) (contents : Contents F G) : Shard F G :=
  { shard with
    index := { shard.index with toGraph := contents.graph }
    globalIds := contents.globalIds
    payloads := contents.payloads }

@[simp] theorem contents_withContents (shard : Shard F G) (contents : Contents F G) :
    (shard.withContents contents).contents = contents := rfl

@[simp] theorem withContents_contents (shard : Shard F G) :
    shard.withContents shard.contents = shard := rfl

@[simp] theorem withContents_withContents (shard : Shard F G) (first second : Contents F G) :
    (shard.withContents first).withContents second = shard.withContents second := rfl

/-- The result of an action on contents, as that of an action on the shard. -/
def lift {α : Type} (shard : Shard F G) :
    EStateM.Result Error (Contents F G) α → EStateM.Result Error (Shard F G) α
  | .ok value contents => .ok value (shard.withContents contents)
  | .error error contents => .error error (shard.withContents contents)

variable [LinearOrder D] (np : Numpy F D G)

theorem add_eq_lift (globalId : Int) (vector : List F) (payload : String) (shard : Shard F G) :
    add np globalId vector payload shard =
      shard.lift (Contents.add np globalId vector payload shard.contents) := by
  have graph : shard.contents.graph = shard.index.toGraph := rfl
  simp only [add, Contents.add, graph]
  cases HNSW.insert np vector shard.index.toGraph <;> rfl

/-- Adding to a shard is adding to its contents. -/
theorem addAll_eq_lift (items : List (Int × List F × String)) (shard : Shard F G) :
    addAll np items shard = shard.lift (Contents.addAll np items shard.contents) := by
  induction items generalizing shard with
  | nil => rfl
  | cons item rest inductionHypothesis =>
      obtain ⟨globalId, vector, payload⟩ := item
      simp only [addAll, Contents.addAll, bind, EStateM.bind, add_eq_lift]
      cases Contents.add np globalId vector payload shard.contents with
      | error error contents => rfl
      | ok value contents =>
          simp only [lift, inductionHypothesis, contents_withContents]
          cases Contents.addAll np rest contents <;> rfl

/-! ## Searching -/

section Searching

omit [LinearOrder D] in
theorem asking_maintains {α : Type} (good : Shard F G → Prop) (result : Except Error α) :
    Maintains good (asking result : Searching F G α) := by
  cases result with
  | ok value => exact Maintains.pure value
  | error error => exact Maintains.throw error

omit [LinearOrder D] in
theorem catchUpIndex_maintains (contents : Contents F G) :
    Maintains (fun shard : Shard F G => shard.contents = contents) catchUpIndex := by
  intro shard same
  simp only [final, catchUpIndex]
  cases PayloadIndex.catchUp shard.payloads shard.payloadIndex <;> exact same

/-! A search changes the shard only where it brings the payload index up to date. -/

variable {good : Shard F G → Prop} (catches : Maintains good catchUpIndex)

include catches

theorem nearestMatching_maintains (query : List F) (k : Int) (filter : Filter) :
    Maintains good (nearestMatching np query k filter) := by
  apply Maintains.bind catches
  intro _
  apply Maintains.get_bind
  intro shard _
  apply Maintains.bind (asking_maintains good _)
  intro allowed
  dsimp only
  split
  · exact Maintains.pure _
  · split
    · exact asking_maintains good _
    · exact asking_maintains good _

theorem nearest_maintains (query : List F) (k : Int) (filter : Option Filter) :
    Maintains good (nearest np query k filter) := by
  unfold nearest
  split
  · apply Maintains.get_bind
    exact fun _ _ => asking_maintains good _
  · exact nearestMatching_maintains np catches query k _

theorem search_maintains (query : List F) (k : Int) (filter : Option Filter) :
    Maintains good (search np query k filter) := by
  apply Maintains.bind (nearest_maintains np catches query k filter)
  intro found
  apply Maintains.get_bind
  exact fun _ _ => asking_maintains good _

theorem searchWithPayloads_maintains (query : List F) (k : Int) (filter : Option Filter) :
    Maintains good (searchWithPayloads np query k filter) := by
  apply Maintains.bind (nearest_maintains np catches query k filter)
  intro found
  apply Maintains.get_bind
  exact fun _ _ => asking_maintains good _

end Searching
end Shard

namespace Contents

variable [LinearOrder D] (np : Numpy F D G)

theorem addAll_append (front back : List (Int × List F × String)) :
    (addAll np (front ++ back) : EStateM Error (Contents F G) Unit) =
      (addAll np front >>= fun _ => addAll np back) := by
  induction front with
  | nil => rfl
  | cons item rest inductionHypothesis => simp only [List.cons_append, addAll, inductionHypothesis, bind_assoc]

/-- The common width of the rows, and ids of 64 bits, as they are kept by writes. -/
def Width (width : Nat) (contents : Contents F G) : Prop := contents.graph.Width width

theorem addAll_width (width : Nat) (items : List (Int × List F × String))
    (widths : ∀ item ∈ items, item.2.1.length = width) :
    Maintains (Width width) (addAll np items : EStateM Error (Contents F G) Unit) := by
  induction items with
  | nil => exact Maintains.pure ()
  | cons item rest inductionHypothesis =>
      have first : Maintains (Width width) (add np item.1 item.2.1 item.2.2) := by
        intro contents rows
        have kept := HNSW.insert_width np (widths item List.mem_cons_self) contents.graph rows
        simp only [final, add] at kept ⊢
        cases outcome : HNSW.insert np item.2.1 contents.graph with
        | ok value graph =>
            simp only [outcome] at kept
            exact kept
        | error error graph =>
            simp only [outcome] at kept
            exact kept
      exact Maintains.bind first fun _ =>
        inductionHypothesis fun other member => widths other (List.mem_cons_of_mem _ member)

/-- A complete write extends the ids and the payloads by those given. -/
theorem addAll_ok (items : List (Int × List F × String)) {contents after : Contents F G}
    (added : addAll np items contents = .ok () after) :
    after.globalIds = contents.globalIds ++ items.map Prod.fst ∧
      after.payloads = contents.payloads ++ items.map (fun item => item.2.2) := by
  induction items generalizing contents with
  | nil =>
      cases added
      simp only [List.map_nil, List.append_nil, and_self]
  | cons item rest inductionHypothesis =>
      obtain ⟨globalId, vector, payload⟩ := item
      simp only [addAll, bind, EStateM.bind, add] at added
      cases outcome : HNSW.insert np vector contents.graph with
      | error error graph => rw [outcome] at added; cases added
      | ok value graph =>
          rw [outcome] at added
          have later := inductionHypothesis added
          rw [later.1, later.2]
          simp only [List.append_assoc, List.singleton_append, List.map_cons, and_self]

end Contents
end VectorSearch
