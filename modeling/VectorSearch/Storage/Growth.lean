import VectorSearch.Index.Insertion
import VectorSearch.Storage.History

namespace VectorSearch

/-!
# What writes of one dimension do

On a shard whose rows have one dimension, a write of that dimension is taken
whenever its level draws are finite, and adds one row, one id and one text for
each vector.  So the contents of a sound history are its writes put together.
-/

open Stateful

variable {D G : Type} [LinearOrder D] (np : Numpy Float32Bits D G)

omit [LinearOrder D] in
/-- The next level draws of a generator are all finite. -/
def Numpy.drawsFinite (np : Numpy Float32Bits D G) (M : Nat) : Nat → G → Bool
  | 0, _ => true
  | count + 1, rng =>
      match np.drawLevel M rng with
      | (some _, rng) => np.drawsFinite M count rng
      | (none, _) => false

namespace Contents

/-- A write that was taken. -/
structure Extended (width : Nat) (items : List (Int × List Float32Bits × String))
    (before after : Contents Float32Bits G) : Prop where
  wellFormed : after.graph.WellFormed width
  data : after.graph.data = before.graph.data ++ items.map fun item => np.normalize item.2.1
  globalIds : after.globalIds = before.globalIds ++ items.map Prod.fst
  payloads : after.payloads = before.payloads ++ items.map fun item => item.2.2

theorem add_extended {width : Nat} {contents after : Contents Float32Bits G}
    {item : Int × List Float32Bits × String} (wellFormed : contents.graph.WellFormed width)
    (length : item.2.1.length = width) (run : add np item.1 item.2.1 item.2.2 contents = .ok () after) :
    Extended np width [item] contents after := by
  unfold add at run
  cases inserted : HNSW.insert np item.2.1 contents.graph with
  | error error graph =>
      rw [inserted] at run
      cases run
  | ok value graph =>
      rw [inserted] at run
      cases run
      rcases HNSW.insert_inserted np wellFormed length inserted with ⟨level, rng, _, grown⟩
      rcases grown.frame with ⟨layers, entryPoint, topLayer, frame⟩
      refine ⟨grown.wellFormed, ?_, rfl, rfl⟩
      simp only [frame, List.map_cons, List.map_nil]

omit [LinearOrder D] in
theorem Extended.trans {width : Nat} {first second : List (Int × List Float32Bits × String)}
    {before middle after : Contents Float32Bits G} (front : Extended np width first before middle)
    (back : Extended np width second middle after) : Extended np width (first ++ second) before after := by
  constructor
  · exact back.wellFormed
  · rw [back.data, front.data, List.map_append, List.append_assoc]
  · rw [back.globalIds, front.globalIds, List.map_append, List.append_assoc]
  · rw [back.payloads, front.payloads, List.map_append, List.append_assoc]

theorem addAll_extended {width : Nat} (items : List (Int × List Float32Bits × String))
    {contents after : Contents Float32Bits G} (wellFormed : contents.graph.WellFormed width)
    (widths : ∀ item ∈ items, item.2.1.length = width) (run : addAll np items contents = .ok () after) :
    Extended np width items contents after := by
  induction items generalizing contents with
  | nil =>
      cases run
      exact ⟨wellFormed, (List.append_nil _).symm, (List.append_nil _).symm, (List.append_nil _).symm⟩
  | cons item rest inductionHypothesis =>
      rcases bind_ok run with ⟨_, middle, first, later⟩
      have one := add_extended np wellFormed (widths item List.mem_cons_self) first
      exact one.trans np (inductionHypothesis one.wellFormed
        (fun other member => widths other (List.mem_cons_of_mem _ member)) later)

/-- While the draws are finite nothing raises. -/
theorem addAll_returns {width : Nat} (items : List (Int × List Float32Bits × String))
    {contents : Contents Float32Bits G} (wellFormed : contents.graph.WellFormed width)
    (widths : ∀ item ∈ items, item.2.1.length = width)
    (draws : np.drawsFinite contents.graph.M items.length contents.graph.rng = true) :
    Returns (addAll np items) contents fun _ _ => True := by
  induction items generalizing contents with
  | nil => exact Returns.pure trivial
  | cons item rest inductionHypothesis =>
      rw [List.length_cons, Numpy.drawsFinite] at draws
      cases draw : np.drawLevel contents.graph.M contents.graph.rng with
      | mk level rng =>
          rw [draw] at draws
          cases level with
          | none => cases draws
          | some level =>
              rcases HNSW.insert_returns np wellFormed (widths item List.mem_cons_self) draw with
                ⟨_, graph, inserted, grown⟩
              rcases grown.frame with ⟨layers, entryPoint, topLayer, frame⟩
              have added : add np item.1 item.2.1 item.2.2 contents =
                  .ok () ⟨graph, contents.globalIds ++ [item.1], contents.payloads ++ [item.2.2]⟩ := by
                simp only [add, inserted]
              apply Returns.run_bind added
              apply inductionHypothesis
              · exact grown.wellFormed
              · exact fun other member => widths other (List.mem_cons_of_mem _ member)
              · simp only [frame]
                exact draws

end Contents

/-! ## Writes -/

theorem Write.items_length (write : Write) : write.items.length = write.vectors.rows.length := by
  rw [Write.items, List.length_zip, List.length_zip, write.texts, write.counted, Nat.min_self, Nat.min_self]

theorem Write.items_vectors (write : Write) : write.items.map (fun item => item.2.1) = write.vectors.rows := by
  have outer : write.items.map Prod.snd = write.vectors.rows.zip write.payloads :=
    List.map_snd_zip (by rw [List.length_zip, ← write.counted, write.texts, Nat.min_self])
  have inner : (write.vectors.rows.zip write.payloads).map Prod.fst = write.vectors.rows :=
    List.map_fst_zip (by rw [write.texts, write.counted])
  rw [← inner, ← outer, List.map_map]
  rfl

/-- What the contents are once a write is applied. -/
structure Contents.Holds (write : Write) (before after : Contents Float32Bits G) : Prop where
  data : after.graph.data = before.graph.data ++ write.vectors.rows.map np.normalize
  globalIds : after.globalIds = before.globalIds ++ write.globalIds
  payloads : after.payloads = before.payloads ++ write.payloads

theorem Contents.apply_holds {width : Nat} {write : Write} {contents after : Contents Float32Bits G}
    (wellFormed : contents.graph.WellFormed width)
    (uniform : ∀ row ∈ write.vectors.rows, row.length = width)
    (applied : contents.apply np write = some after) :
    after.graph.WellFormed width ∧ Contents.Holds np write contents after := by
  have grown := addAll_extended np write.items wellFormed (write.items_rows uniform)
    (Contents.apply_ok np applied)
  refine ⟨grown.wellFormed, ?_, ?_, ?_⟩
  · rw [grown.data, ← write.items_vectors, List.map_map]
    rfl
  · rw [grown.globalIds, write.items_ids]
  · rw [grown.payloads, write.items_payloads]

/-- A write of the right dimension is taken while its draws are finite. -/
theorem Contents.apply_some {width : Nat} {write : Write} {contents : Contents Float32Bits G}
    (wellFormed : contents.graph.WellFormed width)
    (uniform : ∀ row ∈ write.vectors.rows, row.length = width)
    (draws : np.drawsFinite contents.graph.M write.vectors.rows.length contents.graph.rng = true) :
    ∃ after, contents.apply np write = some after := by
  rw [← write.items_length] at draws
  rcases addAll_returns np write.items wellFormed (write.items_rows uniform) draws with ⟨_, after, run, _⟩
  refine ⟨after, ?_⟩
  simp only [Contents.apply, run]

/-! ## Histories -/

namespace History

def rows (history : History) : List (List Float32Bits) :=
  history.writes.flatMap fun write => write.vectors.rows

def globalIds (history : History) : List Int := history.writes.flatMap Write.globalIds

def payloads (history : History) : List String := history.writes.flatMap Write.payloads

/-- The contents that hold exactly the writes of a history. -/
structure Filled (dim : Nat) (history : History) (contents : Contents Float32Bits G) : Prop where
  wellFormed : contents.graph.WellFormed dim
  data : contents.graph.data = history.rows.map np.normalize
  globalIds : contents.globalIds = history.globalIds
  payloads : contents.payloads = history.payloads

theorem Filled.applyAll {dim : Nat} (writes : List Write) {history : History}
    {contents after : Contents Float32Bits G} (filled : history.Filled np dim contents)
    (uniform : ∀ write ∈ writes, ∀ row ∈ write.vectors.rows, row.length = dim)
    (applied : contents.applyAll np writes = some after) : (history.extend writes).Filled np dim after := by
  induction writes generalizing history contents with
  | nil =>
      cases applied
      rw [extend_nil]
      exact filled
  | cons write rest inductionHypothesis =>
      simp only [Contents.applyAll, List.foldlM_cons] at applied
      cases first : contents.apply np write with
      | none =>
          rw [first] at applied
          cases applied
      | some middle =>
          rw [first] at applied
          rcases Contents.apply_holds np filled.wellFormed (uniform write List.mem_cons_self) first with
            ⟨wellFormed, holds⟩
          rw [← push_extend]
          apply inductionHypothesis _ (fun other member => uniform other (List.mem_cons_of_mem _ member))
            applied
          constructor
          · exact wellFormed
          · rw [holds.data, filled.data]
            simp only [rows, push, List.flatMap_append, List.map_append, List.flatMap_cons, List.flatMap_nil,
              List.append_nil]
          · rw [holds.globalIds, filled.globalIds]
            simp only [History.globalIds, push, List.flatMap_append, List.flatMap_cons, List.flatMap_nil,
              List.append_nil]
          · rw [holds.payloads, filled.payloads]
            simp only [History.payloads, push, List.flatMap_append, List.flatMap_cons, List.flatMap_nil,
              List.append_nil]

/-- A sound history leads to contents that hold its writes and nothing else. -/
theorem Sound.filled {dim : Nat} {history : History} (sound : history.Sound np dim)
    {contents : Contents Float32Bits G} (reached : history.replay np = some contents) :
    history.Filled np dim contents := by
  have start : History.Filled np dim ⟨history.params, []⟩ (Contents.init np history.params) := by
    constructor
    · exact HNSW.init_wellFormed dim history.params.M history.params.efConstruction
        (history.params.efSearch.getD defaultEfSearch) history.params.neighborSelection
        (np.defaultRng history.params.seed)
    · rfl
    · rfl
    · rfl
  exact start.applyAll np history.writes sound.uniform reached

/-- What a shard holds is at the same place in another one. -/
structure Within (contents larger : Contents Float32Bits G) : Prop where
  data : contents.graph.data <+: larger.graph.data
  globalIds : contents.globalIds <+: larger.globalIds
  payloads : contents.payloads <+: larger.payloads

omit [LinearOrder D] in
/-- Nothing is lost as a history grows. -/
theorem Begins.within {first second : Nat} {history longer : History} {contents larger : Contents Float32Bits G}
    (begins : history.Begins longer) (filled : history.Filled np first contents)
    (fuller : longer.Filled np second larger) : Within contents larger := by
  rcases begins.writes with ⟨rest, whole⟩
  refine ⟨?_, ?_, ?_⟩
  · rw [filled.data, fuller.data, rows, rows, ← whole, List.flatMap_append, List.map_append]
    exact List.prefix_append _ _
  · rw [filled.globalIds, fuller.globalIds, History.globalIds, History.globalIds, ← whole, List.flatMap_append]
    exact List.prefix_append _ _
  · rw [filled.payloads, fuller.payloads, History.payloads, History.payloads, ← whole, List.flatMap_append]
    exact List.prefix_append _ _

/-- Nothing but the stored rows fixes the dimension of a history. -/
theorem Sound.redimension {dim : Nat} {history : History} (sound : history.Sound np dim)
    {contents : Contents Float32Bits G} (reached : history.replay np = some contents) {other : Nat}
    (positive : 0 < other) (stored : ∀ row ∈ contents.graph.data, row.length = other) :
    history.Sound np other := by
  refine ⟨positive, ?_, sound.applied, sound.short⟩
  intro write member row inside
  have present : np.normalize row ∈ contents.graph.data := by
    rw [(sound.filled np reached).data]
    exact List.mem_map_of_mem (List.mem_flatMap.mpr ⟨write, member, inside⟩)
  rw [← stored _ present, np.normalize_length]

end History
end VectorSearch
