import VectorSearch.Index.Alignment
import VectorSearch.Index.Exact
import VectorSearch.Storage.Snapshot

namespace VectorSearch

/-!
# A snapshot gives the shard back

Whatever adds a shard has seen, saving it and loading the file gives a shard
with the same contents: later adds change both alike, and with the same beam
width later searches answer alike.  An add may raise and still leave a row
behind; the rows keep their common width all the same.
-/

open Stateful HNSW

variable {D G : Type} (np : Numpy Float32Bits D G) (npz : Npz G)

/-- The bytes `save_snapshot` writes to the file. -/
def saveSnapshot (shard : Shard Float32Bits G) (lastSeq : Nat) : Except Error Bytes :=
  (snapshotArchive shard lastSeq).map npz.savez

namespace Shard

/-- What adds keep true of a shard that nobody has searched. -/
structure Unsearched (dim : Nat) (shard : Shard Float32Bits G) : Prop where
  width : shard.index.Width dim
  ids : shard.globalIds.all fitsInt64 = true
  payloadIndex : shard.payloadIndex = PayloadIndex.init

theorem Unsearched.start (dim : Nat) (params : HnswParams) :
    Unsearched dim (init np params : Shard Float32Bits G) where
  width := fun _ member => nomatch member
  ids := rfl
  payloadIndex := rfl

theorem Unsearched.storable {dim : Nat} (positive : 0 < dim) {shard : Shard Float32Bits G}
    (unsearched : Unsearched dim shard) : shard.contents.Storable :=
  ⟨⟨dim, positive, unsearched.width⟩, unsearched.ids⟩

/-- A shard nobody has searched comes back as it is, but for the beam width. -/
theorem Unsearched.reloaded {dim : Nat} {shard : Shard Float32Bits G} (unsearched : Unsearched dim shard)
    {efSearch : Option Nat} (same : efSearch.getD shard.index.efSearch = shard.index.efSearch) :
    reloaded efSearch shard = shard := by
  unfold VectorSearch.reloaded
  rw [same, ← unsearched.payloadIndex]

variable [LinearOrder D]

/-- The shard a list of adds leaves behind, some of which may have raised. -/
def afterAdds (items : List (Added Float32Bits)) (shard : Shard Float32Bits G) : Shard Float32Bits G :=
  ShardCall.runAll np (items.map .add) shard

theorem add_unsearched {dim : Nat} {item : Added Float32Bits} (width : item.2.1.length = dim)
    (id : fitsInt64 item.1 = true) :
    Maintains (Unsearched dim (G := G)) (add np item.1 item.2.1 item.2.2) := by
  intro shard unsearched
  have rows := insert_width np width shard.index.toGraph unsearched.width
  simp only [final, add] at rows ⊢
  cases outcome : insert np item.2.1 shard.index.toGraph with
  | ok value graph =>
      rw [outcome] at rows
      refine ⟨rows, ?_, unsearched.payloadIndex⟩
      simp only [List.all_append, unsearched.ids, List.all_cons, id, List.all_nil, Bool.and_self]
  | error error graph =>
      rw [outcome] at rows
      exact ⟨rows, unsearched.ids, unsearched.payloadIndex⟩

theorem afterAdds_unsearched {dim : Nat} (items : List (Added Float32Bits))
    (widths : ∀ item ∈ items, item.2.1.length = dim) (ids : ∀ item ∈ items, fitsInt64 item.1 = true)
    {shard : Shard Float32Bits G} (unsearched : Unsearched dim shard) :
    Unsearched dim (afterAdds np items shard) := by
  induction items generalizing shard with
  | nil => exact unsearched
  | cons item rest inductionHypothesis =>
      have first := add_unsearched np (widths item List.mem_cons_self) (ids item List.mem_cons_self)
        shard unsearched
      exact inductionHypothesis (fun other member => widths other (List.mem_cons_of_mem _ member))
        (fun other member => ids other (List.mem_cons_of_mem _ member)) first

/-! ## Shards with the same contents -/

/-- An add sees only the contents. -/
theorem add_contents {first second : Shard Float32Bits G} (same : first.contents = second.contents)
    (item : Added Float32Bits) :
    (final (add np item.1 item.2.1 item.2.2) first).contents =
      (final (add np item.1 item.2.1 item.2.2) second).contents := by
  simp only [final, add_eq_lift, same]
  cases Contents.add np item.1 item.2.1 item.2.2 second.contents <;> rfl

theorem afterAdds_contents {first second : Shard Float32Bits G} (same : first.contents = second.contents)
    (items : List (Added Float32Bits)) :
    (afterAdds np items first).contents = (afterAdds np items second).contents := by
  induction items generalizing first second with
  | nil => exact same
  | cons item rest inductionHypothesis => exact inductionHypothesis (add_contents np same item)

/-- The second shard can stand in for the first. -/
structure Restores (restored original : Shard Float32Bits G) : Prop where
  contents : restored.contents = original.contents
  adds : ∀ items, (afterAdds np items restored).contents = (afterAdds np items original).contents
  searches : restored.index.efSearch = original.index.efSearch → ∀ calls query k filter,
    searchWithPayloads np query k filter (ShardCall.runAll np calls restored) =
        searchWithPayloads np query k filter (ShardCall.runAll np calls original) ∧
      search np query k filter (ShardCall.runAll np calls restored) =
        search np query k filter (ShardCall.runAll np calls original)

theorem Unsearched.restores {dim : Nat} {shard : Shard Float32Bits G} (unsearched : Unsearched dim shard)
    (efSearch : Option Nat) : Restores np (VectorSearch.reloaded efSearch shard) shard where
  contents := rfl
  adds := afterAdds_contents np rfl
  searches := by
    intro same calls query k filter
    rw [unsearched.reloaded same]
    exact ⟨rfl, rfl⟩

/-- Saving a shard that was built by adds and loading it gives the shard back. -/
theorem snapshot_round_trip (params : HnswParams) {dim : Nat} (positive : 0 < dim)
    (items : List (Added Float32Bits)) (widths : ∀ item ∈ items, item.2.1.length = dim)
    (ids : ∀ item ∈ items, fitsInt64 item.1 = true) (lastSeq : Nat) (efSearch : Option Nat) :
    ∃ data restored, saveSnapshot npz (afterAdds np items (init np params)) lastSeq = .ok data ∧
      loadSnapshot np npz efSearch data = .ok (restored, lastSeq) ∧
      Restores np restored (afterAdds np items (init np params)) := by
  have unsearched := afterAdds_unsearched np items widths ids (Unsearched.start np dim params)
  rcases loadArchive_snapshotArchive np efSearch lastSeq (unsearched.storable positive) with
    ⟨archive, saved, loaded⟩
  refine ⟨npz.savez archive, _, ?_, ?_, unsearched.restores np efSearch⟩
  · rw [saveSnapshot, saved]
    rfl
  · rw [loadSnapshot, npz.load_savez]
    exact loaded

/-- Two vectors, one of them with a payload. -/
def axisItems : List (Added Float32Bits) :=
  [(7, [0x3F800000, 0], ""), (-1, [0, 0x3F800000], "[true, 3, null]")]

theorem snapshot_round_trip_axes :
    ∃ data restored,
      saveSnapshot (Npz.numbered Unit)
        (afterAdds (Numpy.flat Numpy.axisDistance) axisItems (init (Numpy.flat Numpy.axisDistance)
          ⟨2, 10, none, 0, .heuristic⟩)) 2 = .ok data ∧
      loadSnapshot (Numpy.flat Numpy.axisDistance) (Npz.numbered Unit) (some 5) data = .ok (restored, 2) ∧
      Restores (Numpy.flat Numpy.axisDistance) restored
        (afterAdds (Numpy.flat Numpy.axisDistance) axisItems (init (Numpy.flat Numpy.axisDistance)
          ⟨2, 10, none, 0, .heuristic⟩)) :=
  snapshot_round_trip (Numpy.flat Numpy.axisDistance) (Npz.numbered Unit) ⟨2, 10, none, 0, .heuristic⟩
    (by decide : 0 < 2) axisItems (by decide) (by decide) 2 (some 5)

end Shard
end VectorSearch
