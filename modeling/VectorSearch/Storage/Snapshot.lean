import Mathlib.Data.Nat.Log
import Mathlib.Logic.Encodable.Basic
import Mathlib.Logic.Equiv.List
import VectorSearch.Lib.Ragged
import VectorSearch.Storage.Record

namespace VectorSearch

/-!
# Snapshots

The arrays `save_snapshot` collects from a shard and what `load_snapshot`
builds from them.  How numpy packs named arrays and the JSON text of the meta
data into one file is a parameter: only that a saved archive is loaded back
unchanged is assumed of it.

Everything a later write depends on survives the trip.  The payload index is
not saved, and the beam width of searches may be overridden while loading.
-/

/-- One layer's adjacency lists, flattened. -/
structure LayerArrays where
  nodes : List Nat
  offsets : List Nat
  neighbors : List Nat

/-- The JSON meta data.  Old snapshots do not name a neighbour selection. -/
structure Meta (G : Type) where
  format : Nat
  lastSeq : Nat
  M : Nat
  efConstruction : Nat
  efSearch : Nat
  neighborSelection : Option NeighborSelection
  entryPoint : Option Nat
  topLayer : Int
  numLayers : Nat
  rngState : G

/-- The named arrays of a snapshot.  `payloads` holds the offsets and the bytes;
snapshots from before payloads existed have neither. -/
structure Archive (G : Type) where
  vectors : Matrix Float32Bits
  globalIds : List Int
  payloads : Option (List Nat × Bytes)
  layers : List LayerArrays
  info : Meta G

/-- `np.savez` and `np.load`. -/
structure Npz (G : Type) where
  savez : Archive G → Bytes
  load : Bytes → Except Error (Archive G)
  load_savez : ∀ archive, load (savez archive) = .ok archive

/-- `SNAPSHOT_FORMAT`. -/
def snapshotFormat : Nat := 3

/-- The formats `load_snapshot` reads: 2 stores vectors at unit length, 3 adds payloads. -/
def knownFormats : List Nat := [1, 2, snapshotFormat]

/-! ## Layers -/

def saveLayer (layer : Layer) : LayerArrays where
  nodes := layer.keys
  offsets := Ragged.offsets (layer.entries.map Prod.snd)
  neighbors := (layer.entries.map Prod.snd).flatten

def loadLayer (arrays : LayerArrays) : Except Error Layer :=
  let parts := Ragged.slices arrays.neighbors arrays.offsets
  if parts.length < arrays.nodes.length then .error .indexError
  else .ok (Dict.ofList (arrays.nodes.zip parts))

theorem loadLayer_saveLayer (layer : Layer) : loadLayer (saveLayer layer) = .ok layer := by
  have parts : Ragged.slices (saveLayer layer).neighbors (saveLayer layer).offsets =
      layer.entries.map Prod.snd := Ragged.slices_offsets _
  have pairs : (saveLayer layer).nodes.zip (layer.entries.map Prod.snd) = layer.entries :=
    (List.zip_of_prod rfl rfl).symm
  have enough : ¬ (layer.entries.map Prod.snd).length < (saveLayer layer).nodes.length := by
    simp only [saveLayer, Dict.keys, List.length_map, Nat.lt_irrefl, not_false_eq_true]
  simp only [loadLayer, parts, if_neg enough, pairs, Dict.ofList_entries]

/-- `for layer in range(num_layers)`. -/
def loadGraph : Nat → List LayerArrays → Except Error (List Layer)
  | 0, _ => .ok []
  | _ + 1, [] => .error .keyError
  | numLayers + 1, arrays :: rest => do
      let layer ← loadLayer arrays
      let layers ← loadGraph numLayers rest
      return layer :: layers

theorem loadGraph_saveLayer (graph : List Layer) :
    loadGraph graph.length (graph.map saveLayer) = .ok graph := by
  induction graph with
  | nil => rfl
  | cons layer rest inductionHypothesis =>
      simp only [List.length_cons, List.map_cons, loadGraph, loadLayer_saveLayer,
        inductionHypothesis]
      rfl

/-! ## Vectors and payloads -/

/-- `np.asarray(rows)` for rows of one length. -/
def asMatrix (rows : List (List Float32Bits)) : Except Error (Matrix Float32Bits) :=
  if same : ∀ row ∈ rows, row.length = (rows.headD []).length then
    .ok ⟨(rows.headD []).length, rows, same⟩
  else .error .shape

variable {D G : Type} (np : Numpy Float32Bits D G)

/-- `set_vectors`: the rows that are kept. -/
def setVectors (rows : Matrix Float32Bits) (normalized : Bool) : List (List Float32Bits) :=
  if rows.rows.length * rows.dim = 0 then []
  else if normalized then rows.rows
  else np.normalizeRows rows.rows

def savePayloads (payloads : List String) : List Nat × Bytes :=
  (Ragged.offsets (payloads.map encodeUtf8), (payloads.map encodeUtf8).flatten)

def loadPayloads (count : Nat) : Option (List Nat × Bytes) → Except Error (List String)
  | none => .ok (List.replicate count "")
  | some (offsets, blob) => (Ragged.slices blob offsets).mapM decodeUtf8

theorem loadPayloads_savePayloads (count : Nat) (payloads : List String) :
    loadPayloads count (some (savePayloads payloads)) = .ok payloads := by
  simp only [loadPayloads, savePayloads, Ragged.slices_offsets]
  induction payloads with
  | nil => rfl
  | cons payload rest inductionHypothesis =>
      simp only [List.map_cons, List.mapM_cons, decodeUtf8_encodeUtf8, inductionHypothesis]
      rfl

/-! ## Saving and loading a shard -/

/-- The arrays of a shard whose vectors form the given matrix. -/
def archiveOf (shard : Shard Float32Bits G) (vectors : Matrix Float32Bits) (lastSeq : Nat) :
    Archive G where
  vectors
  globalIds := shard.globalIds
  payloads := some (savePayloads shard.payloads)
  layers := shard.index.graph.map saveLayer
  info := {
    format := snapshotFormat
    lastSeq
    M := shard.index.M
    efConstruction := shard.index.efConstruction
    efSearch := shard.index.efSearch
    neighborSelection := some shard.index.neighborSelection
    entryPoint := shard.index.entryPoint
    topLayer := shard.index.topLayer
    numLayers := shard.index.graph.length
    rngState := shard.index.rng }

/-- The arrays `save_snapshot` writes. -/
def snapshotArchive (shard : Shard Float32Bits G) (lastSeq : Nat) : Except Error (Archive G) := do
  let vectors ← asMatrix shard.index.data
  if shard.globalIds.all fitsInt64 then
    return archiveOf shard vectors lastSeq
  else
    throw .overflow

/-- `load_snapshot`, from the archive on. -/
def loadArchive (efSearch : Option Nat) (archive : Archive G) :
    Except Error (Shard Float32Bits G × Nat) := do
  let info := archive.info
  if !knownFormats.contains info.format then
    throw (.unsupportedFormat info.format)
  let graph ← loadGraph info.numLayers archive.layers
  let payloads ← loadPayloads archive.globalIds.length archive.payloads
  return ({
    index := {
      M := info.M
      efConstruction := info.efConstruction
      efSearch := efSearch.getD info.efSearch
      neighborSelection := info.neighborSelection.getD .closest
      rng := info.rngState
      data := setVectors np archive.vectors (decide (2 ≤ info.format))
      graph
      entryPoint := info.entryPoint
      topLayer := info.topLayer }
    globalIds := archive.globalIds
    payloads
    payloadIndex := PayloadIndex.init }, info.lastSeq)

/-- `load_snapshot`. -/
def loadSnapshot (npz : Npz G) (efSearch : Option Nat) (data : Bytes) :
    Except Error (Shard Float32Bits G × Nat) :=
  npz.load data >>= loadArchive np efSearch

/-- A shard whose arrays numpy can hold: rows of one positive length, ids of
64 bits. -/
structure Contents.Storable (contents : Contents Float32Bits G) : Prop where
  rows : ∃ width, 0 < width ∧ ∀ row ∈ contents.graph.data, row.length = width
  ids : contents.globalIds.all fitsInt64 = true

/-- The shard that loading a saved one builds. -/
def reloaded (efSearch : Option Nat) (shard : Shard Float32Bits G) : Shard Float32Bits G :=
  { shard with
    index := { shard.index with efSearch := efSearch.getD shard.index.efSearch }
    payloadIndex := PayloadIndex.init }

@[simp] theorem reloaded_contents (efSearch : Option Nat) (shard : Shard Float32Bits G) :
    (reloaded efSearch shard).contents = shard.contents := rfl

theorem asMatrix_ok {rows : List (List Float32Bits)} {width : Nat}
    (widths : ∀ row ∈ rows, row.length = width) :
    ∃ matrix, asMatrix rows = .ok matrix ∧ matrix.rows = rows ∧ (rows ≠ [] → matrix.dim = width) := by
  have head : ∀ row ∈ rows, row.length = (rows.headD []).length := by
    cases rows with
    | nil => intro row member; cases member
    | cons first rest =>
        intro row member
        rw [widths row member]
        exact (widths first List.mem_cons_self).symm
  refine ⟨_, dif_pos head, rfl, ?_⟩
  intro nonempty
  cases rows with
  | nil => exact absurd rfl nonempty
  | cons first rest => exact widths first List.mem_cons_self

/-- A storable shard is saved, and loading gives it back. -/
theorem loadArchive_snapshotArchive (efSearch : Option Nat) {shard : Shard Float32Bits G}
    (lastSeq : Nat) (storable : shard.contents.Storable) :
    ∃ archive, snapshotArchive shard lastSeq = .ok archive ∧
      loadArchive np efSearch archive = .ok (reloaded efSearch shard, lastSeq) := by
  obtain ⟨width, positive, widths⟩ := storable.rows
  obtain ⟨matrix, saved, rows, dim⟩ := asMatrix_ok widths
  have kept : setVectors np matrix true = shard.index.data := by
    unfold setVectors
    by_cases empty : shard.contents.graph.data = []
    · rw [rows, empty, List.length_nil, Nat.zero_mul, if_pos rfl]
      exact empty.symm
    · have nonzero : ¬ matrix.rows.length * matrix.dim = 0 := by
        rw [rows, dim empty]
        exact Nat.mul_ne_zero (by simpa using empty) (by omega)
      rw [if_neg nonzero]
      exact rows
  have ids : shard.globalIds.all fitsInt64 = true := storable.ids
  have arrays : snapshotArchive shard lastSeq = .ok (archiveOf shard matrix lastSeq) := by
    have saved : asMatrix shard.index.data = .ok matrix := saved
    simp only [snapshotArchive, saved, ids, if_true]
    rfl
  refine ⟨archiveOf shard matrix lastSeq, arrays, ?_⟩
  have loaded : loadArchive np efSearch (archiveOf shard matrix lastSeq) =
      .ok (⟨⟨⟨shard.index.M, shard.index.efConstruction, shard.index.neighborSelection,
        shard.index.rng, setVectors np matrix true, shard.index.graph, shard.index.entryPoint,
        shard.index.topLayer⟩, efSearch.getD shard.index.efSearch⟩, shard.globalIds,
        shard.payloads, PayloadIndex.init⟩, lastSeq) := by
    simp only [loadArchive, archiveOf, loadGraph_saveLayer, loadPayloads_savePayloads]
    rfl
  rw [loaded, kept]
  rfl

/-! ## A packing -/

section Packing

instance encodableUInt8 : Encodable UInt8 := .ofLeftInverse UInt8.toNat UInt8.ofNat fun _ => UInt8.ofNat_toNat

instance encodableUInt32 : Encodable UInt32 :=
  .ofLeftInverse UInt32.toNat UInt32.ofNat fun _ => UInt32.ofNat_toNat

instance : Encodable (Matrix Float32Bits) :=
  .ofLeftInjection (fun matrix => (matrix.dim, matrix.rows))
    (fun pair =>
      if shape : ∀ row ∈ pair.2, row.length = pair.1 then some ⟨pair.1, pair.2, shape⟩ else none)
    fun matrix => dif_pos matrix.shape

instance : Encodable NeighborSelection :=
  .ofLeftInverse (fun selection => decide (selection = .heuristic))
    (fun heuristic => if heuristic then .heuristic else .closest)
    (by intro selection; cases selection <;> rfl)

instance : Encodable LayerArrays :=
  .ofLeftInverse (fun arrays => (arrays.nodes, arrays.offsets, arrays.neighbors))
    (fun parts => ⟨parts.1, parts.2.1, parts.2.2⟩) fun _ => rfl

instance [Encodable G] : Encodable (Meta G) :=
  .ofLeftInverse
    (fun info => (info.format, info.lastSeq, info.M, info.efConstruction, info.efSearch,
      info.neighborSelection, info.entryPoint, info.topLayer, info.numLayers, info.rngState))
    (fun (format, lastSeq, M, efConstruction, efSearch, neighborSelection, entryPoint, topLayer,
        numLayers, rngState) =>
      ⟨format, lastSeq, M, efConstruction, efSearch, neighborSelection, entryPoint, topLayer,
        numLayers, rngState⟩)
    fun _ => rfl

instance [Encodable G] : Encodable (Archive G) :=
  .ofLeftInverse
    (fun archive =>
      (archive.vectors, archive.globalIds, archive.payloads, archive.layers, archive.info))
    (fun (vectors, globalIds, payloads, layers, info) =>
      ⟨vectors, globalIds, payloads, layers, info⟩)
    fun _ => rfl

/-- A packing with the one property that is used: archives are numbered, and a
file holds the number. -/
def Npz.numbered (G : Type) [Encodable G] : Npz G where
  savez := fun archive =>
    LittleEndian.encode (Nat.log 256 (Encodable.encode archive) + 1) (Encodable.encode archive)
  load := fun data =>
    match Encodable.decode (LittleEndian.decode data) with
    | some archive => .ok archive
    | none => .error .badArchive
  load_savez := by
    intro archive
    have fits := Nat.lt_pow_succ_log_self (by decide : 1 < 256) (Encodable.encode archive)
    rw [LittleEndian.decode_encode _ _ fits, Encodable.encodek]

end Packing

end VectorSearch
