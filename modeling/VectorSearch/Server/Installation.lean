import VectorSearch.Server.AllOrNothing

namespace VectorSearch

/-!
# Installing bytes that are no snapshot

`install_snapshot` puts the file in place and empties the log before it reads
what it was given.  Bytes that can be read replace the shard in memory and on
disk alike.  Bytes that cannot be read leave the memory alone, but the only copy
on disk is gone by then.
-/

open Program Stateful

/-! ## Bytes that can be read -/

/-- What `load_snapshot` needs of an archive: a known format, the arrays of all
its layers with a slice for each node, and payloads that are text. -/
structure Archive.Readable {G : Type} (archive : Archive G) : Prop where
  known : knownFormats.contains archive.info.format = true
  counted : archive.info.numLayers ≤ archive.layers.length
  sliced : ∀ arrays ∈ archive.layers.take archive.info.numLayers,
    arrays.nodes.length ≤ (Ragged.slices arrays.neighbors arrays.offsets).length
  texts : ∀ offsets blob, archive.payloads = some (offsets, blob) →
    ∀ part ∈ Ragged.slices blob offsets, ∃ text, decodeUtf8 part = .ok text

theorem loadLayer_ok {arrays : LayerArrays} :
    (∃ layer, loadLayer arrays = .ok layer) ↔
      arrays.nodes.length ≤ (Ragged.slices arrays.neighbors arrays.offsets).length := by
  simp only [loadLayer]
  split
  · rename_i short
    constructor
    · rintro ⟨_, impossible⟩
      cases impossible
    · intro enough
      omega
  · rename_i enough
    exact ⟨fun _ => by omega, fun _ => ⟨_, rfl⟩⟩

theorem loadGraph_ok {numLayers : Nat} {layers : List LayerArrays} :
    (∃ graph, loadGraph numLayers layers = .ok graph) ↔ numLayers ≤ layers.length ∧
      ∀ arrays ∈ layers.take numLayers,
        arrays.nodes.length ≤ (Ragged.slices arrays.neighbors arrays.offsets).length := by
  induction numLayers generalizing layers with
  | zero => simp [loadGraph]
  | succ numLayers inductionHypothesis =>
      cases layers with
      | nil => simp [loadGraph]
      | cons arrays rest =>
          rw [List.length_cons, Nat.add_le_add_iff_right, List.take_succ_cons, List.forall_mem_cons,
            ← loadLayer_ok, and_left_comm, ← inductionHypothesis]
          simp only [loadGraph]
          constructor
          · rintro ⟨graph, loaded⟩
            rcases gave_bind loaded with ⟨layer, first, later⟩
            rcases gave_bind later with ⟨layers, others, _⟩
            exact ⟨⟨layer, first⟩, ⟨layers, others⟩⟩
          · rintro ⟨⟨layer, first⟩, ⟨layers, others⟩⟩
            rw [first, others]
            exact ⟨layer :: layers, rfl⟩

theorem loadPayloads_ok {count : Nat} {payloads : Option (List Nat × Bytes)} :
    (∃ texts, loadPayloads count payloads = .ok texts) ↔
      ∀ offsets blob, payloads = some (offsets, blob) →
        ∀ part ∈ Ragged.slices blob offsets, ∃ text, decodeUtf8 part = .ok text := by
  rcases payloads with _ | ⟨offsets, blob⟩
  · exact iff_of_true ⟨_, rfl⟩ (fun _ _ impossible => nomatch impossible)
  · constructor
    · rintro ⟨texts, loaded⟩ _ _ ⟨⟩ part member
      rcases forall₂_mem_left (mapM_ok loaded) member with ⟨text, _, decoded⟩
      exact ⟨text, decoded⟩
    · intro decodes
      have each : ∀ part ∈ Ragged.slices blob offsets, Gives (decodeUtf8 part) fun _ => True := by
        intro part member
        rcases decodes offsets blob rfl part member with ⟨text, decoded⟩
        exact ⟨text, decoded, trivial⟩
      rcases Gives.mapM each with ⟨texts, loaded, _⟩
      exact ⟨texts, loaded⟩

section Loading

variable {D G : Type} (np : Numpy Float32Bits D G) (npz : Npz G)

/-- `load_snapshot` accepts exactly the readable archives. -/
theorem loadArchive_ok (efSearch : Option Nat) {archive : Archive G} :
    (∃ loaded, loadArchive np efSearch archive = .ok loaded) ↔ archive.Readable := by
  constructor
  · rintro ⟨loaded, given⟩
    unfold loadArchive at given
    dsimp only at given
    split at given
    · cases given
    · rename_i known
      rcases gave_bind given with ⟨graph, layers, later⟩
      rcases gave_bind later with ⟨payloads, texts, _⟩
      have counted := loadGraph_ok.mp ⟨graph, layers⟩
      exact ⟨by simpa using known, counted.1, counted.2, loadPayloads_ok.mp ⟨payloads, texts⟩⟩
  · intro readable
    rcases loadGraph_ok.mpr ⟨readable.counted, readable.sliced⟩ with ⟨graph, layers⟩
    rcases loadPayloads_ok.mpr readable.texts with ⟨payloads, texts⟩
    unfold loadArchive
    simp only [readable.known, Bool.not_true, Bool.false_eq_true, if_false, layers]
    rw [show loadPayloads archive.globalIds.length archive.payloads = .ok payloads from texts]
    exact ⟨_, rfl⟩

/-- The bytes are an archive that `load_snapshot` can read. -/
def ReadableSnapshot (data : Bytes) : Prop := ∃ archive, npz.load data = .ok archive ∧ archive.Readable

theorem loadSnapshot_ok (efSearch : Option Nat) {data : Bytes} :
    (∃ loaded, loadSnapshot np npz efSearch data = .ok loaded) ↔ ReadableSnapshot npz data := by
  unfold loadSnapshot ReadableSnapshot
  cases npz.load data with
  | error error =>
      constructor
      · rintro ⟨_, impossible⟩
        cases impossible
      · rintro ⟨_, impossible, _⟩
        cases impossible
  | ok archive =>
      refine (loadArchive_ok np efSearch).trans ⟨fun readable => ⟨archive, rfl, readable⟩, ?_⟩
      rintro ⟨_, same, readable⟩
      cases same
      exact readable

/-- The beam width that is passed in is all that depends on it. -/
theorem loadSnapshot_contents {first : Option Nat} (second : Option Nat) {data : Bytes}
    {shard : Shard Float32Bits G}
    {lastSeq : Nat} (loaded : loadSnapshot np npz first data = .ok (shard, lastSeq)) :
    ∃ other, loadSnapshot np npz second data = .ok (other, lastSeq) ∧ other.contents = shard.contents := by
  rcases gave_bind loaded with ⟨archive, read, rest⟩
  unfold loadSnapshot
  rw [read]
  change ∃ other, loadArchive np second archive = .ok (other, lastSeq) ∧ other.contents = shard.contents
  unfold loadArchive at rest ⊢
  dsimp only at rest ⊢
  split at rest
  · cases rest
  · rename_i known
    rcases gave_bind rest with ⟨graph, layers, later⟩
    rcases gave_bind later with ⟨payloads, texts, built⟩
    cases built
    rw [if_neg known, layers]
    change ∃ other, (loadPayloads archive.globalIds.length archive.payloads >>= _) = _ ∧ _
    rw [texts]
    exact ⟨_, rfl, rfl⟩

end Loading

/-! ## What an installation leaves -/

variable {D G : Type} [LinearOrder D] (np : Numpy Float32Bits D G) (npz : Npz G)

/-- The memory and the directory both hold what the bytes hold, or the call
raised and both are as they were. -/
def InstallsAtomically (state : DurableShard G) (disk : Disk) (data : Bytes) : Prop :=
  let outcome := (DurableShard.installSnapshot np npz state data).run dataDirectory disk
  (outcome.error = none ∧ ∃ shard lastSeq,
      loadSnapshot np npz none data = .ok (shard, lastSeq) ∧
      outcome.memory.shard.contents = shard.contents ∧ outcome.memory.lastSeq = lastSeq ∧
      Reopens np npz state.config outcome.world shard.contents lastSeq) ∨
    (outcome.error ≠ none ∧ outcome.memory = state ∧ ∀ contents lastSeq,
      Reopens np npz state.config disk contents lastSeq →
        Reopens np npz state.config outcome.world contents lastSeq)

/-- The directory after the file operations of an installation. -/
def installedDisk (data : Bytes) : Disk := ⟨some data, none, some [], []⟩

omit [LinearOrder D] in
theorem installSnapshot_run (state : DurableShard G) (disk : Disk) (data : Bytes) :
    (DurableShard.installSnapshot np npz state data).run dataDirectory disk =
      match loadSnapshot np npz (some state.shard.index.efSearch) data with
      | .error error => ⟨installedDisk data, state, some error⟩
      | .ok (shard, lastSeq) =>
          ⟨installedDisk data, { state with shard, lastSeq, snapshotSeq := lastSeq, vectorsSinceSnapshot := 0 },
            none⟩ := by
  unfold DurableShard.installSnapshot
  cases loadSnapshot np npz (some state.shard.index.efSearch) data <;> rfl

/-- An installed file is read back when the directory is opened. -/
theorem reopens_installed (config : Config) {data : Bytes} {shard : Shard Float32Bits G} {lastSeq : Nat}
    (loaded : loadSnapshot np npz config.params.efSearch data = .ok (shard, lastSeq)) :
    Reopens np npz config (installedDisk data) shard.contents lastSeq := by
  have started : DurableShard.loadOrInit np npz config (some data) = .ok (shard, lastSeq) := loaded
  refine ⟨DurableShard.loaded config shard lastSeq, installedDisk data, ?_, rfl, rfl⟩
  simp only [DurableShard.openShard, installedDisk, Disk.abandoned, started]
  rfl

/-- A file that cannot be read keeps the directory from being opened. -/
theorem not_reopens_installed (config : Config) {data : Bytes} {error : Error}
    (refused : loadSnapshot np npz config.params.efSearch data = .error error)
    (contents : Contents Float32Bits G) (lastSeq : Nat) :
    ¬ Reopens np npz config (installedDisk data) contents lastSeq := by
  have started : DurableShard.loadOrInit np npz config (some data) = .error error := refused
  rintro ⟨reopened, left, opened, _⟩
  simp only [DurableShard.openShard, installedDisk, Disk.abandoned, started] at opened
  cases opened

theorem ReadableSnapshot.installs {data : Bytes} (readable : ReadableSnapshot npz data)
    (state : DurableShard G) (disk : Disk) : InstallsAtomically np npz state disk data := by
  rcases (loadSnapshot_ok np npz (some state.shard.index.efSearch)).mpr readable with ⟨⟨shard, lastSeq⟩, loaded⟩
  rcases loadSnapshot_contents np npz none loaded with ⟨own, ownLoaded, ownSame⟩
  rcases loadSnapshot_contents np npz state.config.params.efSearch loaded with
    ⟨opened, openedLoaded, openedSame⟩
  have reopens := reopens_installed np npz state.config openedLoaded
  rw [openedSame, ← ownSame] at reopens
  unfold InstallsAtomically
  rw [installSnapshot_run, loaded]
  exact .inl ⟨rfl, own, lastSeq, ownLoaded, ownSame.symm, rfl, reopens⟩

/-- Unreadable bytes raise with the memory as it was, and no directory opens afterwards. -/
theorem unreadable_installed {data : Bytes} (unreadable : ¬ ReadableSnapshot npz data)
    (state : DurableShard G) (disk : Disk) :
    ∃ error, (DurableShard.installSnapshot np npz state data).run dataDirectory disk =
        ⟨installedDisk data, state, some error⟩ ∧
      ∀ contents lastSeq, ¬ Reopens np npz state.config (installedDisk data) contents lastSeq := by
  have refused : ∀ efSearch, ∃ error, loadSnapshot np npz efSearch data = .error error := by
    intro efSearch
    cases loaded : loadSnapshot np npz efSearch data with
    | ok result => exact absurd ((loadSnapshot_ok np npz efSearch).mp ⟨_, loaded⟩) unreadable
    | error error => exact ⟨error, rfl⟩
  rcases refused (some state.shard.index.efSearch) with ⟨error, raised⟩
  rcases refused state.config.params.efSearch with ⟨_, closed⟩
  refine ⟨error, ?_, not_reopens_installed np npz state.config closed⟩
  rw [installSnapshot_run, raised]

/-- Whatever could be opened is lost with unreadable bytes. -/
theorem unreadable_loses {data : Bytes} (unreadable : ¬ ReadableSnapshot npz data) {state : DurableShard G}
    {disk : Disk} {contents : Contents Float32Bits G} {lastSeq : Nat}
    (before : Reopens np npz state.config disk contents lastSeq) :
    ¬ InstallsAtomically np npz state disk data := by
  rcases unreadable_installed np npz unreadable state disk with ⟨error, complete, closed⟩
  unfold InstallsAtomically
  rw [complete]
  rintro (⟨impossible, _⟩ | ⟨_, _, unchanged⟩)
  · cases impossible
  · exact closed contents lastSeq (unchanged contents lastSeq before)

/-- An installation is atomic exactly if the bytes can be read, or nothing on
the disk could be lost. -/
theorem installsAtomically_iff (state : DurableShard G) (disk : Disk) (data : Bytes) :
    InstallsAtomically np npz state disk data ↔
      ReadableSnapshot npz data ∨
        ∀ contents lastSeq, ¬ Reopens np npz state.config disk contents lastSeq := by
  constructor
  · intro atomic
    by_cases readable : ReadableSnapshot npz data
    · exact .inl readable
    · exact .inr fun contents lastSeq before => unreadable_loses np npz readable before atomic
  · rintro (readable | lost)
    · exact readable.installs np npz state disk
    · by_cases readable : ReadableSnapshot npz data
      · exact readable.installs np npz state disk
      · rcases unreadable_installed np npz readable state disk with ⟨error, complete, _⟩
        unfold InstallsAtomically
        rw [complete]
        exact .inr ⟨Option.some_ne_none _, rfl, fun contents lastSeq before =>
          absurd before (lost contents lastSeq)⟩

/-! A server that has acknowledged one write is sent a file of a later format. -/

section Sample

def laterArchive : Archive Unit where
  vectors := ⟨0, [], by simp⟩
  globalIds := []
  payloads := none
  layers := []
  info := ⟨4, 9, 2, 10, 50, none, none, -1, 0, ()⟩

theorem reopens_axisLog : Reopens smallNumpy smallNpz axisShard.config axisLog axisShard.shard.contents 1 := by
  have read : readRecords axisLog.abandoned.logged =
      .ok ([axisWrite.record 1], axisLog.abandoned.logged.length) := by
    have short : ∀ entry ∈ ([(1, axisWrite)] : List Entry), entry.1 < 2 ^ 64 := by
      simp
    have records := readRecords_log short torn_nil
    rw [List.append_nil] at records
    exact records
  have replayed : [axisWrite.record 1].foldlM (DurableShard.replayRecord smallNumpy) emptyShard =
      .ok { axisShard with replayedRecords := 1 } := rfl
  have started : DurableShard.loadOrInit smallNumpy smallNpz axisShard.config axisLog.abandoned.snapshot =
      .ok (Shard.init smallNumpy smallConfig.params, 0) := rfl
  have base : DurableShard.loaded axisShard.config (Shard.init smallNumpy smallConfig.params) 0 =
    emptyShard := rfl
  refine ⟨{ axisShard with replayedRecords := 1 }, axisLog, ?_, rfl, rfl⟩
  simp only [DurableShard.openShard, started, read, Nat.lt_irrefl, if_false, DurableShard.replayLog, base,
    replayed]
  rfl

theorem later_format_loses :
    ¬ InstallsAtomically smallNumpy smallNpz axisShard axisLog (smallNpz.savez laterArchive) := by
  apply unreadable_loses smallNumpy smallNpz ?_ reopens_axisLog
  rintro ⟨archive, loaded, readable⟩
  rw [smallNpz.load_savez] at loaded
  cases loaded
  have known := readable.known
  revert known
  decide

end Sample

end VectorSearch
