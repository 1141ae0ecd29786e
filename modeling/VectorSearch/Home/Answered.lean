import VectorSearch.Cluster.Serving
import VectorSearch.Home.Forgetting
import VectorSearch.Lib.Yields

namespace VectorSearch

/-!
# Memory commands that return

On a cluster that is up, with an embedder that answers, the parts of a memory
store's commands return, with whatever suffix an id is given.
-/

namespace Home

open Stateful

variable {D G S : Type} [LinearOrder D] {np : Numpy Float32Bits D G}
  {embeds : List String → List (List Float32Bits) → Prop}

/-- The document records memories in `dim` dimensions, and the owner's namespace
holds the records. -/
structure Open (state : ClusterState) (dim : Nat) (owner : String) (records : List MemoryRecord)
    (world : MemoryWorld G) :
    Prop where
  file : world.file = some state
  serving : Coordinator.Serving dim owner (records.map MemoryRecord.payload) world.coordinator

namespace MemoryStore

variable (scoring : Scoring (List Float32Bits) D S) (store : MemoryStore) {state : ClusterState}
  {name : String} {dim : Nat} {records : List MemoryRecord} {world : MemoryWorld G} {owner : String}

theorem state_yields (isDataset : state.dataset = some (.memory name dim))
    (isOpen : Open state dim store.owner records world) :
    Client.Yields (memoryNetwork np embeds) (store.state : Command (List Float32Bits) D _)
      () world state () world := by
  have reads : Client.Yields (memoryNetwork np embeds)
    (readState store.home : Command (List Float32Bits) D _) () world
      state () world :=
    .bind (.call HomeCall.readFile (some state) ⟨isOpen.file.symm, rfl⟩) (.pure state)
  refine .bind reads ?_
  rw [isDataset]
  exact .bind (.lift rfl) (.pure state)

variable (np embeds world) in
theorem writable_yields (state : ClusterState) : ∃ replies,
    Client.Yields (memoryNetwork np embeds) (writable state : Command (List Float32Bits) D _)
      () world replies () world := by
  have each : ∀ servers : List ServerRecord, ∃ replies : List StatusResponse,
      Client.Yields (memoryNetwork np embeds) (statuses servers : Command (List Float32Bits) D _) () world
        (replies.map some) () world := by
    intro servers
    induction servers with
    | nil => exact ⟨[], .pure _⟩
    | cons server rest inductionHypothesis =>
        rcases inductionHypothesis with ⟨replies, runs⟩
        let reply : StatusResponse := ⟨0, true, 0, 0, 0⟩
        refine ⟨reply :: replies, ?_⟩
        exact .bind (.call (HomeCall.serverStatus server) (some reply) rfl) (.bind runs (.pure _))
  rcases each (state.allServers.map fun server => server.2.2) with ⟨replies, runs⟩
  refine ⟨replies, .bind runs ?_⟩
  have all : ∀ replies : List StatusResponse, (replies.map some).mapM id = some replies := by
    intro replies
    induction replies with
    | nil => rfl
    | cons reply rest inductionHypothesis =>
        rw [List.map_cons, List.mapM_cons, inductionHypothesis]
        rfl
  rw [all]
  exact .pure replies

/-- The dataset that is recorded. -/
theorem dataset_yields (isDataset : state.dataset = some (.memory name dim)) (replies : List StatusResponse) :
    Client.Yields (memoryNetwork np embeds) (store.dataset state replies : Command (List Float32Bits) D _)
      () world
      (state, .memory name dim) () world := by
  unfold MemoryStore.dataset
  rw [isDataset]
  exact .pure _

/-! ## Searches -/

variable (embeds)

/-- Conditions that a search in a namespace takes. -/
structure Askable (owner : String) (conditions : List (PyKey × PyValue)) : Prop where
  unmentioned : mentionsNamespace conditions = false
  distinct : (conditions.map Prod.fst).Nodup
  indexable : Indexable (taggedRecord owner conditions)

theorem search_yields (partitions : np.Partitions) (isOpen : Open state dim store.owner records world)
    {vector : List Float32Bits} (length : vector.length = dim) {k : Nat}
    (enough : records.length ≤ exactAdvantage * k)
    {conditions : List (PyKey × PyValue)} (askable : Askable store.owner conditions) : ∃ hits last,
      Client.Yields (memoryNetwork np embeds) (search store state vector k conditions :
        Command (List Float32Bits) D _) ()
        world hits () last ∧
      Open state dim store.owner records last ∧ hits.length ≤ records.length ∧
        FoundIn store records conditions k hits := by
  have size : (records.map MemoryRecord.payload).length = records.length := List.length_map _
  rcases isOpen.serving.search partitions length (size ▸ enough) askable.unmentioned
    askable.distinct askable.indexable with ⟨hits, coordinator, ran, serving, fewer, found⟩
  refine ⟨hits, { world with coordinator }, .bind (.call _ (.ok hits) ?_) (.pure hits),
    ⟨isOpen.file, serving⟩, size ▸ fewer,
    found⟩
  unfold memoryNetwork Searched
  dsimp only
  rw [ran]
  exact ⟨rfl, rfl⟩

theorem lookup_yields (partitions : np.Partitions) (ones : (scoring.ones dim).length = dim)
    (isDataset : state.dataset = some (.memory name dim)) (isOpen : Open state dim store.owner records world)
    (enough : records.length ≤ exactAdvantage * 1000) {conditions : List (PyKey × PyValue)}
    (askable : Askable store.owner conditions) : ∃ hits last,
      Client.Yields (memoryNetwork np embeds) (lookup scoring store state conditions :
        Command (List Float32Bits) D _) ()
        world hits () last ∧
      Open state dim store.owner records last ∧ FoundIn store records conditions 1000 hits := by
  rcases search_yields embeds store partitions isOpen ones enough askable with
    ⟨hits, last, runs, stays, _, found⟩
  refine ⟨hits, last, ?_, stays, found⟩
  unfold lookup
  rw [isDataset]
  exact .bind (.lift rfl) runs

omit [LinearOrder D] in
theorem Askable.of (short : owner.length ≤ maxIndexedChars) {conditions : List (PyKey × PyValue)}
    (unmentioned : mentionsNamespace conditions = false) (distinct : (conditions.map Prod.fst).Nodup)
    (indexable : Indexable conditions) : Askable owner conditions := by
  refine ⟨unmentioned, distinct, fun condition member => ?_⟩
  rcases List.mem_append.mp member with old | last
  · exact indexable condition old
  · rw [List.mem_singleton.mp last]
    refine ⟨namespaceField, rfl, List.cons_ne_nil _ _, fun item isItem => ?_⟩
    rw [List.mem_singleton.mp isItem]
    exact keyOf_short short

theorem anyOf_indexable {field : String} {ids : List String} (some : ids ≠ [])
    (short : ∀ id ∈ ids, id.length ≤ maxIndexedChars) : itemsOf (anyOf ids) ≠ [] ∧
      ∀ item ∈ itemsOf (anyOf ids), keyOf field item ≠ none := by
  refine ⟨fun none => some (List.map_eq_nil_iff.mp none), fun item member => ?_⟩
  rcases List.mem_map.mp member with ⟨id, isId, rfl⟩
  exact keyOf_short (short id isId)

/-- Which records name one of the ids. -/
theorem askable_replaces (short : owner.length ≤ maxIndexedChars) {ids : List String} (some : ids ≠ [])
    (each : ∀ id ∈ ids, id.length ≤ maxIndexedChars) : Askable owner [(.str "replaces", anyOf ids)] := by
  refine .of short rfl (List.nodup_singleton _) fun condition member => ?_
  rw [List.mem_singleton.mp member]
  exact ⟨"replaces", rfl, anyOf_indexable some each⟩

theorem memory_indexable : itemsOf (.str "memory") ≠ [] ∧ ∀ item ∈ itemsOf (.str "memory"),
    keyOf "type" item ≠ none := by
  refine ⟨List.cons_ne_nil _ _, fun item member => ?_⟩
  rw [List.mem_singleton.mp member]
  exact keyOf_short (by decide)

/-- All memories. -/
theorem askable_memories (short : owner.length ≤ maxIndexedChars) : Askable owner (recallFilter []) := by
  refine .of short (by decide) (recallFilter_nodup []) fun condition member => ?_
  rw [List.mem_singleton.mp member]
  exact ⟨"type", rfl, memory_indexable⟩

/-- The memories with one of the ids. -/
theorem askable_ids (short : owner.length ≤ maxIndexedChars) {ids : List String} (some : ids ≠ [])
    (each : ∀ id ∈ ids, id.length ≤ maxIndexedChars) :
    Askable owner [(.str "type", .str "memory"), (.str "memory_id", anyOf ids)] := by
  refine .of short rfl (by simp) fun condition member => ?_
  rcases List.mem_pair.mp member with rfl | rfl
  · exact ⟨"type", rfl, memory_indexable⟩
  · exact ⟨"memory_id", rfl, anyOf_indexable some each⟩

/-! ## What is out of use -/

omit [LinearOrder D] in
/-- Reading the targets of found records. -/
theorem FoundIn.reads {conditions : List (PyKey × PyValue)} {k : Nat} {hits : List (Hit D)}
    (found : FoundIn store records conditions k hits) :
    ∃ targets, (hits.mapM fun hit => do asStrings (← field hit.payload "replaces")) = .ok targets ∧
      targets.length ≤ k ∧ ∀ named ∈ targets, ∃ record ∈ records, record.targets = named := by
  have gives : Gives (hits.mapM fun hit => do asStrings (← field hit.payload "replaces"))
      (List.Forall₂ (fun _ named => ∃ record ∈ records, MemoryRecord.targets record = named) hits) := by
    refine Gives.mapM fun hit member => ?_
    rcases found.sound hit member with ⟨payload, isPayload, shown, _⟩
    rcases List.mem_map.mp isPayload with ⟨record, isRecord, rfl⟩
    exact ⟨_, MemoryRecord.targets_shown shown, record, isRecord, rfl⟩
  rcases gives with ⟨targets, given, each⟩
  refine ⟨targets, given, each.length_eq ▸ found.few, fun named member => ?_⟩
  rcases forall₂_mem_right each member with ⟨_, _, isNamed⟩
  exact isNamed

omit [LinearOrder D] in
theorem FoundIn.reads_ids {conditions : List (PyKey × PyValue)} {k : Nat} {hits : List (Hit D)}
    (found : FoundIn store records conditions k hits) :
    ∃ ids, idsOf hits = .ok ids ∧ ids.length = hits.length ∧
      ∀ hit ∈ hits, ∀ record : MemoryRecord, Coordinator.Shows store.owner hit record.payload →
        record.id ∈ ids := by
  have gives : Gives (idsOf hits) (List.Forall₂ (fun hit id =>
      (do asString (← field hit.payload "memory_id")) = Except.ok id) hits) := by
    refine Gives.mapM fun hit member => ?_
    rcases found.sound hit member with ⟨payload, isPayload, shown, _⟩
    rcases List.mem_map.mp isPayload with ⟨record, isRecord, rfl⟩
    exact ⟨_, MemoryRecord.id_shown shown, MemoryRecord.id_shown shown⟩
  rcases gives with ⟨ids, given, each⟩
  refine ⟨ids, given, each.length_eq.symm, fun hit member record shown => ?_⟩
  rcases forall₂_mem_left each member with ⟨id, isIn, isId⟩
  rw [MemoryRecord.id_shown shown] at isId
  exact Except.ok.inj isId ▸ isIn

theorem replaced_yields (partitions : np.Partitions) (ones : (scoring.ones dim).length = dim)
    (isDataset : state.dataset = some (.memory name dim)) (isOpen : Open state dim store.owner records world)
    (enough : records.length ≤ exactAdvantage * 1000) {ids : List String}
    (short : ∀ id ∈ ids, id.length ≤ maxIndexedChars) : ∃ dead last,
      Client.Yields (memoryNetwork np embeds) (replaced scoring store state ids :
        Command (List Float32Bits) D _) () world
        dead () last ∧
      Open state dim store.owner records last ∧ (∀ id ∈ dead, id ∈ MemoryRecord.dead records) ∧
      ((∀ record ∈ records, record.targets.length ≤ 1) → dead.length ≤ 1000) := by
  by_cases none : ids = []
  · refine ⟨[], world, ?_, isOpen, (fun _ impossible => nomatch impossible), fun _ => Nat.zero_le _⟩
    rw [none]
    exact .pure _
  · rcases lookup_yields embeds scoring store partitions ones isDataset isOpen enough
      (askable_replaces store.named.2 none short) with ⟨hits, last, runs, stays, found⟩
    rcases FoundIn.reads store found with ⟨targets, read, few, each⟩
    refine ⟨targets.flatten.filter (· ∈ ids), last, ?_, stays, fun id member => ?_, fun single => ?_⟩
    · unfold replaced
      rw [if_neg fun empty => none (List.isEmpty_iff.mp empty)]
      exact .bind runs (.bind (.lift read) (.pure _))
    · exact (FoundIn.targets store found read).1 id (List.mem_filter.mp member).1
    · refine Nat.le_trans (List.length_filter_le _ _) (Nat.le_trans ?_ few)
      rw [List.length_flatten]
      refine Nat.le_trans (List.sum_le_card_nsmul _ 1 ?_) (by simp)
      intro length member
      rcases List.mem_map.mp member with ⟨named, isNamed, rfl⟩
      rcases each named isNamed with ⟨record, isRecord, rfl⟩
      exact single record isRecord

/-- A memory that is not named is live. -/
theorem liveIds_yields (partitions : np.Partitions) (ones : (scoring.ones dim).length = dim)
    (isDataset : state.dataset = some (.memory name dim)) (isOpen : Open state dim store.owner records world)
    (enough : records.length ≤ exactAdvantage * 1000)
    (short : ∀ record ∈ records, record.id.length ≤ maxIndexedChars)
    {memory : MemoryRecord} (isRecord : memory ∈ records) (isMemory : memory.isMemory = true)
    (alive : memory.id ∉ MemoryRecord.dead records)
    (few : records.countP (fun record => record.id = memory.id) ≤ 1000) :
    ∃ live last, Client.Yields (memoryNetwork np embeds)
        (liveIds scoring store state [memory.id] : Command (List Float32Bits) D _) () world live () last ∧
      Open state dim store.owner records last ∧ memory.id ∈ live := by
  rcases lookup_yields embeds scoring store partitions ones isDataset isOpen enough
    (askable_ids store.named.2 (List.cons_ne_nil memory.id []) fun id member =>
      List.mem_singleton.mp member ▸ short memory isRecord) with ⟨hits, between, looks, found, isFound⟩
  rcases FoundIn.reads_ids store isFound with ⟨ids, read, _, shows⟩
  have fulfils : Fulfils [(.str "type", .str "memory"), (.str "memory_id", anyOf [memory.id])]
    memory.payload := by
    rw [MemoryRecord.fulfils_iff]
    intro condition member
    rcases List.mem_pair.mp member with rfl | rfl
    · exact (MemoryRecord.meets_memory memory).mpr isMemory
    · exact (MemoryRecord.meets_id _ memory).mpr List.mem_cons_self
  have room : Coordinator.countFulfilling [(.str "type", .str "memory"), (.str "memory_id", anyOf [memory.id])]
      (records.map MemoryRecord.payload) ≤ 1000 := by
    refine Nat.le_trans ?_ few
    unfold Coordinator.countFulfilling
    rw [List.countP_map]
    refine List.countP_mono_left fun record _ isSo => ?_
    simp only [Function.comp_apply, decide_eq_true_eq, MemoryRecord.fulfils_iff] at isSo
    have meets := isSo _ (List.mem_cons_of_mem _ List.mem_cons_self)
    exact decide_eq_true (List.mem_singleton.mp ((MemoryRecord.meets_id _ record).mp meets))
  rcases isFound.complete room _ (List.mem_map_of_mem isRecord) fulfils with ⟨hit, isHit, shown⟩
  have inIds := shows hit isHit memory shown
  have shortIds : ∀ id ∈ ids, id.length ≤ maxIndexedChars := by
    intro id member
    rcases (read_ids store isFound read).2 id member with ⟨record, isIn, rfl, _⟩
    exact short record isIn
  rcases replaced_yields embeds scoring store partitions ones isDataset found enough shortIds with
    ⟨dead, last, buries, stays, sound, _⟩
  refine ⟨ids.filter (· ∉ dead), last, ?_, stays, ?_⟩
  · exact .bind looks (.bind (.lift read) (.bind buries (.pure _)))
  · exact List.mem_filter.mpr ⟨inIds, decide_eq_true fun isDead => alive (sound _ isDead)⟩

/-! ## Writing -/

omit [LinearOrder D] in
theorem owner_nonempty : store.owner ≠ "" := by
  intro empty
  have blank : strip "" = "" := rfl
  exact store.named.1 (empty.symm ▸ blank)

theorem write_yields (steady : np.Steady) (isOpen : Open state dim store.owner records world)
    {vector : List Float32Bits} (length : vector.length = dim) (record : MemoryRecord) : ∃ last,
      Client.Yields (memoryNetwork np embeds) (write store state vector record.payload :
        Command (List Float32Bits) D _) ()
        world () () last ∧
      Open state dim store.owner (records ++ [record]) last := by
  rcases isOpen.serving.add steady length record.storable ⟨owner_nonempty store, store.named.2⟩ with
    ⟨coordinator, ran, serving⟩
  refine ⟨{ world with coordinator },
    .tryCatch (.bind (.call _ (.ok ()) ⟨coordinator, ran, rfl, rfl⟩) (.lift rfl)),
    isOpen.file, ?_⟩
  rw [List.map_append]
  exact serving

theorem storeFact_yields (steady : np.Steady) (isOpen : Open state dim store.owner records world)
    {vector : List Float32Bits} (length : vector.length = dim) (text : String) (tags replaces : List String)
    (suffix : String) (created : FloatText) : ∃ last,
      Client.Yields (memoryNetwork np embeds)
        (storeFact store state vector text tags replaces : Command (List Float32Bits) D _) () world
        ("m" ++ suffix) () last ∧
      Open state dim store.owner (records ++ [.memory ("m" ++ suffix) text tags created replaces]) last := by
  rcases write_yields embeds store steady isOpen length
    (.memory ("m" ++ suffix) text tags created replaces) with ⟨last, writes, later⟩
  unfold MemoryRecord.payload at writes
  exact ⟨last, .bind (.call HomeCall.uuid suffix rfl)
    (.bind (.call HomeCall.time created rfl) (.bind writes (.pure _))), later⟩

variable (name) in
/-- A fact is embedded and stored. -/
theorem rememberFact_yields (steady : np.Steady) {text : String} {vector : List Float32Bits}
    (embedded : embeds [text] [vector]) (length : vector.length = dim) (tags : List String)
    {replaces : List String} {between : MemoryWorld G}
    (unknown : Client.Yields (memoryNetwork np embeds)
      (knownAs scoring store state vector replaces : Command (List Float32Bits) D _) () world none () between)
    (still : Open state dim store.owner records between) (suffix : String) (created : FloatText) : ∃ last,
      Client.Yields (memoryNetwork np embeds)
        (rememberFact scoring store state (.memory name dim) text tags replaces :
          Command (List Float32Bits) D _) () world
        ("m" ++ suffix, true) () last ∧
      Open state dim store.owner (records ++ [.memory ("m" ++ suffix) text tags created replaces]) last := by
  rcases storeFact_yields embeds store steady still length text tags replaces suffix created
    with ⟨last, stores, later⟩
  refine ⟨last, ?_, later⟩
  have info : Client.Yields (memoryNetwork np embeds) (getEmbedder name : Command (List Float32Bits) D _)
    () world
      (⟨name, dim⟩ : EmbedderInfo) () world :=
        .bind (.call (HomeCall.getEmbedder name) (.ok ⟨name, dim⟩) rfl) (.lift rfl)
  refine .bind info (.bind (.call _ (.ok [vector]) ⟨rfl, fun vectors same => Except.ok.inj same ▸ embedded⟩) ?_)
  exact .bind (.lift rfl) (.bind unknown (.bind stores (.pure _)))

/-- A fact that replaces a live memory is stored. -/
theorem remember_replacing (partitions : np.Partitions) (steady : np.Steady)
    (ones : (scoring.ones dim).length = dim) (isDataset : state.dataset = some (.memory name dim))
    (isOpen : Open state dim store.owner records world) (enough : records.length ≤ exactAdvantage * 1000)
    (short : ∀ record ∈ records, record.id.length ≤ maxIndexedChars) {memory : MemoryRecord}
    (isRecord : memory ∈ records) (isMemory : memory.isMemory = true)
    (alive : memory.id ∉ MemoryRecord.dead records)
    (few : records.countP (fun record => record.id = memory.id) ≤ 1000) {text : String}
    (some : strip text ≠ "") {vector : List Float32Bits} (embedded : embeds [strip text] [vector])
    (length : vector.length = dim) (tags : List String) (suffix : String) (created : FloatText) : ∃ last,
      Client.Yields (memoryNetwork np embeds)
        (remember scoring store text tags [memory.id] : Command (List Float32Bits) D _) () world
          ("m" ++ suffix, true) () last ∧
      Open state dim store.owner
        (records ++ [.memory ("m" ++ suffix) (strip text) tags created [memory.id]]) last := by
  rcases liveIds_yields embeds scoring store partitions ones isDataset isOpen enough short isRecord
    isMemory alive few with ⟨live, between, lives, stays, isLive⟩
  rcases writable_yields np embeds world state with ⟨replies, writes⟩
  have unknown : Client.Yields (memoryNetwork np embeds)
      (knownAs scoring store state vector [memory.id] : Command (List Float32Bits) D _)
        () between none () between :=
    .pure none
  rcases rememberFact_yields embeds scoring store name steady embedded length tags unknown
    stays suffix created with ⟨last, stores, later⟩
  refine ⟨last, ?_, later⟩
  unfold remember
  rw [if_neg some]
  refine .bind (state_yields store isDataset isOpen)
    (.bind writes (.bind (dataset_yields store isDataset replies) ?_))
  have none : [memory.id].filter (· ∉ live) = [] := by
    rw [List.filter_eq_nil_iff]
    intro id member notLive
    rw [List.mem_singleton.mp member] at notLive
    exact of_decide_eq_true notLive isLive
  have single : [memory.id].eraseDups = [memory.id] := rfl
  refine .bind lives ?_
  dsimp only
  rw [single, if_neg (not_not.mpr none)]
  exact stores

/-- The first fact of an owner is stored. -/
theorem remember_first (partitions : np.Partitions) (steady : np.Steady)
    (isDataset : state.dataset = some (.memory name dim)) (isOpen : Open state dim store.owner [] world)
    {text : String} (some : strip text ≠ "") {vector : List Float32Bits}
    (embedded : embeds [strip text] [vector]) (length : vector.length = dim) (tags : List String)
    (suffix : String) (created : FloatText) : ∃ last,
      Client.Yields (memoryNetwork np embeds)
        (remember scoring store text tags [] : Command (List Float32Bits) D _) () world
          ("m" ++ suffix, true) () last ∧
      Open state dim store.owner [.memory ("m" ++ suffix) (strip text) tags created []] last := by
  rcases search_yields embeds store partitions isOpen length (Nat.zero_le (exactAdvantage * 1))
    (askable_memories store.named.2) with ⟨hits, between, searches, stays, fewer, _⟩
  have none : hits = [] := List.eq_nil_of_length_eq_zero (Nat.le_zero.mp fewer)
  subst none
  rcases writable_yields np embeds world state with ⟨replies, writes⟩
  have unknown : Client.Yields (memoryNetwork np embeds)
      (knownAs scoring store state vector [] : Command (List Float32Bits) D _) () world none () between :=
    .bind searches (.pure none)
  rcases rememberFact_yields embeds scoring store name steady embedded length tags unknown
    stays suffix created with ⟨last, stores, later⟩
  refine ⟨last, ?_, later⟩
  unfold remember
  rw [if_neg some]
  refine .bind (state_yields store isDataset isOpen)
    (.bind writes (.bind (dataset_yields store isDataset replies) ?_))
  exact .bind (.pure []) stores

/-! ## Recalls -/

omit [LinearOrder D] in
/-- What a recall makes of a memory. -/
theorem memoryOf_shown (now : FloatText) {hit : Hit D} {record : MemoryRecord}
    (isMemory : record.isMemory = true) (shown : Coordinator.Shows owner hit record.payload) :
    ∃ memory : Memory S, memoryOf scoring now hit = .ok memory ∧ memory.id = record.id := by
  cases record with
  | forgetting => cases isMemory
  | memory id text tags created replaces =>
      have isText : field hit.payload "text" = .ok (.str text) := MemoryRecord.field_shown shown rfl
      have areTags : field hit.payload "tags" = .ok (.list ((sortedSet tags).map .str)) :=
        MemoryRecord.field_shown shown rfl
      have isCreated : field hit.payload "created" = .ok (.float created) := MemoryRecord.field_shown shown rfl
      have isId : field hit.payload "memory_id" = .ok (.str id) := MemoryRecord.field_shown shown rfl
      let similarity := scoring.similarity hit.distance
      refine ⟨⟨id, text, sortedSet tags, created, similarity, scoring.score similarity created now⟩, ?_, rfl⟩
      unfold memoryOf
      rw [isId, isText, areTags, isCreated]
      simp only [bind, Except.bind, asString, asFloat, MemoryRecord.asStrings_strings]
      rfl

omit [LinearOrder D] in
theorem memoriesOf_cons {dead : List String} {now : FloatText} {hit : Hit D} {rest : List (Hit D)} {id : String}
    (isId : (do asString (← field hit.payload "memory_id")) = .ok id) :
    memoriesOf scoring dead now (hit :: rest) = if id ∈ dead then memoriesOf scoring dead now rest else do
      let memory ← memoryOf scoring now hit
      let memories ← memoriesOf scoring dead now rest
      return memory :: memories := by
  rw [memoriesOf, ← bind_assoc, isId]
  rfl

omit [LinearOrder D] in
/-- Every hit that is not dead becomes a memory. -/
theorem memoriesOf_returns (dead : List String) (now : FloatText) {hits : List (Hit D)}
    (each : ∀ hit ∈ hits, ∃ record : MemoryRecord, record.isMemory = true ∧
      Coordinator.Shows owner hit record.payload) :
    ∃ memories : List (Memory S), memoriesOf scoring dead now hits = .ok memories ∧
      memories.length ≤ hits.length ∧
      ∀ hit ∈ hits, ∀ record : MemoryRecord, Coordinator.Shows owner hit record.payload → record.id ∉ dead →
        ∃ memory ∈ memories, memory.id = record.id := by
  induction hits with
  | nil => exact ⟨[], rfl, Nat.le_refl _, fun _ impossible => nomatch impossible⟩
  | cons hit rest inductionHypothesis =>
      rcases inductionHypothesis fun other member => each other (List.mem_cons_of_mem _ member) with
        ⟨memories, given, fewer, kept⟩
      rcases each hit List.mem_cons_self with ⟨record, isMemory, shown⟩
      have isId := MemoryRecord.id_shown shown
      have sameId : ∀ other : MemoryRecord, Coordinator.Shows owner hit other.payload →
        other.id = record.id := by
        intro other alsoShown
        exact Except.ok.inj ((MemoryRecord.id_shown alsoShown).symm.trans isId)
      rw [memoriesOf_cons scoring isId]
      by_cases isDead : record.id ∈ dead
      · refine ⟨memories, (if_pos isDead).trans given, Nat.le_succ_of_le fewer,
          fun other member also shows alive => ?_⟩
        rcases List.mem_cons.mp member with rfl | behind
        · rw [sameId also shows] at alive
          exact absurd isDead alive
        · exact kept other behind also shows alive
      · rcases memoryOf_shown scoring now isMemory shown with ⟨memory, isFirst, isOwn⟩
        rw [if_neg isDead, isFirst, given]
        refine ⟨memory :: memories, rfl, Nat.succ_le_succ fewer, fun other member also shows alive => ?_⟩
        rcases List.mem_cons.mp member with rfl | behind
        · exact ⟨memory, List.mem_cons_self, isOwn.trans (sameId also shows).symm⟩
        · rcases kept other behind also shows alive with ⟨found, isFound, same⟩
          exact ⟨found, List.mem_cons_of_mem _ isFound, same⟩

theorem fulfils_memories (record : MemoryRecord) : Fulfils (recallFilter []) record.payload ↔
    record.isMemory = true := by
  rw [MemoryRecord.fulfils_iff]
  change (∀ condition ∈ [(PyKey.str "type", PyValue.str "memory")], record.Meets condition) ↔ _
  rw [List.forall_mem_singleton]
  exact MemoryRecord.meets_memory record

variable [LinearOrder S]

/-- A recall of everything returns what the lookup of the dead does not find. -/
theorem recall_yields (partitions : np.Partitions) (ones : (scoring.ones dim).length = dim)
    (isDataset : state.dataset = some (.memory name dim)) (isOpen : Open state dim store.owner records world)
    (room : records.length ≤ exactAdvantage * 1000)
    (short : ∀ record ∈ records, record.id.length ≤ maxIndexedChars)
    (query : String) {k : Nat} (all : records.length ≤ k) (now : FloatText) :
    ∃ memories last, ∃ dead : List String,
      Client.Yields (memoryNetwork np embeds)
        («recall» scoring store query k [] : Command (List Float32Bits) D (List (Memory S)))
          () world memories () last ∧
      (∀ id ∈ dead, id ∈ MemoryRecord.dead records) ∧
      ((∀ record ∈ records, record.targets.length ≤ 1) → dead.length ≤ 1000) ∧
      ∀ record ∈ records, record.isMemory = true → record.id ∉ dead → ∃ memory ∈ memories,
        memory.id = record.id := by
  have wide : records.length ≤ k * 4 := Nat.le_trans all (Nat.le_mul_of_pos_right k (by decide))
  have enough : records.length ≤ exactAdvantage * (k * 4) := Nat.le_trans wide
    (Nat.le_mul_of_pos_left _ (by decide))
  rcases search_yields embeds store partitions isOpen ones enough (askable_memories store.named.2) with
    ⟨hits, between, searches, found, fewer, isFound⟩
  rcases FoundIn.reads_ids store isFound with ⟨ids, read, _, _⟩
  have shortIds : ∀ id ∈ ids, id.length ≤ maxIndexedChars := by
    intro id member
    rcases (read_ids store isFound read).2 id member with ⟨record, isIn, rfl, _⟩
    exact short record isIn
  rcases replaced_yields embeds scoring store partitions ones isDataset found room shortIds with
    ⟨dead, last, buries, _, sound, few⟩
  have isMemoryHit : ∀ hit ∈ hits, ∃ record : MemoryRecord, record.isMemory = true ∧
      Coordinator.Shows store.owner hit record.payload := by
    intro hit isHit
    rcases isFound.sound hit isHit with ⟨payload, isPayload, shown, fulfils⟩
    rcases List.mem_map.mp isPayload with ⟨record, _, rfl⟩
    exact ⟨record, (fulfils_memories record).mp fulfils, shown⟩
  rcases memoriesOf_returns scoring dead now isMemoryHit with ⟨memories, given, atMost, kept⟩
  let best : Memory S → Memory S → Prop := fun left right => right.score ≤ left.score
  have whole : (memories.insertionSort best).take k = memories.insertionSort best := by
    refine List.take_of_length_le ?_
    rw [List.length_insertionSort]
    exact Nat.le_trans atMost (Nat.le_trans fewer all)
  have returned : ∀ record ∈ records, record.isMemory = true → record.id ∉ dead →
      ∃ memory ∈ memories.insertionSort best, memory.id = record.id := by
    intro record isRecord isMemory alive
    have fulfils := (fulfils_memories record).mpr isMemory
    have counted : Coordinator.countFulfilling (recallFilter []) (records.map MemoryRecord.payload) ≤
      k * 4 := by
      refine Nat.le_trans List.countP_le_length ?_
      rw [List.length_map]
      exact wide
    rcases isFound.complete counted _ (List.mem_map_of_mem isRecord) fulfils with ⟨hit, isHit, shown⟩
    rcases kept hit isHit record shown alive with ⟨memory, isKept, sameId⟩
    exact ⟨memory, (List.mem_insertionSort best).mpr isKept, sameId⟩
  refine ⟨memories.insertionSort best, last, dead, ?_, sound, few, returned⟩
  have info : Client.Yields (memoryNetwork np embeds)
      (embedder (.memory name dim) : Command (List Float32Bits) D _) () world (⟨name, dim⟩ : EmbedderInfo)
        () world :=
    .bind (.call (HomeCall.getEmbedder name) (.ok ⟨name, dim⟩) rfl) (.lift rfl)
  refine .bind (state_yields store isDataset isOpen) ?_
  rw [isDataset]
  refine .bind (.lift rfl)
    (.bind info (.bind (.call (HomeCall.embedQuery name query) (.ok (scoring.ones dim)) rfl) ?_))
  refine .bind (.lift rfl) (.bind searches (.bind (.lift read) (.bind buries ?_)))
  refine .bind (.call HomeCall.time now rfl) (.bind (.lift given) ?_)
  dsimp only
  rw [if_pos (Int.natCast_nonneg k), Int.toNat_natCast]
  exact whole.symm ▸ .pure _

end MemoryStore
end Home
end VectorSearch
