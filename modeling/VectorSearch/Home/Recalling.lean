import VectorSearch.Home.Records

namespace VectorSearch

/-!
# What a recall leaves out

Nothing is deleted: each recall looks up which of its candidates are dead.  The
lookup returns 1000 records at most, so a recall leaves out every dead memory as
long as it has no more candidates, or no more records name one of them.
-/

namespace Home

open Stateful

variable {D G S α β : Type}

/-! ## The cluster and its calls -/

/-- The document, and the shards. -/
structure MemoryWorld (G : Type) where
  file : Option ClusterState
  coordinator : Coordinator G

variable [LinearOrder D] (np : Numpy Float32Bits D G) (embeds : List String → List (List Float32Bits) → Prop)

/-- What a search in the world is answered with. -/
def Searched (query : List Float32Bits) (k : Int) (filter : Payload) (name : Option String)
    (world : MemoryWorld G) (given : Except Error (List (Hit D))) (last : MemoryWorld G) : Prop :=
  match Coordinator.searchHits np query k filter name world.coordinator with
  | .ok hits coordinator => given = .ok hits ∧ last = { world with coordinator }
  | .error error coordinator => given = .error error ∧ last = { world with coordinator }

/-- One caller at a time, and every write succeeds.  `embeds` says which vectors
the embedder can give for some texts. -/
def memoryNetwork : Network (HomeCall (List Float32Bits)) (HomeCall.Answer (List Float32Bits) D)
    (MemoryWorld G) where
  answers := fun call world answer last =>
    match call, answer with
    | .readFile, found => found = world.file ∧ last = world
    | .writeFile state, _ => last = { world with file := some state }
    | .unlinkFile, _ => last = { world with file := none }
    | .embedDocuments _ texts, given => last = world ∧ ∀ vectors, given = .ok vectors → embeds texts vectors
    | .searchHits _ query k filter name, given => Searched np query k filter name world given last
    | .add _ vectors payloads name, outcome =>
        ∃ coordinator, Coordinator.add np vectors payloads name world.coordinator = .ok () coordinator ∧
          outcome = .ok () ∧ last = { world with coordinator }
    | _, _ => last = world
  moves := fun _ _ => False

/-- The records of an owner in the order they were written, no id named twice. -/
structure Remembers (owner : String) (records : List MemoryRecord) (world : MemoryWorld G) : Prop where
  held : Coordinator.Holding owner (records.map MemoryRecord.payload) world.coordinator
  once : (MemoryRecord.dead records).Nodup

/-! ## Triples about the records -/

/-- A command with what holds when it returns; where it raises, the records are
those it began with. -/
abbrev Telling (owner : String) (records : List MemoryRecord) (before : MemoryWorld G → Prop)
    (command : Command (List Float32Bits) D α) (returned : α → MemoryWorld G → Prop) : Prop :=
  Client.Ensures (memoryNetwork np embeds) (fun _ => True) (fun _ => before) command
    (fun value _ => returned value)
    fun _ _ => Remembers owner records

section Triples

variable {np embeds} {owner : String} {records : List MemoryRecord}

theorem Telling.call {call : HomeCall (List Float32Bits)} {before : MemoryWorld G → Prop}
    {returned : HomeCall.Answer (List Float32Bits) D call → MemoryWorld G → Prop}
    (given : ∀ world answer last, before world → (memoryNetwork np embeds).answers call world answer last →
      returned answer last) : Telling np embeds owner records before (Client.call call) returned :=
  Client.Ensures.call (fun _ _ _ _ move => nomatch move) (fun _ _ _ => trivial) fun _ => given

theorem Remembers.searched {query : List Float32Bits} {k : Int} {filter : Payload} {name : Option String}
    {world last : MemoryWorld G} {given : Except Error (List (Hit D))}
    (remembers : Remembers owner records world)
    (searched : Searched np query k filter name world given last) : Remembers owner records last := by
  have kept := @Coordinator.searchHits_holding _ _ _ np _ _ query k filter name world.coordinator remembers.held
  unfold Stateful.final at kept
  unfold Searched at searched
  split at searched
  · rename_i ran
    rw [ran] at kept
    rcases searched with ⟨_, rfl⟩
    exact ⟨kept, remembers.once⟩
  · rename_i ran
    rw [ran] at kept
    rcases searched with ⟨_, rfl⟩
    exact ⟨kept, remembers.once⟩

/-- A call that neither writes nor looks at the document. -/
theorem Remembers.answered {call : HomeCall (List Float32Bits)} {world last : MemoryWorld G}
    {answer : HomeCall.Answer (List Float32Bits) D call} (remembers : Remembers owner records world)
    (plain : HomeCall.Plain call) (given : (memoryNetwork np embeds).answers call world answer last) :
    Remembers owner records last := by
  cases call with
  | readFile | writeFile | unlinkFile | spawn | add => exact plain.elim
  | embedDocuments =>
      rcases given with ⟨rfl, _⟩
      exact remembers
  | searchHits shards query k filter name =>
      exact remembers.searched given
  | _ => exact (show last = world from given) ▸ remembers

theorem Plain.telling {command : Command (List Float32Bits) D α} (plain : Plain command) :
    Telling np embeds owner records (Remembers owner records) command fun _ => Remembers owner records :=
  Client.Ensures.of_only plain (fun _ _ _ move => nomatch move) (fun _ _ => trivial)
    fun _ isPlain _ _ _ holds given => holds.answered isPlain given

theorem Telling.after {first : Command (List Float32Bits) D α} {next : α → Command (List Float32Bits) D β}
    {returned : β → MemoryWorld G → Prop} (plain : Plain first)
    (back : ∀ value, Telling np embeds owner records (Remembers owner records) (next value) returned) :
    Telling np embeds owner records (Remembers owner records) (first >>= next) returned :=
  Client.Ensures.bind plain.telling back

/-- What the precondition implies may be used. -/
theorem Telling.knowing {before : MemoryWorld G → Prop} {command : Command (List Float32Bits) D α}
    {returned : α → MemoryWorld G → Prop} {fact : Prop} (known : ∀ world, before world → fact)
    (rest : fact → Telling np embeds owner records before command returned) :
    Telling np embeds owner records before command returned :=
  fun state world holds => rest (known world holds) state world holds

theorem Telling.throw {error : Error} {returned : α → MemoryWorld G → Prop} :
    Telling np embeds owner records (Remembers owner records)
      (throw error : Command (List Float32Bits) D α) returned :=
  Client.Ensures.throw fun _ _ holds => holds

theorem Telling.raising {before : MemoryWorld G → Prop} {body : Command (List Float32Bits) D α}
    {returned : α → MemoryWorld G → Prop} (turn : Error → Error)
    (tries : Telling np embeds owner records before body returned) :
    Telling np embeds owner records before (Home.raising turn body) returned :=
  Client.Ensures.tryCatch tries fun _ => Client.Ensures.throw fun _ _ holds => holds

theorem Telling.lift (result : Except Error α) :
    Telling np embeds owner records (Remembers owner records)
      (Client.lift result : Command (List Float32Bits) D α)
      fun value world => Remembers owner records world ∧ result = .ok value :=
  Client.Ensures.lift (fun _ same _ _ holds => ⟨holds, same⟩) fun _ _ _ _ holds => holds

theorem readState_telling (home : String) :
    Telling np embeds owner records (Remembers owner records) (readState home : Command (List Float32Bits) D _)
      fun _ => Remembers owner records := by
  have reads : Telling np embeds owner records (Remembers owner records)
      (Client.call HomeCall.readFile : Command (List Float32Bits) D _) fun _ => Remembers owner records := by
    apply Telling.call
    rintro world found _ holds ⟨_, rfl⟩
    exact holds
  apply Client.Ensures.bind reads
  intro found
  cases found with
  | none => exact Telling.throw
  | some state => exact Client.Ensures.pure fun _ _ holds => holds

theorem writeState_telling (state : ClusterState) :
    Telling np embeds owner records (Remembers owner records)
      (writeState state : Command (List Float32Bits) D _)
      fun _ => Remembers owner records := by
  apply Telling.call
  rintro world _ _ holds rfl
  exact ⟨holds.held, holds.once⟩

namespace MemoryStore

variable (scoring : Scoring (List Float32Bits) D S) (store : MemoryStore)

/-- What a search in the namespace of the owner returns. -/
abbrev FoundIn (store : MemoryStore) (records : List MemoryRecord) (conditions : List (PyKey × PyValue))
    (k : Nat) (hits : List (Hit D)) : Prop :=
  Coordinator.Found store.owner (records.map MemoryRecord.payload) conditions k hits

theorem search_telling (partitions : np.Partitions) (state : ClusterState) (vector : List Float32Bits) (k : Nat)
    {conditions : List (PyKey × PyValue)} (distinct : (conditions.map Prod.fst).Nodup) :
    Telling np embeds store.owner records (Remembers store.owner records)
      (search store state vector k conditions : Command (List Float32Bits) D _)
      fun hits world => Remembers store.owner records world ∧ FoundIn store records conditions k hits := by
  have asks : Telling np embeds store.owner records (Remembers store.owner records)
      (Client.call (HomeCall.searchHits state.shardAddresses vector k (some conditions) (some store.owner)) :
        Command (List Float32Bits) D _)
      fun given world => Remembers store.owner records world ∧
        ∀ hits, given = .ok hits → FoundIn store records conditions k hits := by
    apply Telling.call
    intro world answer last holds given
    refine ⟨holds.searched given, ?_⟩
    rintro hits rfl
    have searched : Searched np vector k (some conditions) (some store.owner) world (.ok hits) last := given
    unfold Searched at searched
    split at searched
    · rename_i ran
      cases searched.1
      exact (holds.held.search partitions distinct ran).2.2
    · cases searched.1
  apply Client.Ensures.bind asks
  intro given
  apply Client.Ensures.given
  intro found
  cases given with
  | ok hits => exact Client.Ensures.pure fun _ _ holds => ⟨holds, found hits rfl⟩
  | error error => cases error <;> exact Telling.throw

/-- A lookup asks for 1000 records at most. -/
theorem lookup_telling (partitions : np.Partitions) (state : ClusterState) {conditions : List (PyKey × PyValue)}
    (distinct : (conditions.map Prod.fst).Nodup) :
    Telling np embeds store.owner records (Remembers store.owner records)
      (lookup scoring store state conditions : Command (List Float32Bits) D _)
      fun hits world => Remembers store.owner records world ∧
        (hits = [] ∧ state.dataset = none ∨ FoundIn store records conditions 1000 hits) := by
  unfold lookup
  split
  · rename_i noDataset
    exact Client.Ensures.pure fun _ _ holds => ⟨holds, Or.inl ⟨rfl, noDataset⟩⟩
  · apply Telling.after (.lift _)
    intro dim
    apply (search_telling store partitions state (scoring.ones dim) 1000 distinct).imp
    · exact fun _ _ holds => holds
    · exact fun _ _ _ holds => ⟨holds.1, Or.inr holds.2⟩
    · exact fun _ _ _ holds => holds

/-- The records that name one of the ids. -/
theorem countFulfilling_targets (ids : List String) :
    Coordinator.countFulfilling [(.str "replaces", anyOf ids)] (records.map MemoryRecord.payload) =
      records.countP (MemoryRecord.names ids) := by
  unfold Coordinator.countFulfilling
  rw [List.countP_map]
  apply List.countP_congr
  intro record _
  simp only [Function.comp_apply, decide_eq_true_eq, MemoryRecord.fulfils_iff, List.mem_singleton, forall_eq]
  exact MemoryRecord.meets_targets ids record

omit [LinearOrder D] in
/-- What the found records name. -/
theorem FoundIn.targets {ids : List String} {k : Nat} {hits : List (Hit D)}
    (found : FoundIn store records [(.str "replaces", anyOf ids)] k hits) {targets : List (List String)}
    (read : (hits.mapM fun hit => do asStrings (← field hit.payload "replaces")) = .ok targets) :
    (∀ id ∈ targets.flatten, id ∈ MemoryRecord.dead records) ∧
      (records.countP (MemoryRecord.names ids) ≤ k → ∀ id ∈ ids, id ∈ MemoryRecord.dead records →
        id ∈ targets.flatten) := by
  constructor
  · intro id member
    rcases List.mem_flatten.mp member with ⟨named, isNamed, isTarget⟩
    rcases mapM_ok_mem read named isNamed with ⟨hit, isHit, given⟩
    rcases found.sound hit isHit with ⟨payload, isPayload, shown, _⟩
    rcases List.mem_map.mp isPayload with ⟨record, isRecord, rfl⟩
    rw [MemoryRecord.targets_shown shown] at given
    rw [← Except.ok.inj given] at isTarget
    exact MemoryRecord.mem_dead.mpr ⟨record, isRecord, isTarget⟩
  · intro enough id isId isDead
    rcases MemoryRecord.mem_dead.mp isDead with ⟨record, isRecord, isTarget⟩
    have names : record.names ids = true := MemoryRecord.names_iff.mpr ⟨id, isTarget, isId⟩
    have fulfils : Fulfils [(.str "replaces", anyOf ids)] record.payload := by
      rw [MemoryRecord.fulfils_iff]
      intro condition member
      rw [List.mem_singleton.mp member]
      exact (MemoryRecord.meets_targets ids record).mpr names
    rw [← countFulfilling_targets] at enough
    rcases found.complete enough _ (List.mem_map_of_mem isRecord) fulfils with ⟨hit, isHit, shown⟩
    rcases forall₂_mem_left (mapM_ok read) isHit with ⟨named, isNamed, given⟩
    rw [MemoryRecord.targets_shown shown] at given
    rw [← Except.ok.inj given] at isNamed
    exact List.mem_flatten.mpr ⟨_, isNamed, isTarget⟩

/-- Where at most 1000 records name one of the ids, the dead ones are found. -/
structure Buried (records : List MemoryRecord) (ids dead : List String) : Prop where
  sound : ∀ id ∈ dead, id ∈ MemoryRecord.dead records
  complete : records.countP (MemoryRecord.names ids) ≤ 1000 → ∀ id ∈ ids, id ∈ MemoryRecord.dead records →
    id ∈ dead

theorem Buried.none (records : List MemoryRecord) : Buried records [] [] :=
  ⟨fun _ member => absurd member List.not_mem_nil, fun _ _ member => absurd member List.not_mem_nil⟩

theorem replaced_telling (partitions : np.Partitions) (state : ClusterState) (hasDataset : state.dataset ≠ none)
    (ids : List String) :
    Telling np embeds store.owner records (Remembers store.owner records)
      (replaced scoring store state ids : Command (List Float32Bits) D _)
      fun dead world => Remembers store.owner records world ∧ Buried records ids dead := by
  unfold replaced
  split
  · rename_i empty
    rw [List.isEmpty_iff.mp empty]
    exact Client.Ensures.pure fun _ _ holds => ⟨holds, Buried.none records⟩
  · apply Client.Ensures.bind (lookup_telling scoring store partitions state
      (show ([(.str "replaces", anyOf ids)].map Prod.fst).Nodup from List.nodup_singleton _))
    intro hits
    apply Client.Ensures.given
    intro found
    apply Client.Ensures.bind (Telling.lift _)
    intro targets
    apply Client.Ensures.given
    intro read
    apply Client.Ensures.pure
    refine fun _ _ holds => ⟨holds, ?_⟩
    rcases found with ⟨_, noDataset⟩ | found
    · exact absurd noDataset hasDataset
    · rcases FoundIn.targets store found read with ⟨sound, complete⟩
      constructor
      · exact fun id member => sound id (List.mem_filter.mp member).1
      · intro enough id isId isDead
        exact List.mem_filter.mpr ⟨complete enough id isId isDead, decide_eq_true isId⟩

omit [LinearOrder D] in
theorem read_ids {conditions : List (PyKey × PyValue)} {k : Nat} {hits : List (Hit D)}
    (found : FoundIn store records conditions k hits) {ids : List String} (read : idsOf hits = .ok ids) :
    ids.length ≤ k ∧ ∀ id ∈ ids, ∃ record ∈ records, record.id = id ∧ Fulfils conditions record.payload := by
  have each := mapM_ok read
  constructor
  · rw [← each.length_eq]
    exact found.few
  · intro id member
    rcases mapM_ok_mem read id member with ⟨hit, isHit, given⟩
    rcases found.sound hit isHit with ⟨payload, isPayload, shown, fulfils⟩
    rcases List.mem_map.mp isPayload with ⟨record, isRecord, rfl⟩
    rw [MemoryRecord.id_shown shown] at given
    exact ⟨record, isRecord, Except.ok.inj given, fulfils⟩

/-- No live id is dead: a lookup has few results, and an id is named once. -/
theorem liveIds_telling (partitions : np.Partitions) (state : ClusterState) (hasDataset : state.dataset ≠ none)
    (ids : List String) :
    Telling np embeds store.owner records (Remembers store.owner records)
      (liveIds scoring store state ids : Command (List Float32Bits) D _)
      fun live world => Remembers store.owner records world ∧ ∀ id ∈ live, id ∉ MemoryRecord.dead records := by
  unfold liveIds
  split
  · exact Client.Ensures.pure fun _ _ holds => ⟨holds, fun _ member => absurd member List.not_mem_nil⟩
  · have distinct : ([(.str "type", .str "memory"), (.str "memory_id", anyOf ids)].map
        (Prod.fst : PyKey × PyValue → PyKey)).Nodup := by
      simp
    apply Client.Ensures.bind (lookup_telling scoring store partitions state distinct)
    intro hits
    apply Client.Ensures.given
    intro found
    apply Client.Ensures.bind (Telling.lift _)
    intro stored
    apply Client.Ensures.given
    intro read
    apply Client.Ensures.bind (replaced_telling scoring store partitions state hasDataset stored)
    intro dead
    apply Client.Ensures.given
    intro buried
    apply Client.Ensures.pure
    refine fun _ _ holds => ⟨holds, fun id member isDead => ?_⟩
    rcases List.mem_filter.mp member with ⟨isStored, notNamed⟩
    rcases found with ⟨_, noDataset⟩ | found
    · exact absurd noDataset hasDataset
    · have few := Nat.le_trans (MemoryRecord.countP_names_le holds.once stored) (read_ids store found read).1
      exact absurd (buried.complete few id isStored isDead) (of_decide_eq_true notNamed)

theorem state_telling :
    Telling np embeds owner records (Remembers owner records) (store.state : Command (List Float32Bits) D _)
      fun _ => Remembers owner records := by
  apply Client.Ensures.bind (readState_telling store.home)
  intro state
  split
  · exact Client.Ensures.pure fun _ _ holds => holds
  · apply Telling.after (.lift _)
    intro _
    exact Client.Ensures.pure fun _ _ holds => holds

theorem dataset_telling (state : ClusterState) (replies : List StatusResponse) :
    Telling np embeds owner records (Remembers owner records)
      (store.dataset state replies : Command (List Float32Bits) D _)
      fun result world => Remembers owner records world ∧ result.1.dataset = some result.2 := by
  unfold MemoryStore.dataset
  split
  · rename_i dataset isDataset
    exact Client.Ensures.pure fun _ _ holds => ⟨holds, isDataset⟩
  · split
    · exact Telling.throw
    · apply Telling.after (getEmbedder_plain _)
      intro info
      apply Client.Ensures.bind (writeState_telling _)
      intro _
      exact Client.Ensures.pure fun _ _ holds => ⟨holds, rfl⟩

/-- A record that names no id that is dead already. -/
theorem write_telling (state : ClusterState) (vector : List Float32Bits) (record : MemoryRecord)
    (once : (MemoryRecord.dead (records ++ [record])).Nodup) :
    Telling np embeds store.owner records (Remembers store.owner records)
      (write store state vector record.payload : Command (List Float32Bits) D _)
      fun _ => Remembers store.owner (records ++ [record]) := by
  have adds : Telling np embeds store.owner records (Remembers store.owner records)
      (Client.call (HomeCall.add state.shardAddresses [vector] (some [some record.payload])
        (some store.owner)) :
        Command (List Float32Bits) D _)
      fun outcome world => Remembers store.owner (records ++ [record]) world ∧ outcome = .ok () := by
    apply Telling.call
    rintro world outcome _ holds ⟨coordinator, added, isOk, rfl⟩
    have kept := (holds.held.add record.storable added).1
    refine ⟨?_, isOk⟩
    refine ⟨?_, once⟩
    rw [List.map_append]
    exact kept
  apply Telling.raising
  apply Client.Ensures.bind adds
  intro outcome
  apply Client.Ensures.given
  rintro rfl
  exact Client.Ensures.pure fun _ _ holds => holds

theorem storeFact_telling (state : ClusterState) (vector : List Float32Bits) (text : String)
    (tags : List String) {replaces : List String} (distinct : replaces.Nodup)
    (alive : ∀ id ∈ replaces, id ∉ MemoryRecord.dead records) :
    Telling np embeds store.owner records (Remembers store.owner records)
      (storeFact store state vector text tags replaces : Command (List Float32Bits) D _)
      fun id world => ∃ created, Remembers store.owner
        (records ++ [.memory id text tags created replaces]) world := by
  apply Telling.knowing fun _ holds => holds.once
  intro once
  refine Telling.after (.call trivial) fun (suffix : String) => ?_
  refine Telling.after (.call trivial) fun (created : FloatText) => ?_
  have later : (MemoryRecord.dead (records ++ [.memory ("m" ++ suffix) text tags created replaces])).Nodup := by
    rw [MemoryRecord.dead_append, List.nodup_append']
    refine ⟨once, ?_, ?_⟩
    · change (replaces ++ []).Nodup
      rw [List.append_nil]
      exact distinct
    · intro id isDead isNamed
      rw [show MemoryRecord.dead [.memory ("m" ++ suffix) text tags created replaces] = replaces ++ [] from rfl,
        List.append_nil] at isNamed
      exact alive id isNamed isDead
  apply Client.Ensures.bind
    (write_telling store state vector (.memory ("m" ++ suffix) text tags created replaces) later)
  intro _
  exact Client.Ensures.pure fun _ _ holds => ⟨created, holds⟩

theorem storeForgetting_telling (state : ClusterState) (dim : Nat) {id : String}
    (alive : id ∉ MemoryRecord.dead records) :
    Telling np embeds store.owner records (Remembers store.owner records)
      (storeForgetting scoring store state dim id : Command (List Float32Bits) D _)
      fun _ world => ∃ name created, Remembers store.owner (records ++ [.forgetting name created id])
        world := by
  apply Telling.knowing fun _ holds => holds.once
  intro once
  refine Telling.after (.call trivial) fun (suffix : String) => ?_
  refine Telling.after (.call trivial) fun (created : FloatText) => ?_
  have later : (MemoryRecord.dead (records ++ [.forgetting ("f" ++ suffix) created id])).Nodup := by
    rw [MemoryRecord.dead_append, List.nodup_append']
    refine ⟨once, List.nodup_singleton id, ?_⟩
    intro other isDead isNamed
    rw [List.mem_singleton.mp (show other ∈ [id] from isNamed)] at isDead
    exact alive isDead
  apply (write_telling store state (scoring.ones dim) (.forgetting ("f" ++ suffix) created id) later).imp
  · exact fun _ _ holds => holds
  · exact fun _ _ _ holds => ⟨_, created, holds⟩
  · exact fun _ _ _ holds => holds

/-- What `remember` does to the records. -/
def Remembered (records : List MemoryRecord) (tags replaces : List String) (result : String × Bool)
    (later : List MemoryRecord) : Prop :=
  (result.2 = true ∧ ∃ text created, later = records ++ [.memory result.1 text tags created replaces]) ∨
    (result.2 = false ∧ replaces = [] ∧ later = records)

omit [LinearOrder D] in
theorem embedder_plain (dataset : Dataset) : Plain (embedder dataset : Command (List Float32Bits) D _) := by
  cases dataset with
  | glove => exact .throw _
  | documents => exact getEmbedder_plain _
  | memory => exact getEmbedder_plain _

/-- Only a fact that replaces nothing is known already. -/
theorem knownAs_telling (state : ClusterState) (vector : List Float32Bits) (replaces : List String) :
    Telling np embeds owner records (Remembers owner records)
      (knownAs scoring store state vector replaces : Command (List Float32Bits) D _)
      fun known world => Remembers owner records world ∧ (known ≠ none → replaces = []) := by
  by_cases none : replaces = []
  · apply (knownAs_plain scoring store state vector replaces).telling.imp
    · exact fun _ _ holds => holds
    · exact fun _ _ _ holds => ⟨holds, fun _ => none⟩
    · exact fun _ _ _ holds => holds
  · unfold knownAs
    rw [if_neg fun empty => none (List.isEmpty_iff.mp empty)]
    exact Client.Ensures.pure fun _ _ holds => ⟨holds, fun known => absurd rfl known⟩

theorem rememberFact_telling (state : ClusterState) (dataset : Dataset) (text : String) (tags : List String)
    {replaces : List String} (distinct : replaces.Nodup)
    (alive : ∀ id ∈ replaces, id ∉ MemoryRecord.dead records) :
    Telling np embeds store.owner records (Remembers store.owner records)
      (rememberFact scoring store state dataset text tags replaces : Command (List Float32Bits) D _)
      fun result world => ∃ later, Remembers store.owner later world ∧
        Remembered records tags replaces result later := by
  apply Telling.after (embedder_plain dataset)
  intro info
  refine Telling.after (.call trivial) fun (answer : Except Error (List (List Float32Bits))) => ?_
  apply Telling.after (.lift answer)
  intro vectors
  split
  · exact Telling.throw
  · rename_i vector _
    apply Client.Ensures.bind (knownAs_telling scoring store state vector replaces)
    intro known
    apply Client.Ensures.given
    intro isKnown
    cases known with
    | some id =>
        have none := isKnown (Option.some_ne_none id)
        exact Client.Ensures.pure fun _ _ holds => ⟨records, holds, Or.inr ⟨rfl, none, rfl⟩⟩
    | none =>
        apply Client.Ensures.bind (storeFact_telling store state vector text tags distinct alive)
        intro id
        apply Client.Ensures.pure
        rintro _ _ ⟨created, holds⟩
        exact ⟨_, holds, Or.inl ⟨rfl, text, created, rfl⟩⟩

theorem remember_telling (partitions : np.Partitions) (text : String) (tags replaces : List String) :
    Telling np embeds store.owner records (Remembers store.owner records)
      (remember scoring store text tags replaces : Command (List Float32Bits) D _)
      fun result world => ∃ later, Remembers store.owner later world ∧
        Remembered records tags replaces.eraseDups result later := by
  unfold remember
  split
  · exact Telling.throw
  · apply Client.Ensures.bind (state_telling store)
    intro state
    apply Telling.after (writable_plain _)
    intro replies
    apply Client.Ensures.bind (dataset_telling store state replies)
    rintro ⟨opened, dataset⟩
    apply Client.Ensures.given
    intro isDataset
    have hasDataset : opened.dataset ≠ none := by
      rw [isDataset]
      exact Option.some_ne_none dataset
    apply Client.Ensures.bind (liveIds_telling scoring store partitions opened hasDataset replaces.eraseDups)
    intro live
    apply Client.Ensures.given
    intro alive
    dsimp only
    split
    · exact Telling.throw
    · rename_i present
      apply rememberFact_telling scoring store opened dataset (strip text) tags
      · exact MemoryRecord.nodup_eraseDups replaces
      · intro id isNamed
        apply alive id
        by_contra notLive
        apply present
        exact List.ne_nil_of_mem (List.mem_filter.mpr ⟨isNamed, decide_eq_true notLive⟩)

theorem forget_telling (partitions : np.Partitions) (id : String) :
    Telling np embeds store.owner records (Remembers store.owner records)
      (forget scoring store id : Command (List Float32Bits) D _)
      fun _ world => ∃ name created, Remembers store.owner (records ++ [.forgetting name created id])
        world := by
  apply Client.Ensures.bind (state_telling store)
  intro state
  apply Telling.after (writable_plain _)
  intro replies
  apply Client.Ensures.bind (dataset_telling store state replies)
  rintro ⟨opened, dataset⟩
  apply Client.Ensures.given
  intro isDataset
  have hasDataset : opened.dataset ≠ none := by
    rw [isDataset]
    exact Option.some_ne_none dataset
  apply Client.Ensures.bind (liveIds_telling scoring store partitions opened hasDataset [id])
  intro live
  apply Client.Ensures.given
  intro alive
  dsimp only
  split
  · exact Telling.throw
  · rename_i present
    apply Telling.after (.lift _)
    intro dim
    exact storeForgetting_telling scoring store opened dim (alive id (not_not.mp present))

/-! ## Recalls -/

/-- The records that name a memory which carries one of the tags. -/
def admitted (records : List MemoryRecord) (tags : List String) : List String :=
  records.filterMap fun record =>
    if record.isMemory && (tags.isEmpty || record.tags.any (· ∈ tags)) then some record.id else none

theorem mem_admitted {tags : List String} {record : MemoryRecord} (member : record ∈ records)
    (isMemory : record.isMemory = true) (tagged : tags = [] ∨ ∃ tag ∈ record.tags, tag ∈ tags) :
    record.id ∈ admitted records tags := by
  apply List.mem_filterMap.mpr
  refine ⟨record, member, if_pos ?_⟩
  rw [isMemory, Bool.true_and, Bool.or_eq_true, List.isEmpty_iff, List.any_eq_true]
  simp only [decide_eq_true_eq]
  exact tagged

/-- The filter of a recall. -/
def recallFilter (tags : List String) : List (PyKey × PyValue) :=
  (.str "type", .str "memory") :: if tags.isEmpty then [] else [(.str "tags", anyOf tags)]

theorem recallFilter_nodup (tags : List String) : ((recallFilter tags).map Prod.fst).Nodup := by
  unfold recallFilter
  split
  · exact List.nodup_singleton _
  · simp

theorem admitted_of_fulfils {tags : List String} {record : MemoryRecord} (member : record ∈ records)
    (fulfils : Fulfils (recallFilter tags) record.payload) : record.id ∈ admitted records tags := by
  rw [MemoryRecord.fulfils_iff] at fulfils
  apply mem_admitted member
  · exact (MemoryRecord.meets_memory record).mp (fulfils _ List.mem_cons_self)
  · by_cases none : tags = []
    · exact Or.inl none
    · refine Or.inr ((MemoryRecord.meets_tags tags record).mp (fulfils _ ?_))
      unfold recallFilter
      rw [if_neg fun empty => none (List.isEmpty_iff.mp empty)]
      exact List.mem_cons_of_mem _ (List.mem_singleton_self _)

omit [LinearOrder D] in
theorem memoryOf_id {now : FloatText} {hit : Hit D} {memory : Memory S}
    (given : memoryOf scoring now hit = .ok memory) :
    (do asString (← field hit.payload "memory_id")) = .ok memory.id := by
  rcases gave_bind given with ⟨value, isField, read⟩
  rcases gave_bind read with ⟨id, isId, withId⟩
  rcases gave_bind withId with ⟨_, _, afterField⟩
  rcases gave_bind afterField with ⟨text, _, withText⟩
  rcases gave_bind withText with ⟨_, _, afterTags⟩
  rcases gave_bind afterTags with ⟨tags, _, withTags⟩
  rcases gave_bind withTags with ⟨_, _, afterCreated⟩
  rcases gave_bind afterCreated with ⟨created, _, whole⟩
  cases whole
  rw [isField]
  exact isId

omit [LinearOrder D] in
/-- What is left of the hits. -/
theorem memoriesOf_ok {dead : List String} {now : FloatText} {hits : List (Hit D)} {memories : List (Memory S)}
    (given : memoriesOf scoring dead now hits = .ok memories) :
    ∀ memory ∈ memories, memory.id ∉ dead ∧
      ∃ hit ∈ hits, (do asString (← field hit.payload "memory_id")) = .ok memory.id := by
  induction hits generalizing memories with
  | nil =>
      cases given
      exact fun _ member => absurd member List.not_mem_nil
  | cons hit rest inductionHypothesis =>
      unfold memoriesOf at given
      rcases gave_bind given with ⟨value, isField, read⟩
      rcases gave_bind read with ⟨id, isId, later⟩
      split at later
      · intro memory member
        rcases inductionHypothesis later memory member with ⟨alive, other, isHit, isMemory⟩
        exact ⟨alive, other, List.mem_cons_of_mem _ isHit, isMemory⟩
      · rename_i alive
        rcases gave_bind later with ⟨first, isFirst, more⟩
        rcases gave_bind more with ⟨others, isRest, isAll⟩
        cases isAll
        intro memory member
        rcases List.mem_cons.mp member with rfl | behind
        · have sameId := memoryOf_id scoring isFirst
          have isOwn : (do asString (← field hit.payload "memory_id")) = .ok id := by
            rw [isField]
            exact isId
          rw [isOwn] at sameId
          rw [← Except.ok.inj sameId]
          exact ⟨alive, hit, List.mem_cons_self, isOwn⟩
        · rcases inductionHypothesis isRest memory behind with ⟨alive, other, isHit, isMemory⟩
          exact ⟨alive, other, List.mem_cons_of_mem _ isHit, isMemory⟩

variable [LinearOrder S]

/-- Where the lookup of the dead is complete, none of the recalled is dead. -/
theorem recall_telling (partitions : np.Partitions) (query : String) (k : Nat) (tags : List String) :
    Telling np embeds store.owner records (Remembers store.owner records)
      («recall» scoring store query k tags : Command (List Float32Bits) D _)
      fun memories world => Remembers store.owner records world ∧
        (k ≤ 250 ∨ records.countP (MemoryRecord.names (admitted records tags)) ≤ 1000 →
          ∀ memory ∈ memories, memory.id ∉ MemoryRecord.dead records) := by
  apply Telling.knowing fun _ holds => holds.once
  intro once
  apply Client.Ensures.bind (state_telling store)
  intro state
  split
  · exact Client.Ensures.pure fun _ _ holds => ⟨holds, fun _ _ member => absurd member List.not_mem_nil⟩
  · rename_i dataset isDataset
    have hasDataset : state.dataset ≠ none := by
      rw [isDataset]
      exact Option.some_ne_none dataset
    apply Telling.after (.lift _)
    intro _
    apply Telling.after (embedder_plain dataset)
    intro info
    refine Telling.after (.call trivial) fun (answer : Except Error (List Float32Bits)) => ?_
    apply Telling.after (.lift answer)
    intro vector
    have wanted : (k : Int) * candidates = ((k * 4 : Nat) : Int) := by
      rw [Int.natCast_mul]
      rfl
    rw [wanted]
    apply Client.Ensures.bind (search_telling store partitions state vector (k * 4) (recallFilter_nodup tags))
    intro hits
    apply Client.Ensures.given
    intro found
    apply Client.Ensures.bind (Telling.lift _)
    intro ids
    apply Client.Ensures.given
    intro read
    apply Client.Ensures.bind (replaced_telling scoring store partitions state hasDataset ids)
    intro dead
    apply Client.Ensures.given
    intro buried
    refine Telling.after (.call trivial) fun (now : FloatText) => ?_
    apply Client.Ensures.bind (Telling.lift _)
    intro memories
    apply Client.Ensures.given
    intro isMemories
    apply Client.Ensures.pure
    refine fun _ _ holds => ⟨holds, fun few => ?_⟩
    have complete : records.countP (MemoryRecord.names ids) ≤ 1000 := by
      rcases read_ids store found read with ⟨size, each⟩
      rcases few with few | few
      · have atMost := MemoryRecord.countP_names_le once ids
        omega
      · refine Nat.le_trans (List.countP_mono_left ?_) few
        intro record _ names
        rcases MemoryRecord.names_iff.mp names with ⟨id, isTarget, isId⟩
        rcases each id isId with ⟨other, isRecord, rfl, fulfils⟩
        exact MemoryRecord.names_iff.mpr ⟨_, isTarget, admitted_of_fulfils isRecord fulfils⟩
    have alive : ∀ memory ∈ memories, memory.id ∉ MemoryRecord.dead records := by
      intro memory member isDead
      rcases memoriesOf_ok scoring isMemories memory member with ⟨notFound, hit, isHit, isId⟩
      rcases forall₂_mem_left (mapM_ok read) isHit with ⟨id, inIds, given⟩
      rw [isId] at given
      rw [← Except.ok.inj given] at inIds
      exact notFound (buried.complete complete memory.id inIds isDead)
    intro memory member
    have sorted : memory ∈ memories.insertionSort fun left right => right.score ≤ left.score := by
      split at member
      · exact List.mem_of_mem_take member
      · exact List.mem_of_mem_take member
    exact alive memory ((List.mem_insertionSort _).mp sorted)

end MemoryStore

end Triples

end Home
end VectorSearch
