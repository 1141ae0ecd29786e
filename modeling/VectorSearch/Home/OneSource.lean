import VectorSearch.Home.Accesses
import VectorSearch.Home.Memory

namespace VectorSearch

/-!
# One cluster, one embedding space

Each command that stores vectors first decides whether it may: `ingest` and the
memories by the recorded dataset or, where none is recorded, by every server
being empty, and `load` by every server being empty alone.  All vectors of a
cluster come from one source as long as no `load` meets a cluster that is empty
but records documents or memories.
-/

namespace Home

variable {V D S α β : Type}

/-! ## Sources -/

/-- What makes vectors. -/
inductive Origin where
  | gloveTable
  | embedder (name : String)

/-- What a cluster's vectors were made for, and by which embedder. -/
inductive Source where
  | glove
  | documents (embedder : String)
  | memory (embedder : String)

/-- A vector with its payload, stored on the server at an address. -/
structure Entry (V : Type) where
  address : String
  vector : V
  payload : Payload

/-- `produces` says which vectors an origin makes.  A record of forgetting is the
memories' own whatever its vector. -/
def Source.Makes (produces : Origin → V → Prop) : Source → V × Payload → Prop
  | glove, (vector, payload) => produces .gloveTable vector ∧ payload = none
  | documents name, (vector, payload) =>
      produces (.embedder name) vector ∧ ∃ passage, payload = some (passagePayload passage)
  | memory name, (vector, payload) =>
      (produces (.embedder name) vector ∧
        ∃ id text tags created replaces, payload =
          some (MemoryStore.memoryPayload id text tags created replaces)) ∨
      ∃ id created target, payload = some (MemoryStore.forgetPayload id created target)

/-- The recorded name and embedder are those of the source. -/
def Source.Recorded : Source → Dataset → Prop
  | glove, .glove .. => True
  | documents name, .documents embedder .. => embedder = name
  | memory name, .memory embedder _ => embedder = name
  | _, _ => False

/-! ## The cluster -/

/-- The document, what the servers store, and what has been sent to them and has
not arrived yet. -/
structure ClusterWorld (V : Type) where
  file : Option ClusterState
  stored : List (Entry V)
  underWay : List (Entry V)

namespace ClusterWorld

/-- How many vectors a server stores. -/
def sizeAt (world : ClusterWorld V) (address : String) : Nat :=
  (world.stored.filter fun entry => entry.address = address).length

/-- Something that was sent arrives. -/
def Arrives (world next : ClusterWorld V) : Prop :=
  ∃ front entry back, world.underWay = front ++ entry :: back ∧
    next = ⟨world.file, world.stored ++ [entry], front ++ back⟩

end ClusterWorld

/-- The vectors of a request to store, each with its payload. -/
def requested (vectors : List V) (payloads : Option (List Payload)) : List (V × Payload) :=
  match payloads with
  | none => vectors.map fun vector => (vector, none)
  | some payloads => vectors.zip payloads

/-- An entry that a request to store asks for. -/
def Entry.Of (entry : Entry V) (shards : List (List String)) (vectors : List V)
    (payloads : Option (List Payload)) : Prop :=
  entry.address ∈ shards.flatten ∧ (entry.vector, entry.payload) ∈ requested vectors payloads

variable (produces : Origin → V → Prop)

/-- The calls of the commands on one cluster.  A request to store that breaks off
has stored any part of what it asks for, and another part can arrive later. -/
def clusterNetwork : Network (HomeCall V) (HomeCall.Answer V D) (ClusterWorld V) where
  answers := fun call world answer last =>
    match call, answer with
    | .readFile, found => found = world.file ∧ last = world
    | .writeFile state, _ => last = { world with file := some state }
    | .unlinkFile, _ => last = { world with file := none }
    | .serverStatus server, reply =>
        last = world ∧ ∀ status, reply = some status → status.size = world.sizeAt server.address
    | .getEmbedder name, given => last = world ∧ ∀ info, given = .ok info → info.name = name
    | .embedDocuments name _, given =>
        last = world ∧ ∀ vectors, given = .ok vectors → ∀ vector ∈ vectors, produces (.embedder name) vector
    | .loadGlove _, given =>
        last = world ∧ ∀ words vectors, given = .ok (words, vectors) → ∀ vector ∈ vectors,
          produces .gloveTable vector
    | .add shards vectors payloads _, outcome =>
        ∃ stored underWay, last = ⟨world.file, world.stored ++ stored, world.underWay ++ underWay⟩ ∧
          (∀ entry ∈ stored ++ underWay, entry.Of shards vectors payloads) ∧
          (outcome = .ok () → underWay = [] ∧
            ∀ item ∈ requested vectors payloads, ∃ entry ∈ stored, (entry.vector, entry.payload) = item)
    | _, _ => last = world
  moves := ClusterWorld.Arrives

/-! ## The invariant -/

/-- All vectors are of one source, which is the recorded one if one is recorded,
and all servers are those of the cluster. -/
structure Holds (cluster : List String) (source : Source) (world : ClusterWorld V) : Prop where
  servers : ∀ state, world.file = some state → ∀ address, address ∈ state.shardAddresses.flatten ↔
    address ∈ cluster
  recorded : ∀ state dataset, world.file = some state → state.dataset = some dataset → source.Recorded dataset
  placed : ∀ entry ∈ world.stored ++ world.underWay, entry.address ∈ cluster
  made : ∀ entry ∈ world.stored ++ world.underWay, source.Makes produces (entry.vector, entry.payload)

def SingleSource (cluster : List String) (world : ClusterWorld V) : Prop := ∃ source,
    Holds produces cluster source world

/-- The vectors of the cluster are of a single source, and a recorded dataset is
of that source. -/
def OneSource (world : ClusterWorld V) : Prop :=
  ∃ source : Source, (∀ entry ∈ world.stored, source.Makes produces (entry.vector, entry.payload)) ∧
    ∀ state dataset, world.file = some state → state.dataset = some dataset → world.stored ≠ [] →
      source.Recorded dataset

variable {produces}

theorem SingleSource.oneSource {cluster : List String} {world : ClusterWorld V}
    (kept : SingleSource produces cluster world) : OneSource produces world := by
  rcases kept with ⟨source, holds⟩
  refine ⟨source, fun entry member => holds.made entry (List.mem_append_left _ member), ?_⟩
  exact fun state dataset isFile isDataset _ => holds.recorded state dataset isFile isDataset

theorem Holds.arrives {cluster : List String} {source : Source} {world next : ClusterWorld V}
    (holds : Holds produces cluster source world) (arrives : world.Arrives next) :
    Holds produces cluster source next := by
  rcases arrives with ⟨front, entry, back, isUnderWay, rfl⟩
  have same : ∀ other, other ∈ world.stored ++ [entry] ++ (front ++ back) → other ∈
    world.stored ++ world.underWay := by
    intro other member
    rw [isUnderWay]
    simp only [List.mem_append, List.mem_cons, List.not_mem_nil, or_false] at member ⊢
    tauto
  exact ⟨holds.servers, holds.recorded, fun other member => holds.placed other (same other member),
    fun other member => holds.made other (same other member)⟩

/-- A cluster without vectors is of any source that agrees with the record. -/
theorem Holds.empty {cluster : List String} {old source : Source} {world : ClusterWorld V}
    (holds : Holds produces cluster old world) (nothing : world.stored ++ world.underWay = [])
    (recorded : ∀ state dataset, world.file = some state → state.dataset = some dataset →
      source.Recorded dataset) : Holds produces cluster source world := by
  refine ⟨holds.servers, recorded, holds.placed, ?_⟩
  rw [nothing]
  exact fun _ member => absurd member List.not_mem_nil

/-- Without the document nothing is recorded. -/
theorem Holds.forgotten {cluster : List String} {source : Source} {world : ClusterWorld V}
    (holds : Holds produces cluster source world) : Holds produces cluster source { world with file := none } :=
  ⟨(fun _ found => nomatch found), (fun _ _ found => nomatch found), holds.placed, holds.made⟩

/-- Writing the document with a dataset of the source. -/
theorem Holds.write {cluster : List String} {source : Source} {world : ClusterWorld V}
    {state next : ClusterState} (holds : Holds produces cluster source world)
    (servers : ∀ address, address ∈ state.shardAddresses.flatten ↔ address ∈ cluster)
    (same : next.servers = state.servers) (recorded : ∀ dataset, next.dataset = some dataset →
      source.Recorded dataset) :
    Holds produces cluster source { world with file := some next } := by
  refine ⟨?_, ?_, holds.placed, holds.made⟩
  · rintro _ ⟨⟩
    unfold ClusterState.shardAddresses at servers ⊢
    rw [same]
    exact servers
  · rintro _ dataset ⟨⟩
    exact recorded dataset

/-! ## Triples about the cluster -/

section Triples

variable {cluster : List String} {before : ClusterWorld V → Prop} {source : Source}

variable (produces cluster) in
/-- A command that keeps one source at every moment, also where it raises. -/
abbrev Keeping (before : ClusterWorld V → Prop) (command : Command V D α)
    (returned : α → ClusterWorld V → Prop) : Prop :=
  Client.Ensures (clusterNetwork produces) (SingleSource produces cluster) (fun _ => before) command
    (fun value _ => returned value) fun _ _ => SingleSource produces cluster

variable (produces cluster) in
/-- What nothing that arrives late changes, and what implies the invariant. -/
structure Settled (before : ClusterWorld V → Prop) : Prop where
  stable : ∀ world next, before world → world.Arrives next → before next
  kept : ∀ world, before world → SingleSource produces cluster world

theorem Settled.holds : Settled produces cluster (Holds produces cluster source) :=
  ⟨fun _ _ holds arrives => holds.arrives arrives, fun _ holds => ⟨source, holds⟩⟩

/-- While nothing is under way the cluster stays as it is. -/
theorem Settled.still {world : ClusterWorld V} (kept : SingleSource produces cluster world)
    (quiet : world.underWay = []) :
    Settled produces cluster (· = world) := by
  constructor
  · rintro _ next rfl ⟨front, entry, back, isUnderWay, _⟩
    rw [quiet] at isUnderWay
    exact absurd isUnderWay (by simp)
  · rintro _ rfl
    exact kept

theorem Keeping.call {call : HomeCall V} {returned : HomeCall.Answer V D call → ClusterWorld V → Prop}
    (settled : Settled produces cluster before)
    (given : ∀ world answer last, before world → (clusterNetwork produces).answers call world answer last →
      returned answer last) : Keeping produces cluster before (Client.call call) returned :=
  Client.Ensures.call (fun _ => settled.stable) (fun _ => settled.kept) fun _ => given

theorem Keeping.throw {error : Error} {returned : α → ClusterWorld V → Prop}
    (settled : Settled produces cluster before) :
    Keeping produces cluster before (throw error : Command V D α) returned :=
  Client.Ensures.throw fun _ => settled.kept

theorem Keeping.lift {result : Except Error α} (settled : Settled produces cluster before) :
    Keeping produces cluster before (Client.lift result : Command V D α)
      fun value world => before world ∧ result = .ok value :=
  Client.Ensures.lift (fun _ same _ _ holds => ⟨holds, same⟩) fun _ _ _ => settled.kept

theorem Keeping.raising {body : Command V D α} {returned : α → ClusterWorld V → Prop} (turn : Error → Error)
    (tries : Keeping produces cluster before body returned) :
    Keeping produces cluster before (raising turn body) returned :=
  Client.Ensures.tryCatch tries fun _ => Client.Ensures.throw fun _ _ holds => holds

theorem answer_plain {call : HomeCall V} {world last : ClusterWorld V} {answer : HomeCall.Answer V D call}
    (plain : HomeCall.Plain call) (given : (clusterNetwork produces).answers call world answer last) :
    last = world := by
  cases call with
  | readFile | writeFile | unlinkFile | spawn | add => exact plain.elim
  | serverStatus | getEmbedder | embedDocuments | loadGlove => exact given.1
  | _ => exact given

/-- A part without reads and writes of the document and without vectors changes
nothing. -/
theorem Plain.keeping {command : Command V D α} (plain : Plain command)
    (settled : Settled produces cluster before) :
    Keeping produces cluster before command fun _ => before := by
  have ends := @Client.Ensures.of_only _ _ _ _ _ _ (clusterNetwork produces)
    (SingleSource produces cluster) _ _ before plain
    settled.stable settled.kept fun call isPlain world answer last holds given =>
      answer_plain isPlain given ▸ holds
  exact ends.imp (fun _ _ holds => holds) (fun _ _ _ holds => holds) fun _ _ world holds =>
    settled.kept world holds

theorem Keeping.after {first : Command V D α} {next : α → Command V D β} {returned : β → ClusterWorld V → Prop}
    (plain : Plain first) (settled : Settled produces cluster before)
    (back : ∀ value, Keeping produces cluster before (next value) returned) :
    Keeping produces cluster before (first >>= next) returned :=
  Client.Ensures.bind (plain.keeping settled) back

/-! ### What the parts find out -/

theorem readState_keeping {world : ClusterWorld V} (home : String)
    (settled : Settled produces cluster (· = world)) :
    Keeping produces cluster (· = world) (readState home : Command V D _)
      fun state last => last = world ∧ world.file = some state := by
  have reads : Keeping produces cluster (· = world) (Client.call HomeCall.readFile : Command V D _)
      fun found last => last = world ∧ found = world.file := by
    apply Keeping.call settled
    rintro _ found _ rfl ⟨isFile, rfl⟩
    exact ⟨rfl, isFile⟩
  apply Client.Ensures.bind reads
  intro found
  cases found with
  | none => exact Client.Ensures.throw fun _ last holds => settled.kept last holds.1
  | some state => exact Client.Ensures.pure fun _ _ holds => ⟨holds.1, holds.2.symm⟩

theorem getEmbedder_keeping (name : String) (settled : Settled produces cluster before) :
    Keeping produces cluster before (getEmbedder name : Command V D _)
      fun info world => before world ∧ info.name = name := by
  have asks : Keeping produces cluster before (Client.call (HomeCall.getEmbedder name) : Command V D _)
      fun given world => before world ∧ ∀ info, given = .ok info → info.name = name := by
    apply Keeping.call settled
    rintro world given _ holds ⟨rfl, named⟩
    exact ⟨holds, named⟩
  apply Client.Ensures.bind asks
  intro given
  apply Client.Ensures.lift
  · exact fun info same _ _ holds => ⟨holds.1, holds.2 info same⟩
  · exact fun _ _ _ world holds => settled.kept world holds.1

theorem embedDocuments_keeping (name : String) (texts : List String)
    (settled : Settled produces cluster before) :
    Keeping produces cluster before (Client.call (HomeCall.embedDocuments name texts) : Command V D _)
      fun given world => before world ∧
        ∀ vectors, given = .ok vectors → ∀ vector ∈ vectors, produces (.embedder name) vector := by
  apply Keeping.call settled
  rintro world given _ holds ⟨rfl, made⟩
  exact ⟨holds, made⟩

theorem embedBatches_keeping (name : String) (batches : List (List String))
    (settled : Settled produces cluster before) :
    Keeping produces cluster before (embedBatches name batches : Command V D _)
      fun vectors world => before world ∧ ∀ vector ∈ vectors, produces (.embedder name) vector := by
  induction batches with
  | nil => exact Client.Ensures.pure fun _ _ holds => ⟨holds, fun _ member => absurd member List.not_mem_nil⟩
  | cons texts rest inductionHypothesis =>
      apply Client.Ensures.bind (embedDocuments_keeping name texts settled)
      intro given
      apply Client.Ensures.given
      intro made
      apply Client.Ensures.bind (Keeping.lift settled)
      intro vectors
      apply Client.Ensures.given
      intro same
      apply Client.Ensures.bind inductionHypothesis
      intro later
      apply Client.Ensures.pure
      rintro _ world ⟨holds, others⟩
      refine ⟨holds, fun vector member => ?_⟩
      rcases List.mem_append.mp member with here | there
      · exact made vectors same vector here
      · exact others vector there

/-- Vectors of the source can be stored. -/
theorem add_keeping {shards : List (List String)} {vectors : List V} {payloads : Option (List Payload)}
    (name : Option String) (servers : ∀ address ∈ shards.flatten, address ∈ cluster)
    (made : ∀ item ∈ requested vectors payloads, source.Makes produces item) :
    Keeping produces cluster (Holds produces cluster source) (add shards vectors payloads name : Command V D _)
      fun _ => Holds produces cluster source := by
  have asks : Keeping produces cluster (Holds produces cluster source)
      (Client.call (HomeCall.add shards vectors payloads name) : Command V D _)
      fun _ => Holds produces cluster source := by
    apply Keeping.call Settled.holds
    rintro world _ _ holds ⟨stored, underWay, rfl, asked, _⟩
    have split : ∀ entry, entry ∈ world.stored ++ stored ++ (world.underWay ++ underWay) →
        entry ∈ world.stored ++ world.underWay ∨ entry ∈ stored ++ underWay := by
      intro entry member
      simp only [List.mem_append] at member ⊢
      tauto
    refine ⟨holds.servers, holds.recorded, fun entry member => ?_, fun entry member => ?_⟩
    · rcases split entry member with old | new
      · exact holds.placed entry old
      · exact servers _ (asked entry new).1
    · rcases split entry member with old | new
      · exact holds.made entry old
      · exact made _ (asked entry new).2
  exact Client.Ensures.bind asks fun outcome => (Plain.keeping (.lift outcome) Settled.holds)

theorem writeState_keeping {state next : ClusterState}
    (servers : ∀ address, address ∈ state.shardAddresses.flatten ↔ address ∈ cluster)
    (same : next.servers = state.servers) (recorded : ∀ dataset, next.dataset = some dataset →
      source.Recorded dataset) :
    Keeping produces cluster (Holds produces cluster source) (writeState next : Command V D _)
      fun _ => Holds produces cluster source := by
  apply Keeping.call Settled.holds
  rintro world _ _ holds rfl
  exact holds.write servers same recorded

/-! ### Empty servers -/

theorem zip_range_snd (items : List α) : ((List.range items.length).zip items).map Prod.snd = items :=
  List.map_snd_zip (le_of_eq List.length_range.symm)

theorem allServers_records (state : ClusterState) :
    (state.allServers.map fun server => server.2.2) = state.servers.flatten := by
  have group : ∀ item : Nat × List ServerRecord,
      (((List.range item.2.length).zip item.2).map fun server => (item.1, server.1, server.2)).map
        (fun server => server.2.2) = item.2 := by
    intro item
    rw [List.map_map]
    exact zip_range_snd item.2
  unfold ClusterState.allServers
  rw [List.map_flatMap]
  simp only [group]
  rw [List.flatMap_def, zip_range_snd]

theorem mem_shardAddresses {state : ClusterState} {address : String} :
    address ∈ state.shardAddresses.flatten ↔ ∃ server ∈ state.servers.flatten, server.address = address := by
  unfold ClusterState.shardAddresses
  rw [← List.map_flatten, List.mem_map]

/-- The replies tell how much each server stores. -/
abbrev Told (world : ClusterWorld V) : List ServerRecord → List (Option StatusResponse) → Prop :=
  List.Forall₂ fun server reply => ∀ status, reply = some status → status.size = world.sizeAt server.address

theorem Told.empty {world : ClusterWorld V} {servers : List ServerRecord}
    {replies : List (Option StatusResponse)}
    (told : Told world servers replies) : ∀ {given : List StatusResponse}, replies.mapM id = some given →
    given.any (·.size ≠ 0) = false → ∀ server ∈ servers, world.sizeAt server.address = 0 := by
  induction told with
  | nil => exact fun _ _ _ member => absurd member List.not_mem_nil
  | @cons server reply servers replies first _ inductionHypothesis =>
      intro given all zero other member
      cases reply with
      | none => simp at all
      | some status =>
          cases rest : replies.mapM id with
          | none => simp [rest] at all
          | some later =>
              have same : status :: later = given := by simpa [rest] using all
              subst same
              rw [List.any_cons, Bool.or_eq_false_iff] at zero
              rcases List.mem_cons.mp member with rfl | there
              · exact (first status rfl).symm.trans (by simpa using zero.1)
              · exact inductionHypothesis rest zero.2 other there

theorem statuses_keeping {world : ClusterWorld V} (servers : List ServerRecord)
    (settled : Settled produces cluster (· = world)) :
    Keeping produces cluster (· = world) (statuses servers : Command V D _)
      fun replies last => last = world ∧ Told world servers replies := by
  induction servers with
  | nil => exact Client.Ensures.pure fun _ _ holds => ⟨holds, .nil⟩
  | cons server rest inductionHypothesis =>
      have asks : Keeping produces cluster (· = world)
        (Client.call (HomeCall.serverStatus server) : Command V D _)
          fun reply last => last = world ∧ ∀ status, reply = some status → status.size =
            world.sizeAt server.address := by
        apply Keeping.call settled
        rintro _ reply _ rfl ⟨rfl, told⟩
        exact ⟨rfl, told⟩
      apply Client.Ensures.bind asks
      intro reply
      apply Client.Ensures.given
      intro told
      apply Client.Ensures.bind inductionHypothesis
      intro replies
      exact Client.Ensures.pure fun _ _ holds => ⟨holds.1, .cons told holds.2⟩

/-- Where every server says it is empty, nothing is stored. -/
theorem writable_keeping {world : ClusterWorld V} {state : ClusterState}
    (holds : Holds produces cluster source world)
    (quiet : world.underWay = []) (isFile : world.file = some state) :
    Keeping produces cluster (· = world) (writable state : Command V D _)
      fun replies last => last = world ∧
        (replies.any (·.size ≠ 0) = false → world.stored ++ world.underWay = []) := by
  have settled : Settled produces cluster (· = world) := .still ⟨source, holds⟩ quiet
  apply Client.Ensures.bind (statuses_keeping _ settled)
  intro replies
  apply Client.Ensures.given
  intro told
  cases all : replies.mapM id with
  | none => exact Keeping.throw settled
  | some given =>
      apply Client.Ensures.pure
      intro _ last same
      refine ⟨same, fun zero => ?_⟩
      have empty := Told.empty told all zero
      rw [quiet, List.append_nil, List.eq_nil_iff_forall_not_mem]
      intro entry member
      have inCluster := holds.placed entry (List.mem_append_left _ member)
      rcases mem_shardAddresses.mp ((holds.servers state isFile _).mpr inCluster) with
        ⟨server, isServer, isAddress⟩
      have none := empty server (allServers_records state ▸ isServer)
      unfold ClusterWorld.sizeAt at none
      rw [isAddress, List.length_eq_zero_iff, List.filter_eq_nil_iff] at none
      exact none entry member (by simp)

/-! ### The commands -/

theorem Source.recorded_documents {embedder : String} {dim passages : Nat} {sources : Dict String SourceRecord}
    (recorded : source.Recorded (.documents embedder dim passages sources)) : source = .documents embedder := by
  cases source with
  | documents name => exact congrArg Source.documents (recorded : embedder = name).symm
  | glove | memory => exact recorded.elim

theorem Source.recorded_memory {embedder : String} {dim : Nat}
    (recorded : source.Recorded (.memory embedder dim)) :
    source = .memory embedder := by
  cases source with
  | memory name => exact congrArg Source.memory (recorded : embedder = name).symm
  | glove | documents => exact recorded.elim

/-- An ingest goes on with an embedder that all vectors are from. -/
theorem documentsOf_keeping {world : ClusterWorld V} {state : ClusterState} {replies : List StatusResponse}
    (embedder : Option String) (holds : Holds produces cluster source world) (quiet : world.underWay = [])
    (isFile : world.file = some state)
    (empty : replies.any (·.size ≠ 0) = false → world.stored ++ world.underWay = []) :
    Keeping produces cluster (· = world) (documentsOf state replies embedder : Command V D _)
      fun result last => Holds produces cluster (.documents result.2.embedder) last ∧
        result.1.name = result.2.embedder := by
  have settled : Settled produces cluster (· = world) := .still ⟨source, holds⟩ quiet
  unfold documentsOf
  split
  · rename_i noDataset
    split
    · exact Keeping.throw settled
    · rename_i zero
      apply Client.Ensures.bind (getEmbedder_keeping _ settled)
      intro info
      apply Client.Ensures.pure
      rintro _ _ ⟨rfl, _⟩
      refine ⟨holds.empty (empty (Bool.eq_false_of_not_eq_true zero)) fun other dataset
        isOther isDataset => ?_, rfl⟩
      rw [isFile] at isOther
      cases isOther
      rw [noDataset] at isDataset
      cases isDataset
  · rename_i name dim passages sources isDataset
    split
    · exact Keeping.throw settled
    · apply Client.Ensures.bind (getEmbedder_keeping name settled)
      intro info
      apply Client.Ensures.pure
      rintro _ _ ⟨rfl, named⟩
      exact ⟨Source.recorded_documents (holds.recorded state _ isFile isDataset) ▸ holds, named⟩
  · exact Keeping.throw settled

theorem ingestPassages_keeping {shards : List (List String)} {embedder : String} (passages : List Passage)
    (name : Option String) (servers : ∀ address ∈ shards.flatten, address ∈ cluster) :
    Keeping produces cluster (Holds produces cluster (.documents embedder))
      (ingestPassages shards embedder passages name : Command V D _)
      fun _ => Holds produces cluster (.documents embedder) := by
  unfold ingestPassages
  split
  · exact Client.Ensures.pure fun _ _ holds => holds
  · apply Client.Ensures.bind (embedBatches_keeping embedder _ Settled.holds)
    intro vectors
    apply Client.Ensures.given
    intro made
    have items : ∀ item ∈ requested vectors (some (passages.map fun passage => some (passagePayload passage))),
        (Source.documents embedder).Makes produces item := by
      rintro ⟨vector, payload⟩ member
      have parts := List.of_mem_zip member
      rcases List.mem_map.mp parts.2 with ⟨passage, _, isPayload⟩
      exact ⟨made vector parts.1, passage, isPayload.symm⟩
    apply Client.Ensures.bind (add_keeping name servers items)
    intro _
    exact Client.Ensures.pure fun _ _ holds => holds

theorem ingestFile_keeping {state : ClusterState} (options : IngestOptions) {embedder : EmbedderInfo}
    (path : String)
    {set : DocumentSet} (servers : ∀ address, address ∈ state.shardAddresses.flatten ↔ address ∈ cluster)
    (named : embedder.name = set.embedder) :
    Keeping produces cluster (Holds produces cluster (.documents set.embedder))
      (ingestFile state options embedder path set : Command V D _)
      fun result last => Holds produces cluster (.documents set.embedder) last ∧
        result.1.embedder = set.embedder := by
  refine Keeping.after (.call trivial) Settled.holds fun shown => ?_
  refine Keeping.after (.call trivial) Settled.holds fun answer => ?_
  apply Keeping.after (.lift answer) Settled.holds
  intro digest
  cases known : set.sources.get? (sourceKey options.name path) with
  | some record =>
      simp only [known]
      exact Client.Ensures.pure fun _ _ holds => ⟨holds, rfl⟩
  | none =>
      simp only [known]
      refine Keeping.after (.call trivial) Settled.holds fun answer => ?_
      apply Keeping.after (.lift answer) Settled.holds
      intro passages
      rw [named]
      apply Client.Ensures.bind (ingestPassages_keeping passages _ fun address => (servers address).mp)
      intro count
      refine Client.Ensures.bind (writeState_keeping servers rfl ?_) fun _ => ?_
      · rintro _ ⟨⟩
        rfl
      · exact Client.Ensures.pure fun _ _ holds => ⟨holds, rfl⟩

theorem ingestLoop_keeping {state : ClusterState} (options : IngestOptions) {embedder : EmbedderInfo}
    {name : String} (servers : ∀ address, address ∈ state.shardAddresses.flatten ↔ address ∈ cluster)
    (named : embedder.name = name) (files : List String) {set : DocumentSet} (ofSet : set.embedder = name)
    (report : IngestReport) :
    Keeping produces cluster (Holds produces cluster (.documents name))
      (ingestLoop state options embedder files set report : Command V D _) fun _ =>
      SingleSource produces cluster := by
  induction files generalizing set report with
  | nil => exact Client.Ensures.pure fun _ _ holds => ⟨_, holds⟩
  | cons path rest inductionHypothesis =>
      have front : Keeping produces cluster (Holds produces cluster (.documents set.embedder))
          (ingestFile state options embedder path set : Command V D _)
          fun result last => Holds produces cluster (.documents set.embedder) last ∧
            result.1.embedder = set.embedder :=
        ingestFile_keeping options path servers (named.trans ofSet.symm)
      rw [ofSet] at front
      apply Client.Ensures.bind front
      rintro ⟨next, outcome⟩
      apply Client.Ensures.given
      exact fun ofNext => inductionHypothesis ofNext _

theorem ingest_keeping {world : ClusterWorld V} (kept : SingleSource produces cluster world)
    (quiet : world.underWay = []) (home : String) (paths : List String) (options : IngestOptions) :
    Keeping produces cluster (· = world) (ingest home paths options : Command V D _) fun _ =>
      SingleSource produces cluster := by
  rcases kept with ⟨source, holds⟩
  apply Client.Ensures.bind (readState_keeping home (.still ⟨source, holds⟩ quiet))
  intro state
  apply Client.Ensures.given
  intro isFile
  have servers := holds.servers state isFile
  apply Client.Ensures.bind (writable_keeping holds quiet isFile)
  intro replies
  apply Client.Ensures.given
  intro empty
  apply Client.Ensures.bind (documentsOf_keeping options.embedder holds quiet isFile empty)
  rintro ⟨embedder, set⟩
  apply Client.Ensures.given
  intro named
  apply Keeping.after (findFiles_plain paths) Settled.holds
  intro files
  apply Client.Ensures.bind (Keeping.raising _ (ingestLoop_keeping options servers named files rfl _))
  intro report
  split
  · exact Client.Ensures.pure fun _ _ holds => holds
  · split
    · exact Client.Ensures.pure fun _ _ holds => holds
    · refine Client.Ensures.bind (Client.Ensures.lift (fun _ _ _ _ holds => holds) fun _ _ _ _ holds =>
        holds) ?_
      intro shard
      exact Client.Ensures.pure fun _ _ holds => holds

theorem loadBatches_keeping {shards : List (List String)}
    (servers : ∀ address ∈ shards.flatten, address ∈ cluster) (vectors : List V)
    (made : ∀ vector ∈ vectors, produces .gloveTable vector) (limit : Nat) (starts : List Nat) :
    Keeping produces cluster (Holds produces cluster .glove)
      (loadBatches shards vectors limit starts : Command V D _)
      fun _ => Holds produces cluster .glove := by
  induction starts with
  | nil => exact Client.Ensures.pure fun _ _ holds => holds
  | cons start rest inductionHypothesis =>
      have items : ∀ item ∈ requested (Chunks.chunk (vectors.take limit) loadBatch start) none,
          Source.glove.Makes produces item := by
        intro item member
        rcases List.mem_map.mp member with ⟨vector, inChunk, rfl⟩
        exact ⟨made vector (List.mem_of_mem_take (List.mem_of_mem_drop (List.mem_of_mem_take inChunk))), rfl⟩
      exact Client.Ensures.bind (add_keeping none servers items) fun _ => inductionHypothesis

/-- `load` does not look at the recorded dataset. -/
theorem load_keeping {world : ClusterWorld V} (kept : SingleSource produces cluster world)
    (quiet : world.underWay = []) (home gloveDir : String) (wanted : Int)
    (cautious : world.stored = [] → 0 < wanted → ∀ state dataset, world.file = some state →
      state.dataset = some dataset → dataset.name = "glove") :
    Keeping produces cluster (· = world) (load home gloveDir wanted : Command V D _) fun _ =>
      SingleSource produces cluster := by
  rcases kept with ⟨source, holds⟩
  have settled : Settled produces cluster (· = world) := .still ⟨source, holds⟩ quiet
  apply Client.Ensures.bind (readState_keeping home settled)
  intro state
  apply Client.Ensures.given
  intro isFile
  have servers := holds.servers state isFile
  apply Client.Ensures.bind (writable_keeping holds quiet isFile)
  intro replies
  apply Client.Ensures.given
  intro empty
  split
  · exact Keeping.throw settled
  · rename_i zero
    have nothing := empty (Bool.eq_false_of_not_eq_true zero)
    have reads : Keeping produces cluster (· = world)
      (Client.call (HomeCall.loadGlove gloveDir) : Command V D _)
        fun given last => last = world ∧
          ∀ words vectors, given = .ok (words, vectors) → ∀ vector ∈ vectors, produces .gloveTable vector := by
      apply Keeping.call settled
      rintro _ given _ rfl ⟨rfl, made⟩
      exact ⟨rfl, made⟩
    apply Client.Ensures.bind reads
    intro given
    apply Client.Ensures.given
    intro made
    apply Client.Ensures.bind (Keeping.lift settled)
    rintro ⟨words, vectors⟩
    apply Client.Ensures.given
    intro isGiven
    have isRecorded : ∀ dataset, some (Dataset.glove (min wanted words.length) gloveDir) = some dataset →
        Source.glove.Recorded dataset := by
      rintro _ ⟨⟩
      trivial
    by_cases positive : 0 < wanted
    · have gloves : Holds produces cluster .glove world := by
        apply holds.empty nothing
        intro other dataset isOther isDataset
        have named := cautious (List.append_eq_nil_iff.mp nothing).1 positive other dataset isOther isDataset
        cases dataset with
        | glove limit dir => trivial
        | documents => exact absurd named (show "documents" ≠ "glove" by decide)
        | memory => exact absurd named (show "memory" ≠ "glove" by decide)
      have loads := Keeping.raising (D := D) (stopped "load")
        (loadBatches_keeping (fun address => (servers address).mp) vectors
        (made words vectors isGiven) (min wanted words.length).toNat
        (Chunks.starts (min wanted words.length).toNat loadBatch))
      refine Client.Ensures.bind (loads.imp ?_ (fun _ _ _ holds => holds) fun _ _ _ holds => holds) fun _ => ?_
      · rintro _ _ rfl
        exact gloves
      · refine Client.Ensures.bind (writeState_keeping servers rfl isRecorded) fun _ => ?_
        exact Client.Ensures.pure fun _ _ holds => ⟨_, holds⟩
    · have noBatch : (min wanted (words.length : Int)).toNat = 0 := by omega
      have isEmpty : Chunks.starts 0 loadBatch = [] := rfl
      have batches : Plain (loadBatches state.shardAddresses vectors (min wanted (words.length : Int)).toNat
          (Chunks.starts (min wanted (words.length : Int)).toNat loadBatch) : Command V D _) := by
        rw [noBatch, isEmpty]
        exact .pure _
      refine Client.Ensures.bind (Keeping.raising _ (batches.keeping settled)) fun _ => ?_
      have fresh : Holds produces cluster .glove { world with file := none } :=
        holds.forgotten.empty nothing fun _ _ found => nomatch found
      have writes : Keeping produces cluster (· = world)
          (writeState { state with dataset := some (.glove (min wanted words.length) gloveDir) } :
            Command V D _)
          fun _ => Holds produces cluster .glove := by
        apply Keeping.call settled
        rintro _ _ _ rfl rfl
        exact fresh.write servers rfl isRecorded
      refine Client.Ensures.bind writes fun _ => ?_
      exact Client.Ensures.pure fun _ _ holds => ⟨_, holds⟩

theorem awaitAll_plain (servers : List (Nat × Nat × ServerRecord)) :
    Plain (awaitAll servers : Command V D _) := by
  induction servers with
  | nil => exact .pure _
  | cons server rest inductionHypothesis =>
      apply Client.Only.bind (.call trivial)
      intro ready
      split
      · exact inductionHypothesis
      · exact .throw _

theorem attach_keeping {world : ClusterWorld V} (kept : SingleSource produces cluster world)
    (quiet : world.underWay = []) (home manager : String) {groups : List (List AttachedServer)}
    (onCluster : ∀ address, address ∈ (attachedState groups manager).shardAddresses.flatten ↔ address ∈
      cluster) :
    Keeping produces cluster (· = world) (attach home groups manager : Command V D _) fun _ =>
      SingleSource produces cluster := by
  have settled : Settled produces cluster (· = world) := .still kept quiet
  have reads : Keeping produces cluster (· = world) (Client.call HomeCall.readFile : Command V D _)
      fun _ last => last = world := by
    apply Keeping.call settled
    rintro _ _ _ rfl ⟨_, rfl⟩
    rfl
  apply Client.Ensures.bind reads
  intro found
  split
  · exact Keeping.throw settled
  · apply Keeping.after (awaitAll_plain _) settled
    intro _
    apply Keeping.call settled
    rintro _ _ _ rfl rfl
    rcases kept with ⟨source, holds⟩
    exact ⟨source, holds.write onCluster rfl fun _ found => nomatch found⟩

theorem detach_keeping {world : ClusterWorld V} (kept : SingleSource produces cluster world)
    (quiet : world.underWay = []) (home : String) :
    Keeping produces cluster (· = world) (detach home : Command V D _) fun _ =>
      SingleSource produces cluster := by
  have settled : Settled produces cluster (· = world) := .still kept quiet
  apply Client.Ensures.bind (readState_keeping home settled)
  intro state
  apply Client.Ensures.given
  intro _
  split
  · exact Keeping.throw settled
  · apply Keeping.call settled
    rintro _ _ _ rfl rfl
    rcases kept with ⟨source, holds⟩
    exact ⟨source, holds.forgotten⟩

/-! ### The memories -/

namespace MemoryStore

variable (scoring : Scoring V D S) (store : MemoryStore)

theorem search_plain (state : ClusterState) (vector : V) (k : Int) (filter : List (PyKey × PyValue)) :
    Plain (search store state vector k filter : Command V D _) := by
  refine .bind (.call trivial) fun answer => ?_
  split
  · exact .throw _
  · exact .throw _
  · exact .pure _

theorem lookup_plain (state : ClusterState) (filter : List (PyKey × PyValue)) :
    Plain (lookup scoring store state filter : Command V D _) := by
  unfold lookup
  split
  · exact .pure _
  · exact .bind (.lift _) fun dim => search_plain _ _ _ _ _

theorem replaced_plain (state : ClusterState) (ids : List String) :
    Plain (replaced scoring store state ids : Command V D _) := by
  unfold replaced
  split
  · exact .pure _
  · exact .bind (lookup_plain _ _ _ _) fun records => .bind (.lift _) fun targets => .pure _

theorem liveIds_plain (state : ClusterState) (ids : List String) :
    Plain (liveIds scoring store state ids : Command V D _) := by
  unfold liveIds
  split
  · exact .pure _
  · exact .bind (lookup_plain _ _ _ _) fun hits => .bind (.lift _) fun found =>
      .bind (replaced_plain _ _ _ _) fun dead => .pure _

theorem duplicate_plain (state : ClusterState) (hits : List (Hit D)) :
    Plain (duplicate scoring store state hits : Command V D _) := by
  induction hits with
  | nil => exact .pure _
  | cons hit rest inductionHypothesis =>
      refine .bind (.lift _) fun id => ?_
      split
      · refine .bind (replaced_plain _ _ _ _) fun dead => ?_
        split
        · exact .pure _
        · exact inductionHypothesis
      · exact inductionHypothesis

theorem knownAs_plain (state : ClusterState) (vector : V) (replaces : List String) :
    Plain (knownAs scoring store state vector replaces : Command V D _) := by
  unfold knownAs
  split
  · exact .bind (search_plain _ _ _ _ _) fun hits => duplicate_plain _ _ _ _
  · exact .pure _

theorem state_keeping {world : ClusterWorld V} (settled : Settled produces cluster (· = world)) :
    Keeping produces cluster (· = world) (store.state : Command V D _)
      fun state last => last = world ∧ world.file = some state ∧
        ∀ dataset, state.dataset = some dataset → checkKind dataset = .ok () := by
  apply Client.Ensures.bind (readState_keeping _ settled)
  intro state
  apply Client.Ensures.given
  intro isFile
  split
  · rename_i noDataset
    exact Client.Ensures.pure fun _ _ holds =>
      ⟨holds, isFile, fun _ isDataset => nomatch noDataset.symm.trans isDataset⟩
  · rename_i dataset isDataset
    apply Client.Ensures.bind (Keeping.lift settled)
    intro _
    apply Client.Ensures.given
    intro checked
    apply Client.Ensures.pure
    refine fun _ _ holds => ⟨holds, isFile, fun other isOther => ?_⟩
    rw [isDataset] at isOther
    cases isOther
    exact checked

/-- The memories go on with a recorded embedder that all vectors are from. -/
theorem dataset_keeping {world : ClusterWorld V} {state : ClusterState} {replies : List StatusResponse}
    (holds : Holds produces cluster source world) (quiet : world.underWay = [])
    (isFile : world.file = some state)
    (checked : ∀ dataset, state.dataset = some dataset → checkKind dataset = .ok ())
    (empty : replies.any (·.size ≠ 0) = false → world.stored ++ world.underWay = []) :
    Keeping produces cluster (· = world) (store.dataset state replies : Command V D _)
      fun result last => ∃ name, Holds produces cluster (.memory name) last ∧
        (∃ dim, result.2 = .memory name dim) ∧ result.1.servers = state.servers := by
  have settled : Settled produces cluster (· = world) := .still ⟨source, holds⟩ quiet
  unfold dataset
  split
  · rename_i dataset isDataset
    apply Client.Ensures.pure
    rintro _ _ rfl
    cases dataset with
    | glove | documents => exact nomatch checked _ isDataset
    | memory name dim =>
        refine ⟨name, ?_, ⟨dim, rfl⟩, rfl⟩
        exact Source.recorded_memory (holds.recorded state _ isFile isDataset) ▸ holds
  · rename_i noDataset
    split
    · exact Keeping.throw settled
    · rename_i zero
      have nothing := empty (Bool.eq_false_of_not_eq_true zero)
      apply Client.Ensures.bind (getEmbedder_keeping _ settled)
      intro info
      apply Client.Ensures.given
      intro _
      have fresh : Holds produces cluster (.memory info.name) world := by
        apply holds.empty nothing
        intro other dataset isOther isDataset
        rw [isFile] at isOther
        cases isOther
        exact nomatch noDataset.symm.trans isDataset
      have writes : Keeping produces cluster (· = world)
          (writeState { state with dataset := some (.memory info.name info.dim) } : Command V D _)
          fun _ => Holds produces cluster (.memory info.name) := by
        apply Keeping.call settled
        rintro _ _ _ rfl rfl
        refine fresh.write (holds.servers state isFile) rfl ?_
        rintro _ ⟨⟩
        rfl
      refine Client.Ensures.bind writes fun _ => ?_
      exact Client.Ensures.pure fun _ _ holds => ⟨info.name, holds, ⟨info.dim, rfl⟩, rfl⟩

theorem write_keeping {name : String} {state : ClusterState} {vector : V} {payload : List (PyKey × PyValue)}
    (servers : ∀ address, address ∈ state.shardAddresses.flatten ↔ address ∈ cluster)
    (made : (Source.memory name).Makes produces (vector, some payload)) :
    Keeping produces cluster (Holds produces cluster (.memory name))
      (write store state vector payload : Command V D _)
      fun _ => Holds produces cluster (.memory name) := by
  apply Keeping.raising
  apply add_keeping _ fun address => (servers address).mp
  intro item member
  rw [List.mem_singleton.mp (show item ∈ [(vector, some payload)] from member)]
  exact made

theorem storeFact_keeping {name : String} {state : ClusterState} {vector : V} (text : String)
    (tags replaces : List String) (servers : ∀ address, address ∈ state.shardAddresses.flatten ↔ address ∈
      cluster)
    (made : produces (.embedder name) vector) :
    Keeping produces cluster (Holds produces cluster (.memory name))
      (storeFact store state vector text tags replaces : Command V D _)
      fun _ => Holds produces cluster (.memory name) := by
  refine Keeping.after (.call trivial) Settled.holds fun suffix => ?_
  refine Keeping.after (.call trivial) Settled.holds fun created => ?_
  apply Client.Ensures.bind (write_keeping store servers (Or.inl ⟨made, _, _, _, _, _, rfl⟩))
  intro _
  exact Client.Ensures.pure fun _ _ holds => holds

theorem storeForgetting_keeping {name : String} {state : ClusterState} (dim : Nat) (id : String)
    (servers : ∀ address, address ∈ state.shardAddresses.flatten ↔ address ∈ cluster) :
    Keeping produces cluster (Holds produces cluster (.memory name))
      (storeForgetting scoring store state dim id : Command V D _) fun _ =>
      Holds produces cluster (.memory name) := by
  refine Keeping.after (.call trivial) Settled.holds fun suffix => ?_
  refine Keeping.after (.call trivial) Settled.holds fun created => ?_
  exact write_keeping store servers (Or.inr ⟨_, _, _, rfl⟩)

theorem rememberFact_keeping {name : String} {dim : Nat} {state : ClusterState} (text : String)
    (tags replaces : List String) (servers : ∀ address, address ∈ state.shardAddresses.flatten ↔ address ∈
      cluster) :
    Keeping produces cluster (Holds produces cluster (.memory name))
      (rememberFact scoring store state (.memory name dim) text tags replaces : Command V D _)
      fun _ => Holds produces cluster (.memory name) := by
  apply Client.Ensures.bind (getEmbedder_keeping name Settled.holds)
  intro info
  apply Client.Ensures.given
  intro named
  apply Client.Ensures.bind (embedDocuments_keeping info.name [text] Settled.holds)
  intro answer
  apply Client.Ensures.given
  intro made
  apply Client.Ensures.bind (Keeping.lift Settled.holds)
  intro vectors
  apply Client.Ensures.given
  intro isAnswer
  split
  · exact Keeping.throw Settled.holds
  · rename_i vector isHead
    have ofEmbedder : produces (.embedder name) vector :=
      named ▸ made vectors isAnswer vector (List.mem_of_mem_head? isHead)
    apply Keeping.after (knownAs_plain scoring store state vector replaces) Settled.holds
    intro known
    cases known with
    | some id => exact Client.Ensures.pure fun _ _ holds => holds
    | none =>
        apply Client.Ensures.bind (storeFact_keeping store text tags replaces servers ofEmbedder)
        intro id
        exact Client.Ensures.pure fun _ _ holds => holds

/-- What `remember` and `forget` begin with: the dataset of memories. -/
theorem begin_keeping {world : ClusterWorld V} (kept : SingleSource produces cluster world)
    (quiet : world.underWay = []) {next : ClusterState × Dataset → Command V D α}
    (rest : ∀ (state : ClusterState) (name : String) (dim : Nat),
      (∀ address, address ∈ state.shardAddresses.flatten ↔ address ∈ cluster) →
        Keeping produces cluster (Holds produces cluster (.memory name)) (next (state, .memory name dim))
          fun _ => SingleSource produces cluster) :
    Keeping produces cluster (· = world)
      (do
        let state ← store.state
        let replies ← writable state
        let result ← store.dataset state replies
        next result) fun _ => SingleSource produces cluster := by
  rcases kept with ⟨source, holds⟩
  apply Client.Ensures.bind (state_keeping store (.still ⟨source, holds⟩ quiet))
  intro state
  apply Client.Ensures.given
  rintro ⟨isFile, checked⟩
  apply Client.Ensures.bind (writable_keeping holds quiet isFile)
  intro replies
  apply Client.Ensures.given
  intro empty
  apply Client.Ensures.bind (dataset_keeping store holds quiet isFile checked empty)
  rintro ⟨opened, dataset⟩
  apply Client.Ensures.some
  intro name
  apply Client.Ensures.given
  rintro ⟨⟨dim, rfl⟩, same⟩
  apply rest opened name dim
  have servers := holds.servers state isFile
  unfold ClusterState.shardAddresses at servers ⊢
  rw [show opened.servers = state.servers from same]
  exact servers

theorem remember_keeping {world : ClusterWorld V} (kept : SingleSource produces cluster world)
    (quiet : world.underWay = []) (text : String) (tags replaces : List String) :
    Keeping produces cluster (· = world) (remember scoring store text tags replaces : Command V D _)
      fun _ => SingleSource produces cluster := by
  unfold remember
  split
  · exact Keeping.throw (.still kept quiet)
  · apply begin_keeping store kept quiet
    intro state name dim servers
    apply Keeping.after (liveIds_plain scoring store state replaces.eraseDups) Settled.holds
    intro live
    dsimp only
    split
    · exact Keeping.throw Settled.holds
    · apply (rememberFact_keeping scoring store (strip text) tags replaces.eraseDups servers).imp
      · exact fun _ _ holds => holds
      · exact fun _ _ _ holds => ⟨_, holds⟩
      · exact fun _ _ _ holds => holds

theorem forget_keeping {world : ClusterWorld V} (kept : SingleSource produces cluster world)
    (quiet : world.underWay = []) (id : String) :
    Keeping produces cluster (· = world) (forget scoring store id : Command V D _) fun _ =>
      SingleSource produces cluster := by
  apply begin_keeping store kept quiet
  intro state name dim servers
  apply Keeping.after (liveIds_plain scoring store state [id]) Settled.holds
  intro live
  split
  · exact Keeping.throw Settled.holds
  · apply Keeping.after (.lift _) Settled.holds
    intro dim
    apply (storeForgetting_keeping scoring store dim id servers).imp
    · exact fun _ _ holds => holds
    · exact fun _ _ _ holds => ⟨_, holds⟩
    · exact fun _ _ _ holds => holds

end MemoryStore

end Triples

/-! ## Runs of commands -/

/-- The commands that store vectors, and those that forget the document and write
a new one. -/
inductive HomeCommand where
  | load (home gloveDir : String) (wanted : Int)
  | ingest (home : String) (paths : List String) (options : IngestOptions)
  | remember (store : MemoryStore) (text : String) (tags replaces : List String)
  | forget (store : MemoryStore) (id : String)
  | attach (home manager : String) (groups : List (List AttachedServer))
  | detach (home : String)

namespace HomeCommand

def run (scoring : Scoring V D S) : HomeCommand → Command V D Unit
  | load home gloveDir wanted => do
      let _ ← Home.load home gloveDir wanted
      return ()
  | ingest home paths options => do
      let _ ← Home.ingest home paths options
      return ()
  | remember store text tags replaces => do
      let _ ← store.remember scoring text tags replaces
      return ()
  | forget store id => store.forget scoring id
  | attach home manager groups => Home.attach home groups manager
  | detach home => Home.detach home

/-- What is attached is the cluster. -/
def OnCluster (cluster : List String) : HomeCommand → Prop
  | attach _ manager groups =>
      ∀ address, address ∈ (attachedState groups manager).shardAddresses.flatten ↔ address ∈ cluster
  | _ => True

/-- No `load` of any words where nothing is stored and documents or memories are
recorded. -/
def Cautious (world : ClusterWorld V) : HomeCommand → Prop
  | load _ _ wanted =>
      world.stored = [] → 0 < wanted → ∀ state dataset, world.file = some state → state.dataset = some dataset →
        dataset.name = "glove"
  | _ => True

theorem keeping {produces : Origin → V → Prop} {cluster : List String} (scoring : Scoring V D S)
    {world : ClusterWorld V} {command : HomeCommand} (kept : SingleSource produces cluster world)
    (quiet : world.underWay = []) (onCluster : command.OnCluster cluster) (cautious : command.Cautious world) :
    Keeping produces cluster (· = world) (command.run scoring) fun _ => SingleSource produces cluster := by
  cases command with
  | load home gloveDir wanted =>
      exact Client.Ensures.bind (load_keeping kept quiet home gloveDir wanted cautious) fun _ =>
        Client.Ensures.pure fun _ _ holds => holds
  | ingest home paths options =>
      exact Client.Ensures.bind (ingest_keeping kept quiet home paths options) fun _ =>
        Client.Ensures.pure fun _ _ holds => holds
  | remember store text tags replaces =>
      exact Client.Ensures.bind (store.remember_keeping scoring kept quiet text tags replaces) fun _ =>
        Client.Ensures.pure fun _ _ holds => holds
  | forget store id => exact store.forget_keeping scoring kept quiet id
  | attach home manager groups => exact attach_keeping kept quiet home manager onCluster
  | detach home => exact detach_keeping kept quiet home

end HomeCommand

/-- A sequence of allowed commands, each started when nothing is under way.  A
command runs to its end, also to one it raises at, or its process dies at any
moment. -/
inductive Reached (produces : Origin → V → Prop) (scoring : Scoring V D S) (cluster : List String)
    (allowed : ClusterWorld V → HomeCommand → Prop) (start : ClusterWorld V) : ClusterWorld V → Prop
  | start : Reached produces scoring cluster allowed start start
  | arrives {world next : ClusterWorld V} (earlier : Reached produces scoring cluster allowed start world)
      (arrives : world.Arrives next) : Reached produces scoring cluster allowed start next
  | completes {world last : ClusterWorld V} {command : HomeCommand} {result : EStateM.Result Error Unit Unit}
      (earlier : Reached produces scoring cluster allowed start world) (quiet : world.underWay = [])
      (onCluster : command.OnCluster cluster) (isAllowed : allowed world command)
      (runs : Remote.Runs (clusterNetwork produces) (command.run scoring ()) world result last) :
      Reached produces scoring cluster allowed start last
  | dies {world last : ClusterWorld V} {command : HomeCommand}
      (earlier : Reached produces scoring cluster allowed start world) (quiet : world.underWay = [])
      (onCluster : command.OnCluster cluster) (isAllowed : allowed world command)
      (passes : Remote.Passes (clusterNetwork produces) (command.run scoring ()) world last) :
      Reached produces scoring cluster allowed start last

/-- A cluster without vectors and without a recorded dataset. -/
structure FreshCluster (cluster : List String) (world : ClusterWorld V) : Prop where
  stored : world.stored = []
  underWay : world.underWay = []
  unrecorded : ∀ state, world.file = some state → state.dataset = none
  servers : ∀ state, world.file = some state → ∀ address, address ∈ state.shardAddresses.flatten ↔
    address ∈ cluster

theorem FreshCluster.singleSource {produces : Origin → V → Prop} {cluster : List String}
    {world : ClusterWorld V}
    (fresh : FreshCluster cluster world) : SingleSource produces cluster world := by
  have nothing : ∀ entry, entry ∉ world.stored ++ world.underWay := by
    rw [fresh.stored, fresh.underWay]
    exact fun _ => List.not_mem_nil
  refine ⟨.glove, fresh.servers, fun state dataset isFile isDataset => ?_, fun entry member => ?_,
    fun entry member => ?_⟩
  · exact nomatch (fresh.unrecorded state isFile).symm.trans isDataset
  · exact absurd member (nothing entry)
  · exact absurd member (nothing entry)

theorem Reached.singleSource {produces : Origin → V → Prop} {scoring : Scoring V D S} {cluster : List String}
    {start world : ClusterWorld V} (fresh : FreshCluster cluster start)
    (reached : Reached produces scoring cluster (fun world command => command.Cautious world) start world) :
    SingleSource produces cluster world := by
  induction reached with
  | start => exact fresh.singleSource
  | arrives _ arrives inductionHypothesis =>
      rcases inductionHypothesis with ⟨source, holds⟩
      exact ⟨source, holds.arrives arrives⟩
  | @completes world last command result _ quiet onCluster cautious runs inductionHypothesis =>
      have ends := (command.keeping scoring inductionHypothesis quiet onCluster cautious () world rfl).1
        result last runs
      cases result with
      | ok value state => exact ends
      | error error state => exact ends
  | @dies world last command _ quiet onCluster cautious passes inductionHypothesis =>
      exact (command.keeping scoring inductionHypothesis quiet onCluster cautious () world rfl).2 last passes

/-- In every run without a `load` over recorded documents or memories, the
vectors of the cluster have one source at every moment. -/
theorem oneSource_of_cautious {produces : Origin → V → Prop} {scoring : Scoring V D S} {cluster : List String}
    {start world : ClusterWorld V} (fresh : FreshCluster cluster start)
    (reached : Reached produces scoring cluster (fun world command => command.Cautious world) start world) :
    OneSource produces world := (Reached.singleSource fresh reached).oneSource

/-! ### A cluster of one server -/

section Example

def exampleScoring : Scoring String Nat Nat := ⟨fun _ => "ones", fun _ => true, fun d => d, fun s _ _ => s⟩

/-- A vector is the name of what made it. -/
def madeBy : Origin → String → Prop
  | .gloveTable, vector => vector = "glove"
  | .embedder name, vector => vector = name

def exampleServer : ServerRecord := ⟨none, 7000, none, none⟩

def exampleState (dataset : Option Dataset) : ClusterState := ⟨some 0, [], [[exampleServer]], dataset, none⟩

def exampleFresh : ClusterWorld String := ⟨some (exampleState none), [], []⟩

theorem exampleState_servers (dataset : Option Dataset) (address : String) :
    address ∈ (exampleState dataset).shardAddresses.flatten ↔ address ∈ [exampleServer.address] := Iff.rfl

theorem exampleFresh_fresh : FreshCluster [exampleServer.address] exampleFresh := by
  refine ⟨rfl, rfl, ?_, ?_⟩
  · rintro _ ⟨⟩
    rfl
  · rintro _ ⟨⟩
    exact exampleState_servers none

def exampleStore : MemoryStore := ⟨"home", "owner", none, by decide⟩

def emptyReply : StatusResponse := ⟨0, true, 0, 0, 0⟩

/-- The entry a `load` of one word stores. -/
def exampleWord : Entry String := ⟨exampleServer.address, "glove", none⟩

/-- A `load` whose process dies before it writes the document. -/
theorem load_dies (dataset : Option Dataset) :
    Remote.Passes (clusterNetwork madeBy) ((HomeCommand.load "home" "dir" 1).run exampleScoring ())
      ⟨some (exampleState dataset), [], []⟩ ⟨some (exampleState dataset), [exampleWord], []⟩ := by
  refine .answered (some (exampleState dataset)) ⟨rfl, rfl⟩ (.answered (some emptyReply) ⟨rfl, ?_⟩ ?_)
  · rintro _ ⟨⟩
    rfl
  refine .answered (.ok (["word"], ["glove"])) ⟨rfl, ?_⟩
    (.answered (.ok ()) ⟨[exampleWord], [], rfl, ?_, ?_⟩ ?_)
  · rintro _ _ ⟨⟩ vector member
    exact List.mem_singleton.mp member
  · intro entry member
    rw [List.mem_singleton.mp (show entry ∈ [exampleWord] from member)]
    exact ⟨(exampleState_servers dataset _).mpr (List.mem_singleton_self _), List.mem_singleton_self _⟩
  · refine fun _ => ⟨rfl, fun item member => ⟨exampleWord, List.mem_singleton_self _, ?_⟩⟩
    exact (List.mem_singleton.mp (show item ∈ [("glove", none)] from member)).symm
  · exact .waiting .refl

/-- A `forget` on a cluster without memories, which records the dataset and raises. -/
theorem forget_raises (id : String) : Remote.Runs (clusterNetwork madeBy)
      ((HomeCommand.forget exampleStore id).run exampleScoring ()) exampleFresh
      (.error (.user s!"no current memory has the id {Text.repr id}") ())
      ⟨some (exampleState (some (.memory defaultEmbedder 2))), [], []⟩ := by
  refine .answered (some (exampleState none)) ⟨rfl, rfl⟩ (.answered (some emptyReply) ⟨rfl, ?_⟩ ?_)
  · rintro _ ⟨⟩
    rfl
  refine .answered (.ok ⟨defaultEmbedder, 2⟩) ⟨rfl, ?_⟩ (.answered () rfl (.answered (.ok []) rfl .done))
  rintro _ ⟨⟩
  rfl

theorem oneSource_of_load : OneSource madeBy ⟨some (exampleState none), [exampleWord], []⟩ := by
  have onCluster : HomeCommand.OnCluster [exampleServer.address] (.load "home" "dir" 1) := trivial
  apply oneSource_of_cautious exampleFresh_fresh
  refine .dies .start rfl onCluster (fun _ _ state dataset isFile isDataset => ?_) (load_dies none)
  cases isFile
  cases isDataset

/-- A `load` after a `forget` stores words under a record of memories. -/
theorem load_after_forget : ¬ ∀ start world : ClusterWorld String, FreshCluster [exampleServer.address] start →
    Reached madeBy exampleScoring [exampleServer.address] (fun _ _ => True) start world →
      OneSource madeBy world := by
  intro claimed
  have onCluster : ∀ command, command = .load "home" "dir" 1 ∨ command = .forget exampleStore "m0" →
      HomeCommand.OnCluster [exampleServer.address] command := by
    rintro _ (rfl | rfl) <;> trivial
  have forgets : Reached madeBy exampleScoring [exampleServer.address] (fun _ _ => True) exampleFresh
      ⟨some (exampleState (some (.memory defaultEmbedder 2))), [], []⟩ :=
    .completes .start rfl (onCluster _ (.inr rfl)) trivial (forget_raises "m0")
  have loads := Reached.dies forgets rfl (onCluster _ (.inl rfl)) trivial
    (load_dies (some (.memory defaultEmbedder 2)))
  rcases claimed exampleFresh _ exampleFresh_fresh loads with ⟨source, makes, recorded⟩
  have ofMemory := recorded _ _ rfl rfl (List.cons_ne_nil _ _)
  have isWord := makes exampleWord (List.mem_singleton_self _)
  rw [Source.recorded_memory ofMemory] at isWord
  rcases isWord with ⟨_, _, _, _, _, _, isPayload⟩ | ⟨_, _, _, isPayload⟩
  · exact nomatch isPayload
  · exact nomatch isPayload

end Example

end Home
end VectorSearch
