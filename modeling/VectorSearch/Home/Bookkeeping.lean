import VectorSearch.Home.Ingesting

namespace VectorSearch

/-!
# The books of the ingests

The recorded sources, the count of passages and the vectors in the index, over
every sequence of completed `ingest_files` calls on one cluster.
-/

namespace Home

open Firsts

variable {V D α : Type}

/-! ## The cluster -/

/-- The vectors the ingests have added, and the dataset in the document. -/
structure IngestWorld where
  vectors : Nat
  dataset : Option Dataset

/-- An embedder makes one vector of each text.  An upload that breaks off has
added any number of vectors. -/
def ingestNetwork : Network (HomeCall V) (HomeCall.Answer V D) IngestWorld where
  answers := fun call world answer last =>
    match call, answer with
    | .writeFile state, _ => last = { world with dataset := state.dataset }
    | .embedDocuments _ texts, given => last = world ∧ ∀ vectors, given = .ok vectors →
        vectors.length = texts.length
    | .add _ vectors _ _, outcome =>
        last.dataset = world.dataset ∧ (outcome = .ok () → last.vectors = world.vectors + vectors.length)
    | _, _ => last = world
  moves := fun _ _ => False

/-! ## What the books say -/

/-- What a report counts. -/
structure Counts (report : IngestReport) (visits : List Visit) : Prop where
  added : report.added = (visits.map Visit.count).sum
  unchanged : report.unchanged = visits.countP fun visit => visit.outcome = .inl true
  changed : report.changed = visits.countP fun visit => visit.outcome = .inl false

/-- The dataset agrees with the files met so far and the vectors added. -/
structure Tallied (visits : List Visit) (set : DocumentSet) (vectors : Nat) : Prop where
  handled : Throughout visits (Visit.HandledBy Visit.key)
  recorded : ∀ visit ∈ visits, visit.Stored →
    ∃ shown, set.sources.get? visit.key = some ⟨visit.digest, visit.count, visit.name, shown⟩
  source : ∀ key record, set.sources.get? key = some record → ∃ visit ∈ visits, visit.key = key ∧ visit.Stored
  sum : set.passages = (set.sources.entries.map fun entry => entry.2.passages).sum
  added : set.passages = vectors

theorem Counts.snoc {report : IngestReport} {visits : List Visit} (counts : Counts report visits)
    (visit : Visit) :
    Counts (report.counting visit.outcome) (visits ++ [visit]) := by
  rcases visit with ⟨name, path, digest, (isSame | isSame) | count⟩
  all_goals
    constructor
    · simp [IngestReport.counting, Visit.count, counts.added]
    · simp [IngestReport.counting, counts.unchanged]
    · simp [IngestReport.counting, counts.changed]

namespace Tallied

variable {visits : List Visit} {set : DocumentSet} {vectors : Nat}

theorem new (name : String) (dim : Nat) : Tallied [] ⟨name, dim, 0, Dict.empty⟩ 0 :=
  ⟨.nil, (fun _ impossible => nomatch impossible), (fun _ _ found => nomatch found), rfl, rfl⟩

/-- Each file that was met is recorded under its key. -/
theorem met (kept : Tallied visits set vectors) {visit : Visit} (member : visit ∈ visits) :
    ∃ record, set.sources.get? visit.key = some record := by
  rcases exists_first Visit.key member with ⟨front, first, back, whole, same, isNew⟩
  have isIn : first ∈ visits := whole ▸ List.mem_append_right _ List.mem_cons_self
  rcases kept.recorded first isIn ((kept.handled _ _ _ whole).first isNew) with ⟨shown, found⟩
  exact ⟨_, same ▸ found⟩

variable {name : Option String} {path digest : String}

/-- A file whose key is recorded. -/
theorem known (kept : Tallied visits set vectors) {record : SourceRecord}
    (found : set.sources.get? (sourceKey name path) = some record) :
    Tallied (visits ++ [⟨name, path, digest, .inl (record.sha256 = digest)⟩]) set vectors := by
  rcases kept.source _ _ found with ⟨old, isOld, same, stored⟩
  have notStored : ¬ Visit.Stored ⟨name, path, digest, .inl (record.sha256 = digest)⟩ := fun ⟨_, impossible⟩ =>
    nomatch impossible
  refine ⟨kept.handled.snoc ⟨fun isNew => absurd same (isNew old isOld), fun _ => notStored, ?_⟩, ?_, ?_,
    kept.sum,
    kept.added⟩
  · have recorded : ∀ other ∈ visits, other.key = sourceKey name path → other.Stored →
      record.sha256 = other.digest := by
      intro other member sameKey isStored
      rcases kept.recorded other member isStored with ⟨shown, isRecord⟩
      rw [sameKey, found] at isRecord
      exact congrArg SourceRecord.sha256 (Option.some.inj isRecord)
    constructor
    · intro unchanged
      have equal : record.sha256 = digest := of_decide_eq_true (Sum.inl.inj unchanged)
      exact ⟨old, isOld, same, stored, (recorded old isOld same stored).symm.trans equal⟩
    · rintro ⟨other, member, sameKey, isStored, equal⟩
      exact congrArg Sum.inl (decide_eq_true ((recorded other member sameKey isStored).trans equal))
  · intro visit member isStored
    rcases List.mem_append.mp member with old | new
    · exact kept.recorded visit old isStored
    · exact absurd (List.mem_singleton.mp new ▸ isStored) notStored
  · intro key other isRecord
    rcases kept.source key other isRecord with ⟨visit, member, fits⟩
    exact ⟨visit, List.mem_append_left _ member, fits⟩

/-- A file whose key is new is stored. -/
theorem store (kept : Tallied visits set vectors) (missing : set.sources.get? (sourceKey name path) =
    none) (count : Nat)
    (shown : String) :
    Tallied (visits ++ [⟨name, path, digest, .inr count⟩])
      { set with
        sources := set.sources.set (sourceKey name path) ⟨digest, count, name, shown⟩
        passages := set.passages + count } (vectors + count) := by
  have isNew : IsNew Visit.key visits ⟨name, path, digest, .inr count⟩ := by
    intro old member same
    rcases kept.met member with ⟨record, found⟩
    exact nomatch missing.symm.trans ((congrArg set.sources.get? same).symm.trans found)
  refine ⟨kept.handled.snoc ⟨fun _ => ⟨count, rfl⟩, ?_, ?_⟩, ?_, ?_, ?_, ?_⟩
  · rintro ⟨old, member, same⟩
    exact absurd same (isNew old member)
  · refine iff_of_false (fun impossible => nomatch impossible) ?_
    rintro ⟨old, member, same, _⟩
    exact isNew old member same
  · intro visit member isStored
    rw [Dict.get?_set]
    rcases List.mem_append.mp member with old | new
    · have differs : visit.key ≠ sourceKey name path := isNew visit old
      rw [if_neg differs]
      exact kept.recorded visit old isStored
    · rw [List.mem_singleton.mp new]
      exact ⟨shown, if_pos rfl⟩
  · intro key record found
    rw [Dict.get?_set] at found
    split at found
    · rename_i same
      exact ⟨_, List.mem_append_right _ List.mem_cons_self, same.symm, count, rfl⟩
    · rcases kept.source key record found with ⟨visit, member, fits⟩
      exact ⟨visit, List.mem_append_left _ member, fits⟩
  · have absent : sourceKey name path ∉ set.sources.entries.map Prod.fst := by
      intro isKey
      have isSome := (Dict.find_isSome_iff _ _).mpr isKey
      unfold Dict.get? at missing
      rw [missing] at isSome
      cases isSome
    have entries : (set.sources.set (sourceKey name path) ⟨digest, count, name, shown⟩).entries =
        set.sources.entries ++ [(sourceKey name path, ⟨digest, count, name, shown⟩)] :=
          Dict.update_new _ _ _ absent
    refine Eq.trans ?_ (congrArg (fun pairs => (pairs.map fun entry => SourceRecord.passages entry.2).sum)
      entries).symm
    rw [List.map_append, List.sum_append, ← kept.sum]
    rfl
  · exact congrArg (· + count) kept.added

end Tallied

/-- The books in a world: nothing was stored yet, or the dataset is in the
document. -/
structure Books (visits : List Visit) (set : DocumentSet) (world : IngestWorld) : Prop where
  kept : Tallied visits set world.vectors
  written : world.dataset = some set.toDataset ∨ visits = [] ∧ world = ⟨0, none⟩

theorem Books.known {visits : List Visit} {set : DocumentSet} {world : IngestWorld}
    (books : Books visits set world) {name : Option String} {path : String} {record : SourceRecord}
    (digest : String) (found : set.sources.get? (sourceKey name path) = some record) :
    Books (visits ++ [⟨name, path, digest, .inl (record.sha256 = digest)⟩]) set world := by
  refine ⟨books.kept.known found, .inl ?_⟩
  rcases books.written with written | ⟨rfl, _⟩
  · exact written
  · rcases books.kept.source _ _ found with ⟨visit, impossible, _⟩
    exact nomatch impossible

/-! ## The triples -/

section Triples

/-- A triple about what a command that returns has done. -/
abbrev Returns (before : IngestWorld → Prop) (command : Command V D α)
    (returned : α → IngestWorld → Prop) : Prop :=
  Client.Ensures ingestNetwork (fun _ => True) (fun _ => before) command (fun value _ => returned value)
    fun _ _ _ => True

theorem Returns.call {before : IngestWorld → Prop} (call : HomeCall V) : Returns before
    (Client.call call : Command V D _)
    fun answer last => ∃ world, before world ∧ ingestNetwork.answers call world answer last :=
  Client.Ensures.call (fun _ _ _ _ move => nomatch move) (fun _ _ _ => trivial) fun _ world _ _ holds given =>
    ⟨world, holds, given⟩

theorem Returns.lift {before : IngestWorld → Prop} (result : Except Error α) :
    Returns before (Client.lift result : Command V D α) fun value world => before world ∧ result = .ok value :=
  Client.Ensures.lift (fun _ same _ _ holds => ⟨holds, same⟩) fun _ _ _ _ _ => trivial

theorem Returns.imp {before stronger : IngestWorld → Prop} {command : Command V D α}
    {returned weaker : α → IngestWorld → Prop}
    (returns : Returns before command returned) (strengthen : ∀ world, stronger world → before world)
    (weaken : ∀ value last, returned value last → weaker value last) : Returns stronger command weaker :=
  Client.Ensures.imp returns (fun _ => strengthen) (fun value _ => weaken value) fun _ _ _ raised => raised

/-- A call, its value and what is done with it. -/
theorem Returns.asks {β : Type} {before : IngestWorld → Prop} {request : HomeCall V}
    {result : HomeCall.Answer V D request → Except Error β} {next : β → Command V D α}
    {returned : α → IngestWorld → Prop} (between : β → IngestWorld → Prop)
    (gives : ∀ world answer last value, before world → ingestNetwork.answers request world answer last →
      result answer = .ok value → between value last)
        (back : ∀ value, Returns (between value) (next value) returned) :
    Returns before (Client.call request >>= fun answer => Client.lift (result answer) >>= next) returned := by
  refine Client.Ensures.bind (Returns.call request) fun answer => ?_
  refine Client.Ensures.through (fun value _ => between value) ?_ back
  refine Returns.imp (Returns.lift (result answer)) (fun _ here => here) ?_
  rintro value last ⟨⟨world, holds, given⟩, isValue⟩
  exact gives world answer last value holds given isValue

variable {world : IngestWorld}

/-- Each text gets its vector. -/
theorem embedBatches_returns (embedder : String) (batches : List (List String)) :
    Returns (· = world) (embedBatches embedder batches : Command V D (List V)) fun vectors last =>
      last = world ∧ vectors.length = batches.flatten.length := by
  induction batches with
  | nil => exact Client.Ensures.pure fun _ _ same => ⟨same, rfl⟩
  | cons texts rest inductionHypothesis =>
      refine Returns.asks (fun vectors last => last = world ∧ vectors.length = texts.length) ?_
        fun vectors => ?_
      · rintro _ answer last vectors rfl ⟨rfl, lengths⟩ isVectors
        exact ⟨rfl, lengths vectors isVectors⟩
      · refine Client.Ensures.given fun length => Client.Ensures.bind inductionHypothesis fun later => ?_
        refine Client.Ensures.pure ?_
        rintro _ last ⟨same, laterLength⟩
        rw [List.length_append, List.flatten_cons, List.length_append, laterLength, length]
        exact ⟨same, rfl⟩

/-- Each passage is stored with a vector. -/
theorem ingestPassages_returns (shards : List (List String)) (embedder : String) (passages : List Passage)
    (name : Option String) :
    Returns (· = world) (ingestPassages shards embedder passages name : Command V D Nat) fun count last =>
      last = { world with vectors := world.vectors + count } := by
  unfold ingestPassages
  split
  · exact Client.Ensures.pure fun _ _ same => same
  · refine Client.Ensures.bind (embedBatches_returns embedder _) fun vectors => ?_
    refine Client.Ensures.given fun length => ?_
    rw [Chunks.flatten_starts _ (by decide) (Nat.le_refl _), List.length_map] at length
    refine Client.Ensures.through
      (fun _ _ last => last = { world with vectors := world.vectors + passages.length }) ?_
      fun _ => Client.Ensures.pure fun _ _ same => same
    refine Client.Ensures.bind (Returns.call _) fun answer => ?_
    refine Returns.imp (Returns.lift answer) (fun _ here => here) ?_
    rintro _ last ⟨⟨_, rfl, sameDataset, added⟩, isOk⟩
    rw [← length, ← added isOk, ← sameDataset]

/-- What is done with a file keeps the books. -/
theorem fileOutcome_books {visits : List Visit} {set : DocumentSet} (state : ClusterState)
    (options : IngestOptions) (embedder : EmbedderInfo) (path shown digest : String) :
    Returns (Books visits set) (fileOutcome state options embedder path shown digest set : Command V D _)
      fun result last => Books (visits ++ [⟨options.name, path, digest, result.2⟩]) result.1 last := by
  unfold fileOutcome
  split
  · rename_i record found
    exact Client.Ensures.pure fun _ _ books => books.known digest found
  · rename_i missing
    intro memory world books
    refine (?_ : Returns (· = world) _ _) memory world rfl
    refine Returns.asks (fun _ last => last = world) (fun _ _ _ _ before given _ => given.trans before)
      fun passages => ?_
    refine Client.Ensures.bind (ingestPassages_returns _ _ passages _) fun count => ?_
    refine Client.Ensures.bind (Returns.call _) fun _ => Client.Ensures.pure ?_
    rintro _ _ ⟨_, rfl, rfl⟩
    exact ⟨books.kept.store missing count shown, .inl rfl⟩

/-- In the middle of a call, after the visits of earlier ones. -/
structure Midway (earlier : List Visit) (set : DocumentSet) (report : IngestReport) (visits : List Visit)
    (world : IngestWorld) : Prop where
  books : Books (earlier ++ visits) set world
  counts : Counts report visits

/-- A triple about the visits that are recorded. -/
abbrev Records (before : List Visit → IngestWorld → Prop) (command : Visiting V D α)
    (returned : α → List Visit → IngestWorld → Prop) : Prop :=
  Client.Ensures ingestNetwork (fun _ => True) (fun state => before state.2) command
    (fun value state => returned value state.2)
    fun _ _ _ => True

theorem Returns.given {before stronger : IngestWorld → Prop} {command : Command V D α}
    {returned : α → IngestWorld → Prop} {fact : Prop}
    (parts : ∀ world, stronger world → before world ∧ fact) (rest : fact → Returns before command returned) :
    Returns stronger command returned :=
  Client.Ensures.imp (Client.Ensures.given rest) (fun _ => parts) (fun _ _ _ ends => ends)
    fun _ _ _ raised => raised

theorem Records.quietly {before : List Visit → IngestWorld → Prop} {command : Command V D α}
    {returned : α → List Visit → IngestWorld → Prop}
    (each : ∀ visits, Returns (before visits) command fun value => returned value visits) :
    Records before (Client.quietly command) returned :=
  Client.Ensures.quietly each

/-- One part after another, with what holds in between. -/
theorem Records.through {β : Type} {before : List Visit → IngestWorld → Prop} {first : Visiting V D β}
    {next : β → Visiting V D α} {returned : α → List Visit → IngestWorld → Prop}
    (between : β → List Visit → IngestWorld → Prop) (front : Records before first between)
    (back : ∀ value, Records (between value) (next value) returned) : Records before
    (first >>= next) returned :=
  Client.Ensures.bind front back

theorem Returns.still {before : IngestWorld → Prop} (request : HomeCall V)
    (same : ∀ world (answer : HomeCall.Answer V D request) last,
      ingestNetwork.answers request world answer last →
      last = world) : Returns before (Client.call request : Command V D _) fun _ => before := by
  refine Returns.imp (Returns.call request) (fun _ holds => holds) ?_
  rintro answer last ⟨world, holds, given⟩
  exact same world answer last given ▸ holds

theorem getEmbedder_still {before : IngestWorld → Prop} (name : String) :
    Returns before (getEmbedder name : Command V D _) fun _ => before :=
  Client.Ensures.bind (Returns.still (.getEmbedder name) fun _ _ _ same => same) fun _ =>
    Client.Ensures.lift (fun _ _ _ _ holds => holds) fun _ _ _ _ _ => trivial

theorem findFiles_still {before : IngestWorld → Prop} (paths : List String) :
    Returns before (findFiles paths : Command V D _) fun _ => before := by
  refine Client.Ensures.bind (Returns.still (.findDocuments paths) fun _ _ _ same => same) fun answer => ?_
  split
  · exact Client.Ensures.throw fun _ _ _ => trivial
  · exact Client.Ensures.throw fun _ _ _ => trivial
  · exact Client.Ensures.throw fun _ _ _ => trivial
  · exact Client.Ensures.pure fun _ _ holds => holds

variable {earlier : List Visit} {report : IngestReport}

theorem recordFile_records (state : ClusterState) (options : IngestOptions) (embedder : EmbedderInfo)
    (path : String) (set : DocumentSet) :
    Records (Midway earlier set report) (recordFile state options embedder path set : Visiting V D _)
      fun result =>
      Midway earlier result.1 (report.counting result.2) := by
  refine Records.through (fun _ => Midway earlier set report) (Records.quietly fun visits =>
    Returns.still (.displayPath path) fun _ _ _ same => same) fun shown => ?_
  refine Records.through (fun _ => Midway earlier set report) (Records.quietly fun visits =>
    Returns.still (.fingerprint path) fun _ _ _ same => same) fun answer => ?_
  refine Records.through (fun _ => Midway earlier set report) (Records.quietly fun visits =>
    Returns.imp (Returns.lift answer) (fun _ here => here) fun _ _ ends => ends.1) fun digest => ?_
  refine Records.through (fun result visits last =>
    Books (earlier ++ visits ++ [⟨options.name, path, digest, result.2⟩]) result.1 last ∧ Counts report visits)
    (Records.quietly fun visits => ?_) fun result => ?_
  · refine Returns.given (fun _ midway => ⟨midway.books, midway.counts⟩) fun counts => ?_
    exact Returns.imp (fileOutcome_books state options embedder path shown digest) (fun _ books => books)
      fun _ _ books => ⟨books, counts⟩
  · refine Records.through (fun _ => Midway earlier result.1 (report.counting result.2))
      (Client.Ensures.note ?_) fun _ => Client.Ensures.pure fun _ _ midway => midway
    rintro memory visits world ⟨books, counts⟩
    exact ⟨List.append_assoc earlier _ _ ▸ books, counts.snoc ⟨options.name, path, digest, result.2⟩⟩

theorem recordLoop_records (state : ClusterState) (options : IngestOptions) (embedder : EmbedderInfo)
    (files : List String) (set : DocumentSet) :
    Records (Midway earlier set report) (recordLoop state options embedder files set report : Visiting V D _)
      fun report visits world => ∃ set, Midway earlier set report visits world := by
  induction files generalizing set report with
  | nil => exact Client.Ensures.pure fun _ _ midway => ⟨set, midway⟩
  | cons path rest inductionHypothesis =>
      exact Client.Ensures.bind (recordFile_records state options embedder path set) fun result =>
        inductionHypothesis result.1

/-- The books between two calls. -/
def Balanced (visits : List Visit) (world : IngestWorld) : Prop := ∃ set, Books visits set world

theorem Balanced.start : Balanced [] ⟨0, none⟩ := ⟨⟨"", 0, 0, Dict.empty⟩, Tallied.new _ _, .inr ⟨rfl, rfl⟩⟩

/-- An ingest starts from the books, whether they are new or recorded. -/
theorem documentsOf_books (state : ClusterState) (replies : List StatusResponse) (embedder : Option String)
    (same : state.dataset = world.dataset) (balanced : Balanced earlier world) :
    Returns (· = world) (documentsOf state replies embedder : Command V D _) fun found last =>
      Books earlier found.2 last := by
  rcases balanced with ⟨set, books⟩
  unfold documentsOf
  split
  · rename_i nothing
    split
    · exact Client.Ensures.throw fun _ _ _ => trivial
    · refine Client.Ensures.bind (getEmbedder_still _) fun info => Client.Ensures.pure ?_
      rintro _ _ rfl
      rcases books.written with written | ⟨rfl, rfl⟩
      · exact nomatch nothing.symm.trans (same.trans written)
      · exact ⟨Tallied.new _ _, .inr ⟨rfl, rfl⟩⟩
  · rename_i name dim passages sources recorded
    split
    · exact Client.Ensures.throw fun _ _ _ => trivial
    · refine Client.Ensures.bind (getEmbedder_still _) fun info => Client.Ensures.pure ?_
      rintro _ _ rfl
      rcases books.written with written | ⟨rfl, rfl⟩
      · have isSet : set = ⟨name, dim, passages, sources⟩ := by
          rcases set with ⟨_, _, _, _⟩
          cases recorded.symm.trans (same.trans written)
          rfl
        exact isSet ▸ books
      · exact nomatch recorded.symm.trans same
  · exact Client.Ensures.throw fun _ _ _ => trivial

theorem tellShard_still {before : IngestWorld → Prop} (state : ClusterState) (options : IngestOptions)
    (report : IngestReport) :
    Returns before (tellShard state options report : Command V D _) fun told last =>
      before last ∧ told.added = report.added ∧ told.unchanged = report.unchanged ∧
        told.changed = report.changed := by
  unfold tellShard
  split
  · exact Client.Ensures.pure fun _ _ holds => ⟨holds, rfl, rfl, rfl⟩
  · split
    · exact Client.Ensures.pure fun _ _ holds => ⟨holds, rfl, rfl, rfl⟩
    · refine Client.Ensures.lift_bind (fun shard _ => ?_) fun _ _ _ _ _ => trivial
      exact Client.Ensures.pure fun _ _ holds => ⟨holds, rfl, rfl, rfl⟩

/-- A completed call keeps the books, and its report counts what it did. -/
theorem recordFiles_records (state : ClusterState) (replies : List StatusResponse) (paths : List String)
    (options : IngestOptions) (same : state.dataset = world.dataset) (balanced : Balanced earlier world) :
    Records (fun visits last => visits = [] ∧ last = world)
      (recordFiles state replies paths options : Visiting V D _)
      fun report visits last => Balanced (earlier ++ visits) last ∧ Counts report visits := by
  refine Records.through (fun found visits last => visits = [] ∧ Books earlier found.2 last)
    (Records.quietly fun visits => ?_) fun found => ?_
  · refine Returns.given (fun _ => And.symm) fun isNew => ?_
    exact Returns.imp (documentsOf_books state replies options.embedder same balanced) (fun _ here => here)
      fun _ _ books => ⟨isNew, books⟩
  refine Records.through (fun _ visits last => visits = [] ∧ Books earlier found.2 last)
    (Records.quietly fun visits => findFiles_still paths) fun files => ?_
  refine Records.through (fun report visits last => ∃ set, Midway earlier set report visits last) ?_
    fun report => ?_
  · refine Client.Ensures.tryCatch ?_ fun error => Client.Ensures.throw fun _ _ raised => raised
    refine Client.Ensures.imp (recordLoop_records state options found.1 files found.2) ?_
      (fun _ _ _ ends => ends)
      fun _ _ _ raised => raised
    rintro ⟨memory, visits⟩ last ⟨rfl, books⟩
    exact ⟨(List.append_nil earlier).symm ▸ books, rfl, rfl, rfl⟩
  · refine Records.quietly fun visits => Returns.imp (tellShard_still state options report)
      (fun _ here => here) ?_
    rintro told last ⟨⟨set, midway⟩, added, unchanged, changed⟩
    exact ⟨⟨set, midway.books⟩, added.trans midway.counts.added, unchanged.trans midway.counts.unchanged,
      changed.trans midway.counts.changed⟩

end Triples

/-! ## Sequences of calls -/

/-- A completed call of `ingest_files`, with the files it met. -/
structure CompletedIngest where
  state : ClusterState
  replies : List StatusResponse
  paths : List String
  options : IngestOptions
  report : IngestReport
  visits : List Visit

/-- All files that were met, in order. -/
def visitsOf (calls : List CompletedIngest) : List Visit := calls.flatMap CompletedIngest.visits

variable (V D) in
/-- Completed calls one after another, on a cluster that begins without a dataset.
What else the document holds may change between two calls. -/
inductive IngestRun : List CompletedIngest → IngestWorld → Prop
  | start : IngestRun [] ⟨0, none⟩
  | call {calls : List CompletedIngest} {call : CompletedIngest} {world last : IngestWorld}
      (before : IngestRun calls world)
      (same : call.state.dataset = world.dataset)
      (completes : Remote.Runs ingestNetwork
        ((recordFiles call.state call.replies call.paths call.options : Visiting V D _) ((), [])) world
        (.ok call.report ((), call.visits)) last) : IngestRun (calls ++ [call]) last

/-- Exact bookkeeping, by namespace and path. -/
structure Exact (calls : List CompletedIngest) (world : IngestWorld) : Prop where
  handled : Throughout (visitsOf calls) (Visit.HandledBy Visit.pair)
  counted : ∀ call ∈ calls, Counts call.report call.visits
  recorded : ∀ visit ∈ visitsOf calls, visit.Stored → ∃ embedder dim passages sources shown,
    world.dataset = some (.documents embedder dim passages sources) ∧
      sources.get? visit.key = some ⟨visit.digest, visit.count, visit.name, shown⟩
  passages : ∀ embedder dim passages sources, world.dataset = some (.documents embedder dim passages sources) →
    passages = (sources.entries.map fun entry => entry.2.passages).sum ∧ passages = world.vectors

theorem IngestRun.kept {calls : List CompletedIngest} {world : IngestWorld} (run : IngestRun V D calls world) :
    Balanced (visitsOf calls) world ∧ ∀ call ∈ calls, Counts call.report call.visits := by
  induction run with
  | start => exact ⟨.start, fun _ impossible => nomatch impossible⟩
  | call before same completes inductionHypothesis =>
      rename_i calls call world last
      rcases inductionHypothesis with ⟨balanced, counted⟩
      have ends := (recordFiles_records (V := V) (D := D) call.state call.replies call.paths
        call.options same balanced
        ((), []) world ⟨rfl, rfl⟩).1 _ _ completes
      have visits : visitsOf (calls ++ [call]) = visitsOf calls ++ call.visits := by
        simp only [visitsOf, List.flatMap_append, List.flatMap_cons, List.flatMap_nil, List.append_nil]
      refine ⟨visits ▸ ends.1, fun other member => ?_⟩
      rcases List.mem_append.mp member with old | new
      · exact counted other old
      · exact List.mem_singleton.mp new ▸ ends.2

theorem Balanced.exact_iff {calls : List CompletedIngest} {world : IngestWorld}
    (balanced : Balanced (visitsOf calls) world) (counted : ∀ call ∈ calls, Counts call.report call.visits) :
    Exact calls world ↔ Throughout (visitsOf calls) (Visit.HandledBy Visit.pair) := by
  rcases balanced with ⟨set, books⟩
  refine ⟨Exact.handled, fun handled => ⟨handled, counted, fun visit member isStored => ?_, ?_⟩⟩
  · rcases books.written with written | ⟨nothing, _⟩
    · rcases books.kept.recorded visit member isStored with ⟨shown, found⟩
      exact ⟨_, _, _, _, shown, written, found⟩
    · rw [nothing] at member
      exact nomatch member
  · intro embedder dim passages sources recorded
    rcases books.written with written | ⟨_, rfl⟩
    · cases recorded.symm.trans written
      exact ⟨books.kept.sum, books.kept.added⟩
    · cases recorded

/-- Each run is exact by key, and so by pair where the keys tell the pairs apart. -/
theorem IngestRun.exact_iff {calls : List CompletedIngest} {world : IngestWorld}
    (run : IngestRun V D calls world) :
    Exact calls world ↔ Separates Visit.key Visit.pair (visitsOf calls) := by
  rcases run.kept with ⟨balanced, counted⟩
  have byKey : Throughout (visitsOf calls) (Visit.HandledBy Visit.key) := by
    rcases balanced with ⟨set, books⟩
    exact books.kept.handled
  exact (balanced.exact_iff counted).trans (Visit.handled_pair_iff byKey)

/-- Namespaces without the mark of a path in them keep the bookkeeping exact. -/
theorem IngestRun.exact_of_plain {calls : List CompletedIngest} {world : IngestWorld}
    (run : IngestRun V D calls world)
    (plain : ∀ visit ∈ visitsOf calls, PlainPair visit.pair) : Exact calls world :=
  run.exact_iff.mpr (separates_of_plain plain)

/-- The recorded ingest is the ingest.  The bookkeeping of a sequence of completed
calls is exact exactly when no two of the pairs of namespace and path it met share
a key. -/
theorem ingests_exact_iff :
    (∀ state replies paths options,
      Client.Erases (recordFiles state replies paths options)
        (ingestFiles state replies paths options : Command V D _)) ∧
    ∀ calls world, IngestRun V D calls world →
      (Exact calls world ↔ Separates Visit.key Visit.pair (visitsOf calls)) :=
  ⟨recordFiles_erases, fun _ _ run => run.exact_iff⟩

section Sample

def sampleState (dataset : Option Dataset) : ClusterState :=
    ⟨some 0, [], [[⟨none, 7000, none, none⟩]], dataset, none⟩

def sampleOptions (name : String) : IngestOptions := ⟨none, some name, 1000, 150⟩

/-- What is recorded of one file with one passage. -/
def sampleDataset : Dataset :=
  (DocumentSet.mk "bge-small" 2 1 (Dict.empty.set "a::/x::/y.md" ⟨"1", 1, some "a", "y.md"⟩)).toDataset

/-- A file of a new cluster is stored. -/
theorem stored_run : ∃ report, Remote.Runs ingestNetwork
    ((recordFiles (sampleState none) [] ["."] (sampleOptions "a") : Visiting Unit Unit _) ((), [])) ⟨0, none⟩
    (.ok report ((), [⟨some "a", "/x::/y.md", "1", .inr 1⟩])) ⟨1, some sampleDataset⟩ := by
  refine ⟨?_, ?_⟩
  rotate_left
  · refine Remote.Runs.answered (.ok ⟨"bge-small", 2⟩) rfl ?_
    refine Remote.Runs.answered (.ok ["/x::/y.md"]) rfl ?_
    refine Remote.Runs.answered "y.md" rfl ?_
    refine Remote.Runs.answered (.ok "1") rfl ?_
    refine Remote.Runs.answered (.ok [⟨"text", "y.md", "", 0⟩]) rfl ?_
    refine Remote.Runs.answered (.ok [()]) ⟨rfl, fun _ same => Except.ok.inj same ▸ rfl⟩ ?_
    refine Remote.Runs.answered (.ok ()) (show ingestNetwork.answers (.add _ _ _ _) _ _ ⟨1, none⟩ from
      ⟨rfl, fun _ => rfl⟩) ?_
    refine Remote.Runs.answered () rfl ?_
    exact Remote.Runs.done

/-- Another file in another namespace has the same key. -/
theorem skipped_run : ∃ report, Remote.Runs ingestNetwork
    ((recordFiles (sampleState (some sampleDataset)) [] ["."] (sampleOptions "a::/x") :
      Visiting Unit Unit _) ((), []))
    ⟨1, some sampleDataset⟩ (.ok report ((), [⟨some "a::/x", "/y.md", "1", .inl true⟩]))
      ⟨1, some sampleDataset⟩ := by
  refine ⟨?_, ?_⟩
  rotate_left
  · refine Remote.Runs.answered (.ok ⟨"bge-small", 2⟩) rfl ?_
    refine Remote.Runs.answered (.ok ["/y.md"]) rfl ?_
    refine Remote.Runs.answered "y.md" rfl ?_
    refine Remote.Runs.answered (.ok "1") rfl ?_
    exact Remote.Runs.done

theorem shared_run : ∃ calls world, IngestRun Unit Unit calls world ∧
    calls.map (fun call => call.options) = [sampleOptions "a", sampleOptions "a::/x"] ∧
    visitsOf calls = [⟨some "a", "/x::/y.md", "1", .inr 1⟩, ⟨some "a::/x", "/y.md", "1", .inl true⟩] := by
  rcases stored_run with ⟨stored, first⟩
  rcases skipped_run with ⟨skipped, second⟩
  have one : IngestRun Unit Unit _ _ := @IngestRun.call Unit Unit []
    ⟨sampleState none, [], ["."], sampleOptions "a", stored, [⟨some "a", "/x::/y.md", "1", .inr 1⟩]⟩ _ _
      .start rfl first
  have two : IngestRun Unit Unit _ _ := @IngestRun.call Unit Unit _
    ⟨sampleState (some sampleDataset), [], ["."], sampleOptions "a::/x", skipped,
      [⟨some "a::/x", "/y.md", "1", .inl true⟩]⟩ _ _ one rfl second
  exact ⟨_, _, two, rfl, rfl⟩

theorem ingests_exact_iff_shared : ∃ calls world, (visitsOf calls).length = 2 ∧
    (Exact calls world ↔ Separates Visit.key Visit.pair (visitsOf calls)) := by
  rcases shared_run with ⟨calls, world, run, _, visits⟩
  exact ⟨calls, world, congrArg List.length visits, (ingests_exact_iff (V := Unit) (D := Unit)).2 calls
    world run⟩

/-- Of two files with one key the second is not stored. -/
theorem shared_key_skipped : ¬ ∀ calls world, IngestRun Unit Unit calls world →
    (∀ call ∈ calls, call.options.name ≠ some "") → (∀ visit ∈ visitsOf calls, ['/'] <+: visit.path.toList) →
      Exact calls world := by
  intro exact
  rcases shared_run with ⟨calls, world, run, options, visits⟩
  have named : ∀ call ∈ calls, call.options.name ≠ some "" := by
    intro call member
    have isOption := List.mem_map_of_mem (f := fun call => CompletedIngest.options call) member
    rw [options] at isOption
    rcases List.mem_pair.mp isOption with same | same
    · rw [same]
      decide
    · rw [same]
      decide
  have absolute : ∀ visit ∈ visitsOf calls, ['/'] <+: visit.path.toList := by
    rw [visits]
    decide
  have handled := (exact calls world run named absolute).handled [_] _ [] visits
  rcases handled.first (by unfold IsNew; decide) with ⟨count, impossible⟩
  exact nomatch impossible

end Sample

end Home
end VectorSearch
