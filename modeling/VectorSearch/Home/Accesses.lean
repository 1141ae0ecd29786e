import VectorSearch.Home.Commands

namespace VectorSearch

/-!
# What the commands do with `cluster.json`

An ingest reads the document once and writes it after every file it has stored,
each time what it had read with one more source.  A restart reads the document,
starts the server and writes what it had read with the new process id.
-/

namespace Home

variable {V D α β : Type}

/-- A use of the document, or the start of a server. -/
inductive FileAccess where
  | read (found : Option ClusterState)
  | write (state : ClusterState)
  | remove
  | spawned (command : List String) (pid : Nat)

def accessOf : Remote.Event (HomeCall V) (HomeCall.Answer V D) → Option FileAccess
  | ⟨.readFile, found⟩ => some (.read found)
  | ⟨.writeFile state, _⟩ => some (.write state)
  | ⟨.unlinkFile, _⟩ => some .remove
  | ⟨.spawn command, pid⟩ => some (.spawned command pid)
  | _ => none

/-- A triple about the accesses seen so far. -/
abbrev Accesses (before : List FileAccess → Prop) (command : Command V D α)
    (returned : α → List FileAccess → Prop) (raised : List FileAccess → Prop) : Prop :=
  Client.Ensures (Remote.observing accessOf) (fun _ => True) (fun _ => before) command
    (fun value _ => returned value) fun _ _ => raised

/-- A command that leaves the document alone. -/
def Leaves (command : Command V D α) : Prop :=
  ∀ before : List FileAccess → Prop, Accesses before command (fun _ => before) before

theorem Accesses.call {call : HomeCall V} {before : List FileAccess → Prop}
    {returned : HomeCall.Answer V D call → List FileAccess → Prop} {raised : List FileAccess → Prop}
    (given : ∀ seen answer, before seen → returned answer (seen ++ (accessOf ⟨call, answer⟩).toList)) :
    Accesses before (Client.call call) returned raised := by
  apply Client.Ensures.call
  · exact fun _ _ _ _ move => nomatch move
  · exact fun _ _ _ => trivial
  · intro _ seen answer last holds isLast
    rw [show last = _ from isLast]
    exact given seen answer holds

theorem Leaves.call {call : HomeCall V} (other : ∀ answer : HomeCall.Answer V D call,
    accessOf ⟨call, answer⟩ = none) :
    Leaves (Client.call call : Command V D _) := by
  intro before
  apply Accesses.call
  intro seen answer holds
  rw [other answer, Option.toList_none, List.append_nil]
  exact holds

theorem Leaves.pure (value : α) : Leaves (pure value : Command V D α) :=
  fun _ => Client.Ensures.pure fun _ _ holds => holds

theorem Leaves.lift (result : Except Error α) : Leaves (Client.lift result : Command V D α) :=
  fun _ => Client.Ensures.lift (fun _ _ _ _ holds => holds) fun _ _ _ _ holds => holds

theorem Leaves.bind {first : Command V D α} {next : α → Command V D β} (front : Leaves first)
    (back : ∀ value, Leaves (next value)) : Leaves (first >>= next) :=
  fun before => Client.Ensures.bind (front before) fun value => back value before

/-- A part that leaves the document alone does not change what is known of it. -/
theorem Accesses.after {first : Command V D α} {next : α → Command V D β} {before : List FileAccess → Prop}
    {returned : β → List FileAccess → Prop} {raised : List FileAccess → Prop} (front : Leaves first)
    (fails : ∀ seen, before seen → raised seen) (back : ∀ value, Accesses before (next value) returned raised) :
    Accesses before (first >>= next) returned raised := by
  have leaves := (front before).imp (fun _ _ holds => holds) (fun _ _ _ holds => holds)
    fun _ _ seen (holds : before seen) => fails seen holds
  exact Client.Ensures.bind leaves back

theorem Accesses.raising {body : Command V D α} {before : List FileAccess → Prop}
    {returned : α → List FileAccess → Prop} {raised : List FileAccess → Prop} (turn : Error → Error)
    (tries : Accesses before body returned raised) : Accesses before (raising turn body) returned raised := by
  apply Client.Ensures.tryCatch tries
  exact fun error => Client.Ensures.throw fun _ _ holds => holds

theorem Leaves.raising {body : Command V D α} (turn : Error → Error) (leaves : Leaves body) :
    Leaves (Home.raising turn body) := fun before => Accesses.raising turn (leaves before)

/-! ## Parts that change nothing -/

/-- A call that neither uses the document nor starts a server nor stores a vector. -/
def HomeCall.Plain : HomeCall V → Prop
  | .readFile | .writeFile _ | .unlinkFile | .spawn _ | .add .. => False
  | _ => True

/-- A command of such calls only. -/
abbrev Plain (command : Command V D α) : Prop := Client.Only HomeCall.Plain command

theorem Plain.leaves {command : Command V D α} (plain : Plain command) : Leaves command := by
  intro before
  apply Client.Ensures.of_only plain
  · exact fun _ _ _ move => nomatch move
  · exact fun _ _ => trivial
  · intro call isPlain seen answer last holds given
    have other : accessOf ⟨call, answer⟩ = none := by
      cases call with
      | readFile | writeFile | unlinkFile | spawn | add => exact isPlain.elim
      | _ => rfl
    rw [show last = seen ++ (accessOf ⟨call, answer⟩).toList from given, other,
      Option.toList_none, List.append_nil]
    exact holds

theorem statuses_plain (servers : List ServerRecord) : Plain (statuses servers : Command V D _) := by
  induction servers with
  | nil => exact .pure _
  | cons server rest inductionHypothesis =>
      apply Client.Only.bind (.call trivial)
      intro reply
      apply Client.Only.bind inductionHypothesis
      exact fun replies => .pure _

theorem writable_plain (state : ClusterState) : Plain (writable state : Command V D _) := by
  apply Client.Only.bind (statuses_plain _)
  intro replies
  cases replies.mapM id with
  | none => exact .throw _
  | some replies => exact .pure _

theorem isRunning_plain (server : ServerRecord) : Plain (isRunning server : Command V D _) := by
  unfold isRunning
  cases server.pid with
  | none => exact .pure _
  | some pid => exact .bind (.call trivial) fun command => .pure _

theorem embedBatches_plain (embedder : String) (batches : List (List String)) :
    Plain (embedBatches embedder batches : Command V D _) := by
  induction batches with
  | nil => exact .pure _
  | cons texts rest inductionHypothesis =>
      apply Client.Only.bind (.call trivial)
      intro answer
      apply Client.Only.bind (.lift answer)
      intro vectors
      exact .bind inductionHypothesis fun later => .pure _

theorem getEmbedder_plain (name : String) : Plain (getEmbedder name : Command V D _) :=
  .bind (.call trivial) fun answer => .lift answer

theorem findFiles_plain (paths : List String) : Plain (findFiles paths : Command V D _) := by
  apply Client.Only.bind (.call trivial)
  intro answer
  split
  · exact .throw _
  · exact .throw _
  · exact .throw _
  · exact .pure _

theorem clusterHealth_plain (servers : List (Nat × Nat × ServerRecord)) :
    Plain (clusterHealth servers : Command V D _) := by
  induction servers with
  | nil => exact .pure _
  | cons server rest inductionHypothesis =>
      apply Client.Only.bind (.call trivial)
      intro reply
      apply Client.Only.bind (isRunning_plain _)
      intro running
      exact .bind inductionHypothesis fun later => .pure _

theorem waitFor_plain (home : String) (servers : List (Nat × Nat × ServerRecord)) :
    Plain (waitFor home servers : Command V D _) := by
  induction servers with
  | nil => exact .pure _
  | cons server rest inductionHypothesis =>
      apply Client.Only.bind (.call trivial)
      intro ready
      split
      · exact inductionHypothesis
      · exact .throw _

theorem add_leaves (shards : List (List String)) (vectors : List V) (payloads : Option (List Payload))
    (name : Option String) : Leaves (add shards vectors payloads name : Command V D _) :=
  Leaves.bind (Leaves.call fun _ => rfl) fun answer => Leaves.lift answer

theorem ingestPassages_leaves (shards : List (List String)) (embedder : String) (passages : List Passage)
    (name : Option String) : Leaves (ingestPassages shards embedder passages name : Command V D _) := by
  unfold ingestPassages
  split
  · exact Leaves.pure _
  · apply Leaves.bind (embedBatches_plain _ _).leaves
    intro vectors
    exact Leaves.bind (add_leaves _ _ _ _) fun _ => Leaves.pure _

/-! ## An ingest -/

/-- The sources a state records. -/
def recordedSources (state : ClusterState) : Dict String SourceRecord :=
  match state.dataset with
  | some (.documents _ _ _ sources) => sources
  | _ => Dict.empty

/-- The state with a dataset of documents. -/
def withDocuments (state : ClusterState) (set : DocumentSet) : ClusterState :=
  { state with dataset := some set.toDataset }

/-- The datasets written one after the other, each with one more source. -/
inductive Grown (start : Dict String SourceRecord) : List DocumentSet → Dict String SourceRecord → Prop
  | start : Grown start [] start
  | more {sets : List DocumentSet} {sources : Dict String SourceRecord} {set : DocumentSet} {key : String}
      {record : SourceRecord} (earlier : Grown start sets sources) (new : sources.get? key = none)
      (isSet : set.sources = sources.set key record) : Grown start (sets ++ [set]) set.sources

/-- The accesses of an ingest. -/
def IngestAccesses (seen : List FileAccess) : Prop :=
  seen = [.read none] ∨ ∃ state sets sources, Grown (recordedSources state) sets sources ∧
    seen = .read (some state) :: sets.map fun set => .write (withDocuments state set)

/-- The accesses of an ingest that goes on with a dataset. -/
def Ingesting (state : ClusterState) (set : DocumentSet) (seen : List FileAccess) : Prop :=
  ∃ sets, Grown (recordedSources state) sets set.sources ∧
    seen = .read (some state) :: sets.map fun set => .write (withDocuments state set)

theorem Ingesting.accesses {state : ClusterState} {set : DocumentSet} {seen : List FileAccess}
    (ingesting : Ingesting state set seen) : IngestAccesses seen := by
  rcases ingesting with ⟨sets, grown, isSeen⟩
  exact Or.inr ⟨state, sets, _, grown, isSeen⟩

theorem readState_accesses (home : String) :
    Accesses (fun seen => seen = []) (readState home : Command V D _)
      (fun state seen => seen = [.read (some state)])
      fun seen => seen = [.read none] := by
  have reads : Accesses (fun seen => seen = []) (Client.call HomeCall.readFile : Command V D _)
      (fun found seen => seen = [.read found]) fun seen => seen = [.read none] := by
    apply Accesses.call
    intro seen answer none
    rw [none]
    rfl
  apply Client.Ensures.bind reads
  intro found
  cases found with
  | none => exact Client.Ensures.throw fun _ _ holds => holds
  | some state => exact Client.Ensures.pure fun _ _ holds => holds

/-- A further look at the document. -/
theorem readState_again (home : String) {before after : List FileAccess → Prop}
    (adds : ∀ seen, before seen → ∀ found, after (seen ++ [.read found])) :
    Accesses before (readState home : Command V D _) (fun _ => after) after := by
  have reads : Accesses before (Client.call HomeCall.readFile : Command V D _) (fun _ => after) after :=
    Accesses.call fun seen answer holds => adds seen holds answer
  apply Client.Ensures.bind reads
  intro found
  cases found with
  | none => exact Client.Ensures.throw fun _ _ holds => holds
  | some state => exact Client.Ensures.pure fun _ _ holds => holds

/-- Writing adds an access. -/
theorem writeState_accesses (state : ClusterState) (before : List FileAccess → Prop)
    {raised : List FileAccess → Prop} :
    Accesses before (writeState state : Command V D _)
      (fun _ seen => ∃ earlier, before earlier ∧ seen = earlier ++ [.write state]) raised :=
  Accesses.call fun seen _ holds => ⟨seen, holds, rfl⟩

theorem ingestFile_accesses (state : ClusterState) (options : IngestOptions) (embedder : EmbedderInfo)
    (path : String) (set : DocumentSet) :
    Accesses (Ingesting state set) (ingestFile state options embedder path set : Command V D _)
      (fun result => Ingesting state result.1) IngestAccesses := by
  have kept : ∀ seen, Ingesting state set seen → IngestAccesses seen := fun _ ingesting => ingesting.accesses
  apply Accesses.after (Leaves.call fun _ => rfl) kept
  intro shown
  apply Accesses.after (Leaves.call fun _ => rfl) kept
  intro answer
  apply Accesses.after (Leaves.lift answer) kept
  intro digest
  cases known : set.sources.get? (sourceKey options.name path) with
  | some record =>
      simp only [known]
      exact Client.Ensures.pure fun _ _ holds => holds
  | none =>
      simp only [known]
      apply Accesses.after (Leaves.call fun _ => rfl) kept
      intro answer
      apply Accesses.after (Leaves.lift answer) kept
      intro passages
      apply Accesses.after (ingestPassages_leaves _ _ _ _) kept
      intro count
      apply Client.Ensures.bind (writeState_accesses _ _)
      intro _
      apply Client.Ensures.pure
      rintro _ seen ⟨earlier, ⟨sets, grown, isEarlier⟩, isSeen⟩
      refine ⟨sets ++ [_], grown.more known rfl, ?_⟩
      rw [isSeen, isEarlier, List.map_append]
      rfl

theorem ingestLoop_accesses (state : ClusterState) (options : IngestOptions) (embedder : EmbedderInfo)
    (files : List String) (set : DocumentSet) (report : IngestReport) :
    Accesses (Ingesting state set) (ingestLoop state options embedder files set report : Command V D _)
      (fun _ => IngestAccesses) IngestAccesses := by
  induction files generalizing set report with
  | nil => exact Client.Ensures.pure fun _ _ holds => holds.accesses
  | cons path rest inductionHypothesis =>
      apply Client.Ensures.bind (ingestFile_accesses state options embedder path set)
      exact fun result => inductionHypothesis _ _

theorem documentsOf_sources (state : ClusterState) (replies : List StatusResponse) (embedder : Option String) :
    Accesses (fun seen => seen = [.read (some state)]) (documentsOf state replies embedder : Command V D _)
      (fun result => Ingesting state result.2) IngestAccesses := by
  have start : IngestAccesses [.read (some state)] := Or.inr ⟨state, [], _, .start, rfl⟩
  have kept : ∀ seen, seen = [.read (some state)] → IngestAccesses seen := fun seen same => same ▸ start
  unfold documentsOf
  split
  · rename_i noDataset
    split
    · exact Client.Ensures.throw fun _ _ holds => kept _ holds
    · apply Accesses.after (getEmbedder_plain _).leaves kept
      intro info
      apply Client.Ensures.pure
      intro _ seen same
      have sources : recordedSources state = Dict.empty := by
        unfold recordedSources
        rw [noDataset]
      refine ⟨[], ?_, same⟩
      rw [sources]
      exact .start
  · rename_i name dim passages sources isDataset
    split
    · exact Client.Ensures.throw fun _ _ holds => kept _ holds
    · apply Accesses.after (getEmbedder_plain _).leaves kept
      intro info
      apply Client.Ensures.pure
      intro _ seen same
      have isSources : recordedSources state = sources := by
        unfold recordedSources
        rw [isDataset]
      refine ⟨[], ?_, same⟩
      rw [isSources]
      exact .start
  · exact Client.Ensures.throw fun _ _ holds => kept _ holds

/-- An ingest reads the document once and writes it with one more source each time. -/
theorem ingest_accesses (home : String) (paths : List String) (options : IngestOptions) :
    Accesses (fun seen => seen = []) (ingest home paths options : Command V D _) (fun _ => IngestAccesses)
      IngestAccesses := by
  have reads := (readState_accesses home : Accesses _ (readState home : Command V D _) _ _).imp
    (fun _ _ holds => holds) (fun _ _ _ holds => holds) fun _ _ seen (same : seen = [.read none]) =>
      (Or.inl same : IngestAccesses seen)
  apply Client.Ensures.bind reads
  intro state
  have kept : ∀ seen, seen = [.read (some state)] → IngestAccesses seen :=
    fun seen same => Or.inr ⟨state, [], _, .start, same⟩
  apply Accesses.after (writable_plain state).leaves kept
  intro replies
  apply Client.Ensures.bind (documentsOf_sources state replies options.embedder)
  rintro ⟨embedder, set⟩
  apply Accesses.after (findFiles_plain paths).leaves fun _ ingesting => ingesting.accesses
  intro files
  apply Client.Ensures.bind
    (Accesses.raising _ (ingestLoop_accesses state options embedder files set ⟨0, 0, 0, none⟩))
  intro report
  split
  · exact Client.Ensures.pure fun _ _ holds => holds
  · split
    · exact Client.Ensures.pure fun _ _ holds => holds
    · apply Accesses.after (Leaves.lift _) fun _ holds => holds
      exact fun shard => Client.Ensures.pure fun _ _ holds => holds

/-! ## A restart -/

/-- The accesses of a restart: nothing is started, or the new process id is
recorded in what was read.  The document may be read once more after that. -/
def RestartAccesses (shard replica : Nat) (seen : List FileAccess) : Prop :=
  (∃ found, seen = [.read found]) ∨ ∃ state server interpreter args seed dataDir pid later,
    state.server? shard replica = some server ∧
    (later = [] ∨ ∃ found, later = [.read found]) ∧
    seen = [.read (some state), .spawned (interpreter :: serverCommand server.port args seed dataDir) pid,
      .write (state.setPid shard replica pid)] ++ later

/-- What has been seen when the new state is written. -/
def Restarted (shard replica : Nat) (seen : List FileAccess) : Prop :=
  ∃ state server interpreter args seed dataDir pid, state.server? shard replica = some server ∧
    seen = [.read (some state), .spawned (interpreter :: serverCommand server.port args seed dataDir) pid,
      .write (state.setPid shard replica pid)]

theorem Restarted.accesses {shard replica : Nat} {seen : List FileAccess}
    (restarted : Restarted shard replica seen) : RestartAccesses shard replica seen := by
  rcases restarted with ⟨state, server, interpreter, args, seed, dataDir, pid, found, same⟩
  exact Or.inr ⟨state, server, interpreter, args, seed, dataDir, pid, [], found, Or.inl rfl, same⟩

theorem spawn_accesses (home interpreter : String) (state : ClusterState) (shard replica : Nat) :
    Accesses (fun seen => seen = [.read (some state)])
      (spawn home interpreter state shard replica : Command V D _)
      (fun next seen => ∃ server args seed dataDir pid, state.server? shard replica = some server ∧
        next = state.setPid shard replica pid ∧
        seen = [.read (some state), .spawned (interpreter :: serverCommand server.port args seed dataDir) pid])
      fun seen => seen = [.read (some state)] := by
  unfold spawn
  cases found : state.server? shard replica with
  | none => exact Client.Ensures.throw fun _ _ holds => holds
  | some server =>
      cases state.seed with
      | none => exact Client.Ensures.throw fun _ _ holds => holds
      | some seed =>
          let command := interpreter :: serverCommand server.port state.serverArgs (seed + shard)
            s!"{home}/shard-{shard}-replica-{replica}"
          have spawns : Accesses (fun seen => seen = [.read (some state)])
              (Client.call (HomeCall.spawn command) : Command V D _)
              (fun pid seen => seen = [.read (some state), .spawned command pid])
              fun seen => seen = [.read (some state)] := by
            apply Accesses.call
            intro seen pid same
            rw [same]
            rfl
          apply Client.Ensures.bind spawns
          intro pid
          apply Client.Ensures.pure
          intro _ seen same
          exact ⟨server, _, _, _, pid, rfl, rfl, same⟩

/-- Starting the server and recording it, with what follows. -/
theorem restart_accesses (home interpreter : String) (state : ClusterState) (shard replica : Nat)
    {next : ClusterState → Command V D α} {returned : α → List FileAccess → Prop}
    (rest : ∀ state, Accesses (Restarted shard replica) (next state) returned (RestartAccesses shard replica)) :
    Accesses (fun seen => seen = [.read (some state)])
      (spawn home interpreter state shard replica >>= fun state => writeState state >>= fun _ => next state)
      returned (RestartAccesses shard replica) := by
  have spawns := (spawn_accesses home interpreter state shard replica : Accesses _ (_ : Command V D _) _ _).imp
    (fun _ _ holds => holds) (fun _ _ _ holds => holds) fun _ _ seen (same : seen = [.read (some state)]) =>
      (Or.inl ⟨some state, same⟩ : RestartAccesses shard replica seen)
  apply Client.Ensures.bind spawns
  intro written
  apply Client.Ensures.bind (writeState_accesses _ _)
  intro _
  apply (rest written).imp _ (fun _ _ _ holds => holds) fun _ _ _ holds => holds
  rintro _ seen ⟨earlier, ⟨server, args, seed, dataDir, pid, found, isWritten, isEarlier⟩, isSeen⟩
  refine ⟨state, server, interpreter, args, seed, dataDir, pid, found, ?_⟩
  rw [isSeen, isEarlier, isWritten]
  rfl

theorem clusterRestart_accesses (home interpreter : String) (shard replica : Int) :
    Accesses (fun seen => seen = []) (clusterRestart home interpreter shard replica : Command V D _)
      (fun _ => RestartAccesses shard.toNat replica.toNat) (RestartAccesses shard.toNat replica.toNat) := by
  have reads := (readState_accesses home : Accesses _ (readState home : Command V D _) _ _).imp
    (fun _ _ holds => holds) (fun _ _ _ holds => holds) fun _ _ seen (same : seen = [.read none]) =>
      (Or.inl ⟨none, same⟩ : RestartAccesses shard.toNat replica.toNat seen)
  apply Client.Ensures.bind reads
  intro state
  have kept : ∀ seen, seen = [.read (some state)] → RestartAccesses shard.toNat replica.toNat seen :=
    fun seen same => Or.inl ⟨_, same⟩
  apply Accesses.after (Leaves.lift _) kept
  intro _
  apply Accesses.after (Leaves.lift _) kept
  intro server
  apply Accesses.after (isRunning_plain server).leaves kept
  intro running
  split
  · exact Client.Ensures.throw fun _ _ holds => kept _ holds
  · apply restart_accesses
    intro written
    exact ((waitFor_plain home _).leaves _).imp (fun _ _ holds => holds) (fun _ _ _ holds => holds.accesses)
      fun _ _ _ holds => holds.accesses

theorem restartServer_accesses (home interpreter : String) (limits : RestartLimits) (startTimeout : Nat)
    (shard replica : Int) :
    Accesses (fun seen => seen = [])
      (restartServer home interpreter limits startTimeout shard replica : Command V D _)
      (fun _ => RestartAccesses shard.toNat replica.toNat) (RestartAccesses shard.toNat replica.toNat) := by
  have reads := (readState_accesses home : Accesses _ (readState home : Command V D _) _ _).imp
    (fun _ _ holds => holds) (fun _ _ _ holds => holds) fun _ _ seen (same : seen = [.read none]) =>
      (Or.inl ⟨none, same⟩ : RestartAccesses shard.toNat replica.toNat seen)
  apply Client.Ensures.bind reads
  intro state
  have kept : ∀ seen, seen = [.read (some state)] → RestartAccesses shard.toNat replica.toNat seen :=
    fun seen same => Or.inl ⟨_, same⟩
  apply Accesses.after (Leaves.lift _) kept
  intro server
  apply Accesses.after (clusterHealth_plain _).leaves kept
  intro health
  apply Accesses.after (Leaves.lift _) kept
  intro current
  split
  · exact Client.Ensures.throw fun _ _ holds => kept _ holds
  split
  · exact Client.Ensures.throw fun _ _ holds => kept _ holds
  split
  · exact Client.Ensures.throw fun _ _ holds => kept _ holds
  split
  · exact Client.Ensures.throw fun _ _ holds => kept _ holds
  split
  · exact Client.Ensures.pure fun _ _ holds => kept _ holds
  · apply restart_accesses
    intro written
    apply Accesses.after (Leaves.raising _ (waitFor_plain home _).leaves) fun _ restarted => restarted.accesses
    intro _
    have again : ∀ seen, Restarted shard.toNat replica.toNat seen → ∀ found,
        RestartAccesses shard.toNat replica.toNat (seen ++ [.read found]) := by
      rintro seen ⟨state, server, interpreter, args, seed, dataDir, pid, known, same⟩ found
      refine Or.inr ⟨state, server, interpreter, args, seed, dataDir, pid, [.read found], known,
        Or.inr ⟨found, rfl⟩, ?_⟩
      rw [same]
    apply Client.Ensures.bind (readState_again home again)
    intro state
    apply Accesses.after (clusterHealth_plain _).leaves fun _ holds => holds
    intro health
    apply Accesses.after (Leaves.lift _) fun _ holds => holds
    exact fun back => Client.Ensures.pure fun _ _ holds => holds

end Home
end VectorSearch
