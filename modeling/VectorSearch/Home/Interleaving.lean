import VectorSearch.Home.Accesses

namespace VectorSearch

/-!
# An ingest beside a restart

Both commands read `cluster.json`, work for a while and write back what they had
read with their own change.  Nothing is lost if and only if nobody writes the
document between the reading and the writing of the other.
-/

namespace Home

open Remote

variable {V D : Type}

/-! ## The document under a list of accesses -/

/-- The document is read and written as a whole; nothing else touches it. -/
def homeNetwork : Network (HomeCall V) (HomeCall.Answer V D) (Option ClusterState) where
  answers := fun call content answer last =>
    match call, answer with
    | .readFile, found => found = content ∧ last = content
    | .writeFile state, _ => last = some state
    | .unlinkFile, _ => last = none
    | _, _ => last = content
  moves := fun _ _ => False

def FileAccess.changes : FileAccess → Bool
  | read _ => false
  | write _ => true
  | remove => true
  | spawned _ _ => false

/-- The document after some accesses. -/
def contentAfter : Option ClusterState → List FileAccess → Option ClusterState
  | content, [] => content
  | _, .write state :: rest => contentAfter (some state) rest
  | _, .remove :: rest => contentAfter none rest
  | content, .read _ :: rest => contentAfter content rest
  | content, .spawned _ _ :: rest => contentAfter content rest

/-- Every read finds what is there. -/
def Truthful : Option ClusterState → List FileAccess → Prop
  | _, [] => True
  | _, .write state :: rest => Truthful (some state) rest
  | _, .remove :: rest => Truthful none rest
  | content, .read found :: rest => found = content ∧ Truthful content rest
  | content, .spawned _ _ :: rest => Truthful content rest

theorem contentAfter_append (content : Option ClusterState) (front back : List FileAccess) :
    contentAfter content (front ++ back) = contentAfter (contentAfter content front) back := by
  induction front generalizing content with
  | nil => rfl
  | cons access rest inductionHypothesis => cases access <;> exact inductionHypothesis _

theorem Truthful.found {content found : Option ClusterState} {front back : List FileAccess}
    (truthful : Truthful content (front ++ .read found :: back)) : found = contentAfter content front := by
  induction front generalizing content with
  | nil => exact truthful.1
  | cons access rest inductionHypothesis =>
      cases access with
      | read other => exact inductionHypothesis truthful.2
      | write state => exact @inductionHypothesis (some state) truthful
      | remove => exact @inductionHypothesis none truthful
      | spawned command pid => exact @inductionHypothesis content truthful

/-- Accesses that change nothing leave the document as it is. -/
theorem contentAfter_quiet {accesses : List FileAccess} (quiet : ∀ access ∈ accesses, access.changes = false)
    (content : Option ClusterState) : contentAfter content accesses = content := by
  induction accesses with
  | nil => rfl
  | cons access rest inductionHypothesis =>
      have later := inductionHypothesis fun other member => quiet other (List.mem_cons_of_mem _ member)
      have first := quiet access List.mem_cons_self
      cases access with
      | read found => exact later
      | spawned command pid => exact later
      | write state => cases first
      | remove => cases first

theorem homeNetwork_step {call : HomeCall V} {answer : HomeCall.Answer V D call}
    {content next : Option ClusterState} (given : homeNetwork.answers call content answer next)
    {rest : List FileAccess} (truthful : Truthful next rest) :
    contentAfter content ((accessOf ⟨call, answer⟩).toList ++ rest) = contentAfter next rest ∧
      Truthful content ((accessOf ⟨call, answer⟩).toList ++ rest) := by
  cases call with
  | readFile =>
      rcases given with ⟨found, same⟩
      subst same
      exact ⟨rfl, found, truthful⟩
  | writeFile state =>
      have same : next = some state := given
      subst same
      exact ⟨rfl, truthful⟩
  | unlinkFile =>
      have same : next = none := given
      subst same
      exact ⟨rfl, truthful⟩
  | _ =>
      have same : next = content := given
      subst same
      exact ⟨rfl, truthful⟩

theorem observed_step {call : HomeCall V} {answer : HomeCall.Answer V D call}
    {content waited next last : Option ClusterState} (side : Side)
    {events : List (Side × Event (HomeCall V) (HomeCall.Answer V D))}
    (waits : Relation.ReflTransGen
      (homeNetwork : Network (HomeCall V) (HomeCall.Answer V D) (Option ClusterState)).moves content waited)
    (given : homeNetwork.answers call waited answer next)
    (later : last = contentAfter next ((observed accessOf events).map Prod.snd) ∧
      Truthful next ((observed accessOf events).map Prod.snd)) :
    last = contentAfter content ((observed accessOf ((side, ⟨call, answer⟩) :: events)).map Prod.snd) ∧
      Truthful content ((observed accessOf ((side, ⟨call, answer⟩) :: events)).map Prod.snd) := by
  have still : waited = content := by
    induction waits with
    | refl => rfl
    | tail _ move => exact nomatch move
  rw [still] at given
  have stepped := homeNetwork_step given later.2
  rw [observed_cons, List.map_append, List.map_map]
  have untagged : (accessOf ⟨call, answer⟩).toList.map (Prod.snd ∘ fun access => (side, access)) =
      (accessOf ⟨call, answer⟩).toList := List.map_id _
  rw [untagged, stepped.1]
  exact ⟨later.1, stepped.2⟩

/-- Two commands side by side read and write one document. -/
theorem beside_accesses {α β : Type} {left : Remote (HomeCall V) (HomeCall.Answer V D) α}
    {right : Remote (HomeCall V) (HomeCall.Answer V D) β} {start final : Option ClusterState}
    {events : List (Side × Event (HomeCall V) (HomeCall.Answer V D))} {first : α} {second : β}
    (beside : Beside homeNetwork left right start events first second final) :
    final = contentAfter start ((observed accessOf events).map Prod.snd) ∧
      Truthful start ((observed accessOf events).map Prod.snd) := by
  induction beside with
  | done => exact ⟨rfl, trivial⟩
  | left waits answers _ inductionHypothesis => exact observed_step .left waits answers inductionHypothesis
  | right waits answers _ inductionHypothesis => exact observed_step .right waits answers inductionHypothesis

/-! ## One change after another -/

/-- The document after what both sides did. -/
def contentOf (start : Option ClusterState) (merged : List (Side × FileAccess)) : Option ClusterState :=
  contentAfter start (merged.map Prod.snd)

theorem contentOf_append (start : Option ClusterState) (front back : List (Side × FileAccess)) :
    contentOf start (front ++ back) = contentOf (contentOf start front) back := by
  unfold contentOf
  rw [List.map_append, contentAfter_append]

/-- A part in which neither side changes the document. -/
theorem contentOf_quiet {merged : List (Side × FileAccess)}
    (left : ∀ access ∈ ofSide .left merged, access.changes = false)
    (right : ∀ access ∈ ofSide .right merged, access.changes = false) (start : Option ClusterState) :
    contentOf start merged = start := by
  apply contentAfter_quiet
  intro access member
  rcases List.mem_map.mp member with ⟨⟨side, found⟩, inside, same⟩
  subst same
  cases side with
  | left => exact left found (mem_ofSide.mpr inside)
  | right => exact right found (mem_ofSide.mpr inside)

/-- A part in which one side does not change the document. -/
theorem contentOf_left {merged : List (Side × FileAccess)}
    (right : ∀ access ∈ ofSide .right merged, access.changes = false) (start : Option ClusterState) :
    contentOf start merged = contentAfter start (ofSide .left merged) := by
  induction merged generalizing start with
  | nil => rfl
  | cons item rest inductionHypothesis =>
      rcases item with ⟨side, access⟩
      have tail : ∀ start, contentOf start rest = contentAfter start (ofSide .left rest) := by
        apply inductionHypothesis
        intro other member
        exact right other (mem_ofSide.mpr (List.mem_cons_of_mem _ (mem_ofSide.mp member)))
      have split : ((side, access) :: rest) = [(side, access)] ++ rest := rfl
      rw [split, contentOf_append, ofSide_append, contentAfter_append, tail]
      cases side with
      | left => rfl
      | right =>
          have quiet := right access (mem_ofSide.mpr List.mem_cons_self)
          have same : contentOf start [(Side.right, access)] = start :=
            contentAfter_quiet (fun other member => List.mem_singleton.mp member ▸ quiet) start
          rw [same]
          rfl

/-- Two places in one list. -/
theorem split_twice {α : Type} {first second : α} {before after front back : List α}
    (same : before ++ first :: after = front ++ second :: back) :
    (before = front ∧ first = second ∧ after = back) ∨
      (∃ between, front = before ++ first :: between ∧ after = between ++ second :: back) ∨
      ∃ between, before = front ++ second :: between ∧ back = between ++ first :: after := by
  rcases List.append_eq_append_iff.mp same with ⟨between, isFront, isAfter⟩ | ⟨between, isBefore, isBack⟩
  · cases between with
    | nil =>
        rw [List.append_nil] at isFront
        rw [List.nil_append, List.cons.injEq] at isAfter
        exact Or.inl ⟨isFront.symm, isAfter⟩
    | cons item rest =>
        rw [List.cons_append, List.cons.injEq] at isAfter
        exact Or.inr (Or.inl ⟨rest, by rw [isFront, isAfter.1], isAfter.2⟩)
  · cases between with
    | nil =>
        rw [List.append_nil] at isBefore
        rw [List.nil_append, List.cons.injEq] at isBack
        exact Or.inl ⟨isBefore, isBack.1.symm, isBack.2.symm⟩
    | cons item rest =>
        rw [List.cons_append, List.cons.injEq] at isBack
        exact Or.inr (Or.inr ⟨rest, by rw [isBefore, isBack.1], isBack.2⟩)

/-! ## What each side relies on -/

/-- What is recorded stays recorded. -/
theorem Grown.keeps {start sources : Dict String SourceRecord} {sets : List DocumentSet}
    (grown : Grown start sets sources) {key : String} {record : SourceRecord} :
    (start.get? key = some record → sources.get? key = some record) ∧
      ∀ set ∈ sets, set.sources.get? key = some record → sources.get? key = some record := by
  induction grown with
  | start => exact ⟨id, fun set impossible => absurd impossible List.not_mem_nil⟩
  | @more sets sources set other added earlier new isSet inductionHypothesis =>
      have kept : sources.get? key = some record → set.sources.get? key = some record := by
        intro found
        rw [isSet, Dict.get?_set]
        split
        · rename_i same
          rw [← same, found] at new
          cases new
        · exact found
      refine ⟨fun found => kept (inductionHypothesis.1 found), ?_⟩
      intro earlierSet member found
      rcases List.mem_append.mp member with before | now
      · exact kept (inductionHypothesis.2 earlierSet before found)
      · rw [List.mem_singleton.mp now] at found
        exact found

/-- The last dataset has a source that none before it has. -/
theorem Grown.newest {start sources : Dict String SourceRecord} {sets : List DocumentSet} {last : DocumentSet}
    (grown : Grown start (sets ++ [last]) sources) :
    sources = last.sources ∧ (∀ set ∈ sets ++ [last], ∀ key record, set.sources.get? key = some record →
      last.sources.get? key = some record) ∧ ∃ key record, last.sources.get? key = some record ∧
        start.get? key = none ∧ ∀ set ∈ sets, set.sources.get? key = none := by
  have keeps : ∀ key record, _ := fun key record => @Grown.keeps start sources _ grown key record
  generalize whole : sets ++ [last] = all at grown
  cases grown with
  | start => exact absurd whole (by simp)
  | @more earlierSets before set key record earlier new isSet =>
      rcases List.append_inj' whole rfl with ⟨sameSets, sameLast⟩
      cases sameLast
      subst sameSets
      refine ⟨rfl, fun other member key record => (keeps key record).2 other member, key, record, ?_, ?_, ?_⟩
      · rw [isSet, Dict.get?_set, if_pos rfl]
      · cases found : start.get? key with
        | none => rfl
        | some other =>
            rw [earlier.keeps.1 found] at new
            cases new
      · intro other member
        cases found : other.sources.get? key with
        | none => rfl
        | some record =>
            rw [earlier.keeps.2 other member found] at new
            cases new

theorem server?_setPid {state : ClusterState} {shard replica : Nat} {server : ServerRecord}
    (found : state.server? shard replica = some server) (pid : Nat) :
    (state.setPid shard replica pid).server? shard replica = some { server with pid := some pid } := by
  unfold ClusterState.server? at found ⊢
  unfold ClusterState.setPid
  cases group : state.servers[shard]? with
  | none =>
      rw [group] at found
      cases found
  | some servers =>
      rw [group] at found
      have inside : servers[replica]? = some server := found
      simp only [List.getElem?_modify, if_true, group, Option.map_eq_map, Option.map_some,
        Option.getD_some, inside]

theorem contains_middle (front needle back : String) : contains (front ++ needle ++ back) needle = true := by
  unfold contains
  rw [decide_eq_true_eq, String.toList_append, String.toList_append]
  exact ⟨front.toList, back.toList, rfl⟩

/-- The text of a started process is the one `is_running` looks for. -/
theorem isServer_own (server : ServerRecord) (interpreter : String) (args : List (String × Nat)) (seed : Nat)
    (dataDir : String) :
    isServer server (" ".intercalate (interpreter :: serverCommand server.port args seed dataDir)) = true := by
  rcases List.exists_cons_of_ne_nil (show (args.flatMap fun arg => ["--" ++ arg.1.map fun c =>
    if c = '_' then '-' else c, toString arg.2]) ++ ["--seed", toString seed, "--data-dir", dataDir] ≠ [] from
      List.append_ne_nil_of_right_ne_nil _ (List.cons_ne_nil _ _)) with ⟨first, rest, isRest⟩
  have text : " ".intercalate (interpreter :: serverCommand server.port args seed dataDir) =
      interpreter ++ " " ++ ("-m" ++ " " ++
        ("vsearch.server" ++ " " ++ ("--port" ++ " " ++ (toString server.port ++ " " ++
        " ".intercalate (first :: rest))))) := by
    unfold serverCommand
    rw [List.append_assoc, isRest]
    simp only [List.cons_append, List.nil_append, String.intercalate_cons_cons]
  have flag : s!"--port {server.port}" = "--port" ++ " " ++ toString server.port := rfl
  have module : " ".intercalate (interpreter :: serverCommand server.port args seed dataDir) =
      (interpreter ++ " " ++ ("-m" ++ " ")) ++ "vsearch.server" ++
        (" " ++ ("--port" ++ " " ++ (toString server.port ++ " " ++ " ".intercalate (first :: rest)))) := by
    rw [text]
    simp only [String.append_assoc]
  have port : " ".intercalate (interpreter :: serverCommand server.port args seed dataDir) =
      (interpreter ++ " " ++ ("-m" ++ " ") ++ ("vsearch.server" ++ " ")) ++ s!"--port {server.port}" ++
        (" " ++ " ".intercalate (first :: rest)) := by
    rw [text, flag]
    simp only [String.append_assoc]
  unfold isServer
  rw [Bool.and_eq_true]
  constructor
  · rw [module]
    exact contains_middle _ _ _
  · rw [port]
    exact contains_middle _ _ _

/-! ## When both changes are kept -/

/-- The document holds the process id of a server that was started, so that it is
recognised for as long as it runs, and every source that an ingest has recorded. -/
structure Kept (shard replica : Nat) (merged : List (Side × FileAccess)) (final : Option ClusterState) :
    Prop where
  server : ∀ command pid, (Side.right, .spawned command pid) ∈ merged → ∃ state server, final = some state ∧
    state.server? shard replica = some server ∧ server.pid = some pid ∧
    isServer server (" ".intercalate command) = true
  sources : ∀ written, (Side.left, .write written) ∈ merged → ∀ key record,
    (recordedSources written).get? key = some record →
    ∃ state, final = some state ∧ (recordedSources state).get? key = some record

/-- Nobody changes the document between the other's reading it and a later write
of the other. -/
def Undisturbed (merged : List (Side × FileAccess)) : Prop :=
  ∀ side before access after, merged = before ++ access :: after → access.1 ≠ side → access.2.changes = true →
    (∃ found, (side, FileAccess.read found) ∈ before) → ∀ state, (side, FileAccess.write state) ∉ after

/-- The server got the very process id that was recorded for it at the start, and
the ingest wrote last. -/
def Recycled (shard replica : Nat) (start : Option ClusterState) (merged : List (Side × FileAccess)) : Prop :=
  (∃ state server command pid, start = some state ∧ state.server? shard replica = some server ∧
    server.pid = some pid ∧ (Side.right, .spawned command pid) ∈ merged) ∧
  ∃ before written after, merged = before ++ (Side.left, .write written) :: after ∧
    ∀ access ∈ after, access.2.changes = false

/-- Both commands change the document. -/
structure Race (shard replica : Nat) (start : Option ClusterState) (merged : List (Side × FileAccess)) where
  ingested : ClusterState
  sets : List DocumentSet
  last : DocumentSet
  sources : Dict String SourceRecord
  grown : Grown (recordedSources ingested) (sets ++ [last]) sources
  left : ofSide .left merged = .read (some ingested) ::
    (sets ++ [last]).map fun set => .write (withDocuments ingested set)
  restarted : ClusterState
  server : ServerRecord
  interpreter : String
  args : List (String × Nat)
  seed : Nat
  dataDir : String
  pid : Nat
  later : List FileAccess
  found : restarted.server? shard replica = some server
  reads : ∀ access ∈ later, ∃ found, access = .read found
  right : ofSide .right merged = [.read (some restarted),
    .spawned (interpreter :: serverCommand server.port args seed dataDir) pid,
    .write (restarted.setPid shard replica pid)] ++ later
  truthful : Truthful start (merged.map Prod.snd)

theorem reads_of_later {later : List FileAccess} (isLater : later = [] ∨ ∃ found, later = [.read found]) :
    ∀ access ∈ later, ∃ found, access = .read found := by
  intro access member
  rcases isLater with none | ⟨found, one⟩
  · rw [none] at member
    cases member
  · rw [one] at member
    exact ⟨found, List.mem_singleton.mp member⟩

/-- A restart starts one process. -/
theorem spawned_once {accesses later : List FileAccess} {found : Option ClusterState}
    {command other : List String} {started pid : Nat} {written : ClusterState}
    (isAll : accesses = [.read found, .spawned command started, .write written] ++ later)
    (reads : ∀ access ∈ later, ∃ found, access = .read found) (member : .spawned other pid ∈ accesses) :
    other = command ∧ pid = started := by
  rw [isAll] at member
  rcases List.mem_append.mp member with front | isLater
  · rcases List.mem_cons.mp front with impossible | rest
    · cases impossible
    · rcases List.mem_cons.mp rest with same | last
      · cases same
        exact ⟨rfl, rfl⟩
      · cases List.mem_singleton.mp last
  · rcases reads _ isLater with ⟨found, impossible⟩
    cases impossible

namespace Race

variable {shard replica : Nat} {start : Option ClusterState} {merged : List (Side × FileAccess)}
  (race : Race shard replica start merged)

/-- What the ingest writes last. -/
def ingestWrites : ClusterState := withDocuments race.ingested race.last

/-- What the restart writes. -/
def restartWrites : ClusterState := race.restarted.setPid shard replica race.pid

/-- Where the ingest reads. -/
theorem ingestReads : ∃ before after, merged = before ++ (.left, .read (some race.ingested)) :: after ∧
    ofSide .left before = [] := by
  have parts : ofSide .left merged = [] ++ .read (some race.ingested) :: _ := race.left
  rcases ofSide_split parts with ⟨before, after, isMerged, isFront, _⟩
  exact ⟨before, after, isMerged, isFront⟩

/-- Where the ingest writes last. -/
theorem ingestEnds : ∃ before after, merged = before ++ (.left, .write race.ingestWrites) :: after ∧
    ofSide .left before = .read (some race.ingested) ::
      (race.sets.map fun set => .write (withDocuments race.ingested set)) ∧ ofSide .left after = [] := by
  have left := race.left
  rw [List.map_append, ← List.cons_append] at left
  exact ofSide_split left

/-- Where the restart reads. -/
theorem restartReads : ∃ before after, merged = before ++ (.right, .read (some race.restarted)) :: after ∧
    ofSide .right before = [] := by
  have parts : ofSide .right merged = [] ++ .read (some race.restarted) :: _ := race.right
  rcases ofSide_split parts with ⟨before, after, isMerged, isFront, _⟩
  exact ⟨before, after, isMerged, isFront⟩

/-- Where the restart writes. -/
theorem restartEnds : ∃ before after, merged = before ++ (.right, .write race.restartWrites) :: after ∧
    (∀ access ∈ ofSide .right before, access.changes = false) ∧
      (∀ access ∈ ofSide .right after, access.changes = false) := by
  have parts : ofSide .right merged = [_, _] ++ .write race.restartWrites :: race.later := race.right
  rcases ofSide_split parts with ⟨before, after, isMerged, isFront, isBack⟩
  refine ⟨before, after, isMerged, ?_, ?_⟩
  · rw [isFront]
    intro access member
    rcases List.mem_pair.mp member with same | same
    · rw [same]
      rfl
    · rw [same]
      rfl
  · rw [isBack]
    intro access member
    rcases race.reads access member with ⟨found, same⟩
    rw [same]
    rfl

include race in
theorem read_found {before after : List (Side × FileAccess)} {side : Side} {found : Option ClusterState}
    (isMerged : merged = before ++ (side, .read found) :: after) : found = contentOf start before := by
  have truthful := race.truthful
  rw [isMerged, List.map_append, List.map_cons] at truthful
  exact truthful.found

/-- Every source that was recorded is in what the ingest writes last. -/
theorem recorded {written : ClusterState} (member : (Side.left, .write written) ∈ merged) {key : String}
    {record : SourceRecord} (found : (recordedSources written).get? key = some record) :
    (recordedSources race.ingestWrites).get? key = some record := by
  have inside := mem_ofSide.mpr member
  rw [race.left] at inside
  rcases List.mem_cons.mp inside with impossible | isWrite
  · cases impossible
  · rcases List.mem_map.mp isWrite with ⟨set, isSet, same⟩
    cases same
    exact race.grown.newest.2.1 set isSet key record found

theorem ingestWrites_mem : (Side.left, .write race.ingestWrites) ∈ merged := by
  apply mem_ofSide.mp
  rw [race.left]
  exact List.mem_cons_of_mem _ (List.mem_map_of_mem (List.mem_append_right _ List.mem_cons_self))

theorem spawned_mem : (Side.right, .spawned
    (race.interpreter :: serverCommand race.server.port race.args race.seed race.dataDir) race.pid) ∈
      merged := by
  apply mem_ofSide.mp
  rw [race.right]
  exact List.mem_cons_of_mem _ List.mem_cons_self

theorem spawned_eq {command : List String} {pid : Nat} (member : (Side.right, .spawned command pid) ∈ merged) :
    command = race.interpreter :: serverCommand race.server.port race.args race.seed race.dataDir ∧ pid =
      race.pid := by
  exact spawned_once race.right race.reads (mem_ofSide.mpr member)

/-- A part that nobody changes the document in. -/
theorem still {part : List (Side × FileAccess)} (left : ofSide .left part = [])
    (right : ∀ access ∈ ofSide .right part, access.changes = false) (start : Option ClusterState) :
    contentOf start part = start :=
  contentOf_quiet (fun _ member => absurd (left ▸ member) List.not_mem_nil) right start

/-- After a write that nobody changes the document after. -/
theorem contentOf_last {before after : List (Side × FileAccess)} {side : Side} {state : ClusterState}
    (isMerged : merged = before ++ (side, .write state) :: after) (left : ofSide .left after = [])
    (right : ∀ access ∈ ofSide .right after, access.changes = false) (start : Option ClusterState) :
    contentOf start merged = some state := by
  rw [isMerged, contentOf_append]
  exact still left right (some state)

/-- What is in the last document that the ingest wrote is kept where it stays. -/
theorem kept_ingest (final : contentOf start merged = some race.ingestWrites)
    (server : ∃ server, race.ingestWrites.server? shard replica = some server ∧ server.pid = some race.pid ∧
      server.port = race.server.port) : Kept shard replica merged (contentOf start merged) := by
  rcases server with ⟨server, found, isPid, samePort⟩
  constructor
  · intro command pid member
    rcases race.spawned_eq member with ⟨isCommand, same⟩
    refine ⟨race.ingestWrites, server, final, found, same ▸ isPid, ?_⟩
    rw [isCommand, ← samePort]
    exact isServer_own _ _ _ _ _
  · exact fun written member key record known => ⟨race.ingestWrites, final, race.recorded member known⟩

theorem kept_restart (final : contentOf start merged = some race.restartWrites)
    (same : race.restarted = race.ingestWrites) : Kept shard replica merged (contentOf start merged) := by
  constructor
  · intro command pid member
    rcases race.spawned_eq member with ⟨isCommand, isPid⟩
    refine ⟨race.restartWrites, _, final, server?_setPid race.found race.pid, congrArg some isPid.symm, ?_⟩
    rw [isCommand]
    exact isServer_own { race.server with pid := some race.pid } _ _ _ _
  · intro written member key record known
    refine ⟨race.restartWrites, final, ?_⟩
    change (recordedSources race.restarted).get? key = some record
    rw [same]
    exact race.recorded member known

/-- The restart changes the document in one place only. -/
theorem restart_once {before after front back : List (Side × FileAccess)} {access : FileAccess}
    (atRestart : merged = before ++ (.right, .write race.restartWrites) :: after)
    (quietBefore : ∀ access ∈ ofSide .right before, access.changes = false)
    (quietAfter : ∀ access ∈ ofSide .right after, access.changes = false)
    (other : merged = front ++ (.right, access) :: back) (changes : access.changes = true) :
    before = front ∧ after = back := by
  rcases split_twice (atRestart.symm.trans other) with ⟨sameFront, _, sameBack⟩ | ⟨between, _, isAfter⟩ |
    ⟨between, isBefore, _⟩
  · exact ⟨sameFront, sameBack⟩
  · have quiet := quietAfter access
      (mem_ofSide.mpr (by rw [isAfter]; exact List.mem_append_right _ List.mem_cons_self))
    rw [quiet] at changes
    cases changes
  · have quiet := quietBefore access
      (mem_ofSide.mpr (by rw [isBefore]; exact List.mem_append_right _ List.mem_cons_self))
    rw [quiet] at changes
    cases changes

/-- The ingest reads what was there at the start, if it reads before the restart
writes. -/
theorem ingest_reads_start {before after : List (Side × FileAccess)}
    (atRestart : merged = before ++ (.right, .write race.restartWrites) :: after)
    (quietBefore : ∀ access ∈ ofSide .right before, access.changes = false)
    (present : ofSide .left before ≠ []) :
    some race.ingested = start := by
  rcases race.ingestReads with ⟨front, back, atRead, leftFront⟩
  have read := race.read_found atRead
  rw [read]
  apply still leftFront
  intro access member
  rcases split_twice (atRestart.symm.trans atRead) with ⟨_, impossible, _⟩ | ⟨between, isFront, _⟩ |
    ⟨between, isBefore, _⟩
  · cases impossible
  · rw [isFront, ofSide_append] at leftFront
    exact absurd (List.append_eq_nil_iff.mp leftFront).1 present
  · apply quietBefore access
    rw [isBefore, ofSide_append]
    exact List.mem_append_left _ member

/-- The document while only the ingest has written. -/
theorem contentAfter_sets {state : ClusterState} {sets : List DocumentSet} {accesses : List FileAccess}
    (each : ∀ access ∈ accesses, (∃ found, access = .read found) ∨
      ∃ set ∈ sets, access = .write (withDocuments state set)) (start : Option ClusterState) :
    contentAfter start accesses = start ∨
      ∃ set ∈ sets, contentAfter start accesses = some (withDocuments state set) := by
  induction accesses generalizing start with
  | nil => exact Or.inl rfl
  | cons access rest inductionHypothesis =>
      have later := fun start => inductionHypothesis
        (fun other member => each other (List.mem_cons_of_mem _ member)) start
      rcases each access List.mem_cons_self with ⟨found, same⟩ | ⟨set, isSet, same⟩
      · rw [same]
        exact later start
      · rw [same]
        rcases later (some (withDocuments state set)) with stays | changed
        · exact Or.inr ⟨set, isSet, stays⟩
        · exact Or.inr changed

/-- The restart finds the servers that the ingest has found at the start. -/
theorem restarted_server (isStart : some race.ingested = start) :
    race.restarted.server? shard replica = race.ingested.server? shard replica := by
  rcases race.restartReads with ⟨before, after, atRead, rightBefore⟩
  have read := race.read_found atRead
  rw [contentOf_left (by rw [rightBefore]; exact fun _ member => absurd member List.not_mem_nil)] at read
  have each : ∀ access ∈ ofSide .left before, (∃ found, access = .read found) ∨
      ∃ set ∈ race.sets ++ [race.last], access = .write (withDocuments race.ingested set) := by
    intro access member
    have inside : access ∈ ofSide .left merged := by
      apply mem_ofSide.mpr
      rw [atRead]
      exact List.mem_append_left _ (mem_ofSide.mp member)
    rw [race.left] at inside
    rcases List.mem_cons.mp inside with same | isWrite
    · exact Or.inl ⟨_, same⟩
    · rcases List.mem_map.mp isWrite with ⟨set, isSet, same⟩
      exact Or.inr ⟨set, isSet, same.symm⟩
  rcases contentAfter_sets each start with same | ⟨set, _, same⟩
  · rw [Option.some.inj (read.trans (same.trans isStart.symm))]
  · rw [Option.some.inj (read.trans same)]
    rfl

/-! ### The restart writes last -/

/-- If the restart read after the ingest's last write, both changes are there. -/
theorem restartLast_after {before front rest after : List (Side × FileAccess)}
    (cut : merged = before ++ (.left, .write race.ingestWrites) ::
      (front ++ (.right, .read (some race.restarted)) ::
        (rest ++ (.right, .write race.restartWrites) :: after)))
    (leftBehind : ofSide .left
      (front ++ (.right, .read (some race.restarted)) ::
        (rest ++ (.right, .write race.restartWrites) :: after)) = [])
    (rightBefore : ofSide .right (before ++ (.left, .write race.ingestWrites) :: front) = [])
    (quietBefore : ∀ access ∈ ofSide .right (before ++ (.left, .write race.ingestWrites) ::
      (front ++ (.right, .read (some race.restarted)) :: rest)), access.changes = false)
    (quietAfter : ∀ access ∈ ofSide .right after, access.changes = false) :
    Kept shard replica merged (contentOf start merged) ∧ Undisturbed merged := by
  rw [ofSide_append] at leftBehind
  rcases List.append_eq_nil_iff.mp leftBehind with ⟨leftFront, leftRest⟩
  have leftTail : ofSide .left (rest ++ (.right, .write race.restartWrites) :: after) = [] := leftRest
  rw [ofSide_append] at leftTail
  have leftAfter : ofSide .left after = [] := (List.append_eq_nil_iff.mp leftTail).2
  have atRead : merged = (before ++ (.left, .write race.ingestWrites) :: front) ++
      (.right, .read (some race.restarted)) :: (rest ++ (.right, .write race.restartWrites) :: after) := by
    refine cut.trans ?_
    rw [List.append_assoc, List.cons_append]
  have atWrite : merged = (before ++ (.left, .write race.ingestWrites) ::
      (front ++ (.right, .read (some race.restarted)) :: rest)) ++ (.right, .write race.restartWrites) ::
        after := by
    refine cut.trans ?_
    simp only [List.append_assoc, List.cons_append]
  have read : some race.restarted = some race.ingestWrites := by
    rw [race.read_found atRead]
    rw [ofSide_append] at rightBefore
    have rightFront : ofSide .right front = [] := (List.append_eq_nil_iff.mp rightBefore).2
    rw [contentOf_append]
    exact still leftFront (fun access member => absurd (rightFront ▸ member) List.not_mem_nil) _
  have final := contentOf_last atWrite leftAfter quietAfter start
  refine ⟨race.kept_restart final (Option.some.inj read), ?_⟩
  intro side front access back isMerged other changes ⟨found, reads⟩ state writes
  rcases access with ⟨writer, access⟩
  cases side with
  | left =>
      -- the ingest writes nothing after the restart has written
      cases writer with
      | left => exact other rfl
      | right =>
          have same := race.restart_once atWrite quietBefore quietAfter isMerged changes
          rw [← same.2] at writes
          have none := mem_ofSide.mpr writes
          rw [leftAfter] at none
          cases none
  | right =>
      -- the ingest writes nothing after the restart has read
      cases writer with
      | right => exact other rfl
      | left =>
          have rightFront := mem_ofSide.mpr reads
          rcases split_twice (atRead.symm.trans isMerged) with ⟨_, impossible, _⟩ | ⟨between, _, isBack⟩ |
            ⟨between, isFront, _⟩
          · cases impossible
          · have inside : access ∈ ofSide .left (rest ++ (.right, .write race.restartWrites) :: after) := by
              rw [isBack]
              exact mem_ofSide.mpr (List.mem_append_right _ List.mem_cons_self)
            rw [show ofSide .left (rest ++ (.right, .write race.restartWrites) :: after) =
              [] from leftRest] at inside
            cases inside
          · rw [isFront, ofSide_append] at rightBefore
            rw [(List.append_eq_nil_iff.mp rightBefore).1] at rightFront
            cases rightFront

/-- If the restart read before the ingest's last write, its last source is lost. -/
theorem restartLast_before {before front rest after : List (Side × FileAccess)}
    (cut : merged = before ++ (.right, .read (some race.restarted)) ::
      (front ++ (.left, .write race.ingestWrites) :: (rest ++ (.right, .write race.restartWrites) :: after)))
    (rightBefore : ofSide .right before = [])
    (leftBefore : ofSide .left (before ++ (.right, .read (some race.restarted)) :: front) =
      .read (some race.ingested) :: (race.sets.map fun set => .write (withDocuments race.ingested set)))
    (leftBehind : ofSide .left (rest ++ (.right, .write race.restartWrites) :: after) = [])
    (quietFront : ∀ access ∈ ofSide .right
      (before ++ (.right, .read (some race.restarted)) :: (front ++ (.left, .write race.ingestWrites) :: rest)),
      access.changes = false)
    (quietAfter : ∀ access ∈ ofSide .right after, access.changes = false) :
    ¬ Kept shard replica merged (contentOf start merged) ∧ ¬ Undisturbed merged ∧
      ¬ Recycled shard replica start merged := by
  have leftAfter : ofSide .left after = [] := by
    rw [ofSide_append] at leftBehind
    exact (List.append_eq_nil_iff.mp leftBehind).2
  have atWrite : merged = (before ++ (.right, .read (some race.restarted)) ::
      (front ++ (.left, .write race.ingestWrites) :: rest)) ++ (.right, .write race.restartWrites) ::
        after := by
    refine cut.trans ?_
    simp only [List.append_assoc, List.cons_append]
  have atIngest : merged = (before ++ (.right, .read (some race.restarted)) :: front) ++
      (.left, .write race.ingestWrites) :: (rest ++ (.right, .write race.restartWrites) :: after) := by
    refine cut.trans ?_
    simp only [List.append_assoc, List.cons_append]
  have final := contentOf_last atWrite leftAfter quietAfter start
  refine ⟨?_, ?_, ?_⟩
  · intro kept
    rcases race.grown.newest.2.2 with ⟨key, record, known, notStart, notSets⟩
    rcases kept.sources race.ingestWrites race.ingestWrites_mem key record known with ⟨state, isFinal, found⟩
    rw [final] at isFinal
    cases isFinal
    have read : some race.restarted = contentOf start before := race.read_found cut
    rw [contentOf_left (by rw [rightBefore]; exact fun _ member => absurd member List.not_mem_nil)] at read
    have each : ∀ access ∈ ofSide .left before, (∃ found, access = .read found) ∨
        ∃ set ∈ race.sets, access = .write (withDocuments race.ingested set) := by
      intro access member
      have inside : access ∈ ofSide .left (before ++ (.right, .read (some race.restarted)) :: front) := by
        rw [ofSide_append]
        exact List.mem_append_left _ member
      rw [leftBefore] at inside
      rcases List.mem_cons.mp inside with same | isWrite
      · exact Or.inl ⟨_, same⟩
      · rcases List.mem_map.mp isWrite with ⟨set, isSet, same⟩
        exact Or.inr ⟨set, isSet, same.symm⟩
    have present : ofSide .left (before ++ (.right, .read (some race.restarted)) ::
        (front ++ (.left, .write race.ingestWrites) :: rest)) ≠ [] := by
      apply List.ne_nil_of_mem (a := FileAccess.write race.ingestWrites)
      apply mem_ofSide.mpr
      exact List.mem_append_right _ (List.mem_cons_of_mem _ (List.mem_append_right _ List.mem_cons_self))
    have isStart := race.ingest_reads_start atWrite quietFront present
    have stale : (recordedSources race.restarted).get? key = none := by
      rcases contentAfter_sets each start with same | ⟨set, isSet, same⟩
      · rw [Option.some.inj (read.trans (same.trans isStart.symm))]
        exact notStart
      · rw [Option.some.inj (read.trans same)]
        exact notSets set isSet
    have lost : (recordedSources race.restartWrites).get? key = none := stale
    rw [lost] at found
    cases found
  · intro undisturbed
    exact undisturbed .right _ _ _ atIngest (show Side.left ≠ Side.right by decide) rfl
      ⟨_, List.mem_append_right _ List.mem_cons_self⟩ _ (List.mem_append_right _ List.mem_cons_self)
  · rintro ⟨_, earlier, written, later, isMerged, quiet⟩
    rcases split_twice (atWrite.symm.trans isMerged) with ⟨_, impossible, _⟩ | ⟨between, _, isAfter⟩ |
      ⟨between, _, isLater⟩
    · cases impossible
    · have inside : FileAccess.write written ∈ ofSide .left after := by
        rw [isAfter]
        exact mem_ofSide.mpr (List.mem_append_right _ List.mem_cons_self)
      rw [leftAfter] at inside
      cases inside
    · have impossible := quiet _ (isLater ▸ List.mem_append_right _ List.mem_cons_self)
      cases impossible

/-! ### The ingest writes last -/

/-- If the ingest read after the restart's write, both changes are there. -/
theorem ingestLast_after {before front rest after : List (Side × FileAccess)}
    (cut : merged = before ++ (.right, .write race.restartWrites) ::
      (front ++ (.left, .read (some race.ingested)) :: (rest ++ (.left, .write race.ingestWrites) :: after)))
    (leftBefore : ofSide .left (before ++ (.right, .write race.restartWrites) :: front) = [])
    (leftAfter : ofSide .left after = [])
    (quietBefore : ∀ access ∈ ofSide .right before, access.changes = false)
    (quietAfter : ∀ access ∈ ofSide .right
      (front ++ (.left, .read (some race.ingested)) :: (rest ++ (.left, .write race.ingestWrites) :: after)),
      access.changes = false) :
    Kept shard replica merged (contentOf start merged) ∧ Undisturbed merged := by
  have atRestart : merged = before ++ (.right, .write race.restartWrites) ::
      (front ++ (.left, .read (some race.ingested)) ::
        (rest ++ (.left, .write race.ingestWrites) :: after)) := cut
  have atRead : merged = (before ++ (.right, .write race.restartWrites) :: front) ++
      (.left, .read (some race.ingested)) :: (rest ++ (.left, .write race.ingestWrites) :: after) := by
    refine cut.trans ?_
    simp only [List.append_assoc, List.cons_append]
  have atIngest : merged = (before ++ (.right, .write race.restartWrites) ::
      (front ++ (.left, .read (some race.ingested)) :: rest)) ++ (.left, .write race.ingestWrites) ::
        after := by
    refine cut.trans ?_
    simp only [List.append_assoc, List.cons_append]
  have quietEnd : ∀ access ∈ ofSide .right after, access.changes = false := by
    intro access member
    apply quietAfter access
    have inside := mem_ofSide.mp member
    exact mem_ofSide.mpr (List.mem_append_right _ (List.mem_cons_of_mem _
      (List.mem_append_right _ (List.mem_cons_of_mem _ inside))))
  have quietBetween : ∀ access ∈ ofSide .right front, access.changes = false := by
    intro access member
    exact quietAfter access (mem_ofSide.mpr (List.mem_append_left _ (mem_ofSide.mp member)))
  rw [ofSide_append] at leftBefore
  rcases List.append_eq_nil_iff.mp leftBefore with ⟨leftFirst, leftFront⟩
  have read : some race.ingested = some race.restartWrites := by
    rw [race.read_found atRead, contentOf_append]
    exact still (show ofSide .left front = [] from leftFront) quietBetween _
  have final := contentOf_last atIngest leftAfter quietEnd start
  constructor
  · apply race.kept_ingest final
    refine ⟨{ race.server with pid := some race.pid }, ?_, rfl, rfl⟩
    change race.ingested.server? shard replica = some { race.server with pid := some race.pid }
    rw [Option.some.inj read]
    exact server?_setPid race.found race.pid
  · intro side earlier access back isMerged other changes ⟨found, reads⟩ state writes
    rcases access with ⟨writer, access⟩
    cases side with
    | left =>
        -- the ingest has read nothing before the restart has written
        cases writer with
        | left => exact other rfl
        | right =>
            have same := race.restart_once atRestart quietBefore quietAfter isMerged changes
            rw [← same.1] at reads
            have none := mem_ofSide.mpr reads
            rw [leftFirst] at none
            cases none
    | right =>
        -- the restart writes nothing after the ingest's first access
        cases writer with
        | right => exact other rfl
        | left =>
            rcases split_twice (atRestart.symm.trans isMerged) with
              ⟨_, impossible, _⟩ | ⟨between, _, isBehind⟩ |
              ⟨between, isBefore, _⟩
            · cases impossible
            · have quiet := quietAfter (.write state) (mem_ofSide.mpr (by
                rw [isBehind]
                exact List.mem_append_right _ (List.mem_cons_of_mem _ writes)))
              cases quiet
            · rw [isBefore, ofSide_append] at leftFirst
              exact absurd (List.append_eq_nil_iff.mp leftFirst).2 (List.cons_ne_nil _ _)

/-- If the ingest read before the restart's write, the process id is lost. -/
theorem ingestLast_before {before front after : List (Side × FileAccess)} {rest : List (Side × FileAccess)}
    (cut : merged = before ++ (.left, .read (some race.ingested)) ::
      (front ++ (.right, .write race.restartWrites) :: (rest ++ (.left, .write race.ingestWrites) :: after)))
    (leftAfter : ofSide .left after = [])
    (quietBefore : ∀ access ∈ ofSide .right (before ++ (.left, .read (some race.ingested)) :: front),
      access.changes = false)
    (quietAfter : ∀ access ∈ ofSide .right (rest ++ (.left, .write race.ingestWrites) :: after),
      access.changes = false) :
    (Kept shard replica merged (contentOf start merged) ↔ Recycled shard replica start merged) ∧
      ¬ Undisturbed merged := by
  have atRestart : merged = (before ++ (.left, .read (some race.ingested)) :: front) ++
      (.right, .write race.restartWrites) :: (rest ++ (.left, .write race.ingestWrites) :: after) := by
    refine cut.trans ?_
    simp only [List.append_assoc, List.cons_append]
  have atIngest : merged = (before ++ (.left, .read (some race.ingested)) ::
      (front ++ (.right, .write race.restartWrites) :: rest)) ++ (.left, .write race.ingestWrites) ::
        after := by
    refine cut.trans ?_
    simp only [List.append_assoc, List.cons_append]
  have quietEnd : ∀ access ∈ ofSide .right after, access.changes = false := by
    intro access member
    exact quietAfter access (mem_ofSide.mpr
      (List.mem_append_right _ (List.mem_cons_of_mem _ (mem_ofSide.mp member))))
  have present : ofSide .left (before ++ (.left, .read (some race.ingested)) :: front) ≠ [] := by
    apply List.ne_nil_of_mem (a := FileAccess.read (some race.ingested))
    exact mem_ofSide.mpr (List.mem_append_right _ List.mem_cons_self)
  have isStart := race.ingest_reads_start atRestart quietBefore present
  have final := contentOf_last atIngest leftAfter quietEnd start
  refine ⟨⟨?_, ?_⟩, ?_⟩
  · intro kept
    rcases kept.server _ _ race.spawned_mem with ⟨state, server, isFinal, found, isPid, _⟩
    rw [final] at isFinal
    cases isFinal
    refine ⟨⟨race.ingested, server, _, race.pid, isStart.symm, found, isPid, race.spawned_mem⟩, _, _, _,
      atIngest, ?_⟩
    rintro ⟨side, access⟩ member
    cases side with
    | left =>
        have inside := mem_ofSide.mpr member
        rw [leftAfter] at inside
        cases inside
    | right => exact quietEnd access (mem_ofSide.mpr member)
  · rintro ⟨⟨state, server, command, pid, known, found, isPid, spawned⟩, _⟩
    have same : state = race.ingested := Option.some.inj (known.symm.trans isStart.symm)
    apply race.kept_ingest final
    have inIngested : race.ingested.server? shard replica = some server := same ▸ found
    have inRestarted := race.restarted_server isStart
    rw [race.found, inIngested] at inRestarted
    refine ⟨server, inIngested, isPid.trans (congrArg some (race.spawned_eq spawned).2), ?_⟩
    rw [← Option.some.inj inRestarted]
  · intro undisturbed
    exact undisturbed .left _ _ _ atRestart (show Side.right ≠ Side.left by decide) rfl
      ⟨_, List.mem_append_right _ List.mem_cons_self⟩ _ (List.mem_append_right _ List.mem_cons_self)

/-! ### Every order -/

include race in
theorem kept_iff : Kept shard replica merged (contentOf start merged) ↔
    Undisturbed merged ∨ Recycled shard replica start merged := by
  rcases race.ingestEnds with ⟨beforeIngest, afterIngest, atIngest, leftBefore, leftAfter⟩
  rcases race.restartEnds with ⟨beforeRestart, afterRestart, atRestart, quietBefore, quietAfter⟩
  rcases split_twice (atIngest.symm.trans atRestart) with ⟨_, impossible, _⟩ | ⟨between, isBefore, isAfter⟩ |
    ⟨between, isBefore, isAfter⟩
  · cases impossible
  · -- the restart writes last
    subst isBefore isAfter
    rcases race.restartReads with ⟨beforeRead, afterRead, atRead, rightBefore⟩
    rcases split_twice (atIngest.symm.trans atRead) with ⟨_, impossible, _⟩ | ⟨front, isRead, isRest⟩ |
      ⟨front, isRead, isRest⟩
    · cases impossible
    · subst isRead
      rcases split_twice isRest with ⟨_, impossible, _⟩ | ⟨rest, isFront, _⟩ | ⟨rest, isBetween, isBehind⟩
      · cases impossible
      · rw [isFront] at rightBefore
        have inside : FileAccess.write race.restartWrites ∈ ofSide .right (beforeIngest ++
            (Side.left, .write race.ingestWrites) ::
              (between ++ (Side.right, .write race.restartWrites) :: rest)) :=
          mem_ofSide.mpr (List.mem_append_right _ (List.mem_cons_of_mem _
            (List.mem_append_right _ List.mem_cons_self)))
        rw [rightBefore] at inside
        cases inside
      · subst isBetween
        rw [List.append_assoc, List.cons_append] at atIngest leftAfter
        have both := race.restartLast_after atIngest leftAfter rightBefore quietBefore quietAfter
        exact ⟨fun _ => Or.inl both.2, fun _ => both.1⟩
    · subst isRead
      rw [List.append_assoc, List.cons_append] at atIngest quietBefore
      have lost := race.restartLast_before atIngest rightBefore leftBefore leftAfter quietBefore quietAfter
      exact ⟨fun kept => absurd kept lost.1, fun either => (either.elim lost.2.1 lost.2.2).elim⟩
  · -- the ingest writes last
    subst isBefore isAfter
    rcases race.ingestReads with ⟨beforeRead, afterRead, atRead, leftRead⟩
    rcases split_twice (atRestart.symm.trans atRead) with ⟨_, impossible, _⟩ | ⟨front, isRead, isRest⟩ |
      ⟨front, isRead, isRest⟩
    · cases impossible
    · subst isRead
      rcases split_twice isRest with ⟨_, impossible, _⟩ | ⟨rest, isFront, _⟩ | ⟨rest, isBetween, isBehind⟩
      · cases impossible
      · rw [isFront] at leftRead
        have inside : FileAccess.write race.ingestWrites ∈ ofSide .left (beforeRestart ++
            (Side.right, .write race.restartWrites) ::
              (between ++ (Side.left, .write race.ingestWrites) :: rest)) :=
          mem_ofSide.mpr (List.mem_append_right _ (List.mem_cons_of_mem _
            (List.mem_append_right _ List.mem_cons_self)))
        rw [leftRead] at inside
        cases inside
      · subst isBetween
        rw [List.append_assoc, List.cons_append] at atRestart quietAfter
        have both := race.ingestLast_after atRestart leftRead leftAfter quietBefore quietAfter
        exact ⟨fun _ => Or.inl both.2, fun _ => both.1⟩
    · subst isRead
      rw [List.append_assoc, List.cons_append] at atRestart
      have torn := race.ingestLast_before atRestart leftAfter quietBefore quietAfter
      exact ⟨fun kept => Or.inr (torn.1.mp kept), fun either => torn.1.mpr (either.resolve_left torn.2)⟩

end Race

/-! ### When only one side changes the document -/

section OneSide

variable {shard replica : Nat} {start : Option ClusterState} {merged : List (Side × FileAccess)}

/-- A side that writes nothing disturbs nobody and is not disturbed. -/
theorem undisturbed_of_quiet {quietSide : Side}
    (quiet : ∀ access ∈ ofSide quietSide merged, access.changes = false) : Undisturbed merged := by
  intro side before access after isMerged other changes _ state writes
  have written : (side, FileAccess.write state) ∈ merged := by
    rw [isMerged]
    exact List.mem_append_right _ (List.mem_cons_of_mem _ writes)
  have changed : (access.1, access.2) ∈ merged := by
    rw [isMerged]
    exact List.mem_append_right _ List.mem_cons_self
  by_cases same : side = quietSide
  · have impossible := quiet _ (mem_ofSide.mpr (same ▸ written))
    cases impossible
  · have isQuiet : access.1 = quietSide := by
      cases side <;> cases quietSide <;> cases reader : access.1 <;> simp_all
    have impossible := quiet _ (mem_ofSide.mpr (isQuiet ▸ changed))
    rw [impossible] at changes
    cases changes

theorem kept_without_ingest (quiet : ∀ access ∈ ofSide .left merged, access.changes = false)
    (restarted : RestartAccesses shard replica (ofSide .right merged)) :
    Kept shard replica merged (contentOf start merged) := by
  constructor
  · intro command pid member
    have inside := mem_ofSide.mpr member
    rcases restarted with ⟨found, onlyRead⟩ | ⟨state, server, interpreter, args, seed, dataDir, started, later,
      found, isLater, isRight⟩
    · rw [onlyRead] at inside
      cases List.mem_singleton.mp inside
    · have parts : ofSide .right merged = [_, _] ++ .write (state.setPid shard replica started) ::
        later := isRight
      rcases ofSide_split parts with ⟨before, after, isMerged, _, isBack⟩
      have reads := reads_of_later isLater
      have quietAfter : ∀ access ∈ ofSide .right after, access.changes = false := by
        rw [isBack]
        intro access isAccess
        rcases reads access isAccess with ⟨found, same⟩
        rw [same]
        rfl
      have quietLeft : ∀ access ∈ ofSide .left after, access.changes = false := by
        intro access isAccess
        apply quiet access
        rw [isMerged]
        exact mem_ofSide.mpr (List.mem_append_right _ (List.mem_cons_of_mem _ (mem_ofSide.mp isAccess)))
      have final : contentOf start merged = some (state.setPid shard replica started) := by
        rw [isMerged, contentOf_append]
        exact contentOf_quiet quietLeft quietAfter _
      rcases spawned_once isRight reads inside with ⟨isCommand, isPid⟩
      refine ⟨_, _, final, server?_setPid found started, congrArg some isPid.symm, ?_⟩
      rw [isCommand]
      exact isServer_own { server with pid := some started } _ _ _ _
  · intro written member
    have impossible := quiet _ (mem_ofSide.mpr member)
    cases impossible

theorem kept_without_restart {found : Option ClusterState} (ingested : IngestAccesses (ofSide .left merged))
    (onlyRead : ofSide .right merged = [.read found]) : Kept shard replica merged (contentOf start merged) := by
  constructor
  · intro command pid member
    have inside := mem_ofSide.mpr member
    rw [onlyRead] at inside
    cases List.mem_singleton.mp inside
  · intro written member key record known
    have inside := mem_ofSide.mpr member
    have quiet : ∀ access ∈ ofSide .right merged, access.changes = false := by
      rw [onlyRead]
      intro access isAccess
      rw [List.mem_singleton.mp isAccess]
      rfl
    rcases ingested with none | ⟨state, sets, sources, grown, isLeft⟩
    · rw [none] at inside
      cases List.mem_singleton.mp inside
    · rcases List.eq_nil_or_concat sets with empty | ⟨earlier, last, isSets⟩
      · rw [isLeft, empty] at inside
        cases List.mem_singleton.mp inside
      · rw [List.concat_eq_append] at isSets
        subst isSets
        have final : contentOf start merged = some (withDocuments state last) := by
          rw [contentOf_left quiet, isLeft, List.map_append, ← List.cons_append, contentAfter_append]
          rfl
        rw [isLeft] at inside
        rcases List.mem_cons.mp inside with impossible | isWrite
        · cases impossible
        · rcases List.mem_map.mp isWrite with ⟨set, isSet, same⟩
          cases same
          exact ⟨_, final, grown.newest.2.1 set isSet key record known⟩

end OneSide

/-! ## Every run -/

/-- Whatever the order of the accesses, both changes are kept exactly if nobody
disturbs the other, but for a process id that was recorded already. -/
theorem kept_iff_of_accesses {shard replica : Nat} {start : Option ClusterState}
    {merged : List (Side × FileAccess)}
    (truthful : Truthful start (merged.map Prod.snd)) (ingested : IngestAccesses (ofSide .left merged))
    (restarted : RestartAccesses shard replica (ofSide .right merged)) :
    Kept shard replica merged (contentOf start merged) ↔ Undisturbed merged ∨
      Recycled shard replica start merged := by
  have serial : Kept shard replica merged (contentOf start merged) → Undisturbed merged →
      (Kept shard replica merged (contentOf start merged) ↔
        Undisturbed merged ∨ Recycled shard replica start merged) :=
    fun kept undisturbed => ⟨fun _ => Or.inl undisturbed, fun _ => kept⟩
  by_cases quiet : ∀ access ∈ ofSide .left merged, access.changes = false
  · exact serial (kept_without_ingest quiet restarted) (undisturbed_of_quiet quiet)
  · rcases restarted with ⟨found, onlyRead⟩ | ⟨state, server, interpreter, args, seed,
      dataDir, pid, later, found,
      isLater, isRight⟩
    · apply serial (kept_without_restart ingested onlyRead)
      apply undisturbed_of_quiet
      rw [onlyRead]
      intro access member
      rw [List.mem_singleton.mp member]
      rfl
    · rcases ingested with none | ⟨ingestState, sets, sources, grown, isLeft⟩
      · rw [none] at quiet
        exact absurd (fun access member => List.mem_singleton.mp member ▸ rfl) quiet
      · rcases List.eq_nil_or_concat sets with empty | ⟨earlier, last, isSets⟩
        · rw [isLeft, empty] at quiet
          exact absurd (fun access member => List.mem_singleton.mp member ▸ rfl) quiet
        · rw [List.concat_eq_append] at isSets
          subst isSets
          have race : Race shard replica start merged :=
            ⟨ingestState, earlier, last, sources, grown, isLeft, state, server, interpreter,
              args, seed, dataDir, pid,
              later, found, reads_of_later isLater, isRight, truthful⟩
          exact race.kept_iff

theorem restartCall_accesses (call : RestartCall) (home interpreter : String) (shard replica : Int) :
    Accesses (fun seen => seen = []) (call.run home interpreter shard replica : Command V D _)
      (fun _ => RestartAccesses shard.toNat replica.toNat) (RestartAccesses shard.toNat replica.toNat) := by
  cases call with
  | commandLine => exact clusterRestart_accesses home interpreter shard replica
  | operations limits startTimeout =>
      apply Client.Ensures.bind (restartServer_accesses home interpreter limits startTimeout shard replica)
      exact fun _ => Client.Ensures.pure fun _ _ holds => holds

/-- One ingest beside one restart, in any order: `cluster.json` ends with the new
process id and with every recorded source if and only if neither of the two changed
the document between the other's reading and writing it. -/
theorem ingest_beside_restart (home interpreter : String) (paths : List String) (options : IngestOptions)
    (call : RestartCall) (shard replica : Int) (start final : Option ClusterState)
    (events : List (Side × Event (HomeCall V) (HomeCall.Answer V D)))
    (report : EStateM.Result Error Unit IngestReport) (outcome : EStateM.Result Error Unit Unit)
    (beside : Beside homeNetwork (ingest home paths options ())
      (call.run home interpreter shard replica ()) start
      events report outcome final) :
    Kept shard.toNat replica.toNat (observed accessOf events) final ↔
      Undisturbed (observed accessOf events) ∨
        Recycled shard.toNat replica.toNat start (observed accessOf events) := by
  have runs : Runs (Remote.observing accessOf) (ingest home paths options ()) [] report
        (ofSide .left (observed accessOf events)) ∧
      Runs (Remote.observing accessOf) (call.run home interpreter shard replica ()) [] outcome
        (ofSide .right (observed accessOf events)) := beside.sides [] []
  have contents := beside_accesses beside
  have ingests : Accesses _ (ingest home paths options : Command V D _) _ _ :=
    ingest_accesses home paths options
  have restarts : Accesses _ (call.run home interpreter shard replica : Command V D _) _ _ :=
    restartCall_accesses call home interpreter shard replica
  have ingested := ingests () [] rfl
  have restarted := restarts () [] rfl
  have left : IngestAccesses (ofSide .left (observed accessOf events)) := by
    have ended := ingested.1 report _ runs.1
    cases report with
    | ok value state => exact ended
    | error error state => exact ended
  have right : RestartAccesses shard.toNat replica.toNat (ofSide .right (observed accessOf events)) := by
    have ended := restarted.1 outcome _ runs.2
    cases outcome with
    | ok value state => exact ended
    | error error state => exact ended
  have iff := kept_iff_of_accesses contents.2 left right
  rw [contents.1]
  exact iff
/-! ## Two runs -/

section Runs

variable {α β : Type} (call : HomeCall V) {content middle last : Option ClusterState}
  {events : List (Side × Event (HomeCall V) (HomeCall.Answer V D))} {first : α} {second : β}

/-- The ingest's next call, with its answer. -/
theorem ingestStep {next : HomeCall.Answer V D call → Remote (HomeCall V) (HomeCall.Answer V D) α}
    {other : Remote (HomeCall V) (HomeCall.Answer V D) β} (answer : HomeCall.Answer V D call)
    (given : homeNetwork.answers call content answer middle)
    (rest : Beside homeNetwork (next answer) other middle events first second last) :
    Beside homeNetwork (.ask call next) other content ((.left, ⟨call, answer⟩) :: events) first second last :=
  .left .refl given rest

/-- The restart's next call. -/
theorem restartStep {next : HomeCall.Answer V D call → Remote (HomeCall V) (HomeCall.Answer V D) β}
    {other : Remote (HomeCall V) (HomeCall.Answer V D) α} (answer : HomeCall.Answer V D call)
    (given : homeNetwork.answers call content answer middle)
    (rest : Beside homeNetwork other (next answer) middle events first second last) :
    Beside homeNetwork other (.ask call next) content ((.right, ⟨call, answer⟩) :: events) first second last :=
  .right .refl given rest

end Runs

/-- A cluster of one server, with nothing in it. -/
def oneServer : ClusterState :=
  { seed := some 42
    serverArgs := [("M", 16)]
    servers := [[⟨none, 50051, some 7, none⟩]]
    dataset := none
    managedBy := none }

def noOptions : IngestOptions := ⟨none, none, 1000, 150⟩

/-- What the ingest of two empty files leaves of it. -/
def twoFiles : ClusterState :=
  { oneServer with
    dataset := some (.documents "bge-small" 384 0
      ((Dict.empty.set "/notes/a.md" ⟨"aa", 0, none, "notes/a.md"⟩).set "/notes/b.md"
        ⟨"bb", 0, none, "notes/b.md"⟩)) }

/-- The restart runs between the two files of the ingest. -/
theorem restart_between_files : ∃ events report outcome command,
    Beside (homeNetwork : Network (HomeCall Nat) (HomeCall.Answer Nat Nat) _)
      (ingest "data" ["notes"] noOptions ()) (RestartCall.commandLine.run "data" "python" 0 0 ())
        (some oneServer)
      events report outcome (some twoFiles) ∧
    (Side.right, .spawned command 8) ∈ observed accessOf events :=
  ⟨_, _, _, "python" :: serverCommand 50051 oneServer.serverArgs 42 "data/shard-0-replica-0",
    ingestStep .readFile (some oneServer) ⟨rfl, rfl⟩ <|
    ingestStep (.serverStatus _) (some ⟨0, true, 0, 0, 0⟩) rfl <|
    ingestStep (.getEmbedder _) (.ok ⟨"bge-small", 384⟩) rfl <|
    ingestStep (.findDocuments _) (.ok ["/notes/a.md", "/notes/b.md"]) rfl <|
    ingestStep (.displayPath _) "notes/a.md" rfl <|
    ingestStep (.fingerprint _) (.ok "aa") rfl <|
    ingestStep (.readPassages ..) (.ok []) rfl <|
    ingestStep (.writeFile _) () rfl <|
    restartStep .readFile (some _) ⟨rfl, rfl⟩ <|
    restartStep (.processCommand _) "" rfl <|
    restartStep (.spawn _) (8 : Nat) rfl <|
    restartStep (.writeFile _) () rfl <|
    restartStep (.waitUntilReady _) true rfl <|
    ingestStep (.displayPath _) "notes/b.md" rfl <|
    ingestStep (.fingerprint _) (.ok "bb") rfl <|
    ingestStep (.readPassages ..) (.ok []) rfl <|
    ingestStep (.writeFile _) () rfl <| .done,
    .tail _ (.tail _ (.tail _ (.head _)))⟩

/-- That run is one of those the equivalence is about. -/
theorem ingest_beside_restart_two_files : ∃ events report outcome final,
    Beside (homeNetwork : Network (HomeCall Nat) (HomeCall.Answer Nat Nat) _)
      (ingest "data" ["notes"] noOptions ()) (RestartCall.commandLine.run "data" "python" 0 0 ())
        (some oneServer)
      events report outcome final ∧
    (Kept 0 0 (observed accessOf events) final ↔
      Undisturbed (observed accessOf events) ∨ Recycled 0 0 (some oneServer) (observed accessOf events)) := by
  rcases restart_between_files with ⟨events, report, outcome, command, beside, _⟩
  exact ⟨events, report, outcome, some twoFiles, beside,
    ingest_beside_restart "data" "python" ["notes"] noOptions .commandLine 0 0
      (some oneServer) (some twoFiles) events
      report outcome beside⟩

/-- The process id of the restarted server is lost. -/
theorem restart_between_files_lost : ∃ events report outcome final,
    Beside (homeNetwork : Network (HomeCall Nat) (HomeCall.Answer Nat Nat) _)
      (ingest "data" ["notes"] noOptions ()) (RestartCall.commandLine.run "data" "python" 0 0 ())
        (some oneServer)
      events report outcome final ∧ ¬ Kept 0 0 (observed accessOf events) final := by
  rcases restart_between_files with ⟨events, report, outcome, command, beside, spawned⟩
  refine ⟨events, report, outcome, some twoFiles, beside, ?_⟩
  intro kept
  rcases kept.server command 8 spawned with ⟨state, server, isState, found, isPid, _⟩
  cases isState
  cases found
  cases isPid

end Home
end VectorSearch
