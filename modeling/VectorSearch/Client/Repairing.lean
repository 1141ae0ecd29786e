import VectorSearch.Client.GrpcCoordinator
import VectorSearch.Server.Syncing
import VectorSearch.Storage.Growth
import VectorSearch.Storage.Runs

namespace VectorSearch

/-!
# Repair

What `repair` does to the replicas of the shards.  Any replica may be
unreachable when it is asked for its status, and then stays as it is; while no
client writes, a replica may still checkpoint and restart, and a copy from it
may make it take a snapshot.  The replicas that answer end with the state of
the most advanced one among them.
-/

open Program

variable {D G : Type} [LinearOrder D] (np : Numpy Float32Bits D G) (npz : Npz G)

/-! ## One copy -/

/-- `catch_up` against a peer that goes on. -/
theorem catchUp_ensures {config peerConfig : Config} {dim : Nat} {peer : Timeline np npz peerConfig dim}
    {replies : Nat → Replies} (answered : Answered np npz peer replies) {history : History}
    {state : DurableShard G} {disk : Disk} (address : String) (attempts : Nat)
    (back : history.Begins (peer.at_ 0).history) (running : Running np npz config dim history state disk) :
    Program.Ensures exchange (Behind peer config history) (CaughtUp peer config history)
      (DurableShard.catchUp np npz state address attempts replies) ⟨disk, 0⟩ := by
  unfold DurableShard.catchUp
  rw [List.range_eq_range']
  exact catchUpLoop_ensures answered _ attempts 0 (.refl history) back running

/-- The run of `SyncFrom` against a peer that goes on. -/
theorem syncFrom_catches {config peerConfig : Config} {dim : Nat} {peer : Timeline np npz peerConfig dim}
    {replies : Nat → Replies} (answered : Answered np npz peer replies) {history : History}
    {state : DurableShard G} {disk : Disk} (address : String) (back : history.Begins (peer.at_ 0).history)
    (running : Running np npz config dim history state disk) :
    CaughtUp peer config history
      ((ShardServicer.syncFromDurable np npz state address replies).run exchange ⟨disk, 0⟩) := by
  have caught : Program.Ensures exchange (Behind peer config history) (CaughtUp peer config history)
      (DurableShard.catchUp np npz state address DurableShard.defaultAttempts replies) ⟨disk, 0⟩ :=
    catchUp_ensures np npz answered address _ back running
  rcases caught.2 with ⟨reached, front, behind, holds, complete⟩
  rw [ShardServicer.syncFromDurable, run_mapError]
  refine ⟨reached, front, behind, holds, fun returned => complete ?_⟩
  exact Option.map_eq_none_iff.mp returned

/-! ## The replicas of a cluster -/

/-- The running replicas, those that have answered `Status`, and those of which
`Status` has failed. -/
structure RepairWorld (G : Type) where
  replicas : ReplicaId → Replica G
  answered : List ReplicaId
  failed : List ReplicaId

/-- The replica has been asked for its status. -/
def RepairWorld.Asked (world : RepairWorld G) (id : ReplicaId) : Prop := id ∈ world.answered ∨ id ∈ world.failed

def RepairWorld.put (world : RepairWorld G) (id : ReplicaId) (replica : Replica G) : RepairWorld G :=
  { world with replicas := Function.update world.replicas id replica }

section Network

variable (config : ReplicaId → Config) (dim : Nat) (peerAt : String → Option ReplicaId)

/-- `SyncFrom` returns at a replica.  Its peer is the replica behind the address;
it may checkpoint and restart between its answers, and takes no write. -/
inductive Synced (world : RepairWorld G) (id : ReplicaId) (address : String) :
    SyncFromResponse → RepairWorld G → Prop
  | copied {source : ReplicaId} {peer : Timeline np npz (config source) dim} {replies : Nat → Replies}
      {outcome : Outcome Exchange (Syncing G) Error} (isPeer : peerAt address = some source)
      (now : peer.at_ 0 = world.replicas source)
      (quiet : ∀ time, (peer.at_ time).history = (peer.at_ 0).history)
      (answered : Answered np npz peer replies)
      (run : (ShardServicer.syncFromDurable np npz (world.replicas id).state address replies).run exchange
        ⟨(world.replicas id).disk, 0⟩ = outcome) (returned : outcome.error = none) :
      Synced world id address (ShardServicer.syncResponse outcome.memory)
        ((world.put source (peer.at_ outcome.world.answered)).put id
          ⟨(peer.at_ 0).history, outcome.memory.shard, outcome.world.disk⟩)

/-- Every `Status` is answered by the server or fails as one that cannot be
reached, every `SyncFrom` returns, and nobody writes. -/
def repairNetwork : Network Rpc (Rpc.Answer D) (RepairWorld G) where
  answers := fun
    | .status id => fun world answer last =>
        (answer = .ok (ShardServicer.status (.durable (world.replicas id).state)) ∧
          last = { world with answered := world.answered ++ [id] }) ∨
        ∃ error : RpcError, error.retryable = true ∧ answer = .error error ∧
          last = { world with failed := world.failed ++ [id] }
    | .syncFrom id address => fun world answer last =>
        ∃ response, answer = .ok response ∧ Synced np npz config dim peerAt world id address response last
    | .startAdd _ _ | .finishAdd _ | .startSearch _ _ | .finishSearch _ | .monotonic =>
        fun world _ last => last = world
  moves := fun world next => ∃ id replica, Replica.Moves np npz (config id) dim (world.replicas id) replica ∧
    replica.history = (world.replicas id).history ∧ next = world.put id replica

/-- A replica that runs on the given history. -/
structure Replica.On (config : Config) (history : History) (replica : Replica G) : Prop where
  alive : replica.Alive np npz config dim
  shaped : replica.history.Shaped
  holds : replica.history = history

/-- The replicas in use run on the given histories. -/
def Intact (member : ReplicaId → Prop) (histories : ReplicaId → History) (world : RepairWorld G) : Prop :=
  ∀ id, member id → (world.replicas id).On np npz dim (config id) (histories id)

variable {np npz config dim peerAt} {member : ReplicaId → Prop} {histories : ReplicaId → History}
  {world last : RepairWorld G}

theorem Intact.put (intact : Intact np npz config dim member histories world) {id : ReplicaId}
    {replica : Replica G} {history : History} (on : member id → replica.On np npz dim (config id) history) :
    Intact np npz config dim member (Function.update histories id history) (world.put id replica) := by
  intro other isMember
  change (Function.update world.replicas id replica other).On np npz dim (config other) _
  by_cases same : other = id
  · subst same
    rw [Function.update_self, Function.update_self]
    exact on isMember
  · rw [Function.update_of_ne same, Function.update_of_ne same]
    exact intact other isMember

/-- A replica that holds the same history as before. -/
theorem Intact.replace (intact : Intact np npz config dim member histories world) {id : ReplicaId}
    {replica : Replica G} (on : member id → replica.On np npz dim (config id) (histories id)) :
    Intact np npz config dim member histories (world.put id replica) := by
  have put := intact.put on
  rwa [Function.update_eq_self] at put

theorem Intact.stable (answered failed : List ReplicaId) :
    Remote.Stable (repairNetwork np npz config dim peerAt : Network Rpc (Rpc.Answer D) (RepairWorld G))
      fun world => Intact np npz config dim member histories world ∧ world.answered = answered ∧
        world.failed = failed := by
  rintro world _ ⟨intact, same⟩ ⟨id, replica, moves, quiet, rfl⟩
  refine ⟨intact.replace fun isMember => ?_, same⟩
  have on := intact id isMember
  rcases moves.keeps np npz on.alive on.shaped with ⟨alive, shaped, _⟩
  exact ⟨alive, shaped, quiet.trans on.holds⟩

/-- A copy from a replica that is ahead. -/
theorem Intact.synced (intact : Intact np npz config dim member histories world) {id source : ReplicaId}
    {address : String} {response : SyncFromResponse}
    (synced : Synced np npz config dim peerAt world id address response last)
    (isPeer : peerAt address = some source) (isMember : member id) (sourceMember : member source)
    (behind : (histories id).Begins (histories source)) :
    Intact np npz config dim member (Function.update histories id (histories source)) last ∧
      last.answered = world.answered ∧ last.failed = world.failed := by
  cases synced with
  | @copied found peer replies outcome isFound now quiet answered run returned =>
      cases isPeer.symm.trans isFound
      have isHistory : (peer.at_ 0).history = histories source := by
        rw [now]
        exact (intact source sourceMember).holds
      have begins : (world.replicas id).history.Begins (peer.at_ 0).history := by
        rw [isHistory, (intact id isMember).holds]
        exact behind
      rcases syncFrom_catches np npz answered address begins (intact id isMember).alive with
        ⟨history, _, _, running, complete⟩
      rw [run] at running complete
      rw [complete returned, quiet] at running
      have copied : Intact np npz config dim member histories
          (world.put source (peer.at_ outcome.world.answered)) := by
        apply intact.replace
        intro _
        rcases peer.sound outcome.world.answered with ⟨alive, shaped⟩
        exact ⟨alive, shaped, (quiet _).trans isHistory⟩
      exact ⟨copied.put fun _ => ⟨running, (peer.sound 0).2, isHistory⟩, rfl, rfl⟩

end Network

/-! ## The coordinator's loops -/

namespace GrpcCoordinator

/-- The first of the entries with the largest last seq. -/
theorem newest_spec {statuses : List (ReplicaId × StatusResponse)} {best : ReplicaId × StatusResponse}
    (found : newest statuses = some best) :
    best ∈ statuses ∧ ∀ item ∈ statuses, item.2.lastSeq ≤ best.2.lastSeq := by
  have run : ∀ (items : List (ReplicaId × StatusResponse)) first,
      let last := items.foldl (fun best item => if best.2.lastSeq < item.2.lastSeq then item else best) first
      last ∈ first :: items ∧ ∀ item ∈ first :: items, item.2.lastSeq ≤ last.2.lastSeq := by
    intro items
    induction items with
    | nil =>
        intro first
        refine ⟨List.mem_singleton_self _, fun item member => ?_⟩
        rw [List.mem_singleton.mp member]
        exact Nat.le_refl _
    | cons next rest inductionHypothesis =>
        intro first
        rcases inductionHypothesis (if first.2.lastSeq < next.2.lastSeq then next else first) with
          ⟨inside, largest⟩
        rw [List.foldl_cons]
        have upper := largest _ List.mem_cons_self
        constructor
        · rcases List.mem_cons.mp inside with same | later
          · rw [same]
            split
            · exact List.mem_cons_of_mem _ List.mem_cons_self
            · exact List.mem_cons_self
          · exact List.mem_cons_of_mem _ (List.mem_cons_of_mem _ later)
        · intro item member
          rcases List.mem_cons.mp member with rfl | later
          · refine Nat.le_trans ?_ upper
            split
            · rename_i less
              exact Nat.le_of_lt less
            · exact Nat.le_refl _
          · rcases List.mem_cons.mp later with rfl | rest
            · refine Nat.le_trans ?_ upper
              split
              · exact Nat.le_refl _
              · rename_i notLess
                exact Nat.le_of_not_lt notLess
            · exact largest item (List.mem_cons_of_mem _ rest)
  cases statuses with
  | nil => cases found
  | cons first rest =>
      rw [← Option.some.inj found]
      exact run rest first

section Loops

variable {np npz} {config : ReplicaId → Config} {dim : Nat} {peerAt : String → Option ReplicaId}
  {start : GrpcCoordinator} {histories : ReplicaId → History} {α : Type}

variable (np npz config dim peerAt) in
/-- A triple of the repair, which raises nothing. -/
abbrev Repairing (before : GrpcCoordinator → RepairWorld G → Prop) (client : Coordinating D α)
    (returned : α → GrpcCoordinator → RepairWorld G → Prop) : Prop :=
  Client.Ensures (repairNetwork np npz config dim peerAt) (fun _ => True) before client returned
    fun _ _ _ => False

variable (np npz config dim start) in
/-- Between two calls: the replicas the coordinator began with run on the given
histories, and those asked so far have answered or failed. -/
structure Repaired (histories : ReplicaId → History) (answered asked : List ReplicaId) (state : GrpcCoordinator)
    (world : RepairWorld G) : Prop where
  layout : state.replicas = start.replicas
  intact : Intact np npz config dim start.Knows histories world
  answered : world.answered = answered
  asked : ∀ id ∈ asked, world.Asked id

theorem Repaired.stable (answered asked : List ReplicaId) (state : GrpcCoordinator) :
    Remote.Stable (repairNetwork np npz config dim peerAt : Network Rpc (Rpc.Answer D) (RepairWorld G))
      (Repaired np npz config dim start histories answered asked state) := by
  rintro world next ⟨layout, intact, same, past⟩ moves
  rcases Intact.stable answered world.failed world next ⟨intact, same, rfl⟩ moves with ⟨later, still, failed⟩
  refine ⟨layout, later, still, fun id member => ?_⟩
  rw [RepairWorld.Asked, still, failed, ← same]
  exact past id member

/-- A replica has answered. -/
theorem Repaired.answers {answered asked : List ReplicaId} {state : GrpcCoordinator} {world : RepairWorld G}
    (repaired : Repaired np npz config dim start histories answered asked state world) (id : ReplicaId) :
    Repaired np npz config dim start histories (answered ++ [id]) (id :: asked) state
      { world with answered := world.answered ++ [id] } := by
  refine ⟨repaired.layout, repaired.intact, congrArg (· ++ [id]) repaired.answered, ?_⟩
  rw [List.forall_mem_cons]
  refine ⟨Or.inl List.mem_concat_self, fun other member => ?_⟩
  exact (repaired.asked other member).imp_left (List.mem_append_left _)

/-- A replica could not be reached. -/
theorem Repaired.fails {answered asked : List ReplicaId} {state : GrpcCoordinator} {world : RepairWorld G}
    (repaired : Repaired np npz config dim start histories answered asked state world) (id : ReplicaId) :
    Repaired np npz config dim start histories answered (id :: asked) state
      { world with failed := world.failed ++ [id] } := by
  refine ⟨repaired.layout, repaired.intact, repaired.answered, ?_⟩
  rw [List.forall_mem_cons]
  refine ⟨Or.inr List.mem_concat_self, fun other member => ?_⟩
  exact (repaired.asked other member).imp_right (List.mem_append_left _)

/-- The replicas asked, in another order. -/
theorem Repaired.among {answered asked other : List ReplicaId} {state : GrpcCoordinator} {world : RepairWorld G}
    (repaired : Repaired np npz config dim start histories answered asked state world)
    (within : other ⊆ asked) : Repaired np npz config dim start histories answered other state world :=
  ⟨repaired.layout, repaired.intact, repaired.answered, fun id member => repaired.asked id (within member)⟩

/-- What the statuses say about the histories. -/
structure Heard (histories : ReplicaId → History) (ids : List ReplicaId)
    (statuses : List (ReplicaId × StatusResponse)) : Prop where
  within : (statuses.map Prod.fst).Sublist ids
  lengths : ∀ item ∈ statuses, item.2.lastSeq = (histories item.1).length

theorem answering_ensures (ids : List ReplicaId) (known : ∀ id ∈ ids, start.Knows id)
    (answered asked : List ReplicaId) :
    Repairing np npz config dim peerAt (Repaired np npz config dim start histories answered asked)
      (answering ids : Coordinating D _) fun statuses state world =>
        Repaired np npz config dim start histories (answered ++ statuses.map Prod.fst)
          (ids ++ asked) state world ∧
          Heard histories ids statuses := by
  induction ids generalizing answered asked with
  | nil =>
      apply Client.Ensures.pure
      intro state world holds
      rw [List.map_nil, List.append_nil, List.nil_append]
      exact ⟨holds, List.Sublist.refl _, fun _ impossible => nomatch impossible⟩
  | cons id rest inductionHypothesis =>
      have later := inductionHypothesis fun other member => known other (List.mem_cons_of_mem _ member)
      have asks : Repairing np npz config dim peerAt (Repaired np npz config dim start histories answered asked)
          (Client.call (Rpc.status id) : Coordinating D _) fun answer state world =>
            match answer with
            | .ok status => Repaired np npz config dim start histories (answered ++ [id])
                (id :: asked) state world ∧
                status.lastSeq = (histories id).length
            | .error error => Repaired np npz config dim start histories answered (id :: asked) state world ∧
                RpcError.retryable error = true := by
        apply Client.Ensures.call (Repaired.stable answered asked) (fun _ _ _ => trivial)
        rintro state world answer last holds (⟨rfl, rfl⟩ | ⟨error, retryable, rfl, rfl⟩)
        · have on := holds.intact id (known id List.mem_cons_self)
          exact ⟨holds.answers id, (Running.lastSeq on.alive).trans (congrArg History.length on.holds)⟩
        · exact ⟨holds.fails id, retryable⟩
      apply Client.Ensures.bind asks
      intro answer
      cases answer with
      | ok status =>
          apply Client.Ensures.given
          intro length
          apply Client.Ensures.bind (later (answered ++ [id]) (id :: asked))
          intro statuses
          apply Client.Ensures.given
          intro heard
          apply Client.Ensures.pure
          intro state world holds
          rw [List.append_assoc] at holds
          refine ⟨holds.among (List.perm_middle.symm.subset), heard.within.cons_cons id, ?_⟩
          intro item member
          rcases List.mem_cons.mp member with rfl | old
          · exact length
          · exact heard.lengths item old
      | error error =>
          apply Client.Ensures.given
          intro retryable
          dsimp only
          rw [if_pos retryable]
          apply (later answered (id :: asked)).imp (fun _ _ holds => holds) _ fun _ _ _ impossible => impossible
          rintro statuses state world ⟨holds, heard⟩
          exact ⟨holds.among (List.perm_middle.symm.subset), heard.within.cons id, heard.lengths⟩

/-- The histories once the given replicas have caught up. -/
def caughtUp (histories : ReplicaId → History) (ids : List ReplicaId) (newest : History)
    (id : ReplicaId) : History :=
  if id ∈ ids then newest else histories id

theorem caughtUp_cons (histories : ReplicaId → History) (id : ReplicaId) (ids : List ReplicaId)
    (newest : History) :
    caughtUp (Function.update histories id newest) ids newest = caughtUp histories (id :: ids) newest := by
  funext other
  unfold caughtUp
  by_cases same : other = id
  · subst same
    rw [Function.update_self, ite_self, if_pos List.mem_cons_self]
  · rw [Function.update_of_ne same]
    simp only [List.mem_cons, same, false_or]

theorem caughtUp_same {id : ReplicaId} {newest : History} (same : histories id = newest)
    (ids : List ReplicaId) :
    caughtUp histories ids newest = caughtUp histories (id :: ids) newest := by
  rw [← caughtUp_cons, ← same, Function.update_eq_self]

/-- Every replica that is behind copies from the source.  The induction is on the
replicas; those before it have caught up already. -/
theorem syncBehind_ensures {source : ReplicaId} {newest : StatusResponse} {history : History}
    (wired : ∀ id, start.Knows id → peerAt (start.stub id).peer = some id) (isSource : start.Knows source)
    (isNewest : newest.lastSeq = history.length) (statuses : List (ReplicaId × StatusResponse))
    (unique : (statuses.map Prod.fst).Nodup) (known : ∀ item ∈ statuses, start.Knows item.1)
    (lengths : ∀ item ∈ statuses, item.2.lastSeq = (histories item.1).length)
    (begins : ∀ item ∈ statuses, (histories item.1).Begins history) (ahead : histories source = history)
    (answered asked : List ReplicaId) :
    Repairing np npz config dim peerAt (Repaired np npz config dim start histories answered asked)
      (syncBehind source newest statuses : Coordinating D _) fun _ =>
        Repaired np npz config dim start (caughtUp histories (statuses.map Prod.fst) history) answered
          asked := by
  induction statuses generalizing histories with
  | nil =>
      apply Client.Ensures.pure
      intro state world holds
      exact holds
  | cons item rest inductionHypothesis =>
      rcases item with ⟨id, status⟩
      rw [List.map_cons, List.nodup_cons] at unique
      have isLength := lengths _ List.mem_cons_self
      have isBeginning := begins _ List.mem_cons_self
      have inRest : ∀ item ∈ rest, item.1 ≠ id := by
        rintro item member rfl
        exact unique.1 (List.mem_map.mpr ⟨item, member, rfl⟩)
      unfold syncBehind
      split
      · rename_i behind
        apply Client.Ensures.get_bind
        intro coordinator
        have syncs : Repairing np npz config dim peerAt
            (fun state world => state = coordinator ∧ Repaired np npz config dim start histories
              answered asked state world)
            (Client.call (Rpc.syncFrom id (coordinator.stub source).peer) : Coordinating D _)
            fun answer state world => Repaired np npz config dim start
              (Function.update histories id history) answered
              asked state world ∧ ∃ response, answer = .ok response := by
          apply Client.Ensures.call
          · rintro state world next ⟨same, holds⟩ moves
            exact ⟨same, Repaired.stable answered asked state world next holds moves⟩
          · exact fun _ _ _ => trivial
          · rintro state world answer last ⟨rfl, holds⟩ ⟨response, rfl, synced⟩
            have isPeer : peerAt (state.stub source).peer = some source := by
              rw [stub_congr holds.layout]
              exact wired source isSource
            rcases holds.intact.synced synced isPeer (known _ List.mem_cons_self) isSource
              (ahead ▸ isBeginning) with ⟨intact, same, failed⟩
            rw [ahead] at intact
            refine ⟨⟨holds.layout, intact, same.trans holds.answered, fun other member => ?_⟩, response, rfl⟩
            rw [RepairWorld.Asked, same, failed]
            exact holds.asked other member
        apply Client.Ensures.bind syncs
        intro answer
        apply Client.Ensures.given
        rintro ⟨response, rfl⟩
        have others : ∀ item ∈ rest, Function.update histories id history item.1 = histories item.1 :=
          fun item member => Function.update_of_ne (inRest item member) _ _
        have later := @inductionHypothesis (Function.update histories id history) unique.2
          (fun item member => known item (List.mem_cons_of_mem _ member))
          (fun item member => (lengths item (List.mem_cons_of_mem _ member)).trans (by rw [others item member]))
          (fun item member => by
            rw [others item member]
            exact begins item (List.mem_cons_of_mem _ member))
          (by
            by_cases same : source = id
            · rw [same, Function.update_self]
            · rw [Function.update_of_ne same, ahead])
        apply Client.Ensures.bind later
        intro synced
        apply Client.Ensures.pure
        intro state world holds
        rw [List.map_cons, ← caughtUp_cons]
        exact holds
      · rename_i notBehind
        have same : histories id = history := by
          apply isBeginning.antisymm
          rw [← isNewest, ← isLength]
          exact Nat.le_of_not_lt notBehind
        rw [List.map_cons, ← caughtUp_same same]
        exact inductionHypothesis unique.2 (fun item member => known item (List.mem_cons_of_mem _ member))
          (fun item member => lengths item (List.mem_cons_of_mem _ member))
          (fun item member => begins item (List.mem_cons_of_mem _ member)) ahead

/-! ## All shards -/

variable (start) in
/-- Of each shard, the replicas that answered end with the history of the most
advanced one among them, and the others with their own. -/
structure Converged (shards : List Nat) (histories later : ReplicaId → History)
    (answered : List ReplicaId) : Prop where
  inside : ∀ id ∈ answered, id.shard ∈ shards ∧ start.Knows id
  advanced : ∀ id ∈ answered, ∃ source ∈ answered, source.shard = id.shard ∧
    (∀ other ∈ answered, other.shard = id.shard → (histories other).length ≤ (histories source).length) ∧
    later id = histories source
  kept : ∀ id, id ∉ answered → later id = histories id

theorem Converged.none (histories : ReplicaId → History) : Converged start [] histories histories [] :=
  ⟨(fun _ impossible => nomatch impossible), (fun _ impossible => nomatch impossible), fun _ _ => rfl⟩

theorem Converged.cons {shard : Nat} {shards : List Nat} {first second third : ReplicaId → History}
    {front back : List ReplicaId} (one : Converged start [shard] first second front)
    (rest : Converged start shards second third back) (new : shard ∉ shards) :
    Converged start (shard :: shards) first third (front ++ back) := by
  have isShard : ∀ id ∈ front, id.shard = shard := fun id member => List.mem_singleton.mp
    (one.inside id member).1
  have apart : ∀ id ∈ front, ∀ other ∈ back, other.shard ≠ id.shard := by
    intro id inFront other inBack same
    apply new
    rw [← isShard id inFront, ← same]
    exact (rest.inside other inBack).1
  refine ⟨?_, ?_, ?_⟩
  · intro id member
    rcases List.mem_append.mp member with inFront | inBack
    · exact ⟨isShard id inFront ▸ List.mem_cons_self, (one.inside id inFront).2⟩
    · exact ⟨List.mem_cons_of_mem _ (rest.inside id inBack).1, (rest.inside id inBack).2⟩
  · intro id member
    rcases List.mem_append.mp member with inFront | inBack
    · rcases one.advanced id inFront with ⟨source, isSource, sameShard, longest, reached⟩
      refine ⟨source, List.mem_append_left _ isSource, sameShard, ?_, ?_⟩
      · intro other isOther same
        rcases List.mem_append.mp isOther with here | there
        · exact longest other here same
        · exact absurd same (apart id inFront other there)
      · rw [rest.kept id fun there => apart id inFront id there rfl]
        exact reached
    · rcases rest.advanced id inBack with ⟨source, isSource, sameShard, longest, reached⟩
      have old : ∀ other ∈ back, second other = first other :=
        fun other there => one.kept other fun here => apart other here other there rfl
      refine ⟨source, List.mem_append_right _ isSource, sameShard, ?_, reached.trans (old source isSource)⟩
      intro other isOther same
      rcases List.mem_append.mp isOther with here | there
      · exact absurd same.symm (apart other here id inBack)
      · rw [← old other there, ← old source isSource]
        exact longest other there same
  · intro id outside
    rw [List.mem_append, not_or] at outside
    exact (rest.kept id outside.2).trans (one.kept id outside.1)

/-- Of any two replicas of a shard one is behind the other. -/
def Nested (start : GrpcCoordinator) (histories : ReplicaId → History) (shard : Nat) : Prop :=
  ∀ first ∈ start.replicasOf shard, ∀ second ∈ start.replicasOf shard,
    (histories first).Begins (histories second) ∨ (histories second).Begins (histories first)

theorem repairShard_ensures (wired : ∀ id, start.Knows id → peerAt (start.stub id).peer = some id) {shard : Nat}
    (nested : Nested start histories shard) (answered asked : List ReplicaId) :
    Repairing np npz config dim peerAt (Repaired np npz config dim start histories answered asked)
      (repairShard shard : Coordinating D _) fun _ state world => ∃ both :
      (ReplicaId → History) × List ReplicaId,
        Repaired np npz config dim start both.1 (answered ++ both.2)
          (start.replicasOf shard ++ asked) state world ∧
          Converged start [shard] histories both.1 both.2 := by
  apply Client.Ensures.get_bind
  intro coordinator
  have known : ∀ id ∈ start.replicasOf shard, start.Knows id := fun id member => knows_of_mem member
  by_cases layout : coordinator.replicas = start.replicas
  · rw [replicasOf_congr layout]
    apply Client.Ensures.bind ((answering_ensures (start.replicasOf shard) known answered asked).imp
      (fun _ _ holds => holds.2) (fun _ _ _ holds => holds) fun _ _ _ impossible => impossible)
    intro statuses
    apply Client.Ensures.given
    intro heard
    cases found : newest statuses with
    | none =>
        have empty : statuses = [] := by
          cases statuses with
          | nil => rfl
          | cons => cases found
        rw [empty]
        apply Client.Ensures.pure
        intro state world holds
        exact ⟨⟨histories, []⟩, holds, (fun _ impossible => nomatch impossible),
          (fun _ impossible => nomatch impossible), fun _ _ => rfl⟩
    | some best =>
        rcases best with ⟨source, status⟩
        rcases newest_spec found with ⟨isSource, longest⟩
        have within : ∀ item ∈ statuses, item.1 ∈ start.replicasOf shard := fun item member =>
          heard.within.subset (List.mem_map_of_mem member)
        have begins : ∀ item ∈ statuses, (histories item.1).Begins (histories source) := by
          intro item member
          rcases nested item.1 (within item member) source (within _ isSource) with behind | ahead
          · exact behind
          · have order := longest item member
            rw [heard.lengths item member, heard.lengths _ isSource] at order
            rw [ahead.antisymm order]
            exact .refl _
        apply Client.Ensures.bind (syncBehind_ensures wired (known _ (within _ isSource))
          (heard.lengths _ isSource)
          statuses (heard.within.nodup (replicasOf_nodup start shard))
          (fun item member => known _ (within item member)) heard.lengths begins rfl _ _)
        intro synced
        have converged : Converged start [shard] histories
            (caughtUp histories (statuses.map Prod.fst) (histories source)) (statuses.map Prod.fst) := by
          have members : ∀ id ∈ statuses.map Prod.fst, id ∈ start.replicasOf shard ∧ id.shard = shard ∧
              (histories id).length ≤ (histories source).length := by
            intro id member
            rcases List.mem_map.mp member with ⟨item, isItem, rfl⟩
            exact ⟨within item isItem, replicasOf_shard _ _ _ (within item isItem),
              (begins item isItem).length_le⟩
          have sourceIn : source ∈ statuses.map Prod.fst := List.mem_map.mpr ⟨_, isSource, rfl⟩
          refine ⟨?_, ?_, ?_⟩
          · intro id member
            exact ⟨List.mem_singleton.mpr (members id member).2.1, known id (members id member).1⟩
          · intro id member
            refine ⟨source, sourceIn, (members source sourceIn).2.1.trans (members id member).2.1.symm, ?_,
              if_pos member⟩
            exact fun other isOther _ => (members other isOther).2.2
          · exact fun id outside => if_neg outside
        apply Client.Ensures.through fun _ => Repaired np npz config dim start
          (caughtUp histories (statuses.map Prod.fst) (histories source)) (answered ++ statuses.map Prod.fst)
          (start.replicasOf shard ++ asked)
        · apply Client.Ensures.modify
          intro state world holds
          exact ⟨holds.layout, holds.intact, holds.answered, holds.asked⟩
        · intro _
          apply Client.Ensures.pure
          intro state world holds
          exact ⟨⟨_, _⟩, holds, converged⟩
  · rintro state world ⟨rfl, holds⟩
    exact absurd holds.layout layout

theorem Converged.nested {shards : List Nat} {later : ReplicaId → History} {answered : List ReplicaId}
    (converged : Converged start shards histories later answered) {shard : Nat} (other : shard ∉ shards)
    (nested : Nested start histories shard) : Nested start later shard := by
  have same : ∀ id ∈ start.replicasOf shard, later id = histories id := by
    intro id member
    apply converged.kept
    intro isAnswered
    exact other (replicasOf_shard _ _ _ member ▸ (converged.inside id isAnswered).1)
  intro first isFirst second isSecond
  rw [same first isFirst, same second isSecond]
  exact nested first isFirst second isSecond

theorem repairShards_ensures (wired : ∀ id, start.Knows id → peerAt (start.stub id).peer = some id)
    (shards : List Nat) (distinct : shards.Nodup) (nested : ∀ shard ∈ shards, Nested start histories shard)
    (answered asked : List ReplicaId) :
    Repairing np npz config dim peerAt (Repaired np npz config dim start histories answered asked)
      (repairShards shards : Coordinating D _) fun _ state world => ∃ both :
      (ReplicaId → History) × List ReplicaId,
        Repaired np npz config dim start both.1 (answered ++ both.2)
          (shards.flatMap start.replicasOf ++ asked) state world ∧
          Converged start shards histories both.1 both.2 := by
  induction shards generalizing histories answered asked with
  | nil =>
      apply Client.Ensures.pure
      intro state world holds
      refine ⟨⟨histories, []⟩, ?_, .none histories⟩
      rw [List.append_nil]
      exact holds
  | cons shard rest inductionHypothesis =>
      rw [List.nodup_cons] at distinct
      apply Client.Ensures.bind (repairShard_ensures wired (nested shard List.mem_cons_self) answered asked)
      intro synced
      apply Client.Ensures.some
      rintro ⟨middle, front⟩
      apply Client.Ensures.given
      intro one
      have later := @inductionHypothesis middle distinct.2 (fun other member => one.nested
        (fun same => distinct.1 (List.mem_singleton.mp same ▸ member))
          (nested other (List.mem_cons_of_mem _ member)))
        (answered ++ front) (start.replicasOf shard ++ asked)
      apply Client.Ensures.bind later
      intro more
      apply Client.Ensures.pure
      rintro state world ⟨⟨last, back⟩, holds, many⟩
      refine ⟨⟨last, front ++ back⟩, ?_, one.cons many distinct.1⟩
      rw [← List.append_assoc]
      refine holds.among fun id member => ?_
      simp only [List.flatMap_cons, List.mem_append] at member ⊢
      tauto

theorem repair_ensures (wired : ∀ id, start.Knows id → peerAt (start.stub id).peer = some id)
    (nested : ∀ shard, Nested start histories shard) :
    Repairing np npz config dim peerAt
      (fun state world => state = start ∧ Intact np npz config dim start.Knows histories world ∧
        world.answered = [])
      (repair : Coordinating D _) fun _ _ world => ∃ later,
        Intact np npz config dim start.Knows later world ∧
          Converged start (List.range start.numShards) histories later world.answered ∧
          ∀ id, start.Knows id → world.Asked id := by
  apply Client.Ensures.get_bind
  intro coordinator
  by_cases same : coordinator = start
  · subst same
    apply Client.Ensures.bind ((repairShards_ensures wired (List.range coordinator.numShards) List.nodup_range
      (fun shard _ => nested shard) [] []).imp ?_ (fun _ _ _ holds => holds) fun _ _ _ impossible => impossible)
    · intro synced
      apply Client.Ensures.through fun _ _ world => ∃ later,
        Intact np npz config dim coordinator.Knows later world ∧
          Converged coordinator (List.range coordinator.numShards) histories later world.answered ∧
          ∀ id, coordinator.Knows id → world.Asked id
      · apply Client.Ensures.modify
        rintro state world ⟨⟨later, answered⟩, repaired, converged⟩
        refine ⟨later, repaired.intact, ?_, fun id isKnown => repaired.asked id ?_⟩
        · rw [repaired.answered, List.nil_append]
          exact converged
        · rw [List.append_nil, List.mem_flatMap]
          exact ⟨id.shard, List.mem_range.mpr (knows_shard isKnown), isKnown⟩
      · exact fun _ => Client.Ensures.pure fun _ _ holds => holds
    · rintro state world ⟨rfl, _, intact, none⟩
      exact ⟨rfl, intact, none, fun _ impossible => absurd impossible List.not_mem_nil⟩
  · rintro state world ⟨rfl, rfl, _⟩
    exact absurd rfl same

/-- What a repair leaves: every replica has answered, or its `Status` has failed; of
each shard, the replicas that answered have the last seq and the state of the most
advanced one among them, and no replica has lost anything. -/
structure AfterRepair (start : GrpcCoordinator) (world last : RepairWorld G) : Prop where
  asked : ∀ id, start.Knows id → id ∈ last.answered ∨ id ∈ last.failed
  advanced : ∀ first ∈ last.answered, ∃ source ∈ last.answered, source.shard = first.shard ∧
    ∀ id ∈ last.answered, id.shard = first.shard →
      (world.replicas id).state.lastSeq ≤ (world.replicas source).state.lastSeq ∧
      (last.replicas id).state.lastSeq = (world.replicas source).state.lastSeq ∧
      (last.replicas id).state.shard.contents = (world.replicas source).state.shard.contents
  kept : ∀ id, start.Knows id → (world.replicas id).history.Begins (last.replicas id).history ∧
    History.Within (world.replicas id).state.shard.contents (last.replicas id).state.shard.contents

theorem repair_converges (wired : ∀ id, start.Knows id → peerAt (start.stub id).peer = some id)
    {world : RepairWorld G} (intact : Intact np npz config dim start.Knows histories world)
    (nested : ∀ shard, Nested start histories shard) (fresh : world.answered = []) :
    Remote.Ensures (repairNetwork np npz config dim peerAt) (fun _ => True) (· = world)
      ((repair : Coordinating D _) start) fun result last =>
        (∃ synced state, result = .ok synced state) ∧ AfterRepair start world last := by
  apply (repair_ensures wired nested start).imp
  · rintro world rfl
    exact ⟨rfl, intact, fresh⟩
  · rintro (⟨synced, state⟩ | ⟨error, state⟩) last holds
    · refine ⟨⟨synced, state, rfl⟩, ?_⟩
      rcases holds with ⟨later, reached, converged, asked⟩
      have known : ∀ id ∈ last.answered, start.Knows id := fun id member => (converged.inside id member).2
      have lastSeqs : ∀ id, start.Knows id → (world.replicas id).state.lastSeq = (histories id).length := by
        intro id isKnown
        have on := intact id isKnown
        rw [Running.lastSeq on.alive, on.holds]
      have behind : ∀ id, start.Knows id → (histories id).Begins (later id) := by
        intro id isKnown
        by_cases isAnswered : id ∈ last.answered
        · rcases converged.advanced id isAnswered with ⟨source, isSource, same, longest, reached⟩
          rw [reached]
          have sourceIn : source ∈ start.replicasOf id.shard := by
            rw [← same]
            exact known source isSource
          rcases nested id.shard id isKnown source sourceIn with shorter | longer
          · exact shorter
          · rw [longer.antisymm (longest id isAnswered rfl)]
            exact .refl _
        · rw [converged.kept id isAnswered]
          exact .refl _
      refine ⟨asked, ?_, ?_⟩
      · intro first isFirst
        rcases converged.advanced first isFirst with ⟨source, isSource, same, longest, _⟩
        refine ⟨source, isSource, same, fun id isAnswered sameShard => ?_⟩
        have own := reached id (known id isAnswered)
        have others := intact source (known source isSource)
        -- Of two replicas that are both the most advanced neither is ahead.
        have caught : later id = histories source := by
          rcases converged.advanced id isAnswered with ⟨other, isOther, sameOther, longestOther, caught⟩
          have shorter := longest other isOther (sameOther.trans sameShard)
          have longer := longestOther source isSource (same.trans sameShard.symm)
          have ofSource : source ∈ start.replicasOf first.shard := same ▸ known source isSource
          have ofOther : other ∈ start.replicasOf first.shard :=
            (sameOther.trans sameShard) ▸ known other isOther
          rw [caught]
          rcases nested first.shard other ofOther source ofSource with begins | begins
          · exact begins.antisymm longer
          · exact (begins.antisymm shorter).symm
        refine ⟨?_, ?_, ?_⟩
        · rw [lastSeqs id (known id isAnswered), lastSeqs source (known source isSource)]
          exact longest id isAnswered sameShard
        · rw [Running.lastSeq own.alive, own.holds, caught, lastSeqs source (known source isSource)]
        · have first := Running.contents own.alive
          have second := Running.contents others.alive
          rw [own.holds, caught] at first
          rw [others.holds, first] at second
          exact Option.some.inj second
      · intro id isKnown
        have before := intact id isKnown
        have after := reached id isKnown
        have begins : (world.replicas id).history.Begins (last.replicas id).history := by
          rw [before.holds, after.holds]
          exact behind id isKnown
        exact ⟨begins, begins.within np ((Running.sound before.alive).filled np (Running.contents before.alive))
          ((Running.sound after.alive).filled np (Running.contents after.alive))⟩
    · exact holds.elim

end Loops

/-! ## Converging -/

/-- A repair whose calls succeed makes the replicas that answered equal to the
most advanced one.  And whatever the peer does and wherever its streams break,
a replica that catches up holds a beginning of the peer's history at every
moment and when the call ends, in whichever way. -/
theorem replicas_converge :
    (∀ (config : ReplicaId → Config) (dim : Nat) (peerAt : String → Option ReplicaId) (start : GrpcCoordinator)
        (histories : ReplicaId → History) (world : RepairWorld G),
      (∀ id, start.Knows id → peerAt (start.stub id).peer = some id) →
      Intact np npz config dim start.Knows histories world → (∀ shard, Nested start histories shard) →
      world.answered = [] →
      Remote.Ensures (repairNetwork np npz config dim peerAt) (fun _ => True) (· = world)
        ((repair : Coordinating D _) start) fun result last =>
          (∃ synced state, result = .ok synced state) ∧ AfterRepair start world last) ∧
    ∀ (config peerConfig : Config) (dim : Nat) (peer : Timeline np npz peerConfig dim) (replies : Nat → Replies)
        (history : History) (state : DurableShard G) (disk : Disk) (address : String) (attempts : Nat),
      Answered np npz peer replies → history.Begins (peer.at_ 0).history →
      Running np npz config dim history state disk →
      Program.Ensures exchange (Behind peer config history) (CaughtUp peer config history)
        (DurableShard.catchUp np npz state address attempts replies) ⟨disk, 0⟩ := by
  constructor
  · intro config dim peerAt start histories world wired intact nested fresh
    exact repair_converges wired intact nested fresh
  · intro config peerConfig dim peer replies history state disk address attempts answered back running
    exact catchUp_ensures np npz answered address attempts back running

section Sample

/-- Two replicas, the second of which lacks a write. -/
def laggingStart : GrpcCoordinator := init [["a", "b"]] none 5

def laggingPeers (address : String) : Option ReplicaId :=
  if address = "a" then some ⟨0, 0⟩ else if address = "b" then some ⟨0, 1⟩ else none

def emptyReplica : Replica Unit := ⟨⟨smallConfig.params, []⟩, emptyShard, emptyLog⟩

def axisReplica : Replica Unit :=
  ⟨History.push ⟨smallConfig.params, []⟩ axisWrite, axisOutcome.memory, axisOutcome.world⟩

def laggingWorld : RepairWorld Unit :=
  ⟨fun id => if id.place = 0 then axisReplica else emptyReplica, [], []⟩

theorem emptyReplica_alive : emptyReplica.Alive smallNumpy smallNpz smallConfig 2 := by
  rcases open_recovers smallNumpy smallNpz (recoverable_empty smallNumpy smallNpz smallConfig Nat.two_pos)
    with ⟨state, opened, run, running⟩
  have same : (DurableShard.openShard smallNumpy smallNpz smallConfig Disk.empty).run dataDirectory Disk.empty =
      ⟨emptyLog, some emptyShard, none⟩ := rfl
  rw [same] at run
  cases run
  exact running

theorem axisReplica_alive :
    axisReplica.Alive smallNumpy smallNpz smallConfig 2 ∧ axisReplica.history.Shaped := by
  have run : (DurableShard.addBatch smallNumpy smallNpz emptyShard axisWrite.globalIds axisWrite.vectors
    [] none).run
      dataDirectory emptyLog = ⟨axisOutcome.world, axisOutcome.memory, none⟩ := rfl
  have given : axisWrite.Given [] := rfl
  have moves : Replica.Moves smallNumpy smallNpz smallConfig 2 emptyReplica axisReplica :=
    .wrote given (by decide) (by decide) run
  rcases moves.keeps smallNumpy smallNpz emptyReplica_alive (fun _ impossible => nomatch impossible) with
    ⟨alive, shaped, _⟩
  exact ⟨alive, shaped⟩

/-- The first replica as a peer that nothing happens to. -/
def axisPeer : Timeline smallNumpy smallNpz smallConfig 2 where
  at_ := fun _ => axisReplica
  alive := axisReplica_alive.1
  shaped := axisReplica_alive.2
  moves := fun _ => .refl

def axisReplies (round : Nat) : Replies :=
  ⟨ShardServicer.fetchLog (.durable (axisPeer.at_ (2 * round + 1)).state) (axisPeer.at_ (2 * round + 1)).disk,
    (ShardServicer.fetchSnapshot smallNpz (.durable (axisPeer.at_ (2 * round + 2)).state)
      (axisPeer.at_ (2 * round + 2)).disk).2⟩

/-- Both replicas have answered. -/
def laggingAsked : RepairWorld Unit := { laggingWorld with answered := [⟨0, 0⟩, ⟨0, 1⟩] }

/-- The second replica copies the write it lacks from the first one. -/
def laggingOutcome : Outcome Exchange (Syncing Unit) Error :=
  (ShardServicer.syncFromDurable smallNumpy smallNpz (laggingAsked.replicas ⟨0, 1⟩).state "a"
    axisReplies).run exchange
    ⟨(laggingAsked.replicas ⟨0, 1⟩).disk, 0⟩

theorem laggingOutcome_returned : laggingOutcome.error = none := by
  decide +kernel

def laggingCaughtUp : RepairWorld Unit :=
  (laggingAsked.put ⟨0, 0⟩ axisReplica).put ⟨0, 1⟩
    ⟨axisReplica.history, laggingOutcome.memory.shard, laggingOutcome.world.disk⟩

def laggingResult : EStateM.Result Error GrpcCoordinator (List ReplicaSync) :=
  .ok [⟨0, "b", "a", "log", 1, 1⟩] { laggingStart with shardSizes := [1] }

/-- Both replicas answer, and the second one copies from the first. -/
theorem lagging_repairs : Remote.Runs (repairNetwork smallNumpy smallNpz (fun _ => smallConfig) 2 laggingPeers)
    ((repair : Coordinating Int _) laggingStart) laggingWorld laggingResult laggingCaughtUp := by
  have answered : Answered smallNumpy smallNpz axisPeer axisReplies := ⟨fun _ _ => .whole, fun _ => .whole⟩
  have response : ShardServicer.syncResponse laggingOutcome.memory = ⟨"log", 1, 1⟩ := by decide +kernel
  refine Remote.Runs.answered (.ok (ShardServicer.status (.durable axisReplica.state))) (Or.inl ⟨rfl, rfl⟩) ?_
  refine Remote.Runs.answered (.ok (ShardServicer.status (.durable emptyReplica.state))) (Or.inl ⟨rfl, rfl⟩) ?_
  have copied : Synced smallNumpy smallNpz (fun _ => smallConfig) 2 laggingPeers laggingAsked
    ⟨0, 1⟩ "a" ⟨"log", 1, 1⟩
      laggingCaughtUp := by
    rw [← response]
    exact @Synced.copied Int Unit _ smallNumpy smallNpz (fun _ => smallConfig) 2 laggingPeers laggingAsked
      ⟨0, 1⟩ "a"
      ⟨0, 0⟩ axisPeer axisReplies laggingOutcome rfl rfl (fun _ => rfl) answered rfl laggingOutcome_returned
  exact Remote.Runs.answered (.ok ⟨"log", 1, 1⟩) ⟨_, rfl, copied⟩ Remote.Runs.done

theorem replicas_converge_lagging :
    Remote.Runs (repairNetwork smallNumpy smallNpz (fun _ => smallConfig) 2 laggingPeers)
      ((repair : Coordinating Int _) laggingStart) laggingWorld laggingResult laggingCaughtUp ∧
    AfterRepair laggingStart laggingWorld laggingCaughtUp ∧ (laggingWorld.replicas ⟨0, 1⟩).state.lastSeq = 0 ∧
    (laggingCaughtUp.replicas ⟨0, 1⟩).state.lastSeq = 1 ∧
    (laggingCaughtUp.replicas ⟨0, 1⟩).state.shard.contents = axisReplica.state.shard.contents ∧
    CaughtUp axisPeer smallConfig emptyReplica.history
      ((DurableShard.catchUp smallNumpy smallNpz emptyShard "a" 3 axisReplies).run exchange ⟨emptyLog, 0⟩) := by
  have converge := replicas_converge smallNumpy smallNpz
  have begins : emptyReplica.history.Begins axisReplica.history := History.begins_push _ _
  have isKnown : ∀ id, laggingStart.Knows id → id = ⟨0, 0⟩ ∨ id = ⟨0, 1⟩ := by
    rintro ⟨shard, place⟩ known
    rcases List.mem_map.mp known with ⟨other, inside, same⟩
    cases same
    match shard with
    | 0 =>
        have small := List.mem_range.mp inside
        change place < 2 at small
        rcases (by omega : place = 0 ∨ place = 1) with rfl | rfl
        · exact Or.inl rfl
        · exact Or.inr rfl
    | shard + 1 => cases inside
  have after : AfterRepair laggingStart laggingWorld laggingCaughtUp := by
    refine ((converge.1 (fun _ => smallConfig) 2 laggingPeers laggingStart
      (fun id => (laggingWorld.replicas id).history) laggingWorld ?_ ?_ ?_ rfl laggingWorld rfl).1 _ _
        lagging_repairs).2
    · intro id known
      rcases isKnown id known with rfl | rfl
      · rfl
      · rfl
    · intro id known
      rcases isKnown id known with rfl | rfl
      · exact ⟨axisReplica_alive.1, axisReplica_alive.2, rfl⟩
      · exact ⟨emptyReplica_alive, (fun _ impossible => nomatch impossible), rfl⟩
    · intro shard first isFirst second isSecond
      rcases isKnown first (knows_of_mem isFirst) with rfl | rfl
      · rcases isKnown second (knows_of_mem isSecond) with rfl | rfl
        · exact Or.inl (.refl _)
        · exact Or.inr begins
      · rcases isKnown second (knows_of_mem isSecond) with rfl | rfl
        · exact Or.inl begins
        · exact Or.inl (.refl _)
  -- The replica that is ahead is the first one, and the second one has its state.
  have caught : (laggingCaughtUp.replicas ⟨0, 1⟩).state.lastSeq = 1 ∧
      (laggingCaughtUp.replicas ⟨0, 1⟩).state.shard.contents = axisReplica.state.shard.contents := by
    rcases after.advanced ⟨0, 1⟩ (List.mem_cons_of_mem _ (List.mem_singleton_self _)) with
      ⟨source, isSource, _, advanced⟩
    have most : 1 ≤ (laggingWorld.replicas source).state.lastSeq := (advanced ⟨0, 0⟩ List.mem_cons_self rfl).1
    rcases List.mem_cons.mp isSource with rfl | second
    · exact (advanced ⟨0, 1⟩ (List.mem_cons_of_mem _ (List.mem_singleton_self _)) rfl).2
    · rw [List.mem_singleton.mp second] at most
      exact absurd most (by decide)
  have answered : Answered smallNumpy smallNpz axisPeer axisReplies := ⟨fun _ _ => .whole, fun _ => .whole⟩
  exact ⟨lagging_repairs, after, rfl, caught.1, caught.2,
    (converge.2 smallConfig smallConfig 2 axisPeer axisReplies
    emptyReplica.history emptyShard emptyLog "a" 3 answered begins emptyReplica_alive).2⟩

end Sample
end GrpcCoordinator
end VectorSearch
