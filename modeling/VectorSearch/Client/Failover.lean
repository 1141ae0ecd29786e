import Mathlib.Data.List.Sort
import VectorSearch.Client.GrpcCoordinator
import VectorSearch.Index.Matching
import VectorSearch.Lib.Smallest

namespace VectorSearch

/-!
# Failover

`_scatter_gather` over replicas that answer or cannot answer right now.  The
replicas of a shard that do answer give the same answer, and nothing else is
assumed about them: which of them answer is left open, so a result that holds for
every run holds for every assignment of outcomes.
-/

/-- The searches sent so far, in order, and the replicas that could not answer. -/
structure SearchWorld where
  sent : List (ReplicaId × SearchRequest)
  failed : List ReplicaId

namespace SearchWorld

def start : SearchWorld := ⟨[], []⟩

/-- The replicas asked so far. -/
def asked (world : SearchWorld) : List ReplicaId := world.sent.map Prod.fst

def send (world : SearchWorld) (replica : ReplicaId) (request : SearchRequest) : SearchWorld :=
  { world with sent := world.sent ++ [(replica, request)] }

def fail (world : SearchWorld) (replica : ReplicaId) : SearchWorld :=
  { world with failed := world.failed ++ [replica] }

@[simp] theorem asked_send (world : SearchWorld) (replica : ReplicaId) (request : SearchRequest) :
    (world.send replica request).asked = world.asked ++ [replica] := List.map_append

@[simp] theorem asked_fail (world : SearchWorld) (replica : ReplicaId) :
    (world.fail replica).asked = world.asked := rfl

end SearchWorld

namespace GrpcCoordinator

variable {D : Type}

/-- Replicas that give their shard's answer or an error that another replica is
tried after.  Only searches are sent here; the handle of a search is its place
among them. -/
def searchNetwork (answers : Nat → SearchRequest → List (HitMessage D)) :
    Network Rpc (Rpc.Answer D) SearchWorld where
  answers := fun
    | .startSearch replica request => fun world handle last =>
        handle = world.sent.length ∧ last = world.send replica request
    | .finishSearch handle => fun world answer last =>
        ∀ replica request, world.sent[handle]? = some (replica, request) →
          (answer = .ok (answers replica.shard request) ∧ last = world) ∨
            ∃ error : RpcError, error.retryable = true ∧ answer = .error error ∧ last = world.fail replica
    | .monotonic => fun world _ last => last = world
    | .status _ => fun world _ last => last = world
    | .startAdd _ _ => fun world _ last => last = world
    | .finishAdd _ => fun world _ last => last = world
    | .syncFrom _ _ => fun world _ last => last = world
  moves := fun _ _ => False

/-- A call is always answered in some way. -/
theorem searchNetwork_answers (answers : Nat → SearchRequest → List (HitMessage D)) (call : Rpc)
    (world : SearchWorld) : ∃ answer last, (searchNetwork answers).answers call world answer last := by
  have error : RpcError := ⟨.unavailable, ""⟩
  cases call with
  | startSearch replica request => exact ⟨_, _, rfl, rfl⟩
  | finishSearch handle =>
      cases found : world.sent[handle]? with
      | none =>
          refine ⟨.error error, world, fun replica request impossible => ?_⟩
          rw [found] at impossible
          cases impossible
      | some entry =>
          refine ⟨.ok (answers entry.1.shard entry.2), world, fun replica request sent => Or.inl ?_⟩
          rw [found] at sent
          cases sent
          exact ⟨rfl, rfl⟩
  | monotonic => exact ⟨(0 : Int), world, rfl⟩
  | status replica => exact ⟨.error error, world, rfl⟩
  | startAdd replica request => exact ⟨(0 : Nat), world, rfl⟩
  | finishAdd handle => exact ⟨.error error, world, rfl⟩
  | syncFrom replica peer => exact ⟨.error error, world, rfl⟩

theorem searchNetwork_stable (answers : Nat → SearchRequest → List (HitMessage D))
    (holds : SearchWorld → Prop) : Remote.Stable (searchNetwork answers) holds :=
  fun _ _ _ move => nomatch move

/-! ## What a search keeps -/

/-- A search without an answer so far: the other replicas of its shard have
failed or are left, and those that are left have not been asked. -/
structure Waiting (group : Nat → List ReplicaId) (request : SearchRequest) (world : SearchWorld)
    (pending : Pending) : Prop where
  sent : world.sent[pending.handle]? = some (pending.replica, request)
  within : pending.replica ∈ group pending.replica.shard
  alive : pending.replica ∉ world.failed
  left : ∀ replica ∈ pending.left, replica ∈ group pending.replica.shard
  fresh : ∀ replica ∈ pending.left, replica ∉ world.asked
  distinct : pending.left.Nodup
  tried : ∀ replica ∈ group pending.replica.shard,
    replica = pending.replica ∨ replica ∈ pending.left ∨ replica ∈ world.failed

/-- The searches between two steps: every target is pending, missing or has
answered, and no replica was asked twice. -/
structure Progress (group : Nat → List ReplicaId) (request : SearchRequest) (targets : List Nat)
    (pending : List Pending) (missing answered : List Nat) (world : SearchWorld) : Prop where
  covered : (pending.map (fun search => search.replica.shard) ++ missing ++ answered).Perm targets
  waiting : ∀ search ∈ pending, Waiting group request world search
  gone : ∀ shard ∈ missing, ∀ replica ∈ group shard, replica ∈ world.failed
  here : ∀ shard ∈ answered, ∃ replica ∈ group shard, replica ∉ world.failed
  once : world.asked.Nodup
  only : ∀ entry ∈ world.sent, entry.1.shard ∈ targets ∧ entry.1 ∈ group entry.1.shard ∧ entry.2 = request
  asked : ∀ replica ∈ world.failed, replica ∈ world.asked

section Steps

variable {group : Nat → List ReplicaId} {request : SearchRequest} {targets : List Nat} {search : Pending}
  {pending : List Pending} {missing answered : List Nat} {world : SearchWorld}

theorem Waiting.asked (waiting : Waiting group request world search) : search.replica ∈ world.asked :=
  List.mem_map.mpr ⟨_, List.mem_of_getElem? waiting.sent, rfl⟩

/-- What happens to a replica of another shard. -/
theorem Waiting.fail (waiting : Waiting group request world search) {replica : ReplicaId}
    (other : replica.shard ≠ search.replica.shard) : Waiting group request (world.fail replica) search where
  sent := waiting.sent
  within := waiting.within
  alive := by
    intro failed
    rcases List.mem_append.mp failed with before | now
    · exact waiting.alive before
    · rw [List.mem_singleton] at now
      exact other (by rw [now])
  left := waiting.left
  fresh := waiting.fresh
  distinct := waiting.distinct
  tried := fun replica member => (waiting.tried replica member).imp_right
    (Or.imp_right fun failed => List.mem_append_left _ failed)

theorem Waiting.send (waiting : Waiting group request world search) (owned : ∀ shard, ∀ replica ∈ group shard,
    replica.shard = shard) {replica : ReplicaId} (other : replica.shard ≠ search.replica.shard) :
    Waiting group request (world.send replica request) search where
  sent := by
    have inside := (List.getElem?_eq_some_iff.mp waiting.sent).1
    exact (List.getElem?_append_left inside).trans waiting.sent
  within := waiting.within
  alive := waiting.alive
  left := waiting.left
  fresh := by
    intro next member asked
    rw [SearchWorld.asked_send] at asked
    rcases List.mem_append.mp asked with before | now
    · exact waiting.fresh next member before
    · rw [List.mem_singleton] at now
      rw [now] at member
      exact other (owned _ _ (waiting.left _ member))
  distinct := waiting.distinct
  tried := waiting.tried

/-- The shards of the searches are different. -/
theorem Progress.others (unique : targets.Nodup)
    (progress : Progress group request targets (search :: pending) missing answered world) :
    (∀ other ∈ pending, search.replica.shard ≠ other.replica.shard) ∧ search.replica.shard ∉ missing ∧
      search.replica.shard ∉ answered := by
  have distinct := progress.covered.nodup_iff.mpr unique
  rw [List.map_cons, List.cons_append, List.cons_append, List.nodup_cons, List.mem_append, List.mem_append,
    not_or, not_or] at distinct
  refine ⟨fun other member same => distinct.1.1.1 ?_, distinct.1.1.2, distinct.1.2⟩
  rw [same]
  exact List.mem_map_of_mem member

/-- An answer arrives. -/
theorem Progress.answers
    (progress : Progress group request targets (search :: pending) missing answered world) :
    Progress group request targets pending missing (answered ++ [search.replica.shard]) world where
  covered := by
    refine List.Perm.trans ?_ progress.covered
    rw [← List.append_assoc, List.map_cons, List.cons_append, List.cons_append]
    exact List.perm_append_singleton _ _
  waiting := fun other member => progress.waiting other (List.mem_cons_of_mem _ member)
  gone := progress.gone
  here := by
    intro shard member
    rcases List.mem_append.mp member with before | now
    · exact progress.here shard before
    · have waiting := progress.waiting search List.mem_cons_self
      rw [List.mem_singleton] at now
      exact ⟨search.replica, now ▸ waiting.within, waiting.alive⟩
  once := progress.once
  only := progress.only
  asked := progress.asked

/-- The parts of the invariant that a failure leaves to the shards without a search. -/
theorem Progress.fail_kept (unique : targets.Nodup)
    (owned : ∀ shard, ∀ replica ∈ group shard, replica.shard = shard)
    (progress : Progress group request targets (search :: pending) missing answered world) :
    (∀ other ∈ pending, Waiting group request (world.fail search.replica) other) ∧
      (∀ shard ∈ missing, ∀ replica ∈ group shard, replica ∈ (world.fail search.replica).failed) ∧
      (∀ shard ∈ answered, ∃ replica ∈ group shard, replica ∉ (world.fail search.replica).failed) ∧
      ∀ replica ∈ (world.fail search.replica).failed, replica ∈ world.asked := by
  rcases progress.others unique with ⟨otherShards, _, notAnswered⟩
  refine ⟨?_, ?_, ?_, ?_⟩
  · intro other member
    exact (progress.waiting other (List.mem_cons_of_mem _ member)).fail (otherShards other member)
  · intro shard member replica inGroup
    exact List.mem_append_left _ (progress.gone shard member replica inGroup)
  · intro shard member
    rcases progress.here shard member with ⟨replica, inGroup, alive⟩
    refine ⟨replica, inGroup, fun failed => ?_⟩
    rcases List.mem_append.mp failed with before | now
    · exact alive before
    · rw [List.mem_singleton] at now
      rw [now] at inGroup
      rw [owned _ _ inGroup] at notAnswered
      exact notAnswered member
  · intro replica failed
    rcases List.mem_append.mp failed with before | now
    · exact progress.asked replica before
    · rw [List.mem_singleton.mp now]
      exact (progress.waiting search List.mem_cons_self).asked

/-- The last replica of a shard fails. -/
theorem Progress.fails (unique : targets.Nodup) (owned : ∀ shard, ∀ replica ∈ group shard, replica.shard =
    shard)
    (progress : Progress group request targets (search :: pending) missing answered world)
    (last : search.left = []) :
    Progress group request targets pending (missing ++ [search.replica.shard]) answered
      (world.fail search.replica) := by
  rcases progress.fail_kept unique owned with ⟨waiting, gone, here, asked⟩
  refine ⟨?_, waiting, ?_, here, progress.once, progress.only, asked⟩
  · refine List.Perm.trans ?_ progress.covered
    rw [List.map_cons, List.cons_append, List.cons_append, ← List.append_assoc]
    apply List.Perm.trans (List.Perm.append_right answered (List.perm_append_singleton _ _))
    rfl
  · intro shard member
    rcases List.mem_append.mp member with before | now
    · exact gone shard before
    · intro replica inGroup
      rw [List.mem_singleton.mp now] at inGroup
      rcases (progress.waiting search List.mem_cons_self).tried replica inGroup with same | left | failed
      · rw [same]
        exact List.mem_append_right _ List.mem_cons_self
      · rw [last] at left
        cases left
      · exact List.mem_append_left _ failed

/-- A replica fails and the next one of its shard is asked. -/
theorem Progress.retries (unique : targets.Nodup)
    (owned : ∀ shard, ∀ replica ∈ group shard, replica.shard = shard)
    (progress : Progress group request targets (search :: pending) missing answered world) {next : ReplicaId}
    {left : List ReplicaId} (more : search.left = next :: left) :
    Progress group request targets (pending ++ [⟨next, world.sent.length, left⟩]) missing answered
      ((world.fail search.replica).send next request) := by
  have own := progress.waiting search List.mem_cons_self
  have isNext : next ∈ search.left := more ▸ List.mem_cons_self
  have inGroup := own.left next isNext
  have sameShard : next.shard = search.replica.shard := owned _ _ inGroup
  rcases progress.others unique with ⟨otherShards, notMissing, notAnswered⟩
  rcases progress.fail_kept unique owned with ⟨waiting, gone, here, asked⟩
  have distinct := own.distinct
  rw [more, List.nodup_cons] at distinct
  refine ⟨?_, ?_, gone, here, ?_, ?_, ?_⟩
  · refine List.Perm.trans ?_ progress.covered
    rw [List.map_append, List.map_singleton, List.map_cons, sameShard, List.append_assoc, List.append_assoc,
      List.append_assoc, List.cons_append, List.cons_append, List.nil_append]
    exact List.perm_middle
  · intro other member
    rcases List.mem_append.mp member with before | now
    · apply (waiting other before).send owned
      rw [sameShard]
      exact otherShards other before
    · rw [List.mem_singleton.mp now]
      refine ⟨?_, ?_, ?_, ?_, ?_, distinct.2, ?_⟩
      · exact List.getElem?_concat_length
      · rw [sameShard]
        exact inGroup
      · intro failed
        have nextAsked := asked next failed
        exact own.fresh next isNext nextAsked
      · intro replica later
        rw [sameShard]
        exact own.left replica (more ▸ List.mem_cons_of_mem _ later)
      · intro replica later isAsked
        rw [SearchWorld.asked_send] at isAsked
        rcases List.mem_append.mp isAsked with before | now
        · exact own.fresh replica (more ▸ List.mem_cons_of_mem _ later) before
        · rw [List.mem_singleton] at now
          exact distinct.1 (now ▸ later)
      · intro replica member
        rw [sameShard] at member
        rcases own.tried replica member with same | further | failed
        · exact Or.inr (Or.inr (List.mem_append_right _ (List.mem_singleton.mpr same)))
        · rw [more] at further
          rcases List.mem_cons.mp further with same | later
          · exact Or.inl same
          · exact Or.inr (Or.inl later)
        · exact Or.inr (Or.inr (List.mem_append_left _ failed))
  · rw [SearchWorld.asked_send]
    apply List.nodup_append.mpr
    refine ⟨progress.once, List.nodup_singleton _, ?_⟩
    intro replica isAsked other isOther same
    rw [List.mem_singleton.mp isOther] at same
    exact own.fresh next isNext (same ▸ isAsked)
  · intro entry member
    rcases List.mem_append.mp member with before | now
    · exact progress.only entry before
    · rw [List.mem_singleton.mp now]
      refine ⟨?_, ?_, rfl⟩
      · rw [sameShard]
        apply progress.covered.subset
        exact List.mem_append_left _ (List.mem_append_left _ List.mem_cons_self)
      · rw [sameShard]
        exact inGroup
  · intro replica failed
    rw [SearchWorld.asked_send]
    exact List.mem_append_left _ (asked replica failed)

/-- The first replica of a further shard is asked. -/
theorem Progress.starts (owned : ∀ shard, ∀ replica ∈ group shard, replica.shard = shard)
    (progress : Progress group request targets pending missing answered world) {shard : Nat}
    (new : shard ∉ targets) {replica : ReplicaId} {left : List ReplicaId}
    (order : (replica :: left).Perm (group shard)) (unique : (group shard).Nodup) :
    Progress group request (targets ++ [shard]) (pending ++ [⟨replica, world.sent.length, left⟩]) missing
      answered
      (world.send replica request) := by
  have members : ∀ other ∈ replica :: left, other ∈ group shard := fun other member => order.subset member
  have own : replica.shard = shard := owned _ _ (members replica List.mem_cons_self)
  have distinct := List.nodup_cons.mp (order.nodup_iff.mpr unique)
  have unasked : ∀ other ∈ replica :: left, other ∉ world.asked := by
    intro other member isAsked
    rcases List.mem_map.mp isAsked with ⟨entry, sent, isOther⟩
    have target := (progress.only entry sent).1
    rw [isOther, owned _ _ (members other member)] at target
    exact new target
  have shards : ∀ search ∈ pending, replica.shard ≠ search.replica.shard := by
    intro search member same
    apply new
    rw [← own, same]
    apply progress.covered.subset
    exact List.mem_append_left _ (List.mem_append_left _ (List.mem_map_of_mem member))
  refine ⟨?_, ?_, progress.gone, progress.here, ?_, ?_, ?_⟩
  · rw [List.map_append, List.map_singleton, own, List.append_assoc, List.append_assoc]
    refine List.Perm.trans ?_ (List.Perm.append_right [shard] progress.covered)
    rw [List.append_assoc, List.append_assoc]
    apply List.Perm.append_left
    rw [← List.append_assoc missing]
    exact List.perm_append_comm
  · intro search member
    rcases List.mem_append.mp member with before | now
    · exact (progress.waiting search before).send owned (shards search before)
    · rw [List.mem_singleton.mp now]
      refine ⟨List.getElem?_concat_length, ?_, ?_, ?_, ?_, distinct.2, ?_⟩
      · rw [own]
        exact members replica List.mem_cons_self
      · exact fun failed => unasked replica List.mem_cons_self (progress.asked replica failed)
      · intro other later
        rw [own]
        exact members other (List.mem_cons_of_mem _ later)
      · intro other later isAsked
        rw [SearchWorld.asked_send] at isAsked
        rcases List.mem_append.mp isAsked with before | now
        · exact unasked other (List.mem_cons_of_mem _ later) before
        · rw [List.mem_singleton] at now
          exact distinct.1 (now ▸ later)
      · intro other member
        rw [own] at member
        rcases List.mem_cons.mp (order.symm.subset member) with same | later
        · exact Or.inl same
        · exact Or.inr (Or.inl later)
  · rw [SearchWorld.asked_send]
    apply List.nodup_append.mpr
    refine ⟨progress.once, List.nodup_singleton _, ?_⟩
    intro other isAsked next isNext same
    rw [List.mem_singleton.mp isNext] at same
    exact unasked replica List.mem_cons_self (same ▸ isAsked)
  · intro entry member
    rcases List.mem_append.mp member with before | now
    · rcases progress.only entry before with ⟨target, inGroup, isRequest⟩
      exact ⟨List.mem_append_left _ target, inGroup, isRequest⟩
    · rw [List.mem_singleton.mp now]
      refine ⟨List.mem_append_right _ (List.mem_singleton.mpr own), ?_, rfl⟩
      rw [own]
      exact members replica List.mem_cons_self
  · intro other failed
    rw [SearchWorld.asked_send]
    exact List.mem_append_left _ (progress.asked other failed)

end Steps

/-! ## One round -/

section Rounds

variable {answers : Nat → SearchRequest → List (HitMessage D)} {group : Nat → List ReplicaId}
  {request : SearchRequest} {targets : List Nat} {search : Pending}

/-- What one shard's answer adds to the results. -/
def answerOf (answers : Nat → SearchRequest → List (HitMessage D)) (request : SearchRequest)
    (withPayloads : Bool) (shard : Nat) : List (Scored D) := scoredOf withPayloads (answers shard request)

/-- Where a search stands, with the results gathered so far. -/
def Stands (answers : Nat → SearchRequest → List (HitMessage D)) (group : Nat → List ReplicaId)
    (request : SearchRequest) (withPayloads : Bool) (targets : List Nat) (pending : List Pending)
    (perShard : List (List (Scored D))) (missing : List Nat) (world : SearchWorld) : Prop :=
  ∃ answered, perShard = answered.map (answerOf answers request withPayloads) ∧
    Progress group request targets pending missing answered world

/-- Client code that returns, whatever is answered. -/
abbrev Returns {α : Type} (answers : Nat → SearchRequest → List (HitMessage D))
    (before : GrpcCoordinator → SearchWorld → Prop) (client : Coordinating D α)
    (returned : α → GrpcCoordinator → SearchWorld → Prop) : Prop :=
  Client.Ensures (searchNetwork answers) (fun _ => True) before client returned fun _ _ _ => False

theorem Returns.call {call : Rpc} {before : GrpcCoordinator → SearchWorld → Prop}
    {returned : Rpc.Answer D call → GrpcCoordinator → SearchWorld → Prop}
    (given : ∀ state world answer last, before state world →
      (searchNetwork answers).answers call world answer last → returned answer state last) :
    Returns answers before (Client.call call) returned :=
  Client.Ensures.call (fun _ => searchNetwork_stable answers _) (fun _ _ _ => trivial) given

theorem Returns.unreachable {α : Type} {before : GrpcCoordinator → SearchWorld → Prop}
    {client : Coordinating D α} {returned : α → GrpcCoordinator → SearchWorld → Prop}
    (never : ∀ state world, ¬ before state world) : Returns answers before client returned :=
  fun state world holds => absurd holds (never state world)

/-- What is known of the world does not depend on the coordinator's own state. -/
theorem Returns.modify_bind {α : Type} {before : SearchWorld → Prop}
    {change : GrpcCoordinator → GrpcCoordinator}
    {next : PUnit → Coordinating D α} {returned : α → GrpcCoordinator → SearchWorld → Prop}
    (rest : Returns answers (fun _ => before) (next ⟨⟩) returned) :
    Returns answers (fun _ => before) (modify change >>= next) returned := by
  have changes : Returns answers (fun _ => before) (modify change : Coordinating D PUnit) fun _ _ => before :=
    Client.Ensures.modify fun _ _ holds => holds
  exact Client.Ensures.bind changes fun _ => rest

theorem Returns.set_bind {α : Type} {before : GrpcCoordinator → SearchWorld → Prop} {state : GrpcCoordinator}
    {next : PUnit → Coordinating D α} {returned : α → GrpcCoordinator → SearchWorld → Prop}
    (middle : GrpcCoordinator → SearchWorld → Prop)
    (sets : ∀ old world, before old world → middle state world)
    (rest : Returns answers middle (next ⟨⟩) returned) :
    Returns answers before (set state >>= next) returned := by
  have changes : Returns answers before (set state : Coordinating D PUnit) fun _ => middle :=
    Client.Ensures.set sets
  exact Client.Ensures.bind changes fun _ => rest

theorem Returns.given {α β : Type} {value : β} {before : GrpcCoordinator → SearchWorld → Prop}
    {next : β → Coordinating D α} {returned : α → GrpcCoordinator → SearchWorld → Prop}
    (rest : Returns answers before (next value) returned) :
    Returns answers before (Client.lift (.ok value) >>= next) returned := rest

/-- A call that tells nothing of the searches. -/
theorem Returns.monotonic {before : GrpcCoordinator → SearchWorld → Prop} :
    Returns answers before (Client.call Rpc.monotonic) fun _ => before :=
  Returns.call fun _ _ _ _ holds same => same ▸ holds

/-- Sending a search gives the handle that its answer is asked for with. -/
theorem Returns.startSearch {before : GrpcCoordinator → SearchWorld → Prop} {replica : ReplicaId} :
    Returns answers before (Client.call (Rpc.startSearch replica request)) fun handle state world =>
      ∃ earlier, before state earlier ∧ handle = earlier.sent.length ∧ world = earlier.send replica request :=
  Returns.call fun _ world _ _ holds given => ⟨world, holds, given⟩

/-- A search is answered, or its replica fails. -/
theorem Returns.finishSearch {withPayloads : Bool} {others : List Pending} {perShard : List (List (Scored D))}
    {missing : List Nat} :
    Returns answers
      (fun _ => Stands answers group request withPayloads targets (search :: others) perShard missing)
      (Client.call (Rpc.finishSearch search.handle)) fun answer _ world =>
        (answer = .ok (answers search.replica.shard request) ∧
          Stands answers group request withPayloads targets (search :: others) perShard missing world) ∨
        ∃ error : RpcError, error.retryable = true ∧ answer = .error error ∧ ∃ earlier,
          Stands answers group request withPayloads targets (search :: others) perShard missing earlier ∧
            world = earlier.fail search.replica := by
  apply Returns.call
  rintro state world answer last ⟨answered, isPerShard, progress⟩ given
  have sent := (progress.waiting search List.mem_cons_self).sent
  rcases given _ _ sent with ⟨isAnswer, same⟩ | ⟨error, retryable, isError, failed⟩
  · exact Or.inl ⟨isAnswer, same ▸ ⟨answered, isPerShard, progress⟩⟩
  · exact Or.inr ⟨error, retryable, isError, world, ⟨answered, isPerShard, progress⟩, failed⟩

/-- One search of a round: it leaves the others as they were, and what it is
retried with has fewer replicas left. -/
theorem gatherOne_returns (withPayloads : Bool) (unique : targets.Nodup)
    (owned : ∀ shard, ∀ replica ∈ group shard, replica.shard = shard) (others : List Pending)
    (gathered : Gathered D) :
    Returns answers
      (fun _ => Stands answers group request withPayloads targets (search :: others) gathered.perShard
        gathered.missing)
      (gatherOne request withPayloads search gathered) fun result _ world =>
        ∃ retries, result.retries = gathered.retries ++ retries ∧
          (∀ retry ∈ retries, retry.left.length < search.left.length) ∧
          Stands answers group request withPayloads targets (others ++ retries) result.perShard
            result.missing world := by
  apply Client.Ensures.bind Returns.finishSearch
  intro answer
  cases answer with
  | ok hits =>
      apply Returns.modify_bind
      apply Client.Ensures.pure
      rintro state world (⟨isAnswer, answered, isPerShard, progress⟩ | ⟨_, _, impossible, _⟩)
      · cases isAnswer
        refine ⟨[], (List.append_nil _).symm, (fun _ impossible => nomatch impossible),
          answered ++ [search.replica.shard], ?_, ?_⟩
        · rw [List.map_append, ← isPerShard]
          rfl
        · rw [List.append_nil]
          exact progress.answers
      · cases impossible
  | error error =>
      by_cases retryable : error.retryable = true
      · simp only [retryable, Bool.not_true, Bool.false_eq_true, if_false]
        apply Client.Ensures.bind Returns.monotonic
        intro now
        apply Returns.modify_bind
        cases isLeft : search.left with
        | nil =>
            apply Client.Ensures.pure
            rintro state world (⟨impossible, _⟩ | ⟨_, _, _, earlier, ⟨answered, isPerShard, progress⟩, failed⟩)
            · cases impossible
            · refine ⟨[], (List.append_nil _).symm, (fun _ impossible => nomatch impossible),
                answered, isPerShard, ?_⟩
              rw [List.append_nil, failed]
              exact progress.fails unique owned isLeft
        | cons next left =>
            apply Returns.modify_bind
            apply Client.Ensures.bind Returns.startSearch
            intro handle
            apply Client.Ensures.pure
            rintro state world ⟨middle, (⟨impossible, _⟩ |
              ⟨_, _, _, earlier, ⟨answered, isPerShard, progress⟩, failed⟩), isHandle, sent⟩
            · cases impossible
            · refine ⟨[⟨next, handle, left⟩], rfl, ?_, answered, isPerShard, ?_⟩
              · intro retry member
                rw [List.mem_singleton.mp member]
                exact Nat.lt_succ_self _
              · rw [sent, isHandle, failed]
                exact progress.retries unique owned isLeft
      · apply Returns.unreachable
        rintro state world (⟨impossible, _⟩ | ⟨other, isRetryable, same, _⟩)
        · cases impossible
        · cases same
          exact retryable isRetryable

variable (answers group request) in
/-- A round over searches, with others that were retried in it already. -/
theorem gatherRound_returns (withPayloads : Bool) (unique : targets.Nodup)
    (owned : ∀ shard, ∀ replica ∈ group shard, replica.shard = shard) {bound : Nat} (searches : List Pending)
    (short : ∀ search ∈ searches, search.left.length ≤ bound) (gathered : Gathered D)
    (retried : ∀ retry ∈ gathered.retries, retry.left.length < bound) :
    Returns answers
      (fun _ => Stands answers group request withPayloads targets (searches ++ gathered.retries)
        gathered.perShard gathered.missing)
      (gatherRound request withPayloads searches gathered) fun result _ world =>
        (∀ retry ∈ result.retries, retry.left.length < bound) ∧
          Stands answers group request withPayloads targets result.retries result.perShard
            result.missing world := by
  induction searches generalizing gathered with
  | nil => exact Client.Ensures.pure fun state world stands => ⟨retried, stands⟩
  | cons search rest inductionHypothesis =>
      apply Client.Ensures.bind
        (gatherOne_returns withPayloads unique owned (rest ++ gathered.retries) gathered)
      intro result state world holds
      rcases holds with ⟨retries, isRetries, shorter, stands⟩
      have within : ∀ retry ∈ result.retries, retry.left.length < bound := by
        intro retry member
        rw [isRetries] at member
        rcases List.mem_append.mp member with before | now
        · exact retried retry before
        · exact Nat.lt_of_lt_of_le (shorter retry now) (short search List.mem_cons_self)
      have later := inductionHypothesis (fun other member => short other (List.mem_cons_of_mem _ member))
        result within
      apply later state world
      rw [isRetries, ← List.append_assoc]
      exact stands

/-- The rounds end: each uses up a replica of every search that goes on. -/
theorem gatherRounds_returns (withPayloads : Bool) (unique : targets.Nodup)
    (owned : ∀ shard, ∀ replica ∈ group shard, replica.shard = shard) (rounds : Nat) (searches : List Pending)
    (short : ∀ search ∈ searches, search.left.length < rounds) (perShard : List (List (Scored D)))
    (missing : List Nat) :
    Returns answers
      (fun _ => Stands answers group request withPayloads targets searches perShard missing)
      (gatherRounds request withPayloads rounds searches perShard missing) fun result _ world =>
        Stands answers group request withPayloads targets [] result.1 result.2 world := by
  induction rounds generalizing searches perShard missing with
  | zero =>
      cases searches with
      | nil => exact Client.Ensures.pure fun state world stands => stands
      | cons search rest => exact absurd (short search List.mem_cons_self) (Nat.not_lt_zero _)
  | succ rounds inductionHypothesis =>
      cases searches with
      | nil => exact Client.Ensures.pure fun state world stands => stands
      | cons search rest =>
          have round := gatherRound_returns answers group request withPayloads unique owned
            (search :: rest) (fun other member => Nat.le_of_lt_succ (short other member))
            ⟨perShard, missing, []⟩ (fun retry impossible => absurd impossible List.not_mem_nil)
          rw [List.append_nil] at round
          apply Client.Ensures.bind round
          intro result state world holds
          exact inductionHypothesis result.retries holds.1 result.perShard result.missing state world holds.2

/-! ## The first searches -/

/-- Rotating and sorting by a mark keeps the items. -/
theorem rotated_perm {α : Type} (items : List α) (start : Nat) (first : α → Bool) :
    ((items.drop start ++ items.take start).filter first ++
      (items.drop start ++ items.take start).filter fun item => !first item).Perm items := by
  have rotated : (items.drop start ++ items.take start).Perm items := by
    apply List.perm_append_comm.trans
    rw [List.take_append_drop]
  exact (List.filter_append_perm first _).trans rotated

/-- The order in which a shard's replicas are tried holds all of them, whatever
the rotation and the marks. -/
theorem replicaOrder_returns {coordinator : GrpcCoordinator} {shard : Nat} (now : Int)
    (replicated : coordinator.replicasOf shard ≠ []) (here : SearchWorld → Prop) :
    Returns answers (fun state world => state.replicas = coordinator.replicas ∧ here world)
      (replicaOrder shard now) fun order state world =>
        order.Perm (coordinator.replicasOf shard) ∧ state.replicas = coordinator.replicas ∧ here world := by
  apply Client.Ensures.get_bind
  intro read
  by_cases same : read.replicas = coordinator.replicas
  · have group : read.replicasOf shard = coordinator.replicasOf shard := by rw [replicasOf, replicasOf, same]
    simp only [group, replicated, if_false]
    apply Returns.set_bind fun state world => state.replicas = coordinator.replicas ∧ here world
    · exact fun _ _ holds => ⟨same, holds.2.2⟩
    · exact Client.Ensures.pure fun _ _ holds => ⟨rotated_perm _ _ _, holds⟩
  · apply Returns.unreachable
    rintro state world ⟨isRead, isSame, _⟩
    exact same (isRead ▸ isSame)

theorem replicaOrders_returns {coordinator : GrpcCoordinator} (now : Int) (shards : List Nat)
    (replicated : ∀ shard ∈ shards, coordinator.replicasOf shard ≠ []) (here : SearchWorld → Prop) :
    Returns answers (fun state world => state.replicas = coordinator.replicas ∧ here world)
      (replicaOrders now shards) fun orders _ world =>
        List.Forall₂ (fun shard order => order.Perm (coordinator.replicasOf shard)) shards orders ∧
          here world := by
  induction shards generalizing here with
  | nil => exact Client.Ensures.pure fun _ _ holds => ⟨.nil, holds.2⟩
  | cons shard rest inductionHypothesis =>
      apply Client.Ensures.bind (replicaOrder_returns now (replicated shard List.mem_cons_self) here)
      intro order
      have later := inductionHypothesis (fun other member => replicated other (List.mem_cons_of_mem _ member))
        fun world => order.Perm (coordinator.replicasOf shard) ∧ here world
      have rearranged := later.imp
        (fun state world (holds : order.Perm (coordinator.replicasOf shard) ∧
          state.replicas = coordinator.replicas ∧ here world) => ⟨holds.2.1, holds.1, holds.2.2⟩)
        (fun _ _ _ holds => holds) fun _ _ _ impossible => impossible
      apply Client.Ensures.bind rearranged
      intro orders
      exact Client.Ensures.pure fun _ _ holds => ⟨.cons holds.2.1 holds.1, holds.2.2⟩

/-- The first replica of each order is asked, after the shards done so far. -/
theorem startSearches_returns {coordinator : GrpcCoordinator} (withPayloads : Bool)
    {orders : List (List ReplicaId)} {shards done : List Nat}
    (permuted : List.Forall₂ (fun shard order => order.Perm (coordinator.replicasOf shard))
      shards orders) (replicated : ∀ shard ∈ shards, coordinator.replicasOf shard ≠ [])
    (unique : (done ++ shards).Nodup) (searches : List Pending) :
    Returns answers
      (fun _ => Stands answers coordinator.replicasOf request withPayloads done searches [] [])
      (startSearches request orders) fun started _ world =>
        (∀ search ∈ started, ∃ order ∈ orders, search.left.length < order.length) ∧
          Stands answers coordinator.replicasOf request withPayloads (done ++ shards)
            (searches ++ started) [] []
            world := by
  induction permuted generalizing done searches with
  | nil =>
      apply Client.Ensures.pure
      intro state world stands
      rw [List.append_nil, List.append_nil]
      exact ⟨fun _ impossible => absurd impossible List.not_mem_nil, stands⟩
  | @cons shard order shards orders perm _ inductionHypothesis =>
      cases order with
      | nil => exact absurd perm.nil_eq.symm (replicated shard List.mem_cons_self)
      | cons replica left =>
          have new : shard ∉ done := by
            intro member
            exact (List.nodup_append.mp unique).2.2 shard member shard List.mem_cons_self rfl
          have split : (done ++ [shard] ++ shards).Nodup := by rwa [List.append_assoc, List.singleton_append]
          apply Client.Ensures.bind Returns.startSearch
          intro handle
          have later := inductionHypothesis
            (fun other member => replicated other (List.mem_cons_of_mem _ member))
            split (searches ++ [⟨replica, handle, left⟩])
          have after := later.imp
            (fun state world (holds : ∃ earlier,
              Stands answers coordinator.replicasOf request withPayloads done searches [] [] earlier ∧
                handle = earlier.sent.length ∧ world = earlier.send replica request) => by
              rcases holds with ⟨earlier, ⟨answered, isPerShard, progress⟩, isHandle, sent⟩
              refine ⟨answered, isPerShard, ?_⟩
              rw [isHandle, sent]
              exact progress.starts coordinator.replicasOf_shard new perm (coordinator.replicasOf_nodup shard))
            (fun _ _ _ holds => holds) fun _ _ _ impossible => impossible
          apply Client.Ensures.bind after
          intro started
          apply Client.Ensures.pure
          rintro state world ⟨short, stands⟩
          rw [List.append_assoc, List.append_assoc, List.singleton_append, List.singleton_append] at stands
          refine ⟨?_, stands⟩
          intro search member
          rcases List.mem_cons.mp member with same | further
          · exact ⟨replica :: left, List.mem_cons_self, same ▸ Nat.lt_succ_self _⟩
          · rcases short search further with ⟨order, isOrder, shorter⟩
            exact ⟨order, List.mem_cons_of_mem _ isOrder, shorter⟩

end Rounds

/-! ## Every run -/

theorem key_injective [LinearOrder D] : Function.Injective (Scored.key : Scored D → _) := by
  intro left right same
  unfold Scored.key at same
  have parts := toLex.injective same
  rw [Prod.mk.injEq] at parts
  have others := toLex.injective parts.2
  rw [Prod.mk.injEq] at others
  exact Scored.ext parts.1 others.1 others.2

/-- The shards none of whose replicas could answer. -/
def deadShards (coordinator : GrpcCoordinator) (targets : List Nat) (world : SearchWorld) : List Nat :=
  targets.filter fun shard => decide (∀ replica ∈ coordinator.replicasOf shard, replica ∈ world.failed)

/-- The other shards. -/
def liveShards (coordinator : GrpcCoordinator) (targets : List Nat) (world : SearchWorld) : List Nat :=
  targets.filter fun shard => !decide (∀ replica ∈ coordinator.replicasOf shard, replica ∈ world.failed)

variable [LinearOrder D]

/-- A search with failover: no replica is asked twice or without need, only the
shards without a replica that answers are missing, and the result is the merge of
the answers of the others.  It tells neither which replica answered nor when. -/
structure Invisible (answers : Nat → SearchRequest → List (HitMessage D)) (coordinator : GrpcCoordinator)
    (request : SearchRequest) (targets : List Nat) (k : Int) (withPayloads : Bool) (scored : List (Scored D))
    (missing : List Nat) (world : SearchWorld) : Prop where
  once : world.asked.Nodup
  only : ∀ entry ∈ world.sent, entry.1.shard ∈ targets ∧ entry.1 ∈ coordinator.replicasOf entry.1.shard ∧
    entry.2 = request
  tried : ∀ replica ∈ world.failed, replica ∈ world.asked
  missing : missing = coordinator.deadShards targets world
  merged : scored = nsmallest k
    ((coordinator.liveShards targets world).flatMap (answerOf answers request withPayloads))
  exact : ∀ union : Nat → List (Scored D),
    (∀ shard ∈ coordinator.liveShards targets world,
      answerOf answers request withPayloads shard = nsmallest k (union shard)) →
    scored = nsmallest k ((coordinator.liveShards targets world).flatMap union)

theorem Progress.invisible {answers : Nat → SearchRequest → List (HitMessage D)} {coordinator : GrpcCoordinator}
    {request : SearchRequest} {targets : List Nat} (ordered : targets.Pairwise (· < ·)) (k : Int)
    (withPayloads : Bool) {missing answered : List Nat} {world : SearchWorld}
    (progress : Progress coordinator.replicasOf request targets [] missing answered world) :
    Invisible answers coordinator request targets k withPayloads
      (mergeTopKScored (answered.map (answerOf answers request withPayloads)) k)
      (missing.insertionSort (· ≤ ·)) world := by
  let dead := fun shard => decide (∀ replica ∈ coordinator.replicasOf shard, replica ∈ world.failed)
  have covered : (missing ++ answered).Perm targets := progress.covered
  have allDead : ∀ shard ∈ missing, dead shard = true := fun shard member => decide_eq_true
    (progress.gone shard member)
  have allLive : ∀ shard ∈ answered, (!dead shard) = true := by
    intro shard member
    rcases progress.here shard member with ⟨replica, inGroup, alive⟩
    rw [Bool.not_eq_true', decide_eq_false_iff_not]
    exact fun all => alive (all replica inGroup)
  have isMissing : missing.Perm (coordinator.deadShards targets world) := by
    have filtered := covered.filter dead
    have none : answered.filter dead = [] := by
      rw [List.filter_eq_nil_iff]
      intro shard member isDead
      have live := allLive shard member
      rw [isDead] at live
      cases live
    rwa [List.filter_append, List.filter_eq_self.mpr allDead, none, List.append_nil] at filtered
  have isAnswered : answered.Perm (coordinator.liveShards targets world) := by
    have filtered := covered.filter fun shard => !dead shard
    have none : missing.filter (fun shard => !dead shard) = [] := by
      rw [List.filter_eq_nil_iff]
      intro shard member isLive
      rw [allDead shard member] at isLive
      cases isLive
    rwa [List.filter_append, List.filter_eq_self.mpr allLive, none, List.nil_append] at filtered
  have merged : mergeTopKScored (answered.map (answerOf answers request withPayloads)) k =
      nsmallest k ((coordinator.liveShards targets world).flatMap (answerOf answers request withPayloads)) := by
    unfold mergeTopKScored
    rw [← List.flatMap_def]
    exact Smallest.smallest_perm key_injective k.toNat (isAnswered.flatMap_right _)
  refine ⟨progress.once, progress.only, progress.asked, ?_, merged, ?_⟩
  · have sorted : (coordinator.deadShards targets world).Pairwise (· ≤ ·) :=
      (ordered.imp fun less => Nat.le_of_lt less).sublist List.filter_sublist
    apply List.Perm.eq_of_pairwise (fun _ _ _ _ below above => Nat.le_antisymm below above) _ sorted
    · exact (List.perm_insertionSort _ missing).trans isMissing
    · exact List.pairwise_insertionSort _ missing
  · intro union whole
    rw [merged, List.flatMap_def, List.map_congr_left whole, List.flatMap_def]
    have parts := Smallest.smallest_flatten key_injective k.toNat
      ((coordinator.liveShards targets world).map union)
    rw [List.map_map] at parts
    exact parts

theorem scatterGather_returns {answers : Nat → SearchRequest → List (HitMessage D)}
    {coordinator : GrpcCoordinator} {query : List Float32Bits} {k : Int} {withPayloads : Bool}
    {filter : Payload}
    {name : Option String} {normal : Option Filter} {targets : List Nat} {request : SearchRequest}
    (planned : planQuery filter name coordinator.numShards = .ok (normal, targets))
    (built : searchRequest query k withPayloads normal = .ok request)
    (replicated : ∀ shard ∈ targets, coordinator.replicasOf shard ≠ []) :
    Returns answers (fun state world => state = coordinator ∧ world = SearchWorld.start)
      (scatterGather query k withPayloads filter name) fun result _ world =>
        Invisible answers coordinator request targets k withPayloads result.1 result.2
          world := by
  have ordered := planQuery_increasing planned
  have unique : targets.Nodup := ordered.imp fun less => Nat.ne_of_lt less
  apply Client.Ensures.get_bind
  intro read
  by_cases same : read = coordinator
  · rw [same, planned]
    change Returns _ _ (Client.lift (searchRequest query k withPayloads normal) >>= _) _
    rw [built]
    apply Returns.given
    have noSearch : Stands answers coordinator.replicasOf request withPayloads [] [] [] []
        SearchWorld.start :=
      ⟨[], rfl, List.Perm.refl _, fun _ impossible => absurd impossible List.not_mem_nil,
        fun _ impossible => absurd impossible List.not_mem_nil,
        fun _ impossible => absurd impossible List.not_mem_nil, List.nodup_nil,
        fun _ impossible => absurd impossible List.not_mem_nil,
        fun _ impossible => absurd impossible List.not_mem_nil⟩
    apply Client.Ensures.bind Returns.monotonic
    intro now
    have ordering : Returns answers
        (fun state world => state.replicas = coordinator.replicas ∧ world = SearchWorld.start)
        (replicaOrders now targets) _ := replicaOrders_returns now targets replicated _
    apply Client.Ensures.bind (ordering.imp
      (fun state world (holds : state = coordinator ∧ state = coordinator ∧ world = SearchWorld.start) =>
        ⟨congrArg replicas holds.1, holds.2.2⟩)
      (fun _ _ _ holds => holds) fun _ _ _ impossible => impossible)
    intro orders
    by_cases permuted : List.Forall₂ (fun shard order => order.Perm (coordinator.replicasOf shard))
      targets orders
    · have starting : Returns answers
          (fun _ => Stands answers coordinator.replicasOf request withPayloads [] [] [] [])
          (startSearches request orders) _ :=
        startSearches_returns withPayloads permuted replicated (List.nil_append targets ▸ unique) []
      apply Client.Ensures.bind (starting.imp
        (fun _ world (holds : _ ∧ world = SearchWorld.start) => holds.2 ▸ noSearch)
        (fun _ _ _ holds => holds) fun _ _ _ impossible => impossible)
      intro started
      by_cases short : ∀ search ∈ started, ∃ order ∈ orders, search.left.length < order.length
      · have enough : ∀ search ∈ started, search.left.length < (orders.map List.length).foldl max 0 := by
          intro search member
          rcases short search member with ⟨order, isOrder, shorter⟩
          exact Nat.lt_of_lt_of_le shorter (le_foldl_max (Or.inl (List.mem_map_of_mem isOrder)))
        have rounds : Returns answers
            (fun _ => Stands answers coordinator.replicasOf request withPayloads targets
              started [] [])
            (gatherRounds request withPayloads ((orders.map List.length).foldl max 0)
              started [] []) _ :=
          gatherRounds_returns withPayloads unique coordinator.replicasOf_shard _ started enough [] []
        apply Client.Ensures.bind (rounds.imp (fun _ _ holds => holds.2) (fun _ _ _ holds => holds)
          fun _ _ _ impossible => impossible)
        intro gathered
        apply Client.Ensures.pure
        rintro state world ⟨answered, isPerShard, progress⟩
        rw [isPerShard]
        exact progress.invisible ordered k withPayloads
      · apply Returns.unreachable
        exact fun _ _ holds => short holds.1
    · apply Returns.unreachable
      exact fun _ _ holds => permuted holds.1
  · apply Returns.unreachable
    rintro state world ⟨isRead, isCoordinator, _⟩
    exact same (isRead ▸ isCoordinator)

/-- A search whose request cannot be built raises before anything is sent. -/
theorem scatterGather_unbuilt {answers : Nat → SearchRequest → List (HitMessage D)}
    {coordinator : GrpcCoordinator} {query : List Float32Bits} {k : Int} {withPayloads : Bool}
    {filter : Payload} {name : Option String} {normal : Option Filter} {targets : List Nat} {error : Error}
    (planned : planQuery filter name coordinator.numShards = .ok (normal, targets))
    (unbuilt : searchRequest query k withPayloads normal = .error error)
    {result : EStateM.Result Error GrpcCoordinator (List (Scored D) × List Nat)} {last : SearchWorld}
    (run : Remote.Runs (searchNetwork answers) (scatterGather query k withPayloads filter name coordinator)
      SearchWorld.start result last) : result = .error error coordinator ∧ last = SearchWorld.start := by
  have raises : (scatterGather query k withPayloads filter name : Coordinating D _) coordinator =
      .done (.error error coordinator) := by
    unfold scatterGather
    change (Client.lift (planQuery filter name coordinator.numShards) >>= _ : Coordinating D _) coordinator = _
    rw [planned]
    change (Client.lift (searchRequest query k withPayloads normal) >>= _ : Coordinating D _) coordinator = _
    rw [unbuilt]
    rfl
  rw [raises] at run
  cases run
  exact ⟨rfl, rfl⟩

/-- What a search promises: it comes to an end, and however its requests are
answered, it returns a result from which failover cannot be told.  A search
without a request, because `k` or an integer of the filter is too large for one,
raises before anything is sent. -/
def FailsOver (answers : Nat → SearchRequest → List (HitMessage D)) (coordinator : GrpcCoordinator)
    (query : List Float32Bits) (k : Int) (withPayloads : Bool) (filter : Payload) (name : Option String)
    (normal : Option Filter) (targets : List Nat) : Prop :=
  (∃ result last, Remote.Runs (searchNetwork answers)
    (scatterGather query k withPayloads filter name coordinator) SearchWorld.start result last) ∧
  ∀ result last, Remote.Runs (searchNetwork answers)
    (scatterGather query k withPayloads filter name coordinator) SearchWorld.start result last →
    match searchRequest query k withPayloads normal with
    | .ok request => ∃ scored missing after, result = .ok (scored, missing) after ∧
        Invisible answers coordinator request targets k withPayloads scored missing last
    | .error error => result = .error error coordinator ∧ last = SearchWorld.start

/-- Every search over shards with replicas keeps the promise, whatever is marked
as down and wherever the rotation stands. -/
theorem scatterGather_failsOver (answers : Nat → SearchRequest → List (HitMessage D))
    (coordinator : GrpcCoordinator) (query : List Float32Bits) (k : Int) (withPayloads : Bool)
    (filter : Payload) (name : Option String) (normal : Option Filter) (targets : List Nat)
    (planned : planQuery filter name coordinator.numShards = .ok (normal, targets))
    (replicated : ∀ shard ∈ targets, coordinator.replicasOf shard ≠ []) :
    FailsOver answers coordinator query k withPayloads filter name normal targets := by
  refine ⟨Remote.runs_exist (searchNetwork_answers answers) _ _, ?_⟩
  intro result last run
  cases built : searchRequest query k withPayloads normal with
  | error error => exact scatterGather_unbuilt planned built run
  | ok request =>
      have returns : Returns answers _ (scatterGather query k withPayloads filter name) _ :=
        scatterGather_returns planned built replicated
      have ends := (returns coordinator SearchWorld.start ⟨rfl, rfl⟩).1 result last run
      cases result with
      | ok value after => exact ⟨value.1, value.2, after, rfl, ends⟩
      | error error after => cases ends

/-- Two shards, one of them with two replicas. -/
theorem scatterGather_failsOver_two :
    FailsOver (fun shard _ => [⟨(shard : Int), shard, ""⟩]) (init [["a", "b"], ["c"]] none 5)
      [] 3 false none none none
      [0, 1] := by
  apply scatterGather_failsOver
  · rfl
  · decide

/-- A shard without replicas cannot be searched. -/
theorem scatterGather_empty_group :
    ¬ ∀ (coordinator : GrpcCoordinator) (normal : Option Filter) (targets : List Nat),
      planQuery none none coordinator.numShards = .ok (normal, targets) →
        FailsOver (fun _ _ => ([] : List (HitMessage Nat))) coordinator
          [] 1 false none none normal targets := by
  intro always
  rcases always (init [[]] none 5) none [0] rfl with ⟨_, ends⟩
  have run := ends (.error .zeroDivision (init [[]] none 5)) SearchWorld.start
    (.ask .refl (show (searchNetwork _).answers Rpc.monotonic SearchWorld.start
      (0 : Int) SearchWorld.start from rfl)
      .done)
  rcases run with ⟨_, _, _, impossible, _⟩
  cases impossible

end GrpcCoordinator
end VectorSearch
