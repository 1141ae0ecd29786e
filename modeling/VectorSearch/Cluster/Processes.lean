import Mathlib.Order.WithBot
import VectorSearch.Cluster.Coordinator
import VectorSearch.Index.Exact
import VectorSearch.Lib.Pipes
import VectorSearch.Lib.Stateful

namespace VectorSearch

/-!
# A worker process for each shard

`Coordinator` of `cluster.py` with `mode="processes"`.  Every worker serves its
shard behind one pipe.  An exception ends a worker, and one that is raised
between the sends and the receives of a call leaves replies in the pipes.  The
next call reads them as its own.
-/

namespace Processes

open Pipes

variable {D G : Type}

/-! ## The workers -/

/-- The messages to a worker, besides `stop`. -/
inductive ShardRequest where
  | add (globalIds : List Int) (vectors : List (List Float32Bits)) (payloads : List String)
  | search (query : List Float32Bits) (k : Int) (withPayloads : Bool) (filter : Option Filter)

/-- A result of one shard: a pair, or a triple with the payload text. -/
structure Entry (D : Type) where
  distance : D
  globalId : Int
  payload : Option String

inductive ShardReply (D : Type) where
  | size (size : Nat)
  | hits (entries : List (Entry D))

section Serve

variable [LinearOrder D] (np : Numpy Float32Bits D G)

/-- One round of `_serve_shard`; `none` if it raises. -/
def serveShard (shard : Shard Float32Bits G) (request : ShardRequest) :
    Option (ShardReply D × Shard Float32Bits G) :=
  match request with
  | .add globalIds vectors payloads =>
      match Shard.addBatch np globalIds vectors payloads shard with
      | .ok _ after => some (.size after.globalIds.length, after)
      | .error _ _ => none
  | .search query k true filter =>
      match Shard.searchWithPayloads np query k filter shard with
      | .ok hits after => some (.hits (hits.map fun hit => ⟨hit.1, hit.2.1, some hit.2.2⟩), after)
      | .error _ _ => none
  | .search query k false filter =>
      match Shard.search np query k filter shard with
      | .ok hits after => some (.hits (hits.map fun hit => ⟨hit.1, hit.2, none⟩), after)
      | .error _ _ => none

end Serve

/-! ## The coordinator -/

/-- The attributes of the coordinator: the number of vectors, and of shards. -/
structure ProcessCoordinator where
  size : Nat
  shards : Nat

/-- A method of the coordinator. -/
abbrev Method (D α : Type) :=
  Client (PipeCall ShardRequest) (PipeCall.Answer Error ShardRequest (ShardReply D)) Error ProcessCoordinator α

/-- The message to each shard for its batch. -/
def addRequests (shards : Nat) (batches : List (RoutedBatch Float32Bits)) : List (Nat × ShardRequest) :=
  ((List.range shards).zip batches).map fun (shard, batch) =>
    (shard, .add batch.globalIds batch.vectors batch.payloads)

/-- `add`, as the call with the given number. -/
def add (call : Nat) (vectors : List (List Float32Bits)) (payloads : Option (List Payload))
    (name : Option String) :
    Method D PUnit := do
  let coordinator ← get
  let batches ← Client.lift (Coordinator.batchesOf vectors payloads name coordinator.shards coordinator.size)
  set { coordinator with size := coordinator.size + vectors.length }
  let _ ← exchange call (addRequests coordinator.shards batches) (List.range coordinator.shards)
  return ⟨⟩

/-- `_scatter`, as the call with the given number. -/
def scatter (call : Nat) (query : List Float32Bits) (k : Int) (withPayloads : Bool) (filter : Payload)
    (name : Option String) : Method D (List (ShardReply D)) := do
  let coordinator ← get
  let (filter, targets) ← Client.lift (planQuery filter name coordinator.shards)
  exchange call (targets.map fun target => (target, .search query k withPayloads filter)) targets

section Merge

variable [LinearOrder D]

/-- The elements of a reply.  A number has none. -/
def entriesOf : ShardReply D → Except Error (List (Entry D))
  | .size _ => .error .typeError
  | .hits entries => .ok entries

/-- The order of tuples, in which a pair comes before the triples it begins. -/
def Entry.key (entry : Entry D) : D ×ₗ Int ×ₗ WithBot String :=
  toLex (entry.distance, toLex (entry.globalId, entry.payload))

/-- `merge_top_k_scored` on replies of any kind. -/
def mergeReplies (replies : List (ShardReply D)) (k : Int) : Except Error (List (Entry D)) := do
  let perShard ← replies.mapM entriesOf
  return (perShard.flatten.insertionSort fun left right => left.key ≤ right.key).take k.toNat

/-- `_, global_id = entry`. -/
def unpackPair (entry : Entry D) : Except Error Int :=
  match entry.payload with
  | none => .ok entry.globalId
  | some _ => .error (.value "too many values to unpack (expected 2)")

/-- `dist, global_id, text = entry`, and the hit. -/
def unpackTriple (entry : Entry D) : Except Error (Hit D) :=
  match entry.payload with
  | none => .error (.value "not enough values to unpack (expected 3, got 2)")
  | some text => do return ⟨entry.globalId, entry.distance, ← decodePayload text⟩

/-- `search`. -/
def search (call : Nat) (query : List Float32Bits) (k : Int) (filter : Payload) (name : Option String) :
    Method D (List Int) := do
  let replies ← scatter call query k false filter name
  let merged ← Client.lift (mergeReplies replies k)
  Client.lift (merged.mapM unpackPair)

/-- `search_hits`. -/
def searchHits (call : Nat) (query : List Float32Bits) (k : Int) (filter : Payload) (name : Option String) :
    Method D (List (Hit D)) := do
  let replies ← scatter call query k true filter name
  let merged ← Client.lift (mergeReplies replies k)
  Client.lift (merged.mapM unpackTriple)

/-! ## Runs -/

/-- One call of a user. -/
inductive Operation where
  | add (vectors : List (List Float32Bits)) (payloads : Option (List Payload)) (name : Option String)
  | search (query : List Float32Bits) (k : Int) (filter : Payload) (name : Option String)
  | searchHits (query : List Float32Bits) (k : Int) (filter : Payload) (name : Option String)

def Operation.run (call : Nat) : Operation → Method D PUnit
  | .add vectors payloads name => Processes.add call vectors payloads name
  | .search query k filter name => do
      let _ ← Processes.search call query k filter name
      return ⟨⟩
  | .searchHits query k filter name => do
      let _ ← Processes.searchHits call query k filter name
      return ⟨⟩

/-- A user who goes on when a call raises. -/
def session (call : Nat) : List Operation → Method D PUnit
  | [] => pure ⟨⟩
  | operation :: operations => do
      tryCatchThe Error (operation.run call) fun _ => pure ⟨⟩
      session (call + 1) operations

variable (np : Numpy Float32Bits D G)

/-- The workers as they are started. -/
def started (params : HnswParams) : World (Shard Float32Bits G) ShardRequest (ShardReply D) :=
  ⟨fun shard => ⟨Shard.init np (Coordinator.shardParams params shard), [], [], true⟩, []⟩

/-- The pipes to the workers. -/
abbrev pipes : Network (PipeCall ShardRequest) (PipeCall.Answer Error ShardRequest (ShardReply D))
    (World (Shard Float32Bits G) ShardRequest (ShardReply D)) :=
  network Error (serveShard np)

/-- What was sent and read at some moment of a session, or at its end. -/
def Reaches (params : HnswParams) (shards : Nat) (operations : List Operation) (history : List Event) : Prop :=
  ∃ last, last.history = history ∧
    (Remote.Passes (pipes np) (session 0 operations ⟨0, shards⟩) (started np params) last ∨
      ∃ result, Remote.Runs (pipes np) (session 0 operations ⟨0, shards⟩) (started np params) result last)

end Merge

/-! ## Each call asks a worker once -/

theorem routeFrom_length {F : Type} {numShards : Nat} {payloads : List String} {startId : Int} {offset : Nat}
    {vectors : List (List F)} {batches routed : List (RoutedBatch F)}
    (ok : routeFrom numShards payloads startId offset vectors batches = .ok routed) :
    routed.length = batches.length := by
  induction vectors generalizing offset batches with
  | nil =>
      unfold routeFrom at ok
      rw [Except.ok.inj ok]
  | cons vector rest inductionHypothesis =>
      unfold routeFrom at ok
      split at ok
      · cases ok
      · split at ok
        · cases ok
        · rw [inductionHypothesis ok, List.length_modify]

theorem batchesOf_length {vectors : List (List Float32Bits)} {payloads : Option (List Payload)}
    {name : Option String} {numShards : Nat} {startId : Int} {batches : List (RoutedBatch Float32Bits)}
    (ok : Coordinator.batchesOf vectors payloads name numShards startId = .ok batches) :
    batches.length = numShards := by
  unfold Coordinator.batchesOf at ok
  rcases Stateful.gave_bind ok with ⟨tagged, _, encoded⟩
  rcases Stateful.gave_bind encoded with ⟨texts, _, routed⟩
  cases name with
  | none =>
      rw [routeFrom_length routed, List.length_replicate]
  | some name =>
      rcases Stateful.gave_bind routed with ⟨shard, _, same⟩
      cases same
      unfold routeToShard
      rw [List.length_set, List.length_replicate]

theorem addRequests_workers {shards : Nat} {batches : List (RoutedBatch Float32Bits)}
    (all : batches.length = shards) :
    (addRequests shards batches).map Prod.fst = List.range shards := by
  have workers : (addRequests shards batches).map Prod.fst =
    ((List.range shards).zip batches).map Prod.fst := by
    unfold addRequests
    rw [List.map_map]
    rfl
  rw [workers, List.map_fst_zip]
  rw [List.length_range, all]

section Calls

variable {S : Type} {serve : S → ShardRequest → Option (ShardReply D × S)}

/-- A method that ends between two calls, if it began so. -/
def OneCall {α : Type} (serve : S → ShardRequest → Option (ShardReply D × S)) (call : Nat)
    (method : Method D α) : Prop :=
  Client.Ensures (network Error serve) Ordered (fun _ => Before call) method (fun _ _ => Before (call + 1))
    fun _ _ => Before (call + 1)

theorem Before.later {call : Nat} {world : World S ShardRequest (ShardReply D)} (before : Before call world) :
    Before (call + 1) world :=
  (before.during [] []).before

/-- A computation of the coordinator alone. -/
theorem lift_after {α : Type} (call : Nat) (result : Except Error α) :
    Client.Ensures (network Error serve) Ordered (fun (_ : ProcessCoordinator) => Before call)
      (Client.lift result : Method D α) (fun _ _ => Before call) fun _ _ => Before call :=
  Client.Ensures.lift (fun _ _ _ _ before => before) fun _ _ _ _ before => before

theorem add_call (call : Nat) (vectors : List (List Float32Bits)) (payloads : Option (List Payload))
    (name : Option String) : OneCall serve call (add (D := D) call vectors payloads name) := by
  apply Client.Ensures.get_bind
  intro coordinator
  refine Client.Ensures.through (fun batches _ world => Before call world ∧ batches.length = coordinator.shards)
    (Client.Ensures.lift (fun batches ok _ _ before => ⟨before.2, batchesOf_length ok⟩)
      fun error _ _ _ before => Before.later before.2) ?_
  intro batches
  apply Client.Ensures.given
  intro all
  refine Client.Ensures.through (fun _ _ => Before call) (Client.Ensures.set fun _ _ before => before)
    fun _ => ?_
  have workers := addRequests_workers all
  have exchanges := exchange_ensures (ε := Error) (σ := ProcessCoordinator) serve call
    (addRequests coordinator.shards batches) (workers ▸ List.nodup_range)
  rw [workers] at exchanges
  exact Client.Ensures.bind exchanges fun _ => Client.Ensures.pure fun _ _ before => before

theorem scatter_call (call : Nat) (query : List Float32Bits) (k : Int) (withPayloads : Bool) (filter : Payload)
    (name : Option String) : OneCall serve call (scatter (D := D) call query k withPayloads filter name) := by
  apply Client.Ensures.get_bind
  intro coordinator
  refine Client.Ensures.through (fun plan _ world => Before call world ∧ plan.2.Nodup)
    (Client.Ensures.lift (fun plan ok _ _ before =>
      ⟨before.2, (planQuery_increasing ok).imp fun less => Nat.ne_of_lt less⟩)
      fun error _ _ _ before => Before.later before.2) ?_
  rintro ⟨normal, targets⟩
  apply Client.Ensures.given
  intro distinct
  have workers : (targets.map fun target => (target, ShardRequest.search query k withPayloads normal)).map
    Prod.fst =
      targets := by
    rw [List.map_map]
    exact List.map_id targets
  have exchanges := exchange_ensures (ε := Error) (σ := ProcessCoordinator) serve call
    (targets.map fun target => (target, ShardRequest.search query k withPayloads normal))
      (workers.symm ▸ distinct)
  rw [workers] at exchanges
  exact exchanges

theorem operation_call [LinearOrder D] (call : Nat) (operation : Operation) :
    OneCall serve call (operation.run (D := D) call) := by
  cases operation with
  | add vectors payloads name => exact add_call call vectors payloads name
  | search query k filter name =>
      refine Client.Ensures.through (fun _ _ => Before (call + 1)) ?_
        fun _ => Client.Ensures.pure fun _ _ before => before
      refine Client.Ensures.bind (scatter_call call query k false filter name) fun replies => ?_
      exact Client.Ensures.bind (lift_after (call + 1) _) fun merged => lift_after (call + 1) _
  | searchHits query k filter name =>
      refine Client.Ensures.through (fun _ _ => Before (call + 1)) ?_
        fun _ => Client.Ensures.pure fun _ _ before => before
      refine Client.Ensures.bind (scatter_call call query k true filter name) fun replies => ?_
      exact Client.Ensures.bind (lift_after (call + 1) _) fun merged => lift_after (call + 1) _

/-- The order of the messages is kept, whichever calls raise. -/
theorem session_ensures [LinearOrder D] (serve : S → ShardRequest → Option (ShardReply D × S))
    (operations : List Operation) (call : Nat) :
    Client.Ensures (network Error serve) Ordered (fun _ => Before call) (session (D := D) call operations)
      (fun _ _ => Ordered) fun _ _ => Ordered := by
  induction operations generalizing call with
  | nil => exact Client.Ensures.pure fun _ _ before => before.ordered
  | cons operation operations inductionHypothesis =>
      refine Client.Ensures.through (fun _ _ => Before (call + 1)) ?_ fun _ => inductionHypothesis (call + 1)
      exact Client.Ensures.tryCatch (operation_call call operation) fun _ =>
        Client.Ensures.pure fun _ _ before => before

end Calls

section Session

variable [LinearOrder D] (np : Numpy Float32Bits D G)

omit [LinearOrder D] in
theorem started_before (params : HnswParams) : Before 0 (started np params) := by
  refine ⟨⟨fun worker => ⟨List.prefix_rfl, fun _ => rfl⟩, fun worker => ⟨.nil, List.Sublist.refl _⟩, ?_⟩,
    fun _ _ impossible => nomatch impossible⟩
  intro front _ _ _ _ whole
  cases front <;> cases whole

theorem reaches_judged {params : HnswParams} {shards : Nat} {operations : List Operation} {history : List Event}
    (reaches : Reaches np params shards operations history) : Judged history := by
  rcases reaches with ⟨last, rfl, moment⟩
  have ensures := session_ensures (serveShard np) operations 0 ⟨0, shards⟩ (started np params)
    (started_before np params)
  rcases moment with pass | ⟨result, run⟩
  · exact (ensures.2 last pass).judged
  · have ends := ensures.1 result last run
    cases result with
    | ok value state => exact ends.judged
    | error error state => exact ends.judged

/-- Every reply that is read answers the request of the call that reads it, exactly
in the runs in which no call reads from a worker after an earlier one that asked
this worker and was left without its reply. -/
theorem replies_matched_iff (params : HnswParams) (shards : Nat) (operations : List Operation)
    (history : List Event)
    (reaches : Reaches np params shards operations history) : Matched history ↔ Prompt history :=
  (reaches_judged np reaches).matched_iff

end Session

/-! ## An interrupted call -/

/-- A flat index, and the parameters of its shards. -/
def flatNumpy : Numpy Float32Bits Nat Unit := Numpy.flat fun _ _ => 0

def smallParams : HnswParams := ⟨4, 10, none, 0, .closest⟩

/-- An `add` without vectors, and a search. -/
def addAndSearch : List Operation := [.add [] none none, .search [] 1 none none]

theorem interrupted_run :
    Reaches flatNumpy smallParams 1 addAndSearch [.sent 0 0, .sent 0 1, .received 0 1 0] := by
  refine ⟨?_, ?_, .inr ⟨?_, ?_⟩⟩
  rotate_left 3
  · -- the `add` is interrupted after its request is sent
    refine Remote.Runs.answered (.ok ⟨⟩) (Answered.sends rfl) ?_
    refine Remote.Runs.answered (.error Error.io) Answered.recvFails ?_
    refine Remote.Runs.answered (.ok ⟨⟩) (Answered.sends rfl) ?_
    -- the worker answers it, and the search reads the size of the shard
    refine Remote.Runs.ask (.single ⟨0, _, Worker.Step.serves rfl, rfl⟩) (Answered.reads rfl) ?_
    exact Remote.Runs.done
  · rfl

/-- The search of `interrupted_run` reads the size that the `add` asked for. -/
theorem interrupted_add_misleads :
    ¬∀ (shards : Nat) (operations : List Operation) (history : List Event),
      Reaches flatNumpy smallParams shards operations history → Matched history := by
  intro claimed
  have same := claimed 1 addAndSearch _ interrupted_run 0 1 0
    (List.mem_cons_of_mem _ (List.mem_cons_of_mem _ List.mem_cons_self))
  cases same

theorem replies_matched_iff_interrupted :
    Matched [.sent 0 0, .sent 0 1, .received 0 1 0] ↔ Prompt [.sent 0 0, .sent 0 1, .received 0 1 0] :=
  replies_matched_iff flatNumpy smallParams 1 addAndSearch _ interrupted_run

end Processes
end VectorSearch
