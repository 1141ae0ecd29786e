import Std.Data.String.ToNat
import VectorSearch.Agent.Limits

namespace VectorSearch

/-!
# Restarting a server

`restart_server` starts a server only for the reason the limits give, and counts
the start before it makes it.
-/

namespace Agent

open Home

variable {V D α β : Type}

/-! ## Which server a command starts -/

/-- Where a character first occurs, two lists can be taken apart. -/
theorem append_cons_inj {c : Char} {front other back rest : List Char} (first : c ∉ front) (second : c ∉ other)
    (same : front ++ c :: back = other ++ c :: rest) : front = other ∧ back = rest := by
  rcases List.append_eq_append_iff.mp same with ⟨more, isOther, isBack⟩ | ⟨more, isFront, isRest⟩
  · cases more with
    | nil =>
        rw [List.append_nil] at isOther
        exact ⟨isOther.symm, (List.cons.inj isBack).2⟩
    | cons head more =>
        have isHead := (List.cons.inj isBack).1
        rw [← isHead] at isOther
        exact absurd (isOther ▸ List.mem_append_right _ List.mem_cons_self) second
  · cases more with
    | nil =>
        rw [List.append_nil] at isFront
        exact ⟨isFront, (List.cons.inj isRest).2.symm⟩
    | cons head more =>
        have isHead := (List.cons.inj isRest).1
        rw [← isHead] at isFront
        exact absurd (isFront ▸ List.mem_append_right _ List.mem_cons_self) first

theorem dash_notMem_repr (number : Nat) : '-' ∉ number.repr.toList := by
  intro member
  rw [Nat.toList_repr] at member
  have isDigit := Nat.isDigit_of_mem_toDigits (by decide) (by decide) member
  revert isDigit
  decide

theorem serverDir_toList (home : String) (shard replica : Nat) : (serverDir home shard replica).toList =
    (home.toList ++ "/shard-".toList) ++
      (shard.repr.toList ++ '-' :: ("replica-".toList ++ replica.repr.toList)) := by
  have text : serverDir home shard replica = home ++ "/shard-" ++ shard.repr ++
    "-replica-" ++ replica.repr := rfl
  rw [text]
  simp only [String.toList_append, List.append_assoc]
  rfl

theorem serverDir_inj {home : String} {shard replica otherShard otherReplica : Nat}
    (same : serverDir home shard replica = serverDir home otherShard otherReplica) :
    shard = otherShard ∧ replica = otherReplica := by
  have lists := congrArg String.toList same
  rw [serverDir_toList, serverDir_toList] at lists
  rcases append_cons_inj (dash_notMem_repr _) (dash_notMem_repr _) (List.append_cancel_left lists) with
    ⟨isShard, rest⟩
  exact ⟨Nat.repr_injective (String.ext isShard), Nat.repr_injective
    (String.ext (List.append_cancel_left rest))⟩

theorem serverCommand_last (interpreter : String) (port : Nat) (args : List (String × Nat))
    (seed : Nat) (dir : String) :
    (interpreter :: serverCommand port args seed dir).getLast? = some dir := by
  unfold serverCommand
  rw [← List.cons_append, List.getLast?_append]
  rfl

/-! ## The servers of a state -/

theorem mem_zip_range {items : List α} {place : Nat} {item : α} :
    (place, item) ∈ (List.range items.length).zip items ↔ items[place]? = some item := by
  rw [List.mem_iff_getElem?]
  constructor
  · rintro ⟨i, found⟩
    rcases List.getElem?_zip_eq_some.mp found with ⟨isPlace, isItem⟩
    rw [List.getElem?_eq_some_iff] at isPlace
    rcases isPlace with ⟨_, same⟩
    rw [List.getElem_range] at same
    rw [← show i = place from same]
    exact isItem
  · intro isItem
    refine ⟨place, List.getElem?_zip_eq_some.mpr ⟨?_, isItem⟩⟩
    exact List.getElem?_range (List.getElem?_eq_some_iff.mp isItem).1

theorem mem_allServers {state : ClusterState} {shard replica : Nat} {server : ServerRecord}
    (member : (shard, replica, server) ∈ state.allServers) : state.server? shard replica = some server := by
  unfold ClusterState.allServers at member
  rcases List.mem_flatMap.mp member with ⟨⟨place, group⟩, isGroup, inGroup⟩
  rcases List.mem_map.mp inGroup with ⟨⟨other, found⟩, isServer, same⟩
  cases same
  unfold ClusterState.server?
  rw [mem_zip_range.mp isGroup]
  exact mem_zip_range.mp isServer

/-! ## Looking at servers -/

theorem callHome_ensures {call : HomeCall V} {always : List (Event V D) → Prop}
    {before : Restarts → List (Event V D) → Prop}
    {returned : HomeCall.Answer V D call → Restarts → List (Event V D) → Prop}
    {raised : Error → Restarts → List (Event V D) → Prop}
    (good : ∀ restarts history, before restarts history → always history)
    (given : ∀ restarts history answer, before restarts history →
      returned answer restarts (history ++ [⟨.home call, .ok answer⟩]))
    (fails : ∀ restarts history error, before restarts history →
      raised error restarts (history ++ [⟨.home call, .error error⟩])) :
    Client.Ensures (anyWorld V D) always before (callHome call) returned raised := by
  refine Client.Ensures.through (Client.Either returned raised) ?_ Client.Ensures.either
  refine ensures_call good fun restarts history answer holds => ?_
  cases answer with
  | ok value => exact given restarts history value holds
  | error error => exact fails restarts history error holds

section Looking

variable {ops : Operations} {talk : List (Option (List ToolOutcome) × Except Error Turn)}
  {front known : List (Event V D)} {restarts : Restarts} {history : List (Event V D)}

/-- What is known while servers are looked at: since `front` nothing else was
done, and these events are among what was seen. -/
structure Looking (ops : Operations) (talk : List (Option (List ToolOutcome) × Except Error Turn))
    (front known : List (Event V D)) (restarts : Restarts) (history : List (Event V D)) : Prop where
  kept : Kept ops talk restarts history
  seen : ∃ seen, history = front ++ seen ∧ (∀ event ∈ seen, event.1.looks = true) ∧ known ⊆ seen

theorem Looking.look {call : HomeCall V} {answer : AgentCall.Answer V D (.home call)}
    (looking : Looking ops talk front known restarts history) (looks : (AgentCall.home call).looks = true) :
    Looking ops talk front (known ++ [⟨.home call, answer⟩]) restarts (history ++ [⟨.home call, answer⟩]) := by
  rcases looking.seen with ⟨seen, whole, all, within⟩
  have quiet : (AgentCall.home call).isSpawn = false ∧ (AgentCall.home call).changes = false := by
    cases call with
    | serverStatus server => exact ⟨rfl, rfl⟩
    | processCommand pid => exact ⟨rfl, rfl⟩
    | _ => cases looks
  constructor
  · exact looking.kept.quiet quiet.1 rfl fun _ => quiet.2
  · refine ⟨seen ++ [⟨.home call, answer⟩], ?_, ?_, ?_⟩
    · rw [whole, List.append_assoc]
    · intro event member
      rcases List.mem_append.mp member with old | new
      · exact all event old
      · rw [List.mem_singleton.mp new]
        exact looks
    · intro event member
      rcases List.mem_append.mp member with old | new
      · exact List.mem_append_left _ (within old)
      · exact List.mem_append_right _ new

theorem NotRunning.mono {server : ServerRecord} {more : List (Event V D)} (notRunning : NotRunning server known)
    (within : known ⊆ more) : NotRunning server more := by
  rcases notRunning with none | ⟨pid, command, isPid, other, seen⟩
  · exact .inl none
  · exact .inr ⟨pid, command, isPid, other, within seen⟩

/-- The health of a server says what was seen of it. -/
def Sound (servers : List (Nat × Nat × ServerRecord)) (seen : List (Event V D)) (entry : ServerHealth) : Prop :=
  ∃ server, (entry.shard, entry.replica, server) ∈ servers ∧
    (entry.up = false → ⟨.home (.serverStatus server), .ok none⟩ ∈ seen) ∧
    (entry.process = false → NotRunning server seen)

theorem isRunning_ensures (server : ServerRecord) :
    Client.Ensures (anyWorld V D) (Safe ops talk) (Looking ops talk front known) (perform (isRunning server))
      (fun running restarts history => ∃ more, known ⊆ more ∧ (running = false → NotRunning server more) ∧
        Looking ops talk front more restarts history)
      fun _ => Kept ops talk := by
  unfold isRunning perform
  cases isPid : server.pid with
  | none =>
      exact Client.Ensures.pure fun _ _ looking => ⟨known, List.Subset.refl _, fun _ => .inl isPid, looking⟩
  | some pid =>
      refine Client.Ensures.carry_bind (fun command => Looking ops talk front
        (known ++ [⟨.home (.processCommand pid), .ok command⟩])) ?_ ?_
      · refine Client.Ensures.carry_call (callHome_ensures (fun _ _ looking => looking.kept.safe) ?_ ?_)
        · exact fun _ _ _ looking => looking.look rfl
        · exact fun _ _ _ looking => (looking.look rfl).kept
      · intro command
        refine Client.Ensures.pure fun _ _ looking =>
          ⟨_, List.subset_append_left _ _, fun isOther => ?_, looking⟩
        exact .inr ⟨pid, command, isPid, isOther, List.mem_append_right _ List.mem_cons_self⟩

theorem clusterHealth_ensures (servers : List (Nat × Nat × ServerRecord)) (known : List (Event V D)) :
    Client.Ensures (anyWorld V D) (Safe ops talk) (Looking ops talk front known)
      (perform (clusterHealth servers))
      (fun health restarts history => ∃ more, known ⊆ more ∧ (∀ entry ∈ health, Sound servers more entry) ∧
        Looking ops talk front more restarts history)
      fun _ => Kept ops talk := by
  induction servers generalizing known with
  | nil =>
      exact Client.Ensures.pure fun _ _ looking =>
        ⟨known, List.Subset.refl _, (fun _ impossible => nomatch impossible), looking⟩
  | cons server rest inductionHypothesis =>
      rcases server with ⟨shard, replica, server⟩
      unfold clusterHealth perform
      refine Client.Ensures.carry_bind (fun reply => Looking ops talk front
        (known ++ [⟨.home (.serverStatus server), .ok reply⟩])) ?_ fun reply => ?_
      · refine Client.Ensures.carry_call (callHome_ensures (fun _ _ looking => looking.kept.safe) ?_ ?_)
        · exact fun _ _ _ looking => looking.look rfl
        · exact fun _ _ _ looking => (looking.look rfl).kept
      refine Client.Ensures.carry_bind _ (isRunning_ensures server) fun running => ?_
      rintro restarts history ⟨first, within, notRunning, looking⟩
      refine Client.Ensures.carry_bind _ (inductionHypothesis first) (fun later => ?_) restarts history looking
      refine Client.Ensures.pure ?_
      rintro _ _ ⟨more, wider, sound, looking⟩
      refine ⟨more, ?_, ?_, looking⟩
      · exact fun event member => wider (within (List.mem_append_left _ member))
      · intro entry member
        rcases List.mem_cons.mp member with rfl | isLater
        · refine ⟨server, List.mem_cons_self, fun isDown => ?_, fun noProcess =>
            (notRunning noProcess).mono wider⟩
          have seen := wider (within (List.mem_append_right known List.mem_cons_self))
          cases reply with
          | none => exact seen
          | some reply => cases isDown
        · rcases sound entry isLater with ⟨other, isServer, down, stopped⟩
          exact ⟨other, List.mem_cons_of_mem _ isServer, down, stopped⟩

theorem readState_ensures (home : String) :
    Client.Ensures (anyWorld V D) (Safe ops talk) (Kept ops talk) (perform (readState home))
      (fun state restarts history => ∃ before, Kept ops talk restarts history ∧
        history = before ++ [⟨.home .readFile, .ok (some state)⟩])
      fun _ => Kept ops talk := by
  refine Client.Ensures.carry_bind (fun (found : Option ClusterState) restarts history =>
    ∃ before, Kept ops talk restarts history ∧ history = before ++ [⟨.home .readFile, .ok found⟩]) ?_
      fun found => ?_
  · refine Client.Ensures.carry_call (callHome_ensures (fun _ _ kept => kept.safe) ?_ ?_)
    · exact fun restarts history found kept => ⟨history, kept.quiet rfl rfl fun _ => rfl, rfl⟩
    · exact fun restarts history error kept => kept.quiet rfl rfl fun _ => rfl
  · cases found with
    | none => exact Client.Ensures.throw fun _ _ holds => holds.choose_spec.1
    | some state => exact Client.Ensures.pure fun _ _ holds => holds

end Looking

/-! ## Starting a server -/

section Starting

variable {ops : Operations} {talk : List (Option (List ToolOutcome) × Except Error Turn)} {state : ClusterState}
  {shard replica : Nat} {server : ServerRecord}

/-- What is known right before a server is started: there is a reason, and the
start was counted. -/
structure Ready (ops : Operations) (talk : List (Option (List ToolOutcome) × Except Error Turn))
    (state : ClusterState)
    (shard replica : Nat) (server : ServerRecord) (restarts : Restarts) (history : List (Event V D)) :
    Prop where
  kept : Kept ops talk restarts history
  counted : (history.countP fun event => event.1.starts (serverDir ops.home shard replica)) <
    restarts (shard, replica)
  rightly : ∀ seed, state.seed = some seed → RightlyStarted ops history (ops.interpreter ::
    serverCommand server.port state.serverArgs (seed + shard) (serverDir ops.home shard replica))
  notDry : ops.dryRun = false

theorem Ready.start {restarts : Restarts} {history : List (Event V D)} {seed : Nat}
    (ready : Ready ops talk state shard replica server restarts history) (isSeed : state.seed = some seed)
    (answer : AgentCall.Answer V D (.home (.spawn (ops.interpreter ::
      serverCommand server.port state.serverArgs (seed + shard) (serverDir ops.home shard replica))))) :
    Kept ops talk restarts (history ++ [⟨_, answer⟩]) := by
  have kept := ready.kept
  refine ⟨fun other place => ?_, kept.allowed, ?_, dry_append kept.dry fun isDry => ?_, ?_⟩
  · rw [List.countP_append, List.countP_singleton]
    split
    · rename_i starts
      have isDir : serverDir ops.home shard replica = serverDir ops.home other place := by
        have last := decide_eq_true_eq.mp starts
        rw [serverCommand_last] at last
        exact Option.some.inj last
      rcases serverDir_inj isDir with ⟨rfl, rfl⟩
      exact ready.counted
    · exact kept.counted other place
  · refine Each.append_iff.mpr ⟨kept.rightly, fun command same => ?_⟩
    cases same
    exact ready.rightly seed isSeed
  · rw [ready.notDry] at isDry
    cases isDry
  · rw [turns, List.filterMap_append, ← kept.talk]
    exact List.append_nil _

theorem spawn_ensures (isServer : state.server? shard replica = some server) :
    Client.Ensures (anyWorld V D) (Safe ops talk) (Ready ops talk state shard replica server)
      (perform (spawn ops.home ops.interpreter state shard replica)) (fun _ => Kept ops talk)
      fun _ => Kept ops talk := by
  unfold spawn
  rw [isServer]
  cases isSeed : state.seed with
  | none => exact Client.Ensures.throw fun _ _ ready => ready.kept
  | some seed =>
      refine Client.Ensures.carry_bind (fun _ => Kept ops talk) ?_ fun pid =>
        Client.Ensures.pure fun _ _ kept => kept
      refine Client.Ensures.carry_call (callHome_ensures (fun _ _ ready => ready.kept.safe) ?_ ?_)
      · exact fun _ _ _ ready => ready.start isSeed _
      · exact fun _ _ _ ready => ready.start isSeed _

end Starting

/-! ## `restart_server` -/

theorem pick_ok {state : ClusterState} {shard replica : Int} {server : ServerRecord}
    (ok : (pick state shard replica).mapError toTool = .ok server) :
    ∃ place position : Nat, shard = place ∧ replica = position ∧ state.server? place position =
      some server := by
  unfold pick at ok
  dsimp only at ok
  split at ok
  · cases ok
  · rename_i notNegative
    rw [not_or, Int.not_lt, Int.not_lt] at notNegative
    cases found : state.server? shard.toNat replica.toNat with
    | none =>
        rw [found] at ok
        cases ok
    | some other =>
        rw [found] at ok
        cases ok
        exact ⟨_, _, (Int.toNat_of_nonneg notNegative.1).symm, (Int.toNat_of_nonneg notNegative.2).symm, found⟩

theorem healthOf_ok {shard replica : Nat} {health : List ServerHealth} {current : ServerHealth}
    (ok : healthOf shard replica health = .ok current) :
    current ∈ health ∧ current.shard = shard ∧ current.replica = replica := by
  unfold healthOf at ok
  split at ok
  · cases ok
  · rename_i found
    cases ok
    have isServer := List.find?_some found
    rw [decide_eq_true_eq] at isServer
    exact ⟨List.mem_of_find?_eq_some found, Int.ofNat.inj isServer.1, Int.ofNat.inj isServer.2⟩

section Restart

variable {ops : Operations} {talk : List (Option (List ToolOutcome) × Except Error Turn)} {state : ClusterState}
  {shard replica : Nat} {server : ServerRecord} {before more : List (Event V D)} {restarts : Restarts}
  {history : List (Event V D)}

/-- The checks of `restart_server` give the reason to start the server. -/
theorem Looking.ready {current : ServerHealth}
    (looking : Looking ops talk (before ++ [⟨.home .readFile, .ok (some state)⟩]) more restarts history)
    (isServer : state.server? shard replica = some server) (sound : Sound state.allServers more current)
    (isShard : current.shard = shard) (isReplica : current.replica = replica) (down : current.up = false)
    (notManaged : state.managedBy.getD "" = "") (stopped : current.process = false)
    (left : (restarts (shard, replica) : Int) < ops.maxRestarts) (notDry : ops.dryRun = false) :
    Ready ops talk state shard replica server
      (Function.update restarts (shard, replica) (restarts (shard, replica) + 1)) history := by
  have kept := looking.kept
  rcases looking.seen with ⟨seen, whole, looks, within⟩
  rcases sound with ⟨found, isFound, silent, noProcess⟩
  rw [isShard, isReplica] at isFound
  have same : found = server := by
    have found := mem_allServers isFound
    rw [isServer] at found
    exact (Option.some.inj found).symm
  subst same
  refine ⟨⟨fun other place => ?_, fun key => ?_, kept.rightly, kept.dry, kept.talk⟩, ?_, ?_, notDry⟩
  · have counted := kept.counted other place
    rw [Function.update_apply]
    split
    · rename_i same
      rw [same] at counted
      omega
    · exact counted
  · rw [Function.update_apply]
    split
    · rw [Nat.cast_add]
      omega
    · exact kept.allowed key
  · rw [Function.update_self]
    exact Nat.lt_succ_of_le (kept.counted shard replica)
  · intro seed isSeed
    refine ⟨before, state, seen, shard, replica, found, seed, ?_, looks, isServer, isSeed, rfl, notManaged,
      within (silent down), (noProcess stopped).mono within⟩
    rw [whole, List.append_assoc]
    rfl

end Restart

namespace Operations

variable (ops : Operations)

theorem restartServer_keeps (shard replica : Int) :
    Keeps ops (ops.restartServer shard replica : Action V D _) := by
  intro talk
  refine Client.Ensures.bind (readState_ensures _) fun state => Client.Ensures.some fun before => ?_
  refine Client.Ensures.through (fun server restarts history => (Kept ops talk restarts history ∧
    history = before ++ [⟨.home .readFile, .ok (some state)⟩]) ∧
    ∃ place position : Nat, shard = place ∧ replica = position ∧ state.server? place position =
      some server) ?_ ?_
  · exact Client.Ensures.lift (fun server ok _ _ holds => ⟨holds, pick_ok ok⟩) fun _ _ _ _ holds => holds.1
  intro server
  apply Client.Ensures.given
  rintro ⟨place, position, rfl, rfl, isServer⟩
  rintro restarts history ⟨kept, whole⟩
  refine Client.Ensures.bind (clusterHealth_ensures state.allServers []) (fun health => ?_) restarts history
    ⟨kept, [], whole.trans (List.append_nil _).symm, (fun _ impossible => nomatch impossible),
      List.Subset.refl _⟩
  refine Client.Ensures.some fun more => ?_
  refine Client.Ensures.through (fun current restarts history =>
    Looking ops talk (before ++ [⟨.home .readFile, .ok (some state)⟩]) more restarts history ∧
      Sound state.allServers more current ∧ current.shard = place ∧ current.replica = position) ?_ ?_
  · refine Client.Ensures.lift (fun current ok _ _ holds => ?_) fun _ _ _ _ holds => holds.2.2.kept
    rcases healthOf_ok ok with ⟨member, isShard, isReplica⟩
    exact ⟨holds.2.2, holds.2.1 current member, isShard, isReplica⟩
  intro current
  refine Client.Ensures.get_bind fun read => ?_
  split
  · exact Client.Ensures.throw fun _ _ holds => holds.2.1.kept
  rename_i notUp
  split
  · exact Client.Ensures.throw fun _ _ holds => holds.2.1.kept
  rename_i notManaged
  split
  · exact Client.Ensures.throw fun _ _ holds => holds.2.1.kept
  rename_i noProcess
  split
  · exact Client.Ensures.throw fun _ _ holds => holds.2.1.kept
  rename_i left
  split
  · exact Client.Ensures.pure fun _ _ holds => holds.2.1.kept
  rename_i notDry
  rw [Bool.not_eq_true] at notUp noProcess notDry
  refine Client.Ensures.through (fun _ => Ready ops talk state place position server) ?_ fun _ => ?_
  · refine Client.Ensures.set ?_
    rintro _ history ⟨rfl, looking, sound, isShard, isReplica⟩
    exact looking.ready isServer sound isShard isReplica notUp (not_not.mp notManaged) noProcess
      (not_le.mp left) notDry
  refine Client.Ensures.bind (spawn_ensures isServer) fun started => ?_
  have changes : ops.dryRun = true → ∀ call : HomeCall V, (AgentCall.home call).changes = false := by
    intro isDry
    rw [notDry] at isDry
    cases isDry
  have writes : Keeps ops (perform (writeState started) : Action V D _) :=
    fun talk => Client.Ensures.carry_call (callHome_keeps rfl (fun isDry => changes isDry _) talk)
  refine Keeps.bind writes (fun _ => ?_) talk
  refine Keeps.bind (.tryCatch (.perform (waitFor_reads _ _)) fun error => ?_) fun _ => ?_
  · split
    · exact .throw _
    · exact .throw _
  · refine .bind ops.health_keeps fun health => ?_
    exact .bind (.lift _) fun _ => .pure _

end Operations

end Agent
end VectorSearch
