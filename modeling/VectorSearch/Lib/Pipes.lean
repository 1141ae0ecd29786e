import Mathlib.Data.List.Nodup
import Mathlib.Data.List.Sort
import Mathlib.Logic.Function.Basic
import VectorSearch.Lib.Histories
import VectorSearch.Lib.RemoteProgram

namespace VectorSearch

/-!
# Workers behind pipes

Each worker has one pipe with a queue in either direction.  It answers its
requests one by one, and can stop at any moment.  A sender cannot tell from a
reply which request it answers: replies come in the order of the requests, so
the next reply belongs to the oldest request whose reply was not read.

The calls of a client are numbered, and messages carry the number of the call
that sent the request.  The numbers are for the statements only.  What a client
does and what a worker answers do not depend on them.

`exchange` sends a request to each of several workers and then reads one reply
from each.  The reply it reads is the one to its own request exactly when no
earlier call has left a reply of this worker unread.
-/

namespace Pipes

/-- A message with the number of the call that sent the request. -/
structure Tagged (M : Type) where
  call : Nat
  message : M

/-- A worker with what waits in its pipe. -/
structure Worker (S Req Rep : Type) where
  state : S
  requests : List (Tagged Req)
  replies : List (Tagged Rep)
  alive : Bool

inductive Event where
  | sent (worker call : Nat)
  /-- A call read a reply; it answers the request of the call `answered`. -/
  | received (worker call answered : Nat)
  deriving DecidableEq

structure World (S Req Rep : Type) where
  workers : Nat → Worker S Req Rep
  history : List Event

inductive PipeCall (Req : Type) where
  | send (worker call : Nat) (request : Req)
  | recv (worker call : Nat)

def PipeCall.Answer (ε Req Rep : Type) : PipeCall Req → Type
  | send .. => Except ε PUnit
  | recv .. => Except ε Rep

variable {ε S Req Rep : Type}

/-- A worker answers its oldest request, or stops. -/
inductive Worker.Step (serve : S → Req → Option (Rep × S)) : Worker S Req Rep → Worker S Req Rep → Prop
  | serves {state after : S} {call : Nat} {request : Req} {requests : List (Tagged Req)}
      {replies : List (Tagged Rep)}
      {reply : Rep} (serves : serve state request = some (reply, after)) :
      Step serve ⟨state, ⟨call, request⟩ :: requests, replies, true⟩
        ⟨after, requests, replies ++ [⟨call, reply⟩], true⟩
  | stops {worker : Worker S Req Rep} : Step serve worker { worker with requests := [], alive := false }

/-- What sending and reading do.  Both can fail, with nothing sent or read: the
worker has stopped, or the client is interrupted. -/
inductive Answered : (call : PipeCall Req) → World S Req Rep → PipeCall.Answer ε Req Rep call →
    World S Req Rep → Prop
  | sends {worker call : Nat} {request : Req} {world : World S Req Rep}
      (alive : (world.workers worker).alive = true) :
      Answered (.send worker call request) world (.ok ⟨⟩)
        ⟨Function.update world.workers worker
          { world.workers worker with requests := (world.workers worker).requests ++ [⟨call, request⟩] },
          world.history ++ [.sent worker call]⟩
  | reads {worker call answered : Nat} {reply : Rep} {replies : List (Tagged Rep)} {world : World S Req Rep}
      (waiting : (world.workers worker).replies = ⟨answered, reply⟩ :: replies) :
      Answered (.recv worker call) world (.ok reply)
        ⟨Function.update world.workers worker { world.workers worker with replies },
          world.history ++ [.received worker call answered]⟩
  | sendFails {worker call : Nat} {request : Req} {world : World S Req Rep} {error : ε} :
      Answered (.send worker call request) world (.error error) world
  | recvFails {worker call : Nat} {world : World S Req Rep} {error : ε} :
      Answered (.recv worker call) world (.error error) world

/-- The workers act by themselves between the client's calls. -/
def network (ε : Type) (serve : S → Req → Option (Rep × S)) :
    Network (PipeCall Req) (PipeCall.Answer ε Req Rep) (World S Req Rep) where
  answers := Answered
  moves world next := ∃ worker after, Worker.Step serve (world.workers worker) after ∧
    next = { world with workers := Function.update world.workers worker after }

/-! ## What a history says -/

/-- The calls that sent a request to a worker. -/
def sentTo (worker : Nat) (history : List Event) : List Nat :=
  history.filterMap fun
    | .sent other call => if other = worker then some call else none
    | .received .. => none

/-- The calls that read a reply of a worker. -/
def readBy (worker : Nat) (history : List Event) : List Nat :=
  history.filterMap fun
    | .sent .. => none
    | .received other call _ => if other = worker then some call else none

/-- The calls whose requests these replies answer. -/
def gotFrom (worker : Nat) (history : List Event) : List Nat :=
  history.filterMap fun
    | .sent .. => none
    | .received other _ answered => if other = worker then some answered else none

/-- Every reply that was read answers the request of the call that read it. -/
def Matched (history : List Event) : Prop :=
  ∀ worker call answered, .received worker call answered ∈ history → answered = call

/-- All other calls that sent something to the worker have read its reply. -/
def CaughtUp (worker call : Nat) (history : List Event) : Prop :=
  ∀ other ∈ sentTo worker history, other ≠ call → other ∈ readBy worker history

/-- No call reads from a worker that an earlier call left unread. -/
def Prompt (history : List Event) : Prop :=
  ∀ front worker call answered back, history = front ++ .received worker call answered :: back →
    CaughtUp worker call front

section Append

variable (history : List Event) (worker other call answered : Nat)

theorem sentTo_sent : sentTo worker (history ++ [.sent other call]) =
    sentTo worker history ++ if other = worker then [call] else [] := by
  unfold sentTo
  rw [List.filterMap_append]
  split <;> simp [*]

theorem sentTo_received : sentTo worker (history ++ [.received other call answered]) =
    sentTo worker history := by
  unfold sentTo
  rw [List.filterMap_append]
  exact List.append_nil _

theorem readBy_sent : readBy worker (history ++ [.sent other call]) = readBy worker history := by
  unfold readBy
  rw [List.filterMap_append]
  exact List.append_nil _

theorem readBy_received : readBy worker (history ++ [.received other call answered]) =
    readBy worker history ++ if other = worker then [call] else [] := by
  unfold readBy
  rw [List.filterMap_append]
  split <;> simp [*]

theorem gotFrom_sent : gotFrom worker (history ++ [.sent other call]) = gotFrom worker history := by
  unfold gotFrom
  rw [List.filterMap_append]
  exact List.append_nil _

theorem gotFrom_received : gotFrom worker (history ++ [.received other call answered]) =
    gotFrom worker history ++ if other = worker then [answered] else [] := by
  unfold gotFrom
  rw [List.filterMap_append]
  split <;> simp [*]

theorem length_gotFrom : (gotFrom worker history).length = (readBy worker history).length := by
  induction history with
  | nil => rfl
  | cons event history inductionHypothesis =>
      cases event with
      | sent other call => exact inductionHypothesis
      | received other call answered =>
          unfold gotFrom readBy at inductionHypothesis ⊢
          by_cases same : other = worker
          · simp only [List.filterMap_cons, same, if_true, List.length_cons, inductionHypothesis]
          · simp only [List.filterMap_cons, same, if_false, inductionHypothesis]

end Append

/-! ## The order of the messages -/

/-- What is read from a worker and what waits in its pipe are the requests to it
in order, without those that were lost. -/
structure Worker.InOrder (worker : Worker S Req Rep) (sent got : List Nat) : Prop where
  answered : got ++ worker.replies.map Tagged.call <+: sent
  all : worker.alive = true →
    got ++ worker.replies.map Tagged.call ++ worker.requests.map Tagged.call = sent

theorem Worker.InOrder.read {worker : Worker S Req Rep} {sent got : List Nat} {answered : Nat} {reply : Rep}
    {replies : List (Tagged Rep)} (order : worker.InOrder sent got)
    (waiting : worker.replies = ⟨answered, reply⟩ :: replies) :
    ({ worker with replies } : Worker S Req Rep).InOrder sent (got ++ [answered]) := by
  have moved : got ++ [answered] ++ replies.map Tagged.call = got ++ worker.replies.map Tagged.call := by
    rw [waiting, List.append_assoc]
    rfl
  constructor
  · exact moved ▸ order.answered
  · intro alive
    exact moved ▸ order.all alive

/-- The numbers of the calls in a history. -/
structure Numbered (worker : Nat) (history : List Event) : Prop where
  sent : (sentTo worker history).Pairwise (· < ·)
  read : (readBy worker history).Sublist (sentTo worker history)

/-- A reply answers the call that reads it exactly when the call is not behind an
unread reply. -/
def Judged (history : List Event) : Prop :=
  ∀ front worker call answered back, history = front ++ .received worker call answered :: back →
    (answered = call ↔ CaughtUp worker call front)

structure Ordered (world : World S Req Rep) : Prop where
  inOrder : ∀ worker, (world.workers worker).InOrder (sentTo worker world.history)
    (gotFrom worker world.history)
  numbered : ∀ worker, Numbered worker world.history
  judged : Judged world.history

theorem Judged.matched_iff {history : List Event} (judged : Judged history) :
    Matched history ↔ Prompt history := by
  constructor
  · intro matched front worker call answered back whole
    have member : .received worker call answered ∈ history := by
      rw [whole]
      exact List.mem_append_right front List.mem_cons_self
    exact (judged front worker call answered back whole).mp (matched worker call answered member)
  · intro prompt worker call answered member
    rcases List.append_of_mem member with ⟨front, back, whole⟩
    exact (judged front worker call answered back whole).mpr (prompt front worker call answered back whole)

theorem judged_iff_each {history : List Event} : Judged history ↔ Each (fun front event =>
    ∀ worker call answered, event = .received worker call answered →
      (answered = call ↔ CaughtUp worker call front))
    history := by
  constructor
  · intro judged front event back whole worker call answered same
    exact judged front worker call answered back (same ▸ whole)
  · intro each front worker call answered back whole
    exact each front _ back whole worker call answered rfl

theorem Judged.sent {history : List Event} (judged : Judged history) (worker call : Nat) :
    Judged (history ++ [.sent worker call]) := by
  rw [judged_iff_each, Each.append_iff]
  exact ⟨judged_iff_each.mp judged, fun _ _ _ impossible => nomatch impossible⟩

theorem Judged.received {history : List Event} (judged : Judged history) {worker call answered : Nat}
    (judges : answered = call ↔ CaughtUp worker call history) :
    Judged (history ++ [.received worker call answered]) := by
  rw [judged_iff_each, Each.append_iff]
  refine ⟨judged_iff_each.mp judged, fun other reader got same => ?_⟩
  cases same
  exact judges

/-- The next reply of a worker, for a call that was the last to send to it. -/
theorem answered_iff {earlier reads got rest : List Nat} {call answered : Nat}
    (increasing : (earlier ++ [call]).Pairwise (· < ·)) (read : reads.Sublist earlier)
    (counted : got.length = reads.length) (order : got ++ answered :: rest <+: earlier ++ [call]) :
    answered = call ↔ ∀ other ∈ earlier, other ∈ reads := by
  have distinct : (earlier ++ [call]).Nodup := increasing.imp fun less => Nat.ne_of_lt less
  rcases order with ⟨lost, whole⟩
  have atPosition : (earlier ++ [call])[got.length]? = some answered := by
    rw [← whole, List.append_assoc, List.getElem?_append_right (Nat.le_refl _), Nat.sub_self]
    rfl
  have atEnd : (earlier ++ [call])[earlier.length]? = some call := by
    rw [List.getElem?_append_right (Nat.le_refl _), Nat.sub_self]
    rfl
  have few := read.length_le
  constructor
  · intro same
    -- the reply stands where the call does, so everything before it was read
    have position : got.length = earlier.length := by
      rw [same, ← atEnd] at atPosition
      exact (List.getElem?_inj (by rw [List.length_append, List.length_singleton]; omega) distinct).mp
        atPosition
    rw [read.eq_of_length (by omega)]
    exact fun _ => id
  · intro all
    have longer := (List.subperm_of_subset (List.nodup_append.mp distinct).1 all).length_le
    rw [counted, show reads.length = earlier.length by omega, atEnd] at atPosition
    exact (Option.some.inj atPosition).symm

/-! ## One call -/

variable {σ : Type}

/-- `conn.send(request)`. -/
def send (worker call : Nat) (request : Req) : Client (PipeCall Req) (PipeCall.Answer ε Req Rep) ε σ PUnit := do
  let answer : Except ε PUnit ← Client.call (PipeCall.send worker call request)
  Client.lift answer

/-- `conn.recv()`. -/
def recv (worker call : Nat) : Client (PipeCall Req) (PipeCall.Answer ε Req Rep) ε σ Rep := do
  let answer : Except ε Rep ← Client.call (PipeCall.recv worker call)
  Client.lift answer

/-- A request to each of the workers. -/
def sendAll (call : Nat) : List (Nat × Req) → Client (PipeCall Req) (PipeCall.Answer ε Req Rep) ε σ PUnit
  | [] => pure ⟨⟩
  | (worker, request) :: requests => do
      send worker call request
      sendAll call requests

/-- A reply of each of the workers. -/
def recvAll (call : Nat) : List Nat → Client (PipeCall Req) (PipeCall.Answer ε Req Rep) ε σ (List Rep)
  | [] => pure []
  | worker :: workers => do
      let reply ← recv worker call
      let replies ← recvAll call workers
      return reply :: replies

/-- All requests are sent before the first reply is read. -/
def exchange (call : Nat) (requests : List (Nat × Req)) (workers : List Nat) :
    Client (PipeCall Req) (PipeCall.Answer ε Req Rep) ε σ (List Rep) := do
  sendAll call requests
  recvAll call workers

/-- Between two calls: all that was sent has a smaller number. -/
structure Before (call : Nat) (world : World S Req Rep) : Prop where
  ordered : Ordered world
  older : ∀ worker, ∀ other ∈ sentTo worker world.history, other < call

/-- In a call, with the workers that are not yet asked and those not yet read. -/
structure During (call : Nat) (unasked unread : List Nat) (world : World S Req Rep) : Prop where
  ordered : Ordered world
  older : ∀ worker, ∀ other ∈ sentTo worker world.history, other ≤ call
  unasked : ∀ worker ∈ unasked, call ∉ sentTo worker world.history
  unread : ∀ worker ∈ unread, call ∉ readBy worker world.history

theorem During.before {call : Nat} {unasked unread : List Nat} {world : World S Req Rep}
    (during : During call unasked unread world) : Before (call + 1) world :=
  ⟨during.ordered, fun worker other member => Nat.lt_succ_of_le (during.older worker other member)⟩

theorem Before.during {call : Nat} {world : World S Req Rep} (before : Before call world)
    (unasked unread : List Nat) : During call unasked unread world := by
  refine ⟨before.ordered, fun worker other member => Nat.le_of_lt (before.older worker other member), ?_, ?_⟩
  · exact fun worker _ member => Nat.lt_irrefl call (before.older worker call member)
  · intro worker _ member
    exact Nat.lt_irrefl call (before.older worker call ((before.ordered.numbered worker).read.subset member))

section Moves

variable {serve : S → Req → Option (Rep × S)}

theorem Worker.Step.inOrder {worker after : Worker S Req Rep} {sent got : List Nat}
    (step : Step serve worker after) (order : worker.InOrder sent got) : after.InOrder sent got := by
  cases step with
  | @serves state after call request requests replies reply serves =>
      have whole := order.all rfl
      simp only [List.map_cons, List.append_assoc] at whole
      constructor
      · refine ⟨requests.map Tagged.call, ?_⟩
        simp only [List.map_append, List.map_cons, List.map_nil, List.append_assoc, List.singleton_append,
          whole]
      · intro _
        simp only [List.map_append, List.map_cons, List.map_nil, List.append_assoc, List.singleton_append,
          whole]
  | stops => exact ⟨order.answered, fun impossible => nomatch impossible⟩

/-- A worker acts: the history stays. -/
theorem moves_spec {world next : World S Req Rep} (moves : (network ε serve).moves world next)
    (ordered : Ordered world) :
    Ordered next ∧ next.history = world.history := by
  rcases moves with ⟨worker, after, step, rfl⟩
  refine ⟨⟨fun other => ?_, ordered.numbered, ordered.judged⟩, rfl⟩
  by_cases same : other = worker
  · subst same
    dsimp only
    rw [Function.update_self]
    exact step.inOrder (ordered.inOrder other)
  · dsimp only
    rw [Function.update_of_ne same]
    exact ordered.inOrder other

theorem stable_during (call : Nat) (unasked unread : List Nat) (known : List Event → Prop) :
    Remote.Stable (network ε serve)
      fun world : World S Req Rep => During call unasked unread world ∧ known world.history := by
  rintro world next ⟨during, holds⟩ moves
  rcases moves_spec moves during.ordered with ⟨ordered, same⟩
  rw [same]
  refine ⟨⟨ordered, ?_, ?_, ?_⟩, holds⟩
  · rw [same]
    exact during.older
  · rw [same]
    exact during.unasked
  · rw [same]
    exact during.unread

/-- What a send that succeeds does to what is known of a call. -/
theorem During.sends {call worker : Nat} {unasked unread : List Nat} {request : Req} {world : World S Req Rep}
    (during : During call (worker :: unasked) unread world) (new : worker ∉ unasked)
    (alive : (world.workers worker).alive = true) :
    During call unasked unread
      ⟨Function.update world.workers worker
        { world.workers worker with requests := (world.workers worker).requests ++ [⟨call, request⟩] },
        world.history ++ [.sent worker call]⟩ := by
  have fresh := during.unasked worker List.mem_cons_self
  refine ⟨⟨fun other => ?_, fun other => ?_, during.ordered.judged.sent worker call⟩, fun other => ?_,
    fun other member => ?_,
    fun other member => ?_⟩
  · have order := during.ordered.inOrder other
    rw [sentTo_sent, gotFrom_sent]
    by_cases same : other = worker
    · subst same
      dsimp only
      rw [Function.update_self, if_pos rfl]
      refine ⟨order.answered.trans (List.prefix_append _ _), fun _ => ?_⟩
      rw [List.map_append, ← List.append_assoc, order.all alive]
      rfl
    · dsimp only
      rw [Function.update_of_ne same, if_neg (Ne.symm same), List.append_nil]
      exact order
  · have numbered := during.ordered.numbered other
    constructor
    · rw [sentTo_sent]
      split
      · rename_i same
        subst same
        refine List.pairwise_append.mpr ⟨numbered.sent, List.pairwise_singleton _ _, ?_⟩
        intro earlier isEarlier last isLast
        rw [List.mem_singleton.mp isLast]
        have different : earlier ≠ call := fun equal => fresh (equal ▸ isEarlier)
        have older := during.older worker earlier isEarlier
        omega
      · rw [List.append_nil]
        exact numbered.sent
    · rw [sentTo_sent, readBy_sent]
      exact numbered.read.trans (List.sublist_append_left _ _)
  · rw [sentTo_sent]
    intro earlier member
    rcases List.mem_append.mp member with old | now
    · exact during.older other earlier old
    · split at now
      · exact Nat.le_of_eq (List.mem_singleton.mp now)
      · cases now
  · have different : worker ≠ other := fun same => new (same ▸ member)
    rw [sentTo_sent, if_neg different, List.append_nil]
    exact during.unasked other (List.mem_cons_of_mem _ member)
  · rw [readBy_sent]
    exact during.unread other member

/-- What a read that succeeds does to what is known of a call. -/
theorem During.reads {call worker answered : Nat} {unread : List Nat} {reply : Rep}
    {replies : List (Tagged Rep)}
    {world : World S Req Rep} (during : During call [] (worker :: unread) world) (new : worker ∉ unread)
    (asked : call ∈ sentTo worker world.history) (waiting : (world.workers worker).replies =
      ⟨answered, reply⟩ :: replies) :
    During call [] unread
      ⟨Function.update world.workers worker { world.workers worker with replies },
        world.history ++ [.received worker call answered]⟩ := by
  have fresh := during.unread worker List.mem_cons_self
  have numbered := during.ordered.numbered worker
  have order := during.ordered.inOrder worker
  -- the call was the last to send something to the worker
  rcases List.append_of_mem asked with ⟨earlier, later, whole⟩
  have ends : later = [] := by
    cases later with
    | nil => rfl
    | cons next later =>
        have member : next ∈ sentTo worker world.history := by
          rw [whole]
          exact List.mem_append_right _ (List.mem_cons_of_mem _ List.mem_cons_self)
        have increasing := numbered.sent
        rw [whole] at increasing
        have greater := List.rel_of_pairwise_cons (List.pairwise_append.mp increasing).2.1 List.mem_cons_self
        exact absurd greater (Nat.not_lt_of_ge (during.older worker next member))
  subst ends
  have read : (readBy worker world.history).Sublist earlier := by
    have sublist := numbered.read
    rw [whole] at sublist
    rcases List.sublist_append_iff.mp sublist with ⟨front, back, split, first, second⟩
    rcases List.sublist_singleton.mp second with none | one
    · rw [split, none, List.append_nil]
      exact first
    · rw [one] at split
      exact absurd (split ▸ List.mem_append_right _ List.mem_cons_self) fresh
  have judges : answered = call ↔ CaughtUp worker call world.history := by
    have increasing := numbered.sent
    have delivered := order.answered
    rw [whole] at increasing
    rw [whole, waiting, List.map_cons] at delivered
    rw [answered_iff increasing read (length_gotFrom world.history worker) delivered]
    unfold CaughtUp
    rw [whole]
    constructor
    · intro all other member different
      rcases List.mem_append.mp member with isEarlier | isCall
      · exact all other isEarlier
      · exact absurd (List.mem_singleton.mp isCall) different
    · intro all other isEarlier
      refine all other (List.mem_append_left _ isEarlier) ?_
      exact Nat.ne_of_lt ((List.pairwise_append.mp increasing).2.2 other isEarlier call List.mem_cons_self)
  refine ⟨⟨fun other => ?_, fun other => ?_, during.ordered.judged.received judges⟩, fun other => ?_,
    (fun _ impossible => nomatch impossible), fun other member => ?_⟩
  · rw [sentTo_received, gotFrom_received]
    by_cases same : other = worker
    · subst same
      dsimp only
      rw [Function.update_self, if_pos rfl]
      exact order.read waiting
    · dsimp only
      rw [Function.update_of_ne same, if_neg (Ne.symm same), List.append_nil]
      exact during.ordered.inOrder other
  · refine ⟨?_, ?_⟩
    · rw [sentTo_received]
      exact (during.ordered.numbered other).sent
    · rw [sentTo_received, readBy_received]
      split
      · rename_i same
        subst same
        rw [whole]
        exact read.append (List.Sublist.refl _)
      · rw [List.append_nil]
        exact (during.ordered.numbered other).read
  · rw [sentTo_received]
    exact during.older other
  · have different : worker ≠ other := fun same => new (same ▸ member)
    rw [readBy_received, if_neg different, List.append_nil]
    exact during.unread other (List.mem_cons_of_mem _ member)

/-- A state of a call that has asked some workers. -/
def Asked (call : Nat) (asked unasked unread : List Nat) (world : World S Req Rep) : Prop :=
  During call unasked unread world ∧ ∀ worker ∈ asked, call ∈ sentTo worker world.history

theorem send_ensures (call worker : Nat) (request : Req) (asked unasked unread : List Nat)
    (new : worker ∉ unasked) :
    Client.Ensures (network ε serve) Ordered (fun (_ : σ) => Asked call asked (worker :: unasked) unread)
      (send worker call request) (fun _ _ => Asked call (worker :: asked) unasked unread) fun _ _ =>
        Before (call + 1) := by
  unfold send
  refine Client.Ensures.through
    (Client.Either (fun (_ : PUnit) _ => Asked call (worker :: asked) unasked unread)
    fun _ _ => Before (call + 1)) ?_ Client.Ensures.either
  · refine Client.Ensures.call (fun _ => stable_during _ _ _ fun history => ∀ worker ∈ asked,
      call ∈ sentTo worker history)
      (fun _ _ holds => holds.1.ordered) ?_
    rintro _ world answer last ⟨during, known⟩ answers
    cases answers with
    | sends alive =>
        refine ⟨during.sends new alive, fun other member => ?_⟩
        rw [sentTo_sent]
        rcases List.mem_cons.mp member with here | before
        · rw [if_pos here.symm]
          exact List.mem_append_right _ List.mem_cons_self
        · exact List.mem_append_left _ (known other before)
    | sendFails => exact during.before

theorem recv_ensures (call worker : Nat) (unread : List Nat) (new : worker ∉ unread) :
    Client.Ensures (network ε serve) Ordered
      (fun (_ : σ) => Asked call (worker :: unread) [] (worker :: unread))
      (recv worker call) (fun _ _ => Asked call unread [] unread) fun _ _ => Before (call + 1) := by
  unfold recv
  refine Client.Ensures.through (Client.Either (fun (_ : Rep) _ => Asked call unread [] unread)
    fun _ _ => Before (call + 1)) ?_ Client.Ensures.either
  · refine Client.Ensures.call
      (fun _ => stable_during _ _ _ fun history => ∀ other ∈ worker :: unread, call ∈ sentTo other history)
      (fun _ _ holds => holds.1.ordered) ?_
    rintro _ world answer last ⟨during, known⟩ answers
    cases answers with
    | reads waiting =>
        refine ⟨during.reads new (known worker List.mem_cons_self) waiting, fun other member => ?_⟩
        rw [sentTo_received]
        exact known other (List.mem_cons_of_mem _ member)
    | recvFails => exact during.before

theorem sendAll_ensures (call : Nat) (requests : List (Nat × Req)) (asked unread : List Nat)
    (distinct : (requests.map Prod.fst).Nodup) :
    Client.Ensures (network ε serve) Ordered (fun (_ : σ) => Asked call asked (requests.map Prod.fst) unread)
      (sendAll call requests) (fun _ _ => Asked call ((requests.map Prod.fst).reverse ++ asked) [] unread)
      fun _ _ => Before (call + 1) := by
  induction requests generalizing asked with
  | nil => exact Client.Ensures.pure fun _ _ holds => holds
  | cons request requests inductionHypothesis =>
      rcases request with ⟨worker, request⟩
      rw [List.map_cons, List.nodup_cons] at distinct
      rw [List.map_cons, List.reverse_cons, List.append_assoc]
      exact Client.Ensures.bind (send_ensures call worker request asked _ unread distinct.1)
        fun _ => inductionHypothesis (worker :: asked) distinct.2

theorem recvAll_ensures (call : Nat) (workers : List Nat) (distinct : workers.Nodup) :
    Client.Ensures (network ε serve) Ordered (fun (_ : σ) => Asked call workers [] workers)
      (recvAll call workers)
      (fun _ _ => Before (call + 1)) fun _ _ => Before (call + 1) := by
  induction workers with
  | nil => exact Client.Ensures.pure fun _ _ holds => holds.1.before
  | cons worker workers inductionHypothesis =>
      rw [List.nodup_cons] at distinct
      refine Client.Ensures.bind (recv_ensures call worker workers distinct.1) fun reply => ?_
      refine Client.Ensures.bind (inductionHypothesis distinct.2) fun replies => ?_
      exact Client.Ensures.pure fun _ _ holds => holds

/-- A call that asks some workers and then reads a reply of each. -/
theorem exchange_ensures (serve : S → Req → Option (Rep × S)) (call : Nat) (requests : List (Nat × Req))
    (distinct : (requests.map Prod.fst).Nodup) :
    Client.Ensures (network ε serve) Ordered (fun (_ : σ) => Before call)
      (exchange call requests (requests.map Prod.fst)) (fun _ _ => Before (call + 1)) fun _ _ =>
        Before (call + 1) := by
  refine Client.Ensures.through (fun _ _ => Asked call (requests.map Prod.fst) [] (requests.map Prod.fst)) ?_
    fun _ => recvAll_ensures call _ distinct
  refine (sendAll_ensures call requests [] (requests.map Prod.fst) distinct).imp ?_ ?_ fun _ _ _ holds => holds
  · exact fun _ world before => ⟨before.during _ _, fun _ impossible => nomatch impossible⟩
  · rintro _ _ world ⟨during, asked⟩
    rw [List.append_nil] at asked
    exact ⟨during, fun worker member => asked worker (List.mem_reverse.mpr member)⟩

end Moves

end Pipes
end VectorSearch
