import Mathlib.Data.List.Basic
import Mathlib.Logic.Relation

namespace VectorSearch

/-!
# Programs that call other machines

A client's program is a tree of calls: it makes one, and goes on with whatever
is answered.  A network says how each call can be answered in a world and what
that does to the world, and what can happen in the world by itself between two
calls.  Nothing is assumed about either, so a network can lose messages, let
them arrive late and stop machines.

`Ensures` is the triple for such programs: from every world that satisfies the
precondition, at every moment of a run the world satisfies the invariant, and
at its end the postcondition holds.  What is assumed between two calls has to
be stable under what happens by itself.

`Client` adds to this the state and the exceptions of the client's own code.
-/

/-- A program of calls, each with the type of its answer. -/
inductive Remote (Call : Type) (Answer : Call → Type) (α : Type) where
  | done (value : α)
  | ask (call : Call) (next : Answer call → Remote Call Answer α)

/-- How calls are answered, and what happens in between. -/
structure Network (Call : Type) (Answer : Call → Type) (World : Type) where
  answers : (call : Call) → World → Answer call → World → Prop
  moves : World → World → Prop

namespace Remote

variable {Call World α β : Type} {Answer : Call → Type} (network : Network Call Answer World)

def bind (next : α → Remote Call Answer β) : Remote Call Answer α → Remote Call Answer β
  | done value => next value
  | ask call rest => ask call fun answer => (rest answer).bind next

/-- A complete run, with its result and the world it ends in. -/
inductive Runs : Remote Call Answer α → World → α → World → Prop
  | done {value : α} {world : World} : Runs (done value) world value world
  | ask {call : Call} {next : Answer call → Remote Call Answer α} {world waited middle last : World}
      {answer : Answer call} {value : α} (waits : Relation.ReflTransGen network.moves world waited)
      (answers : network.answers call waited answer middle) (rest : Runs (next answer) middle value last) :
      Runs (ask call next) world value last

/-- A world at some moment of a run, while a call is waiting for its answer. -/
inductive Passes : Remote Call Answer α → World → World → Prop
  | waiting {call : Call} {next : Answer call → Remote Call Answer α} {world waited : World}
      (waits : Relation.ReflTransGen network.moves world waited) : Passes (ask call next) world waited
  | later {call : Call} {next : Answer call → Remote Call Answer α} {world waited middle last : World}
      {answer : Answer call} (waits : Relation.ReflTransGen network.moves world waited)
      (answers : network.answers call waited answer middle) (rest : Passes (next answer) middle last) :
      Passes (ask call next) world last

/-- A call that is answered at once. -/
theorem Runs.answered {network : Network Call Answer World} {call : Call}
    {next : Answer call → Remote Call Answer α}
    {world middle last : World} {value : α} (answer : Answer call)
    (answers : network.answers call world answer middle)
    (rest : Runs network (next answer) middle value last) : Runs network (.ask call next) world value last :=
  .ask .refl answers rest

theorem Passes.answered {network : Network Call Answer World} {call : Call}
    {next : Answer call → Remote Call Answer α}
    {world middle last : World} (answer : Answer call) (answers : network.answers call world answer middle)
    (rest : Passes network (next answer) middle last) : Passes network (.ask call next) world last :=
  .later .refl answers rest

/-- A predicate that nothing falsifies by itself. -/
def Stable (holds : World → Prop) : Prop :=
  ∀ world next, holds world → network.moves world next → holds next

theorem Stable.waits {network : Network Call Answer World} {holds : World → Prop}
    (stable : Stable network holds) {world waited : World} (here : holds world)
    (path : Relation.ReflTransGen network.moves world waited) : holds waited := by
  induction path with
  | refl => exact here
  | tail _ move inductionHypothesis => exact stable _ _ inductionHypothesis move

/-- At every moment the invariant, at the end the postcondition. -/
def Ensures (always before : World → Prop) (program : Remote Call Answer α) (after : α → World → Prop) :
    Prop :=
  ∀ world, before world → (∀ value last, Runs network program world value last → after value last) ∧
    ∀ last, Passes network program world last → always last

variable {network} {always before : World → Prop} {program : Remote Call Answer α}
  {after : α → World → Prop}

theorem Ensures.imp {stronger : World → Prop} {weaker : α → World → Prop}
    (ensures : Ensures network always before program after)
    (strengthen : ∀ world, stronger world → before world)
    (weaken : ∀ value world, after value world → weaker value world) :
    Ensures network always stronger program weaker := by
  intro world holds
  rcases ensures world (strengthen world holds) with ⟨runs, passes⟩
  exact ⟨fun value last run => weaken value last (runs value last run), passes⟩

theorem Ensures.done {value : α} (ends : ∀ world, before world → after value world) :
    Ensures network always before (.done value) after := by
  intro world holds
  constructor
  · rintro _ _ ⟨⟩
    exact ends world holds
  · rintro _ ⟨⟩

theorem Ensures.ask {call : Call} {next : Answer call → Remote Call Answer α}
    {middle : Answer call → World → Prop} (stable : Stable network before)
    (good : ∀ world, before world → always world)
    (answers : ∀ world answer last, before world → network.answers call world answer last → middle answer last)
    (rest : ∀ answer, Ensures network always (middle answer) (next answer) after) :
    Ensures network always before (.ask call next) after := by
  intro world holds
  constructor
  · intro value last run
    cases run with
    | ask waits given later => exact (rest _ _ (answers _ _ _ (stable.waits holds waits) given)).1 _ _ later
  · intro last pass
    cases pass with
    | waiting waits => exact good _ (stable.waits holds waits)
    | later waits given later =>
        exact (rest _ _ (answers _ _ _ (stable.waits holds waits) given)).2 _ later

/-- Where every call is answered, a program can be run to its end. -/
theorem runs_exist (answered : ∀ call world, ∃ answer last, network.answers call world answer last)
    (program : Remote Call Answer α) (world : World) :
    ∃ value last, Runs network program world value last := by
  induction program generalizing world with
  | done value => exact ⟨value, world, .done⟩
  | ask call rest inductionHypothesis =>
      rcases answered call world with ⟨answer, middle, given⟩
      rcases inductionHypothesis answer middle with ⟨value, last, run⟩
      exact ⟨value, last, .ask .refl given run⟩

/-- What no move and no answer falsifies holds at the end of a run. -/
theorem Runs.keeps {network : Network Call Answer World} {holds : World → Prop} (stable : Stable network holds)
    (answers : ∀ call world answer last, holds world → network.answers call world answer last → holds last)
    {program : Remote Call Answer α} {world last : World} {value : α}
    (run : Runs network program world value last)
    (here : holds world) : holds last := by
  induction run with
  | done => exact here
  | ask waits given rest inductionHypothesis =>
      exact inductionHypothesis (answers _ _ _ _ (stable.waits here waits) given)

/-- A run of a sequence is a run of its first part and one of the second. -/
theorem runs_bind {next : α → Remote Call Answer β} {world last : World} {result : β}
    (run : Runs network (program.bind next) world result last) :
    ∃ value middle, Runs network program world value middle ∧ Runs network (next value) middle result last := by
  induction program generalizing world with
  | done value => exact ⟨value, world, .done, run⟩
  | ask call rest inductionHypothesis =>
      cases run with
      | ask waits given later =>
          rcases inductionHypothesis _ later with ⟨value, middle, front, back⟩
          exact ⟨value, middle, .ask waits given front, back⟩

theorem passes_bind {next : α → Remote Call Answer β} {world last : World}
    (pass : Passes network (program.bind next) world last) :
    Passes network program world last ∨
      ∃ value middle, Runs network program world value middle ∧ Passes network (next value) middle last := by
  induction program generalizing world with
  | done value => exact Or.inr ⟨value, world, .done, pass⟩
  | ask call rest inductionHypothesis =>
      cases pass with
      | waiting waits => exact Or.inl (.waiting waits)
      | later waits given later =>
          rcases inductionHypothesis _ later with here | ⟨value, middle, front, back⟩
          · exact Or.inl (.later waits given here)
          · exact Or.inr ⟨value, middle, .ask waits given front, back⟩

theorem Ensures.bind {next : α → Remote Call Answer β} {middle : α → World → Prop} {last : β → World → Prop}
    (first : Ensures network always before program middle)
    (second : ∀ value, Ensures network always (middle value) (next value) last) :
    Ensures network always before (program.bind next) last := by
  intro world holds
  rcases first world holds with ⟨runs, passes⟩
  constructor
  · intro result reached run
    rcases runs_bind run with ⟨value, between, front, back⟩
    exact (second value between (runs value between front)).1 result reached back
  · intro reached pass
    rcases passes_bind pass with front | ⟨value, between, front, back⟩
    · exact passes reached front
    · exact (second value between (runs value between front)).2 reached back

/-! ### Programs with few kinds of calls -/

/-- Every call that can be made is of the given kind. -/
def Only (kind : Call → Prop) : Remote Call Answer α → Prop
  | done _ => True
  | ask call next => kind call ∧ ∀ answer, Only kind (next answer)

theorem Only.bind {kind : Call → Prop} {program : Remote Call Answer α} {next : α → Remote Call Answer β}
    (first : program.Only kind) (second : ∀ value, (next value).Only kind) : (program.bind next).Only kind := by
  induction program with
  | done value => exact second value
  | ask call rest inductionHypothesis =>
      exact ⟨first.1, fun answer => inductionHypothesis answer (first.2 answer)⟩

/-- What no call of the program falsifies stays true. -/
theorem Ensures.of_only {kind : Call → Prop} {program : Remote Call Answer α} (only : program.Only kind)
    (stable : Stable network before) (good : ∀ world, before world → always world)
    (kept : ∀ call, kind call → ∀ world answer last, before world → network.answers call world answer last →
      before last) : Ensures network always before program fun _ => before := by
  induction program with
  | done value => exact Ensures.done fun _ holds => holds
  | ask call rest inductionHypothesis =>
      apply Ensures.ask stable good (kept call only.1)
      exact fun answer => inductionHypothesis answer (only.2 answer)

/-! ### Two programs side by side -/

/-- A call with its answer. -/
abbrev Event (Call : Type) (Answer : Call → Type) := (call : Call) × Answer call

inductive Side where
  | left
  | right
  deriving DecidableEq

/-- The network that answers anything and keeps what is observed of the calls. -/
def observing {Seen : Type} (observe : Event Call Answer → Option Seen) : Network Call Answer (List Seen) where
  answers := fun call seen answer last => last = seen ++ (observe ⟨call, answer⟩).toList
  moves := fun _ _ => False

variable (network) in
/-- Two programs take turns in one world, a call at a time, in any order.  The
events are their calls in the order in which they are answered. -/
inductive Beside : Remote Call Answer α → Remote Call Answer β → World → List (Side × Event Call Answer) →
    α → β → World → Prop
  | done {first : α} {second : β} {world : World} :
      Beside (done first) (done second) world [] first second world
  | left {call : Call} {next : Answer call → Remote Call Answer α} {other : Remote Call Answer β}
      {world waited middle last : World} {answer : Answer call} {events : List (Side × Event Call Answer)}
      {first : α} {second : β} (waits : Relation.ReflTransGen network.moves world waited)
      (answers : network.answers call waited answer middle)
      (rest : Beside (next answer) other middle events first second last) :
      Beside (ask call next) other world ((.left, ⟨call, answer⟩) :: events) first second last
  | right {call : Call} {next : Answer call → Remote Call Answer β} {other : Remote Call Answer α}
      {world waited middle last : World} {answer : Answer call} {events : List (Side × Event Call Answer)}
      {first : α} {second : β} (waits : Relation.ReflTransGen network.moves world waited)
      (answers : network.answers call waited answer middle)
      (rest : Beside other (next answer) middle events first second last) :
      Beside other (ask call next) world ((.right, ⟨call, answer⟩) :: events) first second last

/-- What one side does, by what is observed of it. -/
def ofSide {Seen : Type} (side : Side) (seen : List (Side × Seen)) : List Seen :=
  seen.filterMap fun item => if item.1 = side then some item.2 else none

/-- What is observed of the events. -/
def observed {Seen : Type} (observe : Event Call Answer → Option Seen)
    (events : List (Side × Event Call Answer)) :
    List (Side × Seen) :=
  events.filterMap fun event => (observe event.2).map fun seen => (event.1, seen)

theorem observed_cons {Seen : Type} (observe : Event Call Answer → Option Seen) (side : Side)
    (event : Event Call Answer) (events : List (Side × Event Call Answer)) :
    observed observe ((side, event) :: events) =
      ((observe event).toList.map fun seen => (side, seen)) ++ observed observe events := by
  cases found : observe event with
  | none => simp only [observed, List.filterMap_cons, found, Option.map_none, Option.toList_none, List.map_nil,
      List.nil_append]
  | some seen =>
      simp only [observed, List.filterMap_cons, found, Option.map_some, Option.toList_some, List.map_cons,
      List.map_nil, List.singleton_append]

theorem ofSide_append {Seen : Type} (side : Side) (front back : List (Side × Seen)) :
    ofSide side (front ++ back) = ofSide side front ++ ofSide side back := List.filterMap_append

theorem ofSide_own {Seen : Type} (side : Side) (seen : List Seen) :
    ofSide side (seen.map fun item => (side, item)) = seen := by
  unfold ofSide
  rw [List.filterMap_map]
  have all : ((fun item : Side × Seen => if item.1 = side then some item.2 else none) ∘
      fun item => (side, item)) = some := by
    funext item
    exact if_pos rfl
  rw [all, List.filterMap_some]

theorem ofSide_other {Seen : Type} {side other : Side} (differ : other ≠ side) (seen : List Seen) :
    ofSide side (seen.map fun item => (other, item)) = [] := by
  unfold ofSide
  rw [List.filterMap_map]
  have none : ((fun item : Side × Seen => if item.1 = side then some item.2 else none) ∘
      fun item => (other, item)) = fun _ => Option.none := by
    funext item
    exact if_neg differ
  rw [none, List.filterMap_none]

theorem mem_ofSide {Seen : Type} {side : Side} {seen : List (Side × Seen)} {item : Seen} :
    item ∈ ofSide side seen ↔ (side, item) ∈ seen := by
  unfold ofSide
  rw [List.mem_filterMap]
  constructor
  · rintro ⟨⟨other, found⟩, member, given⟩
    split at given
    · rename_i same
      cases given
      exact same ▸ member
    · cases given
  · exact fun member => ⟨_, member, if_pos rfl⟩

/-- Where one side's part is cut, the whole can be cut. -/
theorem ofSide_split {Seen : Type} {side : Side} {seen : List (Side × Seen)} {front back : List Seen}
    {item : Seen} (parts : ofSide side seen = front ++ item :: back) :
    ∃ before after, seen = before ++ (side, item) :: after ∧ ofSide side before = front ∧
      ofSide side after = back := by
  rcases List.filterMap_eq_append_iff.mp parts with ⟨before, rest, isSeen, isFront, isRest⟩
  rcases List.filterMap_eq_cons_iff.mp isRest with
    ⟨skipped, ⟨other, found⟩, after, isAll, nothing, given, isBack⟩
  split at given
  · rename_i same
    cases given
    refine ⟨before ++ skipped, after, ?_, ?_, isBack⟩
    · rw [isSeen, isAll, List.append_assoc]
      exact same ▸ rfl
    · have silent : ofSide side skipped = [] := List.filterMap_eq_nil_iff.mpr nothing
      rw [ofSide_append, silent, List.append_nil]
      exact isFront
  · cases given

/-- Each program's part is a run of it by itself. -/
theorem Beside.sides {Seen : Type} {observe : Event Call Answer → Option Seen} {left : Remote Call Answer α}
    {right : Remote Call Answer β} {world last : World} {events : List (Side × Event Call Answer)} {first : α}
    {second : β} (beside : Beside network left right world events first second last) (seen other : List Seen) :
    Runs (observing observe) left seen first (seen ++ ofSide .left (observed observe events)) ∧
      Runs (observing observe) right other second (other ++ ofSide .right (observed observe events)) := by
  induction beside generalizing seen other with
  | done =>
      rw [observed, List.filterMap_nil]
      unfold ofSide
      rw [List.filterMap_nil, List.filterMap_nil, List.append_nil, List.append_nil]
      exact ⟨.done, .done⟩
  | left waits answers rest inductionHypothesis =>
      rename_i call next _ _ _ _ _ answer events _ _
      have later := inductionHypothesis (seen ++ (observe ⟨call, answer⟩).toList) other
      rw [observed_cons, ofSide_append, ofSide_append, ofSide_own, ofSide_other (by decide), List.nil_append,
        ← List.append_assoc]
      exact ⟨.ask .refl rfl later.1, later.2⟩
  | right waits answers rest inductionHypothesis =>
      rename_i call next _ _ _ _ _ answer events _ _
      have later := inductionHypothesis seen (other ++ (observe ⟨call, answer⟩).toList)
      rw [observed_cons, ofSide_append, ofSide_append, ofSide_own, ofSide_other (by decide), List.nil_append,
        ← List.append_assoc]
      exact ⟨later.1, .ask .refl rfl later.2⟩

end Remote

/-! ## Client code -/

/-- Code with a state and exceptions that calls other machines.  An exception
keeps the state. -/
def Client (Call : Type) (Answer : Call → Type) (ε σ α : Type) : Type :=
  σ → Remote Call Answer (EStateM.Result ε σ α)

namespace Client

variable {Call World ε σ α β : Type} {Answer : Call → Type}

protected def pure (value : α) : Client Call Answer ε σ α := fun state => .done (.ok value state)

protected def bind (first : Client Call Answer ε σ α) (next : α → Client Call Answer ε σ β) :
    Client Call Answer ε σ β := fun state =>
  (first state).bind fun
    | .ok value state => next value state
    | .error error state => .done (.error error state)

instance : Monad (Client Call Answer ε σ) where
  pure := Client.pure
  bind := Client.bind

instance : MonadStateOf σ (Client Call Answer ε σ) where
  get := fun state => .done (.ok state state)
  set state := fun _ => .done (.ok ⟨⟩ state)
  modifyGet change := fun state => .done (.ok (change state).1 (change state).2)

instance : MonadExceptOf ε (Client Call Answer ε σ) where
  throw error := fun state => .done (.error error state)
  tryCatch body handle := fun state =>
    (body state).bind fun
      | .ok value state => .done (.ok value state)
      | .error error state => handle error state

/-- Make a call. -/
def call (request : Call) : Client Call Answer ε σ (Answer request) := fun state =>
  .ask request fun answer => .done (.ok answer state)

/-- The value of a computation without calls, or its exception. -/
def lift : Except ε α → Client Call Answer ε σ α
  | .ok value => Client.pure value
  | .error error => throw error

/-- The triple for client code, with one postcondition for each way it ends. -/
def Ensures (network : Network Call Answer World) (always : World → Prop) (before : σ → World → Prop)
    (client : Client Call Answer ε σ α) (returned : α → σ → World → Prop) (raised : ε → σ → World → Prop) :
    Prop :=
  ∀ state, Remote.Ensures network always (before state) (client state) fun
    | .ok value state => returned value state
    | .error error state => raised error state

/-- Client code whose calls are all of the given kind. -/
def Only (kind : Call → Prop) (client : Client Call Answer ε σ α) : Prop := ∀ state, (client state).Only kind

namespace Only

variable {kind : Call → Prop}

theorem pure (value : α) : Only kind (Pure.pure value : Client Call Answer ε σ α) := fun _ => trivial

theorem throw (error : ε) : Only kind (MonadExceptOf.throw error : Client Call Answer ε σ α) := fun _ => trivial

theorem lift (result : Except ε α) : Only kind (Client.lift result : Client Call Answer ε σ α) := by
  cases result with
  | ok value => exact pure value
  | error error => exact throw error

theorem call {request : Call} (isKind : kind request) :
    Only kind (Client.call request : Client Call Answer ε σ (Answer request)) :=
  fun _ => ⟨isKind, fun _ => trivial⟩

theorem bind {first : Client Call Answer ε σ α} {next : α → Client Call Answer ε σ β} (front : Only kind first)
    (back : ∀ value, Only kind (next value)) : Only kind (first >>= next) := by
  intro state
  apply Remote.Only.bind (front state)
  rintro (⟨value, state⟩ | ⟨error, state⟩)
  · exact back value state
  · exact trivial

theorem tryCatch {body : Client Call Answer ε σ α} {handle : ε → Client Call Answer ε σ α}
    (tries : Only kind body)
    (handles : ∀ error, Only kind (handle error)) : Only kind (tryCatchThe ε body handle) := by
  intro state
  apply Remote.Only.bind (tries state)
  rintro (⟨value, state⟩ | ⟨error, state⟩)
  · exact trivial
  · exact handles error state

end Only

section Rules

variable {network : Network Call Answer World} {always : World → Prop} {before : σ → World → Prop}
  {returned : α → σ → World → Prop} {raised : ε → σ → World → Prop}

theorem Ensures.imp {client : Client Call Answer ε σ α} {stronger : σ → World → Prop}
    {weaker : α → σ → World → Prop} {failed : ε → σ → World → Prop}
    (ensures : Ensures network always before client returned raised)
    (strengthen : ∀ state world, stronger state world → before state world)
    (weaken : ∀ value state world, returned value state world → weaker value state world)
    (fails : ∀ error state world, raised error state world → failed error state world) :
    Ensures network always stronger client weaker failed := by
  intro state
  apply (ensures state).imp (strengthen state)
  rintro (⟨value, state⟩ | ⟨error, state⟩) world holds
  · exact weaken value state world holds
  · exact fails error state world holds

/-- What is known besides the world. -/
theorem Ensures.given {client : Client Call Answer ε σ α} {fact : Prop}
    (rest : fact → Ensures network always before client returned raised) :
    Ensures network always (fun state world => before state world ∧ fact) client returned raised := by
  rintro state world ⟨holds, isFact⟩
  exact rest isFact state world holds

theorem Ensures.some {client : Client Call Answer ε σ α} {known : β → σ → World → Prop}
    (rest : ∀ item, Ensures network always (known item) client returned raised) :
    Ensures network always (fun state world => ∃ item, known item state world) client returned raised := by
  rintro state world ⟨item, holds⟩
  exact rest item state world holds

theorem Ensures.pure {value : α} (ends : ∀ state world, before state world → returned value state world) :
    Ensures network always before (Pure.pure value : Client Call Answer ε σ α) returned raised :=
  fun state => Remote.Ensures.done (ends state)

theorem Ensures.throw {error : ε} (ends : ∀ state world, before state world → raised error state world) :
    Ensures network always before (MonadExceptOf.throw error : Client Call Answer ε σ α) returned raised :=
  fun state => Remote.Ensures.done (ends state)

theorem Ensures.bind {first : Client Call Answer ε σ α} {next : α → Client Call Answer ε σ β}
    {last : β → σ → World → Prop} (front : Ensures network always before first returned raised)
    (back : ∀ value, Ensures network always (returned value) (next value) last raised) :
    Ensures network always before (first >>= next) last raised := by
  intro state
  apply Remote.Ensures.bind (front state)
  rintro (⟨value, state⟩ | ⟨error, state⟩)
  · exact back value state
  · exact Remote.Ensures.done fun _ holds => holds

/-- `bind` with what holds in between. -/
theorem Ensures.through {first : Client Call Answer ε σ α} {next : α → Client Call Answer ε σ β}
    {last : β → σ → World → Prop} (between : α → σ → World → Prop)
    (front : Ensures network always before first between raised)
    (back : ∀ value, Ensures network always (between value) (next value) last raised) :
    Ensures network always before (first >>= next) last raised :=
  Ensures.bind front back

theorem Ensures.set {state : σ} {returned : PUnit → σ → World → Prop}
    (ends : ∀ old world, before old world → returned ⟨⟩ state world) :
    Ensures network always before (MonadStateOf.set state : Client Call Answer ε σ PUnit) returned raised :=
  fun old => Remote.Ensures.done (ends old)

theorem Ensures.modify {change : σ → σ} {returned : PUnit → σ → World → Prop}
    (ends : ∀ state world, before state world → returned ⟨⟩ (change state) world) :
    Ensures network always before (modify change : Client Call Answer ε σ PUnit) returned raised :=
  fun state => Remote.Ensures.done (ends state)

/-- What follows may use the state that was read. -/
theorem Ensures.get_bind {next : σ → Client Call Answer ε σ α}
    (rest : ∀ read, Ensures network always (fun state world => state = read ∧ before state world) (next read)
      returned raised) : Ensures network always before (get >>= next) returned raised := by
  intro state
  exact (rest state state).imp (fun _ holds => ⟨rfl, holds⟩) fun _ _ holds => holds

theorem Ensures.lift {result : Except ε α}
    (gives : ∀ value, result = .ok value → ∀ state world, before state world → returned value state world)
    (fails : ∀ error, result = .error error → ∀ state world, before state world → raised error state world) :
    Ensures network always before (lift result : Client Call Answer ε σ α) returned raised := by
  cases result with
  | ok value => exact Ensures.pure (gives value rfl)
  | error error => exact Ensures.throw (fails error rfl)

/-- What follows may use that the computation gave its value. -/
theorem Ensures.lift_bind {result : Except ε α} {next : α → Client Call Answer ε σ β}
    {returned : β → σ → World → Prop}
    (rest : ∀ value, result = .ok value → Ensures network always before (next value) returned raised)
    (fails : ∀ error, result = .error error → ∀ state world, before state world → raised error state world) :
    Ensures network always before (Client.lift result >>= next) returned raised := by
  cases result with
  | ok value => exact rest value rfl
  | error error => exact fun state => Remote.Ensures.done (fails error rfl state)

/-- What holds after an answer, by whether it is a value or an exception. -/
def Either (returned : α → σ → World → Prop) (raised : ε → σ → World → Prop) : Except ε α → σ → World → Prop
  | .ok value => returned value
  | .error error => raised error

theorem Ensures.either (answer : Except ε α) :
    Ensures network always (Either returned raised answer) (Client.lift answer) returned raised := by
  cases answer with
  | ok value => exact Ensures.pure fun _ _ holds => holds
  | error error => exact Ensures.throw fun _ _ holds => holds

/-- An exception goes on in its handler. -/
theorem Ensures.tryCatch {body : Client Call Answer ε σ α} {handle : ε → Client Call Answer ε σ α}
    {failed : ε → σ → World → Prop} (tries : Ensures network always before body returned raised)
    (handles : ∀ error, Ensures network always (raised error) (handle error) returned failed) :
    Ensures network always before (tryCatchThe ε body handle) returned failed := by
  intro state
  apply Remote.Ensures.bind (tries state)
  rintro (⟨value, state⟩ | ⟨error, state⟩)
  · exact Remote.Ensures.done fun _ holds => holds
  · exact handles error state

/-- What no call falsifies stays true, however the code ends. -/
theorem Ensures.of_only {kind : Call → Prop} {client : Client Call Answer ε σ α} {holds : World → Prop}
    (only : Only kind client) (stable : Remote.Stable network holds)
    (good : ∀ world, holds world → always world)
    (kept : ∀ call, kind call → ∀ world answer last, holds world → network.answers call world answer last →
      holds last) : Ensures network always (fun _ => holds) client (fun _ _ => holds) fun _ _ => holds := by
  intro state
  apply (Remote.Ensures.of_only (only state) stable good kept).imp fun _ here => here
  rintro (⟨value, state⟩ | ⟨error, state⟩) _ here
  · exact here
  · exact here

/-- While the call waits nothing may falsify what is known, which implies the
invariant. -/
theorem Ensures.call {request : Call} {returned : Answer request → σ → World → Prop}
    (stable : ∀ state, Remote.Stable network (before state))
    (good : ∀ state world, before state world → always world)
    (answers : ∀ state world answer last, before state world → network.answers request world answer last →
      returned answer state last) :
    Ensures network always before (call request : Client Call Answer ε σ (Answer request)) returned raised := by
  intro state
  apply Remote.Ensures.ask (stable state) (good state) (answers state)
  intro answer
  exact Remote.Ensures.done fun _ holds => holds

/-- A loop: the invariant speaks about the items done so far. -/
theorem Ensures.forM {items : List α} {body : α → Client Call Answer ε σ PUnit}
    (invariant : List α → σ → World → Prop)
    (each : ∀ earlier item later, items = earlier ++ item :: later →
      Ensures network always (invariant earlier) (body item) (fun _ => invariant (earlier ++ [item])) raised) :
    Ensures network always (invariant []) (items.forM body) (fun _ => invariant items) raised := by
  suffices run : ∀ later earlier, items = earlier ++ later →
      Ensures network always (invariant earlier) (later.forM body) (fun _ => invariant items) raised by
    exact run items [] rfl
  intro later
  induction later with
  | nil =>
      intro earlier whole
      rw [List.append_nil] at whole
      rw [whole]
      exact Ensures.pure fun _ _ holds => holds
  | cons item rest inductionHypothesis =>
      intro earlier whole
      apply Ensures.bind (each earlier item rest whole)
      intro _
      apply inductionHypothesis
      rw [whole, List.append_assoc, List.singleton_append]

end Rules
end Client
end VectorSearch
