import VectorSearch.Lib.RemoteProgram

namespace VectorSearch

/-!
# Programs that keep to some calls

Whatever is answered, every call of a confined program is of the given kind and
it ends as it is said to.  After a fatal answer it makes no more calls and fails.
In any network that matches the other answers to these calls it can do what it
has done.
-/

namespace Remote

variable {Call World World' α β : Type} {Answer : Call → Type}

/-- The program has failed. -/
def Failed (fails : α → Prop) : Remote Call Answer α → Prop
  | done value => fails value
  | ask _ _ => False

/-- Every call is of the kind, a fatal answer is the end of the program, and every
end is as given. -/
def Confined (kind : Call → Prop) (fatal : (call : Call) → Answer call → Prop) (fails ends : α → Prop) :
    Remote Call Answer α → Prop
  | done value => ends value
  | ask call next => kind call ∧ ∀ answer, (fatal call answer → Failed fails (next answer)) ∧
      Confined kind fatal fails ends (next answer)

variable {kind : Call → Prop} {fatal : (call : Call) → Answer call → Prop} {fails ends : α → Prop}

theorem Confined.bind {program : Remote Call Answer α} {next : α → Remote Call Answer β}
    {breaks last : β → Prop}
    (stops : ∀ value, fails value → Failed breaks (next value)) (first : program.Confined kind fatal fails ends)
    (second : ∀ value, ends value → (next value).Confined kind fatal breaks last) :
    (program.bind next).Confined kind fatal breaks last := by
  induction program with
  | done value => exact second value first
  | ask call rest inductionHypothesis =>
      refine ⟨first.1, fun answer => ⟨fun isFatal => ?_, inductionHypothesis answer (first.2 answer).2⟩⟩
      have failed := (first.2 answer).1 isFatal
      cases ended : rest answer with
      | done value =>
          rw [ended] at failed
          change Failed breaks ((rest answer).bind next)
          rw [ended]
          exact stops value failed
      | ask call later =>
          rw [ended] at failed
          exact failed.elim

variable {network : Network Call Answer World} {other : Network Call Answer World'}

theorem Confined.ended {program : Remote Call Answer α} (confined : program.Confined kind fatal fails ends)
    {world last : World} {value : α} (run : Runs network program world value last) : ends value := by
  induction run with
  | done => exact confined
  | ask waits given rest inductionHypothesis => exact inductionHypothesis (confined.2 _).2

/-- A run can be followed in another network, where the moves show nothing and the
answers to the calls that are made are matched, but for those that the result
shows not to have been given. -/
theorem Runs.simulated {value : α} {relates : World → World' → Prop}
    (moves : ∀ world next abstract, relates world abstract → network.moves world next → relates next abstract)
    (answers : ∀ call, kind call → ∀ world answer next abstract, relates world abstract →
      network.answers call world answer next → (fatal call answer → fails value) →
      ∃ after, other.answers call abstract answer after ∧ relates next after)
    {program : Remote Call Answer α} (confined : program.Confined kind fatal fails ends) {world last : World}
    (run : Runs network program world value last) {abstract : World'} (related : relates world abstract) :
    ∃ after, Runs other program abstract value after ∧ relates last after := by
  induction run generalizing abstract with
  | done => exact ⟨abstract, .done, related⟩
  | @ask call next world waited middle last answer value waits given rest inductionHypothesis =>
      have isFatal : fatal call answer → fails value := by
        intro fatal
        have failed := (confined.2 answer).1 fatal
        cases ended : next answer with
        | done final =>
            rw [ended] at failed rest
            cases rest
            exact failed
        | ask call later =>
            rw [ended] at failed
            exact failed.elim
      have waiting : relates waited abstract := by
        clear given rest
        induction waits with
        | refl => exact related
        | tail _ move here => exact moves _ _ _ here move
      rcases answers call confined.1 waited answer middle abstract waiting given isFatal with
        ⟨between, matched, relatedNext⟩
      rcases inductionHypothesis answers (confined.2 answer).2 relatedNext with ⟨after, later, relatedLast⟩
      exact ⟨after, .ask .refl matched later, relatedLast⟩

end Remote

namespace Client

variable {Call ε σ α β : Type} {Answer : Call → Type}

/-- What is true of the state at an end, and of the value if there is one. -/
def EndsIn (good : σ → Prop) (given : α → Prop) : EStateM.Result ε σ α → Prop
  | .ok value state => given value ∧ good state
  | .error _ state => good state

def Raises : EStateM.Result ε σ α → Prop
  | .ok _ _ => False
  | .error _ _ => True

/-- From a good state every call is of the kind, a fatal answer raises, and the
state stays good. -/
def Confined (kind : Call → Prop) (fatal : (call : Call) → Answer call → Prop) (good : σ → Prop)
    (client : Client Call Answer ε σ α) (given : α → Prop) : Prop :=
  ∀ state, good state → (client state).Confined kind fatal Raises (EndsIn good given)

namespace Confined

variable {kind : Call → Prop} {fatal : (call : Call) → Answer call → Prop} {good : σ → Prop} {given : α → Prop}
  {last : β → Prop}

theorem pure {value : α} (isGiven : given value) :
    Confined kind fatal good (Pure.pure value : Client Call Answer ε σ α) given := fun _ here => ⟨isGiven, here⟩

theorem throw (error : ε) : Confined kind fatal good
    (MonadExceptOf.throw error : Client Call Answer ε σ α) given :=
  fun _ here => here

theorem lift {result : Except ε α} (gives : ∀ value, result = .ok value → given value) :
    Confined kind fatal good (Client.lift result : Client Call Answer ε σ α) given := by
  cases result with
  | ok value => exact pure (gives value rfl)
  | error error => exact throw error

/-- A call without fatal answers. -/
theorem call {request : Call} (isKind : kind request) (harmless : ∀ answer, ¬ fatal request answer) :
    Confined kind fatal good (Client.call request : Client Call Answer ε σ (Answer request)) fun _ => True :=
  fun _ here => ⟨isKind, fun answer => ⟨fun isFatal => (harmless answer isFatal).elim, trivial, here⟩⟩

/-- A call, where what follows looks for a fatal answer first. -/
theorem call_bind {request : Call} {next : Answer request → Client Call Answer ε σ α} (isKind : kind request)
    (stops : ∀ answer, fatal request answer → ∃ error : ε, next answer = MonadExceptOf.throw error)
    (back : ∀ answer, Confined kind fatal good (next answer) given) :
    Confined kind fatal good (Client.call request >>= next) given := by
  intro state here
  refine ⟨isKind, fun answer => ⟨fun isFatal => ?_, back answer state here⟩⟩
  rcases stops answer isFatal with ⟨error, same⟩
  change Remote.Failed Raises (next answer state)
  rw [same]
  exact trivial

theorem bind {first : Client Call Answer ε σ α} {next : α → Client Call Answer ε σ β}
    (front : Confined kind fatal good first given)
    (back : ∀ value, given value → Confined kind fatal good (next value) last) : Confined kind fatal good
    (first >>= next) last := by
  intro state here
  refine Remote.Confined.bind ?_ (front state here) ?_
  · intro result failed
    cases result with
    | ok value after => exact failed.elim
    | error error after => exact trivial
  intro result reached
  cases result with
  | ok value after => exact back value reached.1 after reached.2
  | error error after => exact reached

/-- What follows may use the state that was read. -/
theorem get_bind {next : σ → Client Call Answer ε σ α}
    (rest : ∀ read, good read → Confined kind fatal good (next read) given) :
    Confined kind fatal good (get >>= next) given := fun state here => rest state here state here

theorem modify {change : σ → σ} (keeps : ∀ state, good state → good (change state)) :
    Confined kind fatal good (modify change : Client Call Answer ε σ PUnit) fun _ => True :=
  fun state here => ⟨trivial, keeps state here⟩

theorem set {state : σ} (isGood : good state) :
    Confined kind fatal good (MonadStateOf.set state : Client Call Answer ε σ PUnit) fun _ => True :=
  fun _ _ => ⟨trivial, isGood⟩

end Confined

/-- A sequence that has returned: each of its parts has. -/
theorem runs_returned {World : Type} {network : Network Call Answer World} {first : Client Call Answer ε σ α}
    {next : α → Client Call Answer ε σ β} {state after : σ} {world last : World} {value : β}
    (run : Remote.Runs network ((first >>= next) state) world (.ok value after) last) :
    ∃ middle reached between, Remote.Runs network (first state) world (.ok middle reached) between ∧
      Remote.Runs network (next middle reached) between (.ok value after) last := by
  rcases Remote.runs_bind run with ⟨result, between, front, back⟩
  cases result with
  | ok middle reached => exact ⟨middle, reached, between, front, back⟩
  | error error reached => cases back

end Client
end VectorSearch
