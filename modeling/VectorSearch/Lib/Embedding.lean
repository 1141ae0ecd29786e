import VectorSearch.Lib.RemoteProgram

namespace VectorSearch

/-!
# Programs inside larger ones

Client code is a lawful monad.  Code for one kind of calls becomes code for
another when each of its calls is carried out by code of the other kind, and
what each call keeps is kept by the whole.

The worlds that keep what is observed only grow.
-/

namespace Remote

variable {Call World α β γ : Type} {Answer : Call → Type}

theorem bind_done (program : Remote Call Answer α) : program.bind done = program := by
  induction program with
  | done value => rfl
  | ask call next inductionHypothesis => exact congrArg (ask call) (funext inductionHypothesis)

theorem bind_assoc (program : Remote Call Answer α) (next : α → Remote Call Answer β)
    (last : β → Remote Call Answer γ) :
    (program.bind next).bind last = program.bind fun value => (next value).bind last := by
  induction program with
  | done value => rfl
  | ask call rest inductionHypothesis => exact congrArg (ask call) (funext inductionHypothesis)

/-! ## What is observed only grows -/

variable {Seen : Type} {observe : Event Call Answer → Option Seen} {program : Remote Call Answer α}
  {world last : List Seen}

theorem waits_observing (waits : Relation.ReflTransGen (observing observe).moves world last) : last =
    world := by
  cases waits with
  | refl => rfl
  | tail _ move => exact nomatch move

theorem Runs.grows {value : α} (run : Runs (observing observe) program world value last) : world <+: last := by
  induction run with
  | done => exact List.prefix_rfl
  | ask waits answers rest inductionHypothesis =>
      rw [waits_observing waits] at answers
      rw [show _ = _ from answers] at inductionHypothesis
      exact (List.prefix_append _ _).trans inductionHypothesis

theorem Passes.grows (pass : Passes (observing observe) program world last) : world <+: last := by
  induction pass with
  | waiting waits =>
      cases waits_observing waits
      exact List.prefix_rfl
  | later waits answers rest inductionHypothesis =>
      rw [waits_observing waits] at answers
      rw [show _ = _ from answers] at inductionHypothesis
      exact (List.prefix_append _ _).trans inductionHypothesis

end Remote

namespace Client

variable {Call Outer World ε σ τ α β : Type} {Answer : Call → Type} {OuterAnswer : Outer → Type}

instance : LawfulMonad (Client Call Answer ε σ) := by
  refine LawfulMonad.mk' _ ?_ ?_ ?_
  · intro α client
    funext state
    refine Eq.trans (congrArg (Remote.bind · (client state)) ?_) (Remote.bind_done (client state))
    funext result
    cases result with
    | ok value state => rfl
    | error error state => rfl
  · exact fun value next => rfl
  · intro α β γ client next last
    funext state
    refine Eq.trans (Remote.bind_assoc (client state) _ _) ?_
    refine congrArg (Remote.bind · (client state)) ?_
    funext result
    cases result with
    | ok value state => rfl
    | error error state => rfl

section Carry

variable (carryOut : (call : Call) → Client Outer OuterAnswer ε τ (Answer call))

def carryTree : Remote Call Answer (EStateM.Result ε Unit α) → Client Outer OuterAnswer ε τ α
  | .done (.ok value _) => pure value
  | .done (.error error _) => throw error
  | .ask call next => carryOut call >>= fun answer => carryTree (next answer)

/-- Code whose calls are each carried out by other code. -/
def carry (client : Client Call Answer ε Unit α) : Client Outer OuterAnswer ε τ α :=
    carryTree carryOut (client ())

theorem carry_call (request : Call) : carry carryOut (call request) = carryOut request :=
  bind_pure (carryOut request)

theorem carry_bind (first : Client Call Answer ε Unit α) (next : α → Client Call Answer ε Unit β) :
    carry carryOut (first >>= next) = carry carryOut first >>= fun value => carry carryOut (next value) := by
  have trees : ∀ tree : Remote Call Answer (EStateM.Result ε Unit α),
      carryTree carryOut (Client.bind (fun _ => tree) next ()) =
        carryTree carryOut tree >>= fun value => carry carryOut (next value) := by
    intro tree
    induction tree with
    | done result =>
        cases result with
        | ok value state => rfl
        | error error state => rfl
    | ask call rest inductionHypothesis =>
        refine Eq.trans ?_ (bind_assoc (carryOut call) _ _).symm
        exact congrArg (carryOut call >>= ·) (funext inductionHypothesis)
  exact trees (first ())

/-- Code of a kind whose calls are carried out by code of another. -/
theorem Only.carry {kind : Call → Prop} {outer : Outer → Prop} {client : Client Call Answer ε Unit α}
    (only : Only kind client) (each : ∀ call, kind call → Only outer (carryOut call)) :
    Only outer (carry carryOut client) := by
  have trees : ∀ tree : Remote Call Answer (EStateM.Result ε Unit α), tree.Only kind →
      Only outer (carryTree carryOut tree) := by
    intro tree isOnly
    induction tree with
    | done result =>
        cases result with
        | ok value state => exact .pure value
        | error error state => exact .throw error
    | ask call next inductionHypothesis =>
        exact .bind (each call isOnly.1) fun answer => inductionHypothesis answer (isOnly.2 answer)
  exact trees (client ()) (only ())

/-- A wider kind. -/
theorem Only.imp {kind wider : Call → Prop} {client : Client Call Answer ε σ α} (only : Only kind client)
    (widens : ∀ call, kind call → wider call) : Only wider client := by
  have trees : ∀ tree : Remote Call Answer (EStateM.Result ε σ α), tree.Only kind → tree.Only wider := by
    intro tree isOnly
    induction tree with
    | done result => exact trivial
    | ask call next inductionHypothesis =>
        exact ⟨widens call isOnly.1, fun answer => inductionHypothesis answer (isOnly.2 answer)⟩
  exact fun state => trees (client state) (only state)

theorem Only.any (client : Client Call Answer ε σ α) : Only (fun _ => True) client := by
  intro state
  induction client state with
  | done result => exact trivial
  | ask call next inductionHypothesis => exact ⟨trivial, inductionHypothesis⟩

end Carry

section Rules

variable {network : Network Outer OuterAnswer World} {always : World → Prop} {before : τ → World → Prop}
  {returned : α → τ → World → Prop} {raised : ε → τ → World → Prop}
  {carryOut : (call : Call) → Client Outer OuterAnswer ε τ (Answer call)}

/-- What is kept by each call of the code is kept by the code. -/
theorem Ensures.carry {kind : Call → Prop} {client : Client Call Answer ε Unit α} {holds : τ → World → Prop}
    (only : Only kind client)
    (each : ∀ call, kind call → Ensures network always holds (carryOut call) (fun _ => holds) fun _ => holds) :
    Ensures network always holds (carry carryOut client) (fun _ => holds) fun _ => holds := by
  have trees : ∀ tree : Remote Call Answer (EStateM.Result ε Unit α), tree.Only kind →
      Ensures network always holds (carryTree carryOut tree) (fun _ => holds) fun _ => holds := by
    intro tree isOnly
    induction tree with
    | done result =>
        cases result with
        | ok value state => exact Ensures.pure fun _ _ here => here
        | error error state => exact Ensures.throw fun _ _ here => here
    | ask call next inductionHypothesis =>
        exact Ensures.bind (each call isOnly.1) fun answer => inductionHypothesis answer (isOnly.2 answer)
  exact trees (client ()) (only ())

theorem Ensures.carry_call {request : Call} {returned : Answer request → τ → World → Prop}
    (ensures : Ensures network always before (carryOut request) returned raised) :
    Ensures network always before (Client.carry carryOut (Client.call request)) returned raised := by
  rw [Client.carry_call]
  exact ensures

/-- The rule for a sequence that is carried out, with what holds in between. -/
theorem Ensures.carry_bind {first : Client Call Answer ε Unit α} {next : α → Client Call Answer ε Unit β}
    {last : β → τ → World → Prop} (between : α → τ → World → Prop)
    (front : Ensures network always before (Client.carry carryOut first) between raised)
    (back : ∀ value, Ensures network always (between value) (Client.carry carryOut (next value)) last raised) :
    Ensures network always before (Client.carry carryOut (first >>= next)) last raised := by
  rw [Client.carry_bind]
  exact Ensures.bind front back

/-- A weaker invariant. -/
theorem Ensures.widen {client : Client Outer OuterAnswer ε τ α} {wider : World → Prop}
    (ensures : Ensures network always before client returned raised)
    (widens : ∀ world, always world → wider world) :
    Ensures network wider before client returned raised := by
  intro state world holds
  rcases ensures state world holds with ⟨runs, passes⟩
  exact ⟨runs, fun last pass => widens last (passes last pass)⟩

/-- Where nothing is raised, anything holds of what is. -/
theorem Ensures.unraised {client : Client Outer OuterAnswer ε τ α}
    (ensures : Ensures network always before client returned fun _ _ _ => False) :
    Ensures network always before client returned raised :=
  ensures.imp (fun _ _ holds => holds) (fun _ _ _ holds => holds) fun _ _ _ impossible => nomatch impossible

end Rules

end Client
end VectorSearch
