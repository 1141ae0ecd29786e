import VectorSearch.Lib.Embedding

namespace VectorSearch

/-!
# Ghost state

Client code can be given a second state that it only writes to.  Where dropping
that state gives the code back, each run of the code is a run of the code with
the ghost state, which can say what the run did.
-/

namespace Remote

variable {Call World α β : Type} {Answer : Call → Type} {network : Network Call Answer World}

theorem Runs.map {change : α → β} {program : Remote Call Answer α} {world last : World} {result : β}
    (run : Runs network (program.bind fun value => .done (change value)) world result last) :
    ∃ value, Runs network program world value last ∧ change value = result := by
  rcases runs_bind run with ⟨value, middle, front, back⟩
  cases back
  exact ⟨value, front, rfl⟩

end Remote

namespace Client

variable {Call World ε σ γ α β : Type} {Answer : Call → Type}

/-- A result without its ghost state. -/
def dropGhost : EStateM.Result ε (σ × γ) α → EStateM.Result ε σ α
  | .ok value state => .ok value state.1
  | .error error state => .error error state.1

/-- A result with a ghost state. -/
def withGhost (extra : γ) : EStateM.Result ε σ α → EStateM.Result ε (σ × γ) α
  | .ok value state => .ok value (state, extra)
  | .error error state => .error error (state, extra)

/-- Code that leaves the ghost state as it is. -/
def quietly (client : Client Call Answer ε σ α) : Client Call Answer ε (σ × γ) α :=
  fun state => (client state.1).bind fun result => .done (withGhost state.2 result)

/-- Add to the ghost state. -/
def note (change : γ → γ) : Client Call Answer ε (σ × γ) PUnit :=
  fun state => .done (.ok ⟨⟩ (state.1, change state.2))

/-- Without its ghost state the code is the other code. -/
def Erases (ghost : Client Call Answer ε (σ × γ) α) (client : Client Call Answer ε σ α) : Prop :=
  ∀ state extra, (ghost (state, extra)).bind (fun result => .done (dropGhost result)) = client state

namespace Erases

theorem quietly (client : Client Call Answer ε σ α) :
    Erases (quietly client : Client Call Answer ε (σ × γ) α) client := by
  intro state extra
  refine (Remote.bind_assoc (client state) _ _).trans ?_
  refine Eq.trans (congrArg (Remote.bind · (client state)) ?_) (Remote.bind_done (client state))
  funext result
  cases result with
  | ok value state => rfl
  | error error state => rfl

theorem pure (value : α) : Erases (pure value : Client Call Answer ε (σ × γ) α) (pure value) := fun _ _ => rfl

theorem bind {first : Client Call Answer ε (σ × γ) α} {plain : Client Call Answer ε σ α}
    {next : α → Client Call Answer ε (σ × γ) β} {rest : α → Client Call Answer ε σ β}
    (front : Erases first plain)
    (back : ∀ value, Erases (next value) (rest value)) : Erases (first >>= next) (plain >>= rest) := by
  intro state extra
  refine (Remote.bind_assoc (first (state, extra)) _ _).trans ?_
  refine Eq.trans ?_ (congrArg (Remote.bind _) (front state extra))
  refine Eq.trans ?_ (Remote.bind_assoc (first (state, extra)) _ _).symm
  refine congrArg (Remote.bind · (first (state, extra))) ?_
  funext result
  cases result with
  | ok value state => exact back value state.1 state.2
  | error error state => rfl

theorem tryCatch {body : Client Call Answer ε (σ × γ) α} {plain : Client Call Answer ε σ α}
    {handle : ε → Client Call Answer ε (σ × γ) α} {other : ε → Client Call Answer ε σ α}
    (tries : Erases body plain) (handles : ∀ error, Erases (handle error) (other error)) :
    Erases (tryCatchThe ε body handle) (tryCatchThe ε plain other) := by
  intro state extra
  refine (Remote.bind_assoc (body (state, extra)) _ _).trans ?_
  refine Eq.trans ?_ (congrArg (Remote.bind _) (tries state extra))
  refine Eq.trans ?_ (Remote.bind_assoc (body (state, extra)) _ _).symm
  refine congrArg (Remote.bind · (body (state, extra))) ?_
  funext result
  cases result with
  | ok value state => rfl
  | error error state => exact handles error state.1 state.2

/-- What is noted does not matter. -/
theorem note_bind {change : γ → γ} {next : PUnit → Client Call Answer ε (σ × γ) α}
    {client : Client Call Answer ε σ α}
    (erases : Erases (next ⟨⟩) client) : Erases (note change >>= next) client :=
  fun state extra => erases state (change extra)

/-- Every run is a run with ghost state. -/
theorem runs {network : Network Call Answer World} {ghost : Client Call Answer ε (σ × γ) α}
    {client : Client Call Answer ε σ α} (erases : Erases ghost client) {state : σ} {world last : World}
    {result : EStateM.Result ε σ α} (extra : γ) (run : Remote.Runs network (client state) world result last) :
    ∃ given, Remote.Runs network (ghost (state, extra)) world given last ∧ dropGhost given = result := by
  rw [← erases state extra] at run
  exact run.map

end Erases

section Rules

variable {network : Network Call Answer World} {always : World → Prop} {before : σ × γ → World → Prop}
  {raised : ε → σ × γ → World → Prop}

theorem Ensures.note {change : γ → γ} {returned : PUnit → σ × γ → World → Prop}
    (ends : ∀ state extra world, before (state, extra) world → returned ⟨⟩ (state, change extra) world) :
    Ensures network always before (Client.note change : Client Call Answer ε (σ × γ) PUnit) returned raised :=
  fun state => Remote.Ensures.done (ends state.1 state.2)

/-- With each ghost state that stays. -/
theorem Ensures.quietly {client : Client Call Answer ε σ α} {returned : α → σ × γ → World → Prop}
    (each : ∀ extra, Ensures network always (fun state => before (state, extra)) client
      (fun value state => returned value (state, extra)) fun error state => raised error (state, extra)) :
    Ensures network always before (Client.quietly client : Client Call Answer ε (σ × γ) α) returned raised := by
  rintro ⟨state, extra⟩
  refine Remote.Ensures.bind (each extra state) ?_
  rintro (⟨value, after⟩ | ⟨error, after⟩)
  · exact Remote.Ensures.done fun _ here => here
  · exact Remote.Ensures.done fun _ here => here

end Rules

end Client
end VectorSearch
