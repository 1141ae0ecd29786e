import VectorSearch.Lib.RemoteProgram

namespace VectorSearch

/-!
# Runs that can be made

A triple says what every run of client code does.  Here it is put together from
runs of its parts that it has one that returns a value.
-/

namespace Remote

variable {Call World α β : Type} {Answer : Call → Type} {network : Network Call Answer World}

/-- A run of the first part and one of the second make a run of both. -/
theorem Runs.append {first : Remote Call Answer α} {next : α → Remote Call Answer β} {world middle last : World}
    {value : α} {result : β} (front : Runs network first world value middle)
    (back : Runs network (next value) middle result last) : Runs network (first.bind next)
    world result last := by
  induction front with
  | done => exact back
  | ask waits answers rest inductionHypothesis => exact .ask waits answers (inductionHypothesis back)

end Remote

namespace Client

variable {Call World ε σ α β : Type} {Answer : Call → Type}

/-- From the state and the world the code can return the value. -/
def Yields (network : Network Call Answer World) (client : Client Call Answer ε σ α) (state : σ) (world : World)
    (value : α) (after : σ) (last : World) : Prop :=
  Remote.Runs network (client state) world (.ok value after) last

namespace Yields

variable {network : Network Call Answer World} {state middle after : σ} {world between last : World}

theorem pure (value : α) : Yields network (pure value : Client Call Answer ε σ α) state world
    value state world := .done

theorem bind {first : Client Call Answer ε σ α} {next : α → Client Call Answer ε σ β} {value : α} {result : β}
    (front : Yields network first state world value middle between)
    (back : Yields network (next value) middle between result after last) :
    Yields network (first >>= next) state world result after last :=
  Remote.Runs.append front back

/-- A call that is answered at once. -/
theorem call (request : Call) (answer : Answer request) (answers : network.answers request world answer last) :
    Yields network (Client.call request : Client Call Answer ε σ _) state world answer state last :=
  .ask .refl answers .done

theorem lift {result : Except ε α} {value : α} (given : result = .ok value) :
    Yields network (Client.lift result : Client Call Answer ε σ α) state world value state world := by
  rw [given]
  exact .done

/-- A handler that is not needed. -/
theorem tryCatch {body : Client Call Answer ε σ α} {handle : ε → Client Call Answer ε σ α} {value : α}
    (returns : Yields network body state world value after last) :
    Yields network (tryCatchThe ε body handle) state world value after last :=
  Remote.Runs.append returns .done

end Yields
end Client
end VectorSearch
