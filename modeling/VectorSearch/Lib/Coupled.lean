import VectorSearch.Lib.Stateful

namespace VectorSearch

/-!
# Actions side by side

Two actions on states that are related do the same when they end in the same
way, with the same value or exception, in states that are related again.  What
differs between the states then never shows.
-/

namespace Stateful

variable {ε σ τ α β : Type}

/-- Two ends that cannot be told apart. -/
inductive SameEnd (relates : σ → τ → Prop) : EStateM.Result ε σ α → EStateM.Result ε τ α → Prop
  | returned {value : α} {left : σ} {right : τ} (holds : relates left right) : SameEnd relates
      (.ok value left) (.ok value right)
  | raised {error : ε} {left : σ} {right : τ} (holds : relates left right) : SameEnd relates
      (.error error left) (.error error right)

/-- From related states the actions do the same. -/
def Couples (relates : σ → τ → Prop) (first : EStateM ε σ α) (second : EStateM ε τ α) : Prop :=
  ∀ left right, relates left right → SameEnd relates (first left) (second right)

variable {relates : σ → τ → Prop}

theorem Couples.pure (value : α) : Couples relates (pure value : EStateM ε σ α) (pure value) :=
  fun _ _ holds => .returned holds

theorem Couples.throw (error : ε) : Couples relates (throw error : EStateM ε σ α) (throw error) :=
  fun _ _ holds => .raised holds

theorem Couples.bind {first : EStateM ε σ α} {second : EStateM ε τ α} {next : α → EStateM ε σ β}
    {after : α → EStateM ε τ β}
    (front : Couples relates first second) (back : ∀ value, Couples relates (next value) (after value)) :
    Couples relates (first >>= next) (second >>= after) := by
  intro left right holds
  change SameEnd relates (EStateM.bind first next left) (EStateM.bind second after right)
  have ends := front left right holds
  unfold EStateM.bind
  cases ran : first left with
  | ok value reached =>
      rw [ran] at ends
      generalize isRight : second right = other at ends
      cases ends with
      | returned later => exact back value _ _ later
  | error error reached =>
      rw [ran] at ends
      generalize isRight : second right = other at ends
      cases ends with
      | raised later => exact .raised later

/-- What follows may use both states. -/
theorem Couples.get_bind {next : σ → EStateM ε σ α} {after : τ → EStateM ε τ α}
    (rest : ∀ left right, relates left right → Couples relates (next left) (after right)) :
    Couples relates (get >>= next) (get >>= after) :=
  fun left right holds => rest left right holds left right holds

/-- One action returns when the other one does. -/
theorem Couples.returned {first : EStateM ε σ α} {second : EStateM ε τ α}
    (couples : Couples relates first second)
    {left after : σ} {right : τ} {value : α} (holds : relates left right) (ran : first left = .ok value after) :
    ∃ reached, second right = .ok value reached ∧ relates after reached := by
  have ends := couples left right holds
  rw [ran] at ends
  generalize isRight : second right = other at ends
  cases ends with
  | returned later => exact ⟨_, rfl, later⟩

end Stateful
end VectorSearch
