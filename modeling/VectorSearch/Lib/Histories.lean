import Mathlib.Data.List.Basic

namespace VectorSearch

/-!
# Conditions on histories

A history is a list of events that grows at its end.  `Each` says of every
event in it something about what came before.
-/

/-- Every event of a history is as its condition says, given what came before. -/
def Each {E : Type} (condition : List E → E → Prop) (history : List E) : Prop :=
  ∀ front event back, history = front ++ event :: back → condition front event

namespace Each

variable {E : Type} {condition : List E → E → Prop} {history : List E}

theorem nil : Each condition [] := by
  intro front event back whole
  cases front <;> cases whole

theorem append_iff {event : E} :
    Each condition (history ++ [event]) ↔ Each condition history ∧ condition history event := by
  constructor
  · intro each
    refine ⟨fun front other back whole => ?_, each history event [] rfl⟩
    apply each front other (back ++ [event])
    rw [whole, List.append_assoc, List.cons_append]
  · rintro ⟨each, ends⟩ front other back whole
    rcases List.eq_nil_or_concat back with rfl | ⟨rest, last, rfl⟩
    · have same := List.append_inj_left' whole rfl
      have isLast := List.append_inj_right' whole rfl
      rw [← same, ← List.head_eq_of_cons_eq isLast]
      exact ends
    · rw [List.concat_eq_append, ← List.cons_append, ← List.append_assoc] at whole
      exact each front other rest (List.append_inj_left' whole rfl)

end Each
end VectorSearch
