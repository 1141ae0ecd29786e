import Mathlib.Data.List.Infix

namespace VectorSearch

/-!
# Copies of a log

One log is kept in several copies.  An entry is written to all copies before
the next one is sent to any, so at every moment a copy is the common base or has
one entry more, which is the same for all.  A copy that takes over a part of
what another one has ahead of it is such a copy again.
-/

/-- What the copies of a log can be: the base, with one entry more at most. -/
@[ext] structure Copies (α : Type) where
  base : List α
  extra : Option α

namespace Copies

variable {α : Type}

/-- The most a copy can hold. -/
def all (copies : Copies α) : List α := copies.base ++ copies.extra.toList

/-- Nothing is under way. -/
def even (log : List α) : Copies α := ⟨log, none⟩

/-- What one of the copies can be. -/
structure Has (copies : Copies α) (log : List α) : Prop where
  begins : copies.base <+: log
  within : log <+: copies.all

variable {copies : Copies α} {log other : List α}

@[simp] theorem all_even (log : List α) : (even log).all = log := List.append_nil log

theorem base_prefix (copies : Copies α) : copies.base <+: copies.all := List.prefix_append _ _

theorem length_all_le (copies : Copies α) : copies.all.length ≤ copies.base.length + 1 := by
  unfold all
  rw [List.length_append]
  cases copies.extra <;> simp

theorem has_base (copies : Copies α) : copies.Has copies.base := ⟨List.prefix_rfl, copies.base_prefix⟩

theorem has_all (copies : Copies α) : copies.Has copies.all := ⟨copies.base_prefix, List.prefix_rfl⟩

@[simp] theorem has_even : (even other).Has log ↔ log = other := by
  constructor
  · rintro ⟨begins, within⟩
    rw [all_even] at within
    exact within.eq_of_length_le begins.length_le
  · rintro rfl
    exact has_base (even log)

/-- The entry that is under way has arrived at a copy, or it has not. -/
theorem Has.cases (has : copies.Has log) : log = copies.base ∨ ∃ entry, copies.extra = some entry ∧ log =
    copies.base ++ [entry] := by
  rcases has with ⟨begins, within⟩
  unfold all at within
  cases isExtra : copies.extra with
  | none =>
      rw [isExtra, Option.toList_none, List.append_nil] at within
      exact Or.inl (within.eq_of_length_le begins.length_le)
  | some entry =>
      rw [isExtra] at within
      rcases Nat.lt_or_ge copies.base.length log.length with longer | same
      · refine Or.inr ⟨entry, rfl, within.eq_of_length_le ?_⟩
        rw [List.length_append]
        exact longer
      · exact Or.inl (begins.eq_of_length_le same).symm

theorem has_push {entry : α} (isExtra : copies.extra = some entry) : copies.Has (copies.base ++ [entry]) := by
  have whole := copies.has_all
  unfold all at whole
  rw [isExtra] at whole
  exact whole

/-- What one copy has that another one does not is one entry. -/
theorem Has.near (has : copies.Has log) (others : copies.Has other) : log.length ≤ other.length + 1 :=
  Nat.le_trans has.within.length_le
    (Nat.le_trans copies.length_all_le (Nat.succ_le_succ others.begins.length_le))

/-- The shorter of two copies begins the longer one. -/
theorem Has.prefix_of_length_le (has : copies.Has log) (others : copies.Has other)
    (order : log.length ≤ other.length) : log <+: other :=
  List.prefix_of_prefix_length_le has.within others.within order

/-- Copies of one length are the same. -/
theorem Has.eq_of_length (has : copies.Has log) (others : copies.Has other) (same : log.length = other.length) :
    log = other :=
  (has.prefix_of_length_le others (Nat.le_of_eq same)).eq_of_length same

/-- A copy takes over something from another one. -/
theorem Has.between (has : copies.Has log) (others : copies.Has other) {middle : List α}
    (front : log <+: middle) (back : middle <+: other) : copies.Has middle :=
  ⟨has.begins.trans front, back.trans others.within⟩

end Copies
end VectorSearch
