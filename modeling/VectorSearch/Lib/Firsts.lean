import Mathlib.Data.List.Basic

namespace VectorSearch

/-!
# First occurrences

Items come one after another, and a key stands for the kind of an item.  An item
that is the first of its kind is the first with its key, for every item, exactly
when no two kinds share a key.
-/

namespace Firsts

variable {α K P : Type}

/-- No earlier item has the same image. -/
def IsNew (image : α → K) (front : List α) (item : α) : Prop := ∀ old ∈ front, image old ≠ image item

/-- Items with the same key are of the same kind. -/
def Separates (key : α → K) (kind : α → P) (items : List α) : Prop :=
  ∀ first ∈ items, ∀ second ∈ items, key first = key second → kind first = kind second

/-- Something holds of each item and the items before it. -/
def Throughout (items : List α) (holds : List α → α → Prop) : Prop :=
  ∀ front item back, items = front ++ item :: back → holds front item

theorem not_isNew {image : α → K} {front : List α} {item : α} :
    ¬ IsNew image front item ↔ ∃ old ∈ front, image old = image item := by
  unfold IsNew
  push Not
  exact Iff.rfl

theorem Throughout.imp {items : List α} {holds weaker : List α → α → Prop} (all : Throughout items holds)
    (weaken : ∀ front item, item ∈ items → front ⊆ items → holds front item → weaker front item) :
    Throughout items weaker := by
  intro front item back whole
  refine weaken front item ?_ ?_ (all front item back whole)
  · rw [whole]
    exact List.mem_append_right _ List.mem_cons_self
  · rw [whole]
    exact List.subset_append_left _ _

theorem Throughout.nil {holds : List α → α → Prop} : Throughout [] holds := by
  intro front item back whole
  exact absurd (congrArg List.length whole) (by simp)

theorem Throughout.snoc {items : List α} {last : α} {holds : List α → α → Prop} (all : Throughout items holds)
    (new : holds items last) : Throughout (items ++ [last]) holds := by
  intro front item back whole
  rcases List.eq_nil_or_concat back with rfl | ⟨between, final, rfl⟩
  · rcases List.append_inj' whole rfl with ⟨rfl, same⟩
    cases same
    exact new
  · rw [List.concat_eq_append, ← List.cons_append, ← List.append_assoc] at whole
    exact all front item between (List.append_inj' whole rfl).1

/-- Each item has a first one with its image. -/
theorem exists_first [DecidableEq K] (image : α → K) {items : List α} {item : α} (member : item ∈ items) :
    ∃ front first back, items = front ++ first :: back ∧ image first = image item ∧
      IsNew image front first := by
  have found : (items.find? fun other => image other = image item).isSome := by
    rw [List.find?_isSome]
    exact ⟨item, member, decide_eq_true rfl⟩
  rcases Option.isSome_iff_exists.mp found with ⟨first, isFirst⟩
  rcases List.find?_eq_some_iff_append.mp isFirst with ⟨same, front, back, whole, new⟩
  have isSame := of_decide_eq_true same
  refine ⟨front, first, back, whole, isSame, fun old earlier equal => ?_⟩
  have differs := new old earlier
  rw [equal, isSame] at differs
  exact absurd differs (by simp)

/-- Of two first items with one key neither comes before the other. -/
theorem first_unique {key : α → K} {items front other back rest : List α} {first second : α}
    (whole : items = front ++ first :: back) (again : items = other ++ second :: rest)
    (same : key first = key second)
    (new : IsNew key front first) (alsoNew : IsNew key other second) : first = second := by
  rcases List.append_eq_append_iff.mp (whole.symm.trans again) with
    ⟨between, isOther, tail⟩ | ⟨between, isFront, tail⟩
  · cases between with
    | nil => exact (List.cons.inj tail).1
    | cons head between =>
        rw [← (List.cons.inj tail).1] at isOther
        exact absurd same (alsoNew first (isOther ▸ List.mem_append_right _ List.mem_cons_self))
  · cases between with
    | nil => exact (List.cons.inj tail).1.symm
    | cons head between =>
        rw [← (List.cons.inj tail).1] at isFront
        exact absurd same.symm (new second (isFront ▸ List.mem_append_right _ List.mem_cons_self))

/-- Keys tell the kinds apart when every first item of its kind is the first
with its key. -/
theorem separates_of_first [DecidableEq P] {key : α → K} {kind : α → P} {items : List α}
    (factors : ∀ first second, kind first = kind second → key first = key second)
    (first : Throughout items fun front item => IsNew kind front item → IsNew key front item) :
    Separates key kind items := by
  intro left isLeft right isRight same
  rcases exists_first kind isLeft with ⟨front, leftFirst, back, whole, leftKind, leftNew⟩
  rcases exists_first kind isRight with ⟨other, rightFirst, rest, again, rightKind, rightNew⟩
  have sameKey : key leftFirst = key rightFirst :=
    (factors _ _ leftKind).trans (same.trans (factors _ _ rightKind).symm)
  have equal := first_unique whole again sameKey (first _ _ _ whole leftNew) (first _ _ _ again rightNew)
  exact leftKind.symm.trans ((congrArg kind equal).trans rightKind)

end Firsts
end VectorSearch
