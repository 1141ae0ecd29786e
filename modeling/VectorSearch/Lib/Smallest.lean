import Mathlib.Data.List.Sort
import Mathlib.Data.List.Perm.Subperm

namespace VectorSearch

/-!
# The smallest items of a list

The first `k` items in the order of their keys.  Distinct items have distinct
keys, so the result depends on the items only and not on their order, and an item
with `k` smaller ones may be left out.
-/

namespace Smallest

variable {α κ : Type} [LinearOrder κ] (key : α → κ)

/-- All items in the order of their keys. -/
def sorted (items : List α) : List α := items.insertionSort fun left right => key left ≤ key right

/-- The first `k` of them. -/
def smallest (k : Nat) (items : List α) : List α := (sorted key items).take k

theorem sorted_perm (items : List α) : (sorted key items).Perm items := List.perm_insertionSort _ items

theorem sorted_pairwise (items : List α) :
    (sorted key items).Pairwise fun left right => key left ≤ key right := by
  have total : Std.Total fun left right : α => key left ≤ key right := ⟨fun left right => le_total _ _⟩
  have trans : IsTrans α fun left right => key left ≤ key right :=
    ⟨fun _ _ _ first second => le_trans first second⟩
  exact List.pairwise_insertionSort _ items

theorem smallest_length_le (k : Nat) (items : List α) : (smallest key k items).length ≤ k :=
  List.length_take_le k _

variable {key} (injective : Function.Injective key)

include injective

theorem sorted_unique {left right : List α} (perm : left.Perm right)
    (leftSorted : left.Pairwise fun first second => key first ≤ key second)
    (rightSorted : right.Pairwise fun first second => key first ≤ key second) : left = right :=
  perm.eq_of_pairwise (fun _ _ _ _ below above => injective (le_antisymm below above)) leftSorted rightSorted

/-- The order of the items does not matter. -/
theorem smallest_perm (k : Nat) {items others : List α} (perm : items.Perm others) :
    smallest key k items = smallest key k others := by
  have same : sorted key items = sorted key others := by
    apply sorted_unique injective _ (sorted_pairwise key items) (sorted_pairwise key others)
    exact (sorted_perm key items).trans (perm.trans (sorted_perm key others).symm)
  unfold smallest
  rw [same]

/-- The first items of a list stay the first when larger ones are added. -/
theorem smallest_append {k : Nat} {items extra : List α}
    (larger : ∀ item ∈ smallest key k items, ∀ other ∈ extra, key item ≤ key other)
    (full : extra ≠ [] → k ≤ items.length) :
    smallest key k (items ++ extra) = smallest key k items := by
  have whole : sorted key (items ++ extra) =
      smallest key k items ++ sorted key ((sorted key items).drop k ++ extra) := by
    apply sorted_unique injective _ (sorted_pairwise key _)
    · apply List.pairwise_append.mpr
      refine ⟨(sorted_pairwise key items).sublist (List.take_sublist k _), sorted_pairwise key _, ?_⟩
      intro item isItem other isOther
      rcases List.mem_append.mp ((sorted_perm key _).subset isOther) with later | new
      · have split := sorted_pairwise key items
        rw [← List.take_append_drop k (sorted key items)] at split
        exact (List.pairwise_append.mp split).2.2 item isItem other later
      · exact larger item isItem other new
    · apply (sorted_perm key _).trans
      have parts : (smallest key k items ++ (sorted key items).drop k).Perm items := by
        unfold smallest
        rw [List.take_append_drop]
        exact sorted_perm key items
      have joined := (parts.symm.append_right extra)
      rw [List.append_assoc] at joined
      exact joined.trans ((sorted_perm key _).symm.append_left _)
  unfold smallest at whole ⊢
  rw [whole]
  by_cases none : extra = []
  · have alone : (sorted key items).take k ++ (sorted key items).drop k = sorted key items :=
      List.take_append_drop k _
    have again : sorted key ((sorted key items).drop k) = (sorted key items).drop k :=
      sorted_unique injective (sorted_perm key _) (sorted_pairwise key _)
        ((sorted_pairwise key items).sublist (List.drop_sublist k _))
    rw [none, List.append_nil, again, alone]
  · have exactly : ((sorted key items).take k).length = k := by
      rw [List.length_take, (sorted_perm key items).length_eq, Nat.min_eq_left (full none)]
    rw [List.take_append_of_le_length (Nat.le_of_eq exactly.symm), List.take_of_length_le
      (Nat.le_of_eq exactly)]

/-- Of the items beside some others, only the first `k` can be among the first `k`. -/
theorem smallest_smallest_append (k : Nat) (items others : List α) :
    smallest key k (smallest key k items ++ others) = smallest key k (items ++ others) := by
  have parts : (smallest key k items ++ others ++ (sorted key items).drop k).Perm (items ++ others) := by
    rw [List.append_assoc]
    apply (List.perm_append_comm.append_left (smallest key k items)).trans
    rw [← List.append_assoc]
    apply List.Perm.append_right
    unfold smallest
    rw [List.take_append_drop]
    exact sorted_perm key items
  rw [← smallest_perm injective k parts]
  symm
  have chosen : (sorted key items).drop k ≠ [] → (smallest key k items).length = k := by
    intro more
    have longer : k < (sorted key items).length := by
      rw [← List.length_pos_iff, List.length_drop] at more
      omega
    unfold smallest
    rw [List.length_take, Nat.min_eq_left (Nat.le_of_lt longer)]
  apply smallest_append injective
  · intro item isItem other isOther
    by_contra smaller
    rw [not_le] at smaller
    have count := chosen (List.ne_nil_of_mem isOther)
    -- all first `k` items are below the dropped one, so the item would be at position `k` or later
    have below : ∀ first ∈ smallest key k items, key first < key item := by
      intro first isFirst
      have split := sorted_pairwise key items
      rw [← List.take_append_drop k (sorted key items)] at split
      exact lt_of_le_of_lt ((List.pairwise_append.mp split).2.2 first isFirst other isOther) smaller
    let less (value : α) : Bool := decide (key value < key item)
    have merged := sorted_pairwise key (smallest key k items ++ others)
    rw [← List.take_append_drop k (sorted key (smallest key k items ++ others))] at merged
    have behind : ((sorted key (smallest key k items ++ others)).drop k).countP less = 0 := by
      apply List.countP_eq_zero.mpr
      intro value later isLess
      exact not_lt.mpr ((List.pairwise_append.mp merged).2.2 item isItem value later) (of_decide_eq_true isLess)
    have all : (smallest key k items).countP less = k := by
      rw [List.countP_eq_length.mpr fun value member => decide_eq_true (below value member), count]
    have counted := (sorted_perm key (smallest key k items ++ others)).countP_eq less
    rw [← List.take_append_drop k (sorted key (smallest key k items ++ others)), List.countP_append,
      List.countP_append, behind, all] at counted
    change (smallest key k (smallest key k items ++ others)).countP less + 0 = _ at counted
    have short := smallest_length_le key k (smallest key k items ++ others)
    have within := List.countP_le_length (p := less) (l := smallest key k (smallest key k items ++ others))
    have whole : (smallest key k (smallest key k items ++ others)).countP less =
        (smallest key k (smallest key k items ++ others)).length := by
      omega
    exact lt_irrefl _ (of_decide_eq_true (List.countP_eq_length.mp whole item isItem))
  · intro more
    rw [List.length_append, chosen more]
    exact Nat.le_add_right k _

/-- Merging the first `k` items of each list gives the first `k` of all. -/
theorem smallest_flatten (k : Nat) (lists : List (List α)) :
    smallest key k (lists.map (smallest key k)).flatten = smallest key k lists.flatten := by
  suffices run : ∀ before : List α,
      smallest key k (before ++ (lists.map (smallest key k)).flatten) = smallest key k
        (before ++ lists.flatten) from run []
  induction lists with
  | nil => exact fun before => rfl
  | cons items rest inductionHypothesis =>
      intro before
      rw [List.map_cons, List.flatten_cons, List.flatten_cons]
      have front : ∀ others : List α, smallest key k (before ++ (items ++ others)) =
          smallest key k (items ++ (before ++ others)) := by
        intro others
        apply smallest_perm injective
        rw [← List.append_assoc, ← List.append_assoc]
        exact List.perm_append_comm.append_right others
      have chosen : smallest key k (before ++ (smallest key k items ++ (rest.map (smallest key k)).flatten)) =
          smallest key k (smallest key k items ++ (before ++ (rest.map (smallest key k)).flatten)) := by
        apply smallest_perm injective
        rw [← List.append_assoc, ← List.append_assoc]
        exact List.perm_append_comm.append_right _
      rw [chosen, smallest_smallest_append injective, ← front, ← List.append_assoc, ← List.append_assoc,
        inductionHypothesis (before ++ items)]

end Smallest
end VectorSearch
