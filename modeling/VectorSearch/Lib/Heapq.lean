import Mathlib.Data.List.Perm.Basic

namespace VectorSearch

/-!
# Binary heaps in an array

The priority queue of Python's `heapq`: the children of position `i` are at
`2 * i + 1` and `2 * i + 2`, an item is pushed at the end and moved up, and the
first item is removed by walking the hole down along the smaller children to a
leaf, putting the last item there and moving it up.  The layout of the array is
observable through code that lists a heap, so it is kept exactly.
-/

namespace Heapq

variable {α : Type}

def parent (pos : Nat) : Nat := (pos - 1) / 2

/-- Move an item up from a hole (`heapq._siftdown` from the root). -/
def siftdown (less : α → α → Bool) (item : α) : Nat → List α → Nat → List α
  | 0, heap, pos => heap.set pos item
  | fuel + 1, heap, pos =>
      if pos = 0 then heap.set pos item
      else
        match heap[parent pos]? with
        | none => heap.set pos item
        | some above =>
            if less item above then siftdown less item fuel (heap.set pos above) (parent pos)
            else heap.set pos item

/-- The child with the smaller item; the right one when they are level. -/
def smallerChild (less : α → α → Bool) (heap : List α) (pos : Nat) : Option (Nat × α) :=
  match heap[2 * pos + 1]? with
  | none => none
  | some left =>
      match heap[2 * pos + 2]? with
      | none => some (2 * pos + 1, left)
      | some right => if less left right then some (2 * pos + 1, left) else some (2 * pos + 2, right)

/-- Walk a hole down to a leaf, pulling the smaller child up each time
(the first loop of `heapq._siftup`). -/
def sinkHole (less : α → α → Bool) : Nat → List α → Nat → List α × Nat
  | 0, heap, pos => (heap, pos)
  | fuel + 1, heap, pos =>
      match smallerChild less heap pos with
      | none => (heap, pos)
      | some (child, item) => sinkHole less fuel (heap.set pos item) child

def heappush (less : α → α → Bool) (heap : List α) (item : α) : List α :=
  siftdown less item (heap.length + 1) (heap ++ [item]) heap.length

/-- The smallest item and the heap without it; `none` stands for the
`IndexError` of an empty heap. -/
def heappop (less : α → α → Bool) (heap : List α) : Option (α × List α) :=
  match heap.getLast? with
  | none => none
  | some last =>
      match heap.dropLast with
      | [] => some (last, [])
      | first :: rest =>
          let (shifted, hole) := sinkHole less (rest.length + 1) (first :: rest) 0
          some (first, siftdown less last (rest.length + 1) shifted hole)

/-! ## What a heap holds -/

/-- Moving the item of one position into a hole and filling its old place. -/
theorem set_set_perm (items : List α) {from' hole : Nat} (inside : hole < items.length)
    (different : from' ≠ hole) {moved : α} (found : items[from']? = some moved) (item : α) :
    ((items.set hole moved).set from' item).Perm (items.set hole item) := by
  rcases List.getElem?_eq_some_iff.mp found with ⟨fromInside, value⟩
  have stillInside : from' < (items.set hole moved).length := by
    rw [List.length_set]
    exact fromInside
  have same : (items.set hole moved)[from'] = moved := by
    rw [List.getElem_set_ne (Ne.symm different), value]
  have rest : ((items.set hole moved).eraseIdx from').Perm (items.eraseIdx hole) := by
    have whole := List.getElem_cons_eraseIdx_perm stillInside
    rw [same] at whole
    exact (whole.trans (List.set_perm_cons_eraseIdx inside moved)).cons_inv
  exact (List.set_perm_cons_eraseIdx stillInside item).trans
    ((rest.cons item).trans (List.set_perm_cons_eraseIdx inside item).symm)

theorem parent_lt {pos : Nat} (positive : pos ≠ 0) : parent pos < pos := by
  unfold parent
  omega

theorem siftdown_perm (less : α → α → Bool) (item : α) (fuel : Nat) (heap : List α) (pos : Nat)
    (inside : pos < heap.length) : (siftdown less item fuel heap pos).Perm (heap.set pos item) := by
  induction fuel generalizing heap pos with
  | zero => exact List.Perm.refl _
  | succ fuel inductionHypothesis =>
      unfold siftdown
      split
      · exact List.Perm.refl _
      · rename_i positive
        split
        · exact List.Perm.refl _
        · rename_i above found
          split
          · have moved := inductionHypothesis (heap.set pos above) (parent pos)
              (by rw [List.length_set]; exact Nat.lt_trans (parent_lt positive) inside)
            exact moved.trans (set_set_perm heap inside (Nat.ne_of_lt (parent_lt positive)) found item)
          · exact List.Perm.refl _

theorem heappush_perm (less : α → α → Bool) (heap : List α) (item : α) :
    (heappush less heap item).Perm (item :: heap) := by
  have inside : heap.length < (heap ++ [item]).length := by
    rw [List.length_append, List.length_singleton]
    exact Nat.lt_succ_self _
  have placed : (heap ++ [item]).set heap.length item = heap ++ [item] := by
    rw [List.set_append_right _ _ (Nat.le_refl _), Nat.sub_self]
    rfl
  have sifted := siftdown_perm less item (heap.length + 1) (heap ++ [item]) heap.length inside
  rw [placed] at sifted
  exact sifted.trans List.perm_append_comm

theorem smallerChild_found {less : α → α → Bool} {heap : List α} {pos child : Nat} {item : α}
    (selected : smallerChild less heap pos = some (child, item)) :
    heap[child]? = some item ∧ child ≠ pos := by
  unfold smallerChild at selected
  split at selected
  · cases selected
  · rename_i left foundLeft
    split at selected
    · cases selected
      exact ⟨foundLeft, by omega⟩
    · rename_i right foundRight
      split at selected
      · cases selected
        exact ⟨foundLeft, by omega⟩
      · cases selected
        exact ⟨foundRight, by omega⟩

/-- Walking the hole down changes which place is empty, not what the others hold. -/
theorem sinkHole_perm (less : α → α → Bool) (fuel : Nat) (heap : List α) (pos : Nat)
    (inside : pos < heap.length) (item : α) :
    (sinkHole less fuel heap pos).2 < (sinkHole less fuel heap pos).1.length ∧
      ((sinkHole less fuel heap pos).1.set (sinkHole less fuel heap pos).2 item).Perm
        (heap.set pos item) := by
  induction fuel generalizing heap pos with
  | zero => exact ⟨inside, List.Perm.refl _⟩
  | succ fuel inductionHypothesis =>
      unfold sinkHole
      split
      · exact ⟨inside, List.Perm.refl _⟩
      · rename_i child moved selected
        rcases smallerChild_found selected with ⟨found, different⟩
        rcases List.getElem?_eq_some_iff.mp found with ⟨childInside, _⟩
        have later := inductionHypothesis (heap.set pos moved) child
          (by rw [List.length_set]; exact childInside)
        exact ⟨later.1, later.2.trans (set_set_perm heap inside different found item)⟩

/-- Popping takes one item out and keeps the others. -/
theorem heappop_perm {less : α → α → Bool} {heap rest : List α} {first : α}
    (popped : heappop less heap = some (first, rest)) : heap.Perm (first :: rest) := by
  unfold heappop at popped
  split at popped
  · cases popped
  · rename_i last isLast
    have split : heap = heap.dropLast ++ [last] := (List.dropLast_append_getLast? last isLast).symm
    split at popped
    · rename_i nothing
      cases popped
      rw [split, nothing]
      exact List.Perm.refl _
    · rename_i head others front
      rcases Prod.mk.inj (Option.some.inj popped) with ⟨isFirst, isRest⟩
      subst isFirst isRest
      rcases sinkHole_perm less (others.length + 1) (head :: others) 0 (Nat.succ_pos _) last with
        ⟨inside, sunk⟩
      have sifted := (siftdown_perm less last (others.length + 1) _ _ inside).trans sunk
      rw [split, front]
      exact (List.Perm.cons head (List.perm_append_comm.trans sifted.symm))

theorem heappop_eq_none {less : α → α → Bool} {heap : List α} (empty : heappop less heap = none) :
    heap = [] := by
  unfold heappop at empty
  split at empty
  · rename_i nothing
    exact List.getLast?_eq_none_iff.mp nothing
  · split at empty <;> cases empty

/-! ## Heap order -/

section Order

variable (less : α → α → Bool)

/-- No item is smaller than the one above it. -/
def Ordered (heap : List α) : Prop :=
  ∀ pos item above, pos ≠ 0 → heap[pos]? = some item → heap[parent pos]? = some above →
    less item above = false

/-- What moving an item up needs of a heap with a hole: pairs off the hole are
in order, and what is below the hole is smaller neither than the item nor than
what is above the hole. -/
structure UpOrder (heap : List α) (hole : Nat) (item : α) : Prop where
  except : ∀ pos value above, pos ≠ 0 → pos ≠ hole → parent pos ≠ hole → heap[pos]? = some value →
    heap[parent pos]? = some above → less value above = false
  grand : ∀ pos value above, hole ≠ 0 → pos ≠ 0 → parent pos = hole → heap[pos]? = some value →
    heap[parent hole]? = some above → less value above = false
  below : ∀ pos value, pos ≠ 0 → parent pos = hole → heap[pos]? = some value →
    less value item = false

variable {less}
  (asymm : ∀ left right, less left right = true → less right left = false)
  (negTrans : ∀ first second third, less first second = false → less second third = false →
    less first third = false)

include asymm negTrans in
theorem UpOrder.move {heap : List α} {hole : Nat} {item above : α} (order : UpOrder less heap hole item)
    (inside : hole < heap.length) (positive : hole ≠ 0) (found : heap[parent hole]? = some above)
    (smaller : less item above = true) :
    UpOrder less (heap.set hole above) (parent hole) item := by
  have up := parent_lt positive
  have here : (heap.set hole above)[hole]? = some above := by
    rw [List.getElem?_set_self inside]
  have elsewhere : ∀ pos, pos ≠ hole → (heap.set hole above)[pos]? = heap[pos]? := fun pos other =>
    List.getElem?_set_ne (Ne.symm other)
  have notAbove : ∀ value, less value above = false → less value item = false := by
    intro value level
    exact negTrans value above item level (asymm item above smaller)
  constructor
  · intro pos value top nonzero notParent notBelow atPos atTop
    by_cases isHole : pos = hole
    · exact absurd (congrArg parent isHole) notBelow
    · rw [elsewhere pos isHole] at atPos
      by_cases childOfHole : parent pos = hole
      · rw [childOfHole, here] at atTop
        cases atTop
        exact order.grand pos value above positive nonzero childOfHole atPos found
      · rw [elsewhere _ childOfHole] at atTop
        exact order.except pos value top nonzero isHole childOfHole atPos atTop
  · intro pos value top parentPositive nonzero child atPos atTop
    have upper := parent_lt parentPositive
    rw [elsewhere _ (by omega)] at atTop
    have aboveTop := order.except (parent hole) above top parentPositive (by omega) (by omega)
      found atTop
    by_cases isHole : pos = hole
    · rw [isHole, here] at atPos
      cases atPos
      exact aboveTop
    · rw [elsewhere pos isHole] at atPos
      have sibling := order.except pos value above nonzero isHole (by omega) atPos
        (by rw [child]; exact found)
      exact negTrans value above top sibling aboveTop
  · intro pos value nonzero child atPos
    by_cases isHole : pos = hole
    · rw [isHole, here] at atPos
      cases atPos
      exact asymm item above smaller
    · rw [elsewhere pos isHole] at atPos
      exact notAbove value (order.except pos value above nonzero isHole (by omega) atPos
        (by rw [child]; exact found))

theorem UpOrder.finish {heap : List α} {hole : Nat} {item : α} (order : UpOrder less heap hole item)
    (stop : hole ≠ 0 → ∀ above, heap[parent hole]? = some above → less item above = false) :
    Ordered less (heap.set hole item) := by
  intro pos value above nonzero atPos atAbove
  by_cases isHole : pos = hole
  · subst isHole
    have other : parent pos ≠ pos := Nat.ne_of_lt (parent_lt nonzero)
    rw [List.getElem?_set_ne (Ne.symm other)] at atAbove
    have inside : pos < heap.length := by
      have bound := (List.getElem?_eq_some_iff.mp atPos).1
      rwa [List.length_set] at bound
    rw [List.getElem?_set_self inside] at atPos
    cases atPos
    exact stop nonzero above atAbove
  · rw [List.getElem?_set_ne (Ne.symm isHole)] at atPos
    by_cases child : parent pos = hole
    · have inside : hole < heap.length := by
        have bound := (List.getElem?_eq_some_iff.mp atAbove).1
        rw [List.length_set] at bound
        omega
      rw [child, List.getElem?_set_self inside] at atAbove
      cases atAbove
      exact order.below pos value nonzero child atPos
    · rw [List.getElem?_set_ne (Ne.symm child)] at atAbove
      exact order.except pos value above nonzero isHole child atPos atAbove

include asymm negTrans in
theorem siftdown_ordered (item : α) (fuel : Nat) (heap : List α) (pos : Nat) (enough : pos < fuel)
    (inside : pos < heap.length) (order : UpOrder less heap pos item) :
    Ordered less (siftdown less item fuel heap pos) := by
  induction fuel generalizing heap pos with
  | zero => cases enough
  | succ fuel inductionHypothesis =>
      unfold siftdown
      split
      · rename_i root
        exact order.finish fun positive => absurd root positive
      · rename_i positive
        have up := parent_lt positive
        split
        · rename_i missing
          apply order.finish
          intro _ above found
          rw [missing] at found
          cases found
        · rename_i above found
          split
          · rename_i smaller
            exact inductionHypothesis (heap.set pos above) (parent pos) (by omega)
              (by rw [List.length_set]; omega)
              (order.move asymm negTrans inside positive found smaller)
          · rename_i notSmaller
            apply order.finish
            intro _ other foundOther
            rw [found] at foundOther
            cases foundOther
            exact Bool.eq_false_iff.mpr notSmaller

include asymm negTrans in
/-- Pushing keeps the heap order. -/
theorem heappush_ordered {heap : List α} (item : α) (ordered : Ordered less heap) :
    Ordered less (heappush less heap item) := by
  have inside : heap.length < (heap ++ [item]).length := by
    rw [List.length_append, List.length_singleton]
    exact Nat.lt_succ_self _
  have leaf : ∀ pos value, pos ≠ 0 → parent pos = heap.length →
      (heap ++ [item])[pos]? = some value → False := by
    intro pos value nonzero child found
    have bound := (List.getElem?_eq_some_iff.mp found).1
    have below := parent_lt nonzero
    rw [List.length_append, List.length_singleton] at bound
    omega
  apply siftdown_ordered asymm negTrans item _ _ _ (Nat.lt_succ_self _) inside
  constructor
  · intro pos value above nonzero notHole notBelow atPos atAbove
    have bound := (List.getElem?_eq_some_iff.mp atPos).1
    have below := parent_lt nonzero
    rw [List.length_append, List.length_singleton] at bound
    rw [List.getElem?_append_left (by omega)] at atPos atAbove
    exact ordered pos value above nonzero atPos atAbove
  · intro pos value above _ nonzero child atPos _
    exact absurd atPos fun found => leaf pos value nonzero child found
  · intro pos value nonzero child atPos
    exact absurd atPos fun found => leaf pos value nonzero child found

include negTrans in
/-- Nothing in an ordered heap is smaller than its first item. -/
theorem Ordered.first {heap : List α} {top : α} (ordered : Ordered less heap)
    (irrefl : ∀ item, less item item = false) (isTop : heap[0]? = some top) :
    ∀ (pos : Nat) (item : α), heap[pos]? = some item → less item top = false := by
  intro pos
  induction pos using Nat.strongRecOn with
  | _ pos inductionHypothesis =>
      intro item found
      by_cases root : pos = 0
      · rw [root, isTop] at found
        cases found
        exact irrefl top
      · have up := parent_lt root
        have bound := (List.getElem?_eq_some_iff.mp found).1
        have above : heap[parent pos]? = some heap[parent pos] :=
          List.getElem?_eq_getElem (Nat.lt_trans up bound)
        exact negTrans item _ top (ordered pos item _ root found above)
          (inductionHypothesis (parent pos) up _ above)

/-! ## Popping -/

theorem heappop_first {heap rest : List α} {first : α} (popped : heappop less heap = some (first, rest)) :
    heap[0]? = some first := by
  unfold heappop at popped
  split at popped
  · cases popped
  · rename_i last isLast
    have split : heap = heap.dropLast ++ [last] := (List.dropLast_append_getLast? last isLast).symm
    split at popped
    · rename_i nothing
      cases popped
      rw [split, nothing]
      rfl
    · rename_i head others front
      cases popped
      rw [split, front]
      rfl

/-- What moving the hole down keeps: pairs off the hole are in order, and so is
what is below the hole with what is above it. -/
structure DownOrder (less : α → α → Bool) (heap : List α) (hole : Nat) : Prop where
  except : ∀ pos value above, pos ≠ 0 → pos ≠ hole → parent pos ≠ hole → heap[pos]? = some value →
    heap[parent pos]? = some above → less value above = false
  grand : ∀ pos value above, hole ≠ 0 → pos ≠ 0 → parent pos = hole → heap[pos]? = some value →
    heap[parent hole]? = some above → less value above = false

theorem eq_child_of_parent {pos hole : Nat} (nonzero : pos ≠ 0) (child : parent pos = hole) :
    pos = 2 * hole + 1 ∨ pos = 2 * hole + 2 := by
  unfold parent at child
  omega

theorem smallerChild_eq_none {heap : List α} {hole : Nat} (leaf : smallerChild less heap hole = none) :
    ∀ pos value, pos ≠ 0 → parent pos = hole → heap[pos]? ≠ some value := by
  intro pos value nonzero child found
  have inside := (List.getElem?_eq_some_iff.mp found).1
  unfold smallerChild at leaf
  split at leaf
  · rename_i missing
    rw [List.getElem?_eq_none_iff] at missing
    rcases eq_child_of_parent nonzero child with same | same <;> omega
  · split at leaf
    · cases leaf
    · split at leaf <;> cases leaf

include asymm in
/-- The other child is not smaller than the one that is selected. -/
theorem smallerChild_least {heap : List α} {hole child : Nat} {item : α}
    (selected : smallerChild less heap hole = some (child, item)) :
    parent child = hole ∧ child ≠ 0 ∧ ∀ pos value, pos ≠ 0 → pos ≠ child → parent pos = hole →
      heap[pos]? = some value → less value item = false := by
  unfold smallerChild at selected
  split at selected
  · cases selected
  · rename_i left foundLeft
    split at selected
    · rename_i missing
      cases selected
      refine ⟨by unfold parent; omega, by omega, ?_⟩
      intro pos value nonzero other isChild found
      rcases eq_child_of_parent nonzero isChild with same | same
      · exact absurd same other
      · rw [same, missing] at found
        cases found
    · rename_i right foundRight
      split at selected
      · rename_i leftSmaller
        cases selected
        refine ⟨by unfold parent; omega, by omega, ?_⟩
        intro pos value nonzero other isChild found
        rcases eq_child_of_parent nonzero isChild with same | same
        · exact absurd same other
        · rw [same, foundRight] at found
          cases found
          exact asymm _ _ leftSmaller
      · rename_i leftNotSmaller
        cases selected
        refine ⟨by unfold parent; omega, by omega, ?_⟩
        intro pos value nonzero other isChild found
        rcases eq_child_of_parent nonzero isChild with same | same
        · rw [same, foundLeft] at found
          cases found
          exact Bool.eq_false_iff.mpr leftNotSmaller
        · exact absurd same other

include asymm in
theorem DownOrder.sink {heap : List α} {hole child : Nat} {item : α} (order : DownOrder less heap hole)
    (selected : smallerChild less heap hole = some (child, item)) (inside : hole < heap.length) :
    DownOrder less (heap.set hole item) child := by
  rcases smallerChild_found selected with ⟨found, different⟩
  rcases smallerChild_least asymm selected with ⟨isChild, nonzeroChild, least⟩
  have here : (heap.set hole item)[hole]? = some item := by
    rw [List.getElem?_set_self inside]
  have elsewhere : ∀ pos, pos ≠ hole → (heap.set hole item)[pos]? = heap[pos]? := fun pos other =>
    List.getElem?_set_ne (Ne.symm other)
  constructor
  · intro pos value above nonzero notChild notBelow atPos atAbove
    by_cases isHole : pos = hole
    · rw [isHole, here] at atPos
      cases atPos
      have up := parent_lt nonzero
      rw [elsewhere _ (by omega), isHole] at atAbove
      exact order.grand child item above (isHole ▸ nonzero) nonzeroChild isChild found atAbove
    · rw [elsewhere pos isHole] at atPos
      by_cases below : parent pos = hole
      · rw [below, here] at atAbove
        cases atAbove
        exact least pos value nonzero notChild below atPos
      · rw [elsewhere _ below] at atAbove
        exact order.except pos value above nonzero isHole below atPos atAbove
  · intro pos value above _ nonzero below atPos atAbove
    have up := parent_lt nonzero
    have upper := parent_lt nonzeroChild
    rw [isChild, here] at atAbove
    cases atAbove
    rw [elsewhere pos (by omega)] at atPos
    exact order.except pos value item nonzero (by omega) (by omega) atPos (by rw [below]; exact found)

include asymm in
/-- The hole ends at a leaf, where any item can be put. -/
theorem sinkHole_upOrder (fuel : Nat) {heap : List α} {hole : Nat} (order : DownOrder less heap hole)
    (inside : hole < heap.length) (enough : heap.length ≤ hole + fuel) (item : α) :
    UpOrder less (sinkHole less fuel heap hole).1 (sinkHole less fuel heap hole).2 item := by
  induction fuel generalizing heap hole with
  | zero => omega
  | succ fuel inductionHypothesis =>
      unfold sinkHole
      split
      · rename_i leaf
        have childless := smallerChild_eq_none leaf
        refine ⟨order.except, order.grand, ?_⟩
        intro pos value nonzero child found
        exact absurd found (childless pos value nonzero child)
      · rename_i child moved selected
        rcases smallerChild_found selected with ⟨found, _⟩
        rcases smallerChild_least asymm selected with ⟨isChild, nonzero, _⟩
        have childInside := (List.getElem?_eq_some_iff.mp found).1
        have up := parent_lt nonzero
        apply inductionHypothesis (order.sink asymm selected inside)
        · rw [List.length_set]
          exact childInside
        · rw [List.length_set]
          omega

include asymm negTrans in
/-- Popping keeps the heap order. -/
theorem heappop_ordered {heap rest : List α} {first : α} (ordered : Ordered less heap)
    (popped : heappop less heap = some (first, rest)) : Ordered less rest := by
  unfold heappop at popped
  split at popped
  · cases popped
  · rename_i last isLast
    have split : heap = heap.dropLast ++ [last] := (List.dropLast_append_getLast? last isLast).symm
    split at popped
    · cases popped
      intro pos item above _ found _
      cases found
    · rename_i head others front
      rcases Prod.mk.inj (Option.some.inj popped) with ⟨isFirst, isRest⟩
      subst isFirst isRest
      rw [front] at split
      have start : DownOrder less (head :: others) 0 := by
        constructor
        · intro pos value above nonzero _ _ atPos atAbove
          have bound := (List.getElem?_eq_some_iff.mp atPos).1
          have up := parent_lt nonzero
          apply ordered pos value above nonzero
          · rw [split, List.getElem?_append_left bound]
            exact atPos
          · rw [split, List.getElem?_append_left (Nat.lt_trans up bound)]
            exact atAbove
        · exact fun _ _ _ impossible => absurd rfl impossible
      have inside : 0 < (head :: others).length := Nat.succ_pos _
      have leaf := sinkHole_perm less (others.length + 1) (head :: others) 0 inside last
      have count := leaf.2.length_eq
      rw [List.length_set, List.length_set, List.length_cons] at count
      have order := sinkHole_upOrder asymm (others.length + 1) start inside (by simp) last
      have reached := leaf.1
      rw [count] at reached
      exact siftdown_ordered asymm negTrans last _ _ _ reached leaf.1 order

end Order

end Heapq
end VectorSearch
