import Mathlib.Data.List.Forall2

namespace VectorSearch

/-!
# Rules for stateful actions that can raise

An imperative method is an action on a state that returns a value or raises.
Two kinds of statement about actions are enough for straight-line code with
loops over lists: that an action maintains a predicate of the state however it
ends, and that from a given state it returns, in a state with a postcondition.
A third says what holds if the action returns and what if it raises.  Each
construct of the code has one rule for each kind.  Computations without a state
have the second kind only.
-/

namespace Stateful

variable {ε σ α β : Type}

/-- The state an action ends in, whether it returns or raises. -/
def final (action : EStateM ε σ α) (state : σ) : σ :=
  match action state with
  | .ok _ after => after
  | .error _ after => after

/-- The predicate holds after the action if it held before. -/
def Maintains (good : σ → Prop) (action : EStateM ε σ α) : Prop :=
  ∀ state, good state → good (final action state)

/-- From this state the action returns, with the postcondition. -/
def Returns (action : EStateM ε σ α) (state : σ) (post : α → σ → Prop) : Prop :=
  ∃ value after, action state = .ok value after ∧ post value after

/-- The computation gives a value with the postcondition. -/
def Gives (result : Except ε α) (post : α → Prop) : Prop :=
  ∃ value, result = .ok value ∧ post value

/-! ## Maintained predicates -/

section Maintains

variable {good : σ → Prop}

theorem final_bind (action : EStateM ε σ α) (next : α → EStateM ε σ β) (state : σ) :
    final (action >>= next) state =
      match action state with
      | .ok value after => final (next value) after
      | .error _ after => after := by
  simp only [final, bind, EStateM.bind]
  cases action state <;> rfl

theorem Maintains.pure (value : α) : Maintains good (pure value : EStateM ε σ α) :=
  fun _ holds => holds

theorem Maintains.throw (error : ε) : Maintains good (throw error : EStateM ε σ α) :=
  fun _ holds => holds

theorem Maintains.set {new : σ} (holds : good new) :
    Maintains good (set new : EStateM ε σ PUnit) :=
  fun _ _ => holds

theorem Maintains.modify {change : σ → σ} (holds : ∀ state, good state → good (change state)) :
    Maintains good (modify change : EStateM ε σ PUnit) :=
  holds

theorem Maintains.bind {action : EStateM ε σ α} {next : α → EStateM ε σ β}
    (first : Maintains good action) (second : ∀ value, Maintains good (next value)) :
    Maintains good (action >>= next) := by
  intro state holds
  have after := first state holds
  rw [final_bind]
  simp only [final] at after
  cases outcome : action state with
  | ok value reached =>
      rw [outcome] at after
      exact second value reached after
  | error error reached =>
      rw [outcome] at after
      exact after

/-- What is read from the state satisfies the predicate. -/
theorem Maintains.get_bind {next : σ → EStateM ε σ β}
    (second : ∀ state, good state → Maintains good (next state)) :
    Maintains good (get >>= next) :=
  fun state holds => second state holds state holds

theorem Maintains.forM {items : List α} {body : α → EStateM ε σ PUnit}
    (each : ∀ item, Maintains good (body item)) : Maintains good (items.forM body) := by
  induction items with
  | nil => exact Maintains.pure _
  | cons item rest inductionHypothesis =>
      exact Maintains.bind (each item) (fun _ => inductionHypothesis)

theorem Maintains.foldlM {items : List α} {body : β → α → EStateM ε σ β} (start : β)
    (each : ∀ value item, Maintains good (body value item)) :
    Maintains good (items.foldlM body start) := by
  induction items generalizing start with
  | nil => exact Maintains.pure _
  | cons item rest inductionHypothesis =>
      exact Maintains.bind (each start item) (fun value => inductionHypothesis value)

end Maintains

/-! ## Actions that return -/

section Returns

variable {state : σ} {post : α → σ → Prop}

theorem Returns.imp {action : EStateM ε σ α} {weaker : α → σ → Prop}
    (returns : Returns action state post) (weaken : ∀ value after, post value after → weaker value after) :
    Returns action state weaker := by
  rcases returns with ⟨value, after, run, holds⟩
  exact ⟨value, after, run, weaken value after holds⟩

theorem Returns.pure {value : α} (holds : post value state) :
    Returns (pure value : EStateM ε σ α) state post :=
  ⟨value, state, rfl, holds⟩

theorem Returns.set {new : σ} {post : PUnit → σ → Prop} (holds : post ⟨⟩ new) :
    Returns (set new : EStateM ε σ PUnit) state post :=
  ⟨⟨⟩, new, rfl, holds⟩

theorem Returns.modify {change : σ → σ} {post : PUnit → σ → Prop} (holds : post ⟨⟩ (change state)) :
    Returns (modify change : EStateM ε σ PUnit) state post :=
  ⟨⟨⟩, change state, rfl, holds⟩

/-- The first action is known to return. -/
theorem Returns.run_bind {action : EStateM ε σ β} {next : β → EStateM ε σ α} {value : β} {reached : σ}
    (run : action state = .ok value reached) (rest : Returns (next value) reached post) :
    Returns (action >>= next) state post := by
  rcases rest with ⟨result, after, runNext, holds⟩
  refine ⟨result, after, ?_, holds⟩
  simp only [Bind.bind, EStateM.bind, run, runNext]

theorem Returns.bind {action : EStateM ε σ β} {next : β → EStateM ε σ α} {middle : β → σ → Prop}
    (first : Returns action state middle)
    (second : ∀ value after, middle value after → Returns (next value) after post) :
    Returns (action >>= next) state post := by
  rcases first with ⟨value, reached, run, holds⟩
  exact Returns.run_bind run (second value reached holds)

theorem get_run : (get : EStateM ε σ σ) state = .ok state state := rfl

theorem set_run (new : σ) : (set new : EStateM ε σ PUnit) state = .ok ⟨⟩ new := rfl

theorem throw_run (error : ε) : (throw error : EStateM ε σ α) state = .error error state := rfl

/-- A sequence that returned, taken apart. -/
theorem bind_ok {action : EStateM ε σ β} {next : β → EStateM ε σ α} {value : α} {after : σ}
    (run : (action >>= next) state = .ok value after) :
    ∃ middle reached, action state = .ok middle reached ∧ next middle reached = .ok value after := by
  simp only [Bind.bind, EStateM.bind] at run
  cases first : action state with
  | ok middle reached =>
      rw [first] at run
      exact ⟨middle, reached, rfl, run⟩
  | error error reached =>
      rw [first] at run
      cases run

/-- A sequence whose first action raises. -/
theorem bind_raises {action : EStateM ε σ β} {next : β → EStateM ε σ α} {error : ε} {after : σ}
    (run : action state = .error error after) : (action >>= next) state = .error error after := by
  simp only [Bind.bind, EStateM.bind, run]

theorem Returns.get_bind {next : σ → EStateM ε σ α} (rest : Returns (next state) state post) :
    Returns (get >>= next) state post :=
  rest

/-- A loop that keeps no value: the invariant speaks about the items done so far. -/
theorem Returns.forM {items : List α} {body : α → EStateM ε σ PUnit} (invariant : List α → σ → Prop)
    (start : invariant [] state)
    (each : ∀ earlier item later, items = earlier ++ item :: later → ∀ reached, invariant earlier reached →
      Returns (body item) reached fun _ after => invariant (earlier ++ [item]) after) :
    Returns (items.forM body) state fun _ after => invariant items after := by
  suffices run : ∀ (later earlier : List α) (reached : σ), items = earlier ++ later →
      invariant earlier reached → Returns (later.forM body) reached fun _ after => invariant items after by
    exact run items [] state rfl start
  intro later
  induction later with
  | nil =>
      intro earlier reached whole holds
      rw [whole, List.append_nil]
      exact Returns.pure holds
  | cons item rest inductionHypothesis =>
      intro earlier reached whole holds
      apply Returns.bind (each earlier item rest whole reached holds)
      intro _ after further
      exact inductionHypothesis (earlier ++ [item]) after (by rw [whole, List.append_cons]) further

end Returns

/-! ## Actions that may raise -/

section Ends

variable {state : σ} {post : α → σ → Prop} {failed : σ → Prop}

/-- The action returns with the postcondition, or raises in a state with the other one. -/
def Ends (action : EStateM ε σ α) (state : σ) (post : α → σ → Prop) (failed : σ → Prop) : Prop :=
  match action state with
  | .ok value after => post value after
  | .error _ after => failed after

theorem Ends.imp {action : EStateM ε σ α} {weaker : α → σ → Prop} {weakerFailed : σ → Prop}
    (ends : Ends action state post failed) (weaken : ∀ value after, post value after → weaker value after)
    (weakenFailed : ∀ after, failed after → weakerFailed after) : Ends action state weaker weakerFailed := by
  unfold Ends at ends ⊢
  cases outcome : action state with
  | ok value after =>
      rw [outcome] at ends
      exact weaken value after ends
  | error error after =>
      rw [outcome] at ends
      exact weakenFailed after ends

theorem Ends.pure {value : α} (holds : post value state) :
    Ends (pure value : EStateM ε σ α) state post failed :=
  holds

theorem Ends.throw {error : ε} (holds : failed state) :
    Ends (throw error : EStateM ε σ α) state post failed :=
  holds

theorem Ends.set {new : σ} {post : PUnit → σ → Prop} (holds : post ⟨⟩ new) :
    Ends (set new : EStateM ε σ PUnit) state post failed :=
  holds

theorem Ends.modify {change : σ → σ} {post : PUnit → σ → Prop} (holds : post ⟨⟩ (change state)) :
    Ends (modify change : EStateM ε σ PUnit) state post failed :=
  holds

theorem Ends.bind {action : EStateM ε σ β} {next : β → EStateM ε σ α} {middle : β → σ → Prop}
    (first : Ends action state middle failed)
    (second : ∀ value after, middle value after → Ends (next value) after post failed) :
    Ends (action >>= next) state post failed := by
  unfold Ends at first ⊢
  simp only [Bind.bind, EStateM.bind]
  cases outcome : action state with
  | ok value after =>
      rw [outcome] at first
      exact second value after first
  | error error after =>
      rw [outcome] at first
      exact first

/-- `bind` with what holds in between. -/
theorem Ends.through {action : EStateM ε σ β} {next : β → EStateM ε σ α} (between : β → σ → Prop)
    (first : Ends action state between failed)
    (second : ∀ value after, between value after → Ends (next value) after post failed) :
    Ends (action >>= next) state post failed :=
  Ends.bind first second

theorem Ends.get_bind {next : σ → EStateM ε σ α} (rest : Ends (next state) state post failed) :
    Ends (get >>= next) state post failed :=
  rest

/-- A loop that keeps no value: the invariant speaks about the items done so far. -/
theorem Ends.forM {items : List α} {body : α → EStateM ε σ PUnit} (invariant : List α → σ → Prop)
    (start : invariant [] state)
    (each : ∀ earlier item later, items = earlier ++ item :: later → ∀ reached, invariant earlier reached →
      Ends (body item) reached (fun _ after => invariant (earlier ++ [item]) after) failed) :
    Ends (items.forM body) state (fun _ after => invariant items after) failed := by
  suffices run : ∀ (later earlier : List α) (reached : σ), items = earlier ++ later →
      invariant earlier reached →
      Ends (later.forM body) reached (fun _ after => invariant items after) failed by
    exact run items [] state rfl start
  intro later
  induction later with
  | nil =>
      intro earlier reached whole holds
      rw [whole, List.append_nil]
      exact Ends.pure holds
  | cons item rest inductionHypothesis =>
      intro earlier reached whole holds
      apply Ends.bind (each earlier item rest whole reached holds)
      intro _ after further
      exact inductionHypothesis (earlier ++ [item]) after (by rw [whole, List.append_cons]) further

end Ends

/-! ## Computations that give a value -/

section Gives

variable {post : α → Prop}

theorem Gives.imp {result : Except ε α} {weaker : α → Prop} (gives : Gives result post)
    (weaken : ∀ value, post value → weaker value) : Gives result weaker := by
  rcases gives with ⟨value, result, holds⟩
  exact ⟨value, result, weaken value holds⟩

theorem Gives.pure {value : α} (holds : post value) : Gives (pure value : Except ε α) post :=
  ⟨value, rfl, holds⟩

theorem Gives.bind {result : Except ε β} {next : β → Except ε α} {middle : β → Prop}
    (first : Gives result middle) (second : ∀ value, middle value → Gives (next value) post) :
    Gives (result >>= next) post := by
  rcases first with ⟨value, given, holds⟩
  rw [given]
  exact second value holds

/-- A sequence that gave a value, taken apart. -/
theorem gave_bind {result : Except ε β} {next : β → Except ε α} {value : α}
    (given : (result >>= next) = .ok value) : ∃ middle, result = .ok middle ∧ next middle = .ok value := by
  cases result with
  | error error => cases given
  | ok middle => exact ⟨middle, rfl, given⟩

/-- Each item of a list by itself. -/
theorem Gives.mapM {items : List α} {body : α → Except ε β} {each : α → β → Prop}
    (gives : ∀ item ∈ items, Gives (body item) (each item)) :
    Gives (items.mapM body) (List.Forall₂ each items) := by
  induction items with
  | nil => exact Gives.pure List.Forall₂.nil
  | cons item rest inductionHypothesis =>
      rw [List.mapM_cons]
      apply Gives.bind (gives item List.mem_cons_self)
      intro value holds
      apply Gives.bind (inductionHypothesis fun other member => gives other (List.mem_cons_of_mem _ member))
      intro values rest
      exact Gives.pure (List.Forall₂.cons holds rest)

theorem Gives.mapM_any {items : List α} {body : α → Except ε β}
    (gives : ∀ item ∈ items, Gives (body item) fun _ => True) :
    Gives (items.mapM body) fun _ => True := by
  have each : Gives (items.mapM body) (List.Forall₂ (fun _ _ => True) items) := Gives.mapM gives
  exact each.imp fun _ _ => trivial

theorem mapM_ok {items : List α} {body : α → Except ε β} {values : List β}
    (given : items.mapM body = .ok values) :
    List.Forall₂ (fun item value => body item = .ok value) items values := by
  induction items generalizing values with
  | nil =>
      cases given
      exact List.Forall₂.nil
  | cons item rest inductionHypothesis =>
      rw [List.mapM_cons] at given
      cases first : body item with
      | error error =>
          rw [first] at given
          cases given
      | ok value =>
          cases later : rest.mapM body with
          | error error =>
              rw [first, later] at given
              cases given
          | ok others =>
              rw [first, later] at given
              cases given
              exact List.Forall₂.cons first (inductionHypothesis later)

/-- What is related to an item of the right list. -/
theorem forall₂_mem_right {α β : Type} {related : α → β → Prop} {left : List α} {right : List β}
    (each : List.Forall₂ related left right) {item : β} (member : item ∈ right) : ∃ other ∈ left,
    related other item := by
  induction each with
  | nil => cases member
  | cons first _ inductionHypothesis =>
      rcases List.mem_cons.mp member with rfl | later
      · exact ⟨_, List.mem_cons_self, first⟩
      · rcases inductionHypothesis later with ⟨other, isOther, both⟩
        exact ⟨other, List.mem_cons_of_mem _ isOther, both⟩

theorem forall₂_mem_left {α β : Type} {related : α → β → Prop} {left : List α} {right : List β}
    (each : List.Forall₂ related left right) {item : α} (member : item ∈ left) : ∃ other ∈
    right, related item other :=
  forall₂_mem_right each.flip member

/-- Each value comes from one of the items. -/
theorem forall₂_getElem? {α β : Type} {related : α → β → Prop} {left : List α} {right : List β}
    (each : List.Forall₂ related left right) {place : Nat} {item : α} (isItem : left[place]? = some item) :
    ∃ other, right[place]? = some other ∧ related item other := by
  induction each generalizing place with
  | nil => cases isItem
  | cons first _ inductionHypothesis =>
      cases place with
      | zero =>
          cases isItem
          exact ⟨_, rfl, first⟩
      | succ place => exact inductionHypothesis isItem

theorem mapM_ok_mem {items : List α} {body : α → Except ε β} {values : List β}
    (given : items.mapM body = .ok values) : ∀ value ∈ values, ∃ item ∈ items, body item = .ok value := by
  have each := mapM_ok given
  clear given
  induction each with
  | nil => exact fun value impossible => nomatch impossible
  | cons gave _ inductionHypothesis =>
      intro value member
      rcases List.mem_cons.mp member with same | later
      · rw [same]
        exact ⟨_, List.mem_cons_self, gave⟩
      · rcases inductionHypothesis value later with ⟨item, isItem, itemGave⟩
        exact ⟨item, List.mem_cons_of_mem _ isItem, itemGave⟩

end Gives

end Stateful
end VectorSearch
