import Mathlib.Data.List.Nodup
import Mathlib.Data.List.Basic

namespace VectorSearch

/-!
# Dictionaries in insertion order

A finite map that remembers the order in which keys were first set, as Python's
`dict` does.  Distinctness of the keys is part of the value, so a lookup never
has to choose between two entries.
-/

/-- Key and value pairs with distinct keys. -/
@[ext] structure Dict (K V : Type) where
  entries : List (K × V)
  distinct : (entries.map Prod.fst).Nodup

namespace Dict

variable {K V : Type}

def empty : Dict K V := ⟨[], List.nodup_nil⟩

def keys (dict : Dict K V) : List K := dict.entries.map Prod.fst

instance [DecidableEq K] [DecidableEq V] : DecidableEq (Dict K V) := fun left right =>
  decidable_of_iff (left.entries = right.entries) ⟨Dict.ext, congrArg entries⟩

variable [DecidableEq K]

/-- Look a key up in a list of pairs. -/
def find (key : K) : List (K × V) → Option V
  | [] => none
  | (other, value) :: rest => if other = key then some value else find key rest

/-- Replace the value of a key where it stands, or add the key at the end. -/
def update (key : K) (value : V) : List (K × V) → List (K × V)
  | [] => [(key, value)]
  | (other, old) :: rest =>
      if other = key then (key, value) :: rest else (other, old) :: update key value rest

theorem mem_keys_update (key other : K) (value : V) (entries : List (K × V)) :
    other ∈ (update key value entries).map Prod.fst ↔
      other = key ∨ other ∈ entries.map Prod.fst := by
  induction entries with
  | nil => simp [update]
  | cons head rest inductionHypothesis =>
      obtain ⟨first, old⟩ := head
      by_cases same : first = key
      · subst same
        simp [update]
      · simp only [update, if_neg same, List.map_cons, List.mem_cons, inductionHypothesis]
        tauto

theorem update_distinct (key : K) (value : V) (entries : List (K × V))
    (distinct : (entries.map Prod.fst).Nodup) :
    ((update key value entries).map Prod.fst).Nodup := by
  induction entries with
  | nil => simp [update]
  | cons head rest inductionHypothesis =>
      obtain ⟨first, old⟩ := head
      have parts := List.nodup_cons.mp distinct
      by_cases same : first = key
      · subst same
        simpa only [update, if_true, List.map_cons] using distinct
      · simp only [update, if_neg same, List.map_cons]
        refine List.nodup_cons.mpr ⟨?_, inductionHypothesis parts.2⟩
        intro member
        rcases (mem_keys_update key first value rest).mp member with equal | later
        · exact same equal
        · exact parts.1 later

def get? (dict : Dict K V) (key : K) : Option V := find key dict.entries

def set (dict : Dict K V) (key : K) (value : V) : Dict K V :=
  ⟨update key value dict.entries, update_distinct key value dict.entries dict.distinct⟩

theorem find_update (key other : K) (value : V) (entries : List (K × V)) :
    find other (update key value entries) =
      if other = key then some value else find other entries := by
  induction entries with
  | nil =>
      by_cases same : other = key
      · simp [update, find, same]
      · simp [update, find, same, Ne.symm same]
  | cons head rest inductionHypothesis =>
      obtain ⟨first, old⟩ := head
      by_cases atKey : first = key
      · subst atKey
        by_cases same : other = first
        · simp [update, find, same]
        · simp [update, find, same, Ne.symm same]
      · by_cases atOther : first = other
        · subst atOther
          simp [update, find, atKey]
        · simp only [update, if_neg atKey, find, if_neg atOther, inductionHypothesis]

@[simp] theorem get?_set (dict : Dict K V) (key other : K) (value : V) :
    (dict.set key value).get? other = if other = key then some value else dict.get? other :=
  find_update key other value dict.entries

theorem update_update (key : K) (first second : V) (entries : List (K × V)) :
    update key second (update key first entries) = update key second entries := by
  induction entries with
  | nil => simp [update]
  | cons head rest inductionHypothesis =>
      rcases head with ⟨other, old⟩
      by_cases same : other = key
      · simp [update, same]
      · simp only [update, if_neg same, inductionHypothesis]

@[simp] theorem set_set (dict : Dict K V) (key : K) (first second : V) :
    (dict.set key first).set key second = dict.set key second :=
  Dict.ext (update_update key first second dict.entries)

@[simp] theorem get?_empty (key : K) : (empty : Dict K V).get? key = none := rfl

theorem mem_keys_set (dict : Dict K V) (key other : K) (value : V) :
    other ∈ (dict.set key value).keys ↔ other = key ∨ other ∈ dict.keys :=
  mem_keys_update key other value dict.entries

theorem find_isSome_iff (key : K) (entries : List (K × V)) :
    (find key entries).isSome ↔ key ∈ entries.map Prod.fst := by
  induction entries with
  | nil => simp [find]
  | cons head rest inductionHypothesis =>
      obtain ⟨first, old⟩ := head
      by_cases same : first = key
      · simp [find, same]
      · simp only [find, if_neg same, List.map_cons, List.mem_cons, inductionHypothesis,
          Ne.symm same, false_or]

theorem find_mem (key : K) (value : V) (entries : List (K × V))
    (found : find key entries = some value) : (key, value) ∈ entries := by
  induction entries with
  | nil => cases found
  | cons head rest inductionHypothesis =>
      obtain ⟨first, old⟩ := head
      by_cases same : first = key
      · simp only [find, if_pos same, Option.some.injEq] at found
        rw [same, found]
        exact List.mem_cons_self
      · simp only [find, if_neg same] at found
        exact List.mem_cons_of_mem _ (inductionHypothesis found)

theorem get?_mem {dict : Dict K V} {key : K} {value : V} (found : dict.get? key = some value) :
    (key, value) ∈ dict.entries :=
  find_mem key value dict.entries found

theorem find_of_mem {key : K} {value : V} {entries : List (K × V)} (distinct : (entries.map Prod.fst).Nodup)
    (member : (key, value) ∈ entries) : find key entries = some value := by
  induction entries with
  | nil => cases member
  | cons head rest inductionHypothesis =>
      rcases head with ⟨first, old⟩
      rw [List.map_cons, List.nodup_cons] at distinct
      rcases List.mem_cons.mp member with same | later
      · cases same
        exact if_pos rfl
      · have different : first ≠ key := by
          intro same
          rw [same] at distinct
          exact distinct.1 (List.mem_map.mpr ⟨(key, value), later, rfl⟩)
        exact (if_neg different).trans (inductionHypothesis distinct.2 later)

theorem get?_eq_some_iff {dict : Dict K V} {key : K} {value : V} :
    dict.get? key = some value ↔ (key, value) ∈ dict.entries :=
  ⟨get?_mem, find_of_mem dict.distinct⟩

/-! ## From a list of pairs -/

/-- The dict that a display or a comprehension builds from the pairs. -/
def ofList (pairs : List (K × V)) : Dict K V :=
  pairs.foldl (fun dict pair => dict.set pair.1 pair.2) empty

theorem update_new (key : K) (value : V) (entries : List (K × V))
    (new : key ∉ entries.map Prod.fst) : update key value entries = entries ++ [(key, value)] := by
  induction entries with
  | nil => rfl
  | cons head rest inductionHypothesis =>
      obtain ⟨first, old⟩ := head
      rw [List.map_cons, List.mem_cons, not_or] at new
      simp only [update, if_neg (Ne.symm new.1), inductionHypothesis new.2, List.cons_append]

private theorem foldl_set_entries (pairs : List (K × V)) (dict : Dict K V)
    (distinct : (dict.entries ++ pairs |>.map Prod.fst).Nodup) :
    (pairs.foldl (fun dict pair => dict.set pair.1 pair.2) dict).entries =
      dict.entries ++ pairs := by
  induction pairs generalizing dict with
  | nil => exact (List.append_nil _).symm
  | cons pair rest inductionHypothesis =>
      have new : pair.1 ∉ dict.entries.map Prod.fst := by
        rw [List.map_append, List.map_cons] at distinct
        intro member
        exact (List.nodup_append.mp distinct).2.2 _ member _ List.mem_cons_self rfl
      have next : (dict.set pair.1 pair.2).entries = dict.entries ++ [pair] :=
        update_new pair.1 pair.2 dict.entries new
      rw [List.foldl_cons, inductionHypothesis (dict.set pair.1 pair.2)]
      · rw [next, List.append_assoc, List.singleton_append]
      · rw [next, List.append_assoc, List.singleton_append]
        exact distinct

theorem get?_foldl_set {pairs : List (K × V)} {dict : Dict K V} {key : K} {value : V}
    (found : (pairs.foldl (fun dict pair => dict.set pair.1 pair.2) dict).get? key = some value) :
    dict.get? key = some value ∨ (key, value) ∈ pairs := by
  induction pairs generalizing dict with
  | nil => exact .inl found
  | cons pair rest inductionHypothesis =>
      rcases inductionHypothesis found with here | later
      · rw [get?_set] at here
        split at here
        · rename_i same
          cases here
          exact .inr (same ▸ List.mem_cons_self)
        · exact .inl here
      · exact .inr (List.mem_cons_of_mem _ later)

/-- What a dict built from pairs holds is one of them. -/
theorem get?_ofList_mem {pairs : List (K × V)} {key : K} {value : V}
    (found : (ofList pairs).get? key = some value) :
    (key, value) ∈ pairs := by
  rcases get?_foldl_set found with none | member
  · cases none
  · exact member

/-- Building a dict from its own entries changes nothing. -/
theorem ofList_entries (dict : Dict K V) : ofList dict.entries = dict := by
  apply Dict.ext
  exact foldl_set_entries dict.entries empty dict.distinct

/-- Pairs under their own keys are found by these. -/
theorem find_map {A : Type} (key : A → K) (value : A → V) (name : K) (items : List A) :
    find name (items.map fun item => (key item, value item)) =
      (items.find? fun item => key item = name).map value := by
  induction items with
  | nil => rfl
  | cons item rest inductionHypothesis =>
      rw [List.map_cons, List.find?_cons]
      unfold find
      by_cases same : key item = name
      · rw [if_pos same, decide_eq_true same]
        rfl
      · rw [if_neg same, decide_eq_false same]
        exact inductionHypothesis

end Dict
end VectorSearch
