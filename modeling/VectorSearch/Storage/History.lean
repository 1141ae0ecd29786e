import VectorSearch.Index.Contents
import VectorSearch.Storage.Durable

namespace VectorSearch

/-!
# Histories of writes

What a durable shard is for: it holds the writes of one history, applied once
each in order to a shard that started empty.  The write at position `i` of a
history carries seq `i + 1`, in the log as well as between replicas.
-/

open Stateful

/-- The start parameters of a shard and the writes it has taken. -/
@[ext] structure History where
  params : HnswParams
  writes : List Write

/-- The batch as the loop of `add_batch` takes it apart. -/
def Write.items (write : Write) : List (Int × List Float32Bits × String) :=
  write.globalIds.zip (write.vectors.rows.zip write.payloads)

/-- The payload argument of a call that makes this write: one text for each
vector, or none at all. -/
def Write.Given (write : Write) (payloads : List String) : Prop :=
  Shard.payloadsOrEmpty write.globalIds.length payloads = write.payloads

variable {D G : Type} [LinearOrder D] (np : Numpy Float32Bits D G)

/-- Apply one write; `none` when the index raises. -/
def Contents.apply (write : Write) (contents : Contents Float32Bits G) :
    Option (Contents Float32Bits G) :=
  match Contents.addAll np write.items contents with
  | .ok _ after => some after
  | .error _ _ => none

/-- Apply writes in order. -/
def Contents.applyAll (contents : Contents Float32Bits G) (writes : List Write) :
    Option (Contents Float32Bits G) :=
  writes.foldlM (fun contents write => contents.apply np write) contents

theorem Contents.applyAll_append (contents : Contents Float32Bits G) (first second : List Write) :
    contents.applyAll np (first ++ second) =
      (contents.applyAll np first).bind fun middle => middle.applyAll np second :=
  List.foldlM_append

namespace History

def length (history : History) : Nat := history.writes.length

def push (history : History) (write : Write) : History :=
  { history with writes := history.writes ++ [write] }

/-- A history with more writes behind it. -/
def extend (history : History) (rest : List Write) : History :=
  { history with writes := history.writes ++ rest }

/-- The first writes of a history. -/
def upTo (history : History) (seq : Nat) : History :=
  { history with writes := history.writes.take seq }

/-- The contents of the shard that takes the writes one after another. -/
def replay (history : History) : Option (Contents Float32Bits G) :=
  (Contents.init np history.params).applyAll np history.writes

@[simp] theorem length_push (history : History) (write : Write) :
    (history.push write).length = history.length + 1 := by
  simp only [length, push, List.length_append, List.length_singleton]

theorem upTo_length (history : History) : history.upTo history.length = history := by
  simp only [upTo, length, List.take_length]

theorem drop_length (history : History) : history.writes.drop history.length = [] :=
  List.drop_of_length_le (Nat.le_refl _)

theorem replay_push (history : History) (write : Write) :
    (history.push write).replay np =
      (history.replay np).bind fun contents => contents.apply np write := by
  simp only [replay, push, Contents.applyAll_append]
  congr 1
  funext contents
  simp only [Contents.applyAll, List.foldlM_cons, List.foldlM_nil]
  cases contents.apply np write <;> rfl

/-- The rest of the writes, applied to the state after the first ones. -/
theorem replay_upTo (history : History) (seq : Nat) :
    history.replay np = ((history.upTo seq).replay np).bind fun contents =>
      contents.applyAll np (history.writes.drop seq) := by
  simp only [replay, upTo]
  rw [← Contents.applyAll_append, List.take_append_drop]

/-- A history a shard can really have: its vectors have one positive
dimension, the index took every write, and the seqs fit their field. -/
structure Sound (dim : Nat) (history : History) : Prop where
  positive : 0 < dim
  uniform : ∀ write ∈ history.writes, ∀ row ∈ write.vectors.rows, row.length = dim
  applied : (history.replay np).isSome
  short : history.length < 2 ^ 64

theorem Sound.upTo {dim : Nat} {history : History} (sound : history.Sound np dim) (seq : Nat) :
    (history.upTo seq).Sound np dim where
  positive := sound.positive
  uniform := fun write member => sound.uniform write (List.mem_of_mem_take member)
  applied := by
    have whole := sound.applied
    rw [replay_upTo np history seq] at whole
    cases part : (history.upTo seq).replay np with
    | none => rw [part] at whole; cases whole
    | some contents => rfl
  short := by
    have shorter : (history.upTo seq).length ≤ history.length := by
      simp only [length, History.upTo, List.length_take]
      exact Nat.min_le_right _ _
    exact Nat.lt_of_le_of_lt shorter sound.short

/-! ## Longer and shorter histories -/

/-- The longer history starts with the writes of this one. -/
structure Begins (history longer : History) : Prop where
  params : history.params = longer.params
  writes : history.writes <+: longer.writes

theorem Begins.refl (history : History) : history.Begins history := ⟨rfl, List.prefix_rfl⟩

theorem Begins.trans {first second third : History} (front : first.Begins second)
    (back : second.Begins third) : first.Begins third :=
  ⟨front.params.trans back.params, front.writes.trans back.writes⟩

theorem Begins.length_le {history longer : History} (begins : history.Begins longer) :
    history.length ≤ longer.length :=
  begins.writes.length_le

theorem begins_push (history : History) (write : Write) : history.Begins (history.push write) :=
  ⟨rfl, List.prefix_append _ _⟩

theorem begins_extend (history : History) (rest : List Write) : history.Begins (history.extend rest) :=
  ⟨rfl, List.prefix_append _ _⟩

theorem push_extend (history : History) (write : Write) (rest : List Write) :
    (history.push write).extend rest = history.extend (write :: rest) := by
  simp only [push, extend, List.append_assoc, List.singleton_append]

theorem extend_nil (history : History) : history.extend [] = history := by
  simp only [extend, List.append_nil]

theorem upTo_begins (history : History) (seq : Nat) : (history.upTo seq).Begins history :=
  ⟨rfl, List.take_prefix _ _⟩

theorem Begins.eq_upTo {history longer : History} (begins : history.Begins longer) :
    history = longer.upTo history.length := by
  ext1
  · exact begins.params
  · exact List.prefix_iff_eq_take.mp begins.writes

theorem Begins.antisymm {first second : History} (begins : first.Begins second)
    (order : second.length ≤ first.length) : first = second := by
  ext1
  · exact begins.params
  · exact begins.writes.eq_of_length_le order

/-- Of two beginnings of one history the shorter begins the longer. -/
theorem Begins.of_length_le {first second longer : History} (front : first.Begins longer)
    (back : second.Begins longer) (order : first.length ≤ second.length) : first.Begins second :=
  ⟨front.params.trans back.params.symm, List.prefix_of_prefix_length_le front.writes back.writes order⟩

/-- What the longer history has more. -/
theorem Begins.extend_drop {history longer : History} (begins : history.Begins longer) :
    history.extend (longer.writes.drop history.length) = longer := by
  rcases begins.writes with ⟨rest, whole⟩
  ext1
  · exact begins.params
  · rw [extend, ← whole, length, List.drop_left]

/-- Some of what the longer history has more. -/
theorem Begins.extend {history longer : History} (begins : history.Begins longer) {rest : List Write}
    (cut : rest <+: longer.writes.drop history.length) : (history.extend rest).Begins longer := by
  refine ⟨begins.params, ?_⟩
  rw [← begins.extend_drop]
  exact (List.prefix_append_right_inj _).mpr cut

theorem Sound.begins {dim : Nat} {history longer : History} (sound : longer.Sound np dim)
    (begins : history.Begins longer) : history.Sound np dim := by
  rw [begins.eq_upTo]
  exact sound.upTo np _

end History

/-! ## What stays true of the contents -/

theorem Write.items_rows (write : Write) {dim : Nat}
    (uniform : ∀ row ∈ write.vectors.rows, row.length = dim) :
    ∀ item ∈ write.items, item.2.1.length = dim := by
  intro item member
  have pair := (List.of_mem_zip member).2
  exact uniform _ (List.of_mem_zip pair).1

theorem Write.items_ids (write : Write) : write.items.map Prod.fst = write.globalIds := by
  apply List.map_fst_zip
  rw [List.length_zip, ← write.counted, write.texts, Nat.min_self]

theorem Write.items_payloads (write : Write) :
    write.items.map (fun item => item.2.2) = write.payloads := by
  have outer : write.items.map Prod.snd = write.vectors.rows.zip write.payloads :=
    List.map_snd_zip (by rw [List.length_zip, ← write.counted, write.texts, Nat.min_self])
  have inner : (write.vectors.rows.zip write.payloads).map Prod.snd = write.payloads :=
    List.map_snd_zip (by rw [write.texts, write.counted])
  rw [← inner, ← outer, List.map_map]
  rfl

namespace Contents

theorem apply_ok {write : Write} {contents after : Contents Float32Bits G}
    (applied : contents.apply np write = some after) :
    Contents.addAll np write.items contents = .ok () after := by
  unfold apply at applied
  cases outcome : Contents.addAll np write.items contents with
  | error error left => rw [outcome] at applied; cases applied
  | ok value left =>
      rw [outcome] at applied
      cases applied
      rfl

/-- Writes are applied row by row. -/
theorem applyAll_items {writes : List Write} {contents after : Contents Float32Bits G}
    (applied : contents.applyAll np writes = some after) :
    Contents.addAll np (writes.flatMap Write.items) contents = .ok () after := by
  induction writes generalizing contents with
  | nil =>
      cases applied
      rfl
  | cons write rest inductionHypothesis =>
      simp only [applyAll, List.foldlM_cons] at applied
      cases first : contents.apply np write with
      | none =>
          rw [first] at applied
          cases applied
      | some middle =>
          rw [first] at applied
          rw [List.flatMap_cons, addAll_append]
          simp only [bind, EStateM.bind, apply_ok np first]
          exact inductionHypothesis applied

theorem apply_storable {write : Write} {contents after : Contents Float32Bits G} {dim : Nat}
    (uniform : ∀ row ∈ write.vectors.rows, row.length = dim)
    (applied : contents.apply np write = some after) (width : contents.Width dim)
    (ids : contents.globalIds.all fitsInt64 = true) :
    after.Width dim ∧ after.globalIds.all fitsInt64 = true := by
  have added := apply_ok np applied
  constructor
  · have kept := addAll_width np dim write.items (write.items_rows uniform) contents width
    simpa only [final, added] using kept
  · rw [(addAll_ok np write.items added).1, write.items_ids, List.all_append, ids, write.inside]
    rfl

theorem applyAll_storable {writes : List Write} {contents after : Contents Float32Bits G}
    {dim : Nat} (uniform : ∀ write ∈ writes, ∀ row ∈ write.vectors.rows, row.length = dim)
    (applied : contents.applyAll np writes = some after) (width : contents.Width dim)
    (ids : contents.globalIds.all fitsInt64 = true) :
    after.Width dim ∧ after.globalIds.all fitsInt64 = true := by
  induction writes generalizing contents with
  | nil =>
      cases applied
      exact ⟨width, ids⟩
  | cons write rest inductionHypothesis =>
      simp only [applyAll, List.foldlM_cons] at applied
      cases first : contents.apply np write with
      | none => rw [first] at applied; cases applied
      | some middle =>
          rw [first] at applied
          have kept := apply_storable np (uniform write List.mem_cons_self) first width ids
          exact inductionHypothesis (fun other member => uniform other (List.mem_cons_of_mem _ member))
            applied kept.1 kept.2

end Contents

/-- The contents a sound history leads to can be saved in a snapshot. -/
theorem History.Sound.storable {dim : Nat} {history : History} (sound : history.Sound np dim)
    {contents : Contents Float32Bits G} (reached : history.replay np = some contents) :
    contents.Width dim ∧ contents.Storable := by
  have start : (Contents.init np history.params).Width dim := by
    intro row member
    cases member
  have kept := Contents.applyAll_storable np sound.uniform reached start rfl
  exact ⟨kept.1, ⟨⟨dim, sound.positive, kept.1⟩, kept.2⟩⟩

/-- The shard's method applies the write to the contents. -/
theorem Shard.addBatch_apply {write : Write} {payloads : List String} (given : write.Given payloads)
    {shard : Shard Float32Bits G} {after : Contents Float32Bits G}
    (applied : shard.contents.apply np write = some after) :
    Shard.addBatch np write.globalIds write.vectors.rows payloads shard =
      .ok () (shard.withContents after) := by
  rw [Shard.addBatch, given, Shard.addAll_eq_lift]
  have added := Contents.apply_ok np applied
  rw [Write.items] at added
  rw [added]
  rfl

/-- When the index raises, so does the shard's method. -/
theorem Shard.addBatch_raises {write : Write} {payloads : List String} (given : write.Given payloads)
    {shard : Shard Float32Bits G} (refused : shard.contents.apply np write = none) :
    ∃ error left, Shard.addBatch np write.globalIds write.vectors.rows payloads shard =
      .error error left := by
  rw [Shard.addBatch, given, Shard.addAll_eq_lift]
  unfold Contents.apply at refused
  cases outcome : Contents.addAll np write.items shard.contents with
  | ok value after => rw [outcome] at refused; cases refused
  | error error after =>
      rw [Write.items] at outcome
      exact ⟨error, shard.withContents after, by rw [outcome]; rfl⟩

end VectorSearch
