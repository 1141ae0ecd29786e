import VectorSearch.Home.Answered

namespace VectorSearch

/-!
# Replaced memories that are recalled

Facts of which each replaces the one before are all dead but the last.  A lookup
of the dead returns 1000 of them, and a recall of more than that returns one
that was replaced.
-/

namespace Home

open MemoryStore Firsts

/-- A command that asks for something. -/
def MemoryCommand.Proper : MemoryCommand → Prop
  | «recall» _ k _ => 1 ≤ k
  | _ => True

/-! ## A chain of facts -/

/-- Ten hexadecimal digits, different for the numbers below 1024. -/
def hexSuffix (number : Nat) : String :=
  String.ofList ((List.range 10).map fun position => if number.testBit position then '1' else '0')

def chainId (number : Nat) : String := "m" ++ hexSuffix number

/-- A fact that replaces the one with the number before. -/
def chainRecord (text : String) (created : FloatText) : Nat → MemoryRecord
  | 0 => .memory (chainId 0) text [] created []
  | number + 1 => .memory (chainId (number + 1)) text [] created [chainId number]

theorem chainId_toList (number : Nat) : (chainId number).toList =
    'm' :: (List.range 10).map fun position => if number.testBit position then '1' else '0' := by
  unfold chainId hexSuffix
  rw [String.toList_append]
  exact congrArg ('m' :: ·) String.toList_ofList

theorem chainId_injective {left right : Nat} (leftSmall : left < 1024) (rightSmall : right < 1024)
    (same : chainId left = chainId right) : left = right := by
  have digits := congrArg String.toList same
  rw [chainId_toList, chainId_toList, List.cons.injEq, List.map_inj_left] at digits
  apply Nat.eq_of_testBit_eq
  intro position
  by_cases inside : position < 10
  · have digit := digits.2 position (List.mem_range.mpr inside)
    cases isLeft : left.testBit position <;> cases isRight :
      right.testBit position <;> simp [isLeft, isRight] at digit ⊢
  · have small : 2 ^ 10 ≤ 2 ^ position := Nat.pow_le_pow_right (by decide) (Nat.le_of_not_lt inside)
    rw [Nat.testBit_lt_two_pow (Nat.lt_of_lt_of_le leftSmall small),
      Nat.testBit_lt_two_pow (Nat.lt_of_lt_of_le rightSmall small)]

theorem chainId_short (number : Nat) : (chainId number).length ≤ maxIndexedChars := by
  rw [← String.length_toList, chainId_toList, List.length_cons, List.length_map, List.length_range]
  decide

/-- The first ids are different. -/
theorem chainIds_nodup {count : Nat} (small : count ≤ 1024) : ((List.range count).map chainId).Nodup := by
  refine List.Nodup.map_on (fun left isLeft right isRight same => ?_) List.nodup_range
  have leftSmall := List.mem_range.mp isLeft
  have rightSmall := List.mem_range.mp isRight
  exact chainId_injective (by omega) (by omega) same

section Chains

variable {D G S : Type} [LinearOrder D] [LinearOrder S] {np : Numpy Float32Bits D G}
  {embeds : List String → List (List Float32Bits) → Prop} (text : String) (created : FloatText)

def chainRecords (count : Nat) : List MemoryRecord := (List.range count).map (chainRecord text created)

omit [LinearOrder D] [LinearOrder S] in
theorem chainRecords_succ (count : Nat) :
    chainRecords text created (count + 1) = chainRecords text created count ++
      [chainRecord text created count] := by
  unfold chainRecords
  rw [List.range_succ, List.map_append]
  rfl

theorem chainRecord_id (number : Nat) : (chainRecord text created number).id = chainId number := by
  cases number <;> rfl

theorem chainRecord_isMemory (number : Nat) : (chainRecord text created number).isMemory = true := by
  cases number <;> rfl

theorem chainRecord_single (number : Nat) : (chainRecord text created number).targets.length ≤ 1 := by
  cases number with
  | zero => exact Nat.zero_le 1
  | succ number => exact Nat.le_refl 1

theorem chainRecords_length (count : Nat) : (chainRecords text created count).length = count := by
  unfold chainRecords
  rw [List.length_map, List.length_range]

theorem chainRecords_short (count : Nat) :
    ∀ record ∈ chainRecords text created count, record.id.length ≤ maxIndexedChars := by
  intro record member
  rcases List.mem_map.mp member with ⟨number, _, rfl⟩
  rw [chainRecord_id]
  exact chainId_short number

theorem chainRecords_single (count : Nat) : ∀ record ∈ chainRecords text created count,
    record.targets.length ≤ 1 := by
  intro record member
  rcases List.mem_map.mp member with ⟨number, _, rfl⟩
  exact chainRecord_single text created number

theorem chainRecords_dead (count : Nat) :
    MemoryRecord.dead (chainRecords text created (count + 1)) = (List.range count).map chainId := by
  induction count with
  | zero => rfl
  | succ count inductionHypothesis =>
      rw [chainRecords_succ, MemoryRecord.dead_append, inductionHypothesis, List.range_succ, List.map_append]
      rfl

theorem chainRecords_ids (count : Nat) :
    (chainRecords text created count).map MemoryRecord.id = (List.range count).map chainId := by
  unfold chainRecords
  rw [List.map_map]
  exact List.map_congr_left fun number _ => chainRecord_id text created number

omit [LinearOrder D] [LinearOrder S] in
/-- The fact that was stored last. -/
theorem chainRecords_last {count : Nat} (small : count < 1024) :
    chainRecord text created count ∈ chainRecords text created (count + 1) ∧
      (chainRecord text created count).id ∉ MemoryRecord.dead (chainRecords text created (count + 1)) ∧
      (chainRecords text created (count + 1)).countP
        (fun record => record.id = (chainRecord text created count).id) ≤ 1000 := by
  refine ⟨?_, fun member => ?_, ?_⟩
  · rw [chainRecords_succ]
    exact List.mem_append_right _ (List.mem_singleton_self _)
  · rw [chainRecord_id, chainRecords_dead] at member
    rcases List.mem_map.mp member with ⟨number, isNumber, same⟩
    have earlier := List.mem_range.mp isNumber
    exact absurd (chainId_injective (by omega) small same) (Nat.ne_of_lt earlier)
  · have once := List.nodup_iff_count_le_one.mp (chainIds_nodup small) (chainRecord text created count).id
    rw [← chainRecords_ids text created, List.count, List.countP_map] at once
    refine Nat.le_trans (Nat.le_of_eq ?_) (Nat.le_trans once (by decide))
    exact List.countP_congr fun record _ => by simp

variable {text} {scoring : Scoring (List Float32Bits) D S} {store : MemoryStore} {state : ClusterState}
  {name : String}
  {dim : Nat} {params : HnswParams} {rule : List (MemoryEvent S) → MemoryCommand → Prop}
  {vector : List Float32Bits}

omit [LinearOrder D] in
/-- A new cluster that records memories is open. -/
theorem Open.init (np : Numpy Float32Bits D G) (state : ClusterState) (store : MemoryStore) (dim : Nat)
    (params : HnswParams) : Open state dim store.owner []
    (⟨some state, Coordinator.init np 1 params⟩ : MemoryWorld G) := by
  have remembers : Remembers store.owner [] (⟨some state, Coordinator.init np 1 params⟩ : MemoryWorld G) :=
    .init (some state) 1 params
  refine ⟨rfl, remembers.held, fun shard member => ?_, ?_⟩
  · rcases List.mem_map.mp member with ⟨position, _, rfl⟩
    exact Shard.init_serving dim _
  · exact List.cons_ne_nil _ _

/-- The facts are stored one after the other. -/
theorem chain_stored (partitions : np.Partitions) (steady : np.Steady) (ones : (scoring.ones dim).length = dim)
    (isDataset : state.dataset = some (.memory name dim)) (nonempty : strip text ≠ "")
    (embedded : embeds [strip text] [vector]) (length : vector.length = dim)
    (allowed : ∀ events text tags replaces, rule events (.remember text tags replaces))
    {count : Nat} (small : count < 1024) : ∃ events world,
      MemoryHistory np embeds scoring store rule 1 params events world ∧
      MemoryEvent.named events = (List.range count).map chainId ∧
      Open state dim store.owner (chainRecords (strip text) created (count + 1)) world := by
  induction count with
  | zero =>
      rcases remember_first embeds scoring store partitions steady isDataset
        (Open.init np state store dim params) nonempty
        embedded length [] (hexSuffix 0) created with ⟨last, runs, isOpen⟩
      exact ⟨_, last, .ended (.start (some state)) (.remember text [] []) (allowed _ _ _ _)
        (Client.Yields.bind runs (.pure _)),
        rfl, isOpen⟩
  | succ count inductionHypothesis =>
      have earlier : count < 1024 := Nat.lt_of_succ_lt small
      rcases inductionHypothesis earlier with ⟨events, world, history, named, isOpen⟩
      rcases chainRecords_last (strip text) created earlier with ⟨isLast, alive, few⟩
      have room : (chainRecords (strip text) created (count + 1)).length ≤ exactAdvantage * 1000 := by
        rw [chainRecords_length]
        exact Nat.le_trans earlier (by decide)
      rcases remember_replacing embeds scoring store partitions steady ones isDataset isOpen room
        (chainRecords_short _ _ _) isLast
        (chainRecord_isMemory _ _ _) alive few nonempty embedded length [] (hexSuffix (count + 1)) created with
        ⟨last, runs, later⟩
      refine ⟨_, last, .ended history (.remember text [] [_]) (allowed _ _ _ _)
        (Client.Yields.bind runs (.pure _)), ?_, ?_⟩
      · have event : MemoryEvent.named (events ++ [.stored ("m" ++ hexSuffix (count + 1)) [] [chainId count]]) =
            MemoryEvent.named events ++ [chainId count] := by
          unfold MemoryEvent.named
          rw [List.filterMap_append, List.flatMap_append]
          rfl
        rw [chainRecord_id]
        refine event.trans ?_
        rw [named, List.range_succ, List.map_append]
        rfl
      · rw [chainRecords_succ]
        rw [chainRecord_id] at later
        exact later

/-- After the facts everything is recalled: of those that were replaced 1000 at
most are left out. -/
theorem chain_recalled (partitions : np.Partitions) (steady : np.Steady)
    (ones : (scoring.ones dim).length = dim) (isDataset : state.dataset = some (.memory name dim))
    (nonempty : strip text ≠ "") (embedded : embeds [strip text] [vector]) (length : vector.length = dim)
    (stores : ∀ events text tags replaces, rule events (.remember text tags replaces)) {count : Nat}
    (small : count < 1024) (asks : ∀ events query, rule events (.recall query (count + 1) []))
    (now : FloatText) :
    ∃ events memories world, ∃ dead : List String,
      MemoryHistory np embeds scoring store rule 1 params (events ++ [.recalled memories]) world ∧
      MemoryEvent.named events = (List.range count).map chainId ∧ dead ⊆ (List.range count).map chainId ∧
      dead.length ≤ 1000 ∧ ∀ number ≤ count, chainId number ∉ dead → ∃ memory ∈ memories,
        memory.id = chainId number := by
  rcases @chain_stored D G S _ _ np embeds text now scoring store state name dim params rule
    vector partitions steady ones
    isDataset nonempty embedded length stores count small with ⟨events, world, history, named, isOpen⟩
  have size : (chainRecords (strip text) now (count + 1)).length = count + 1 := chainRecords_length _ _ _
  have room : count + 1 ≤ exactAdvantage * 1000 := Nat.le_trans small (by decide)
  rcases recall_yields embeds scoring store partitions ones isDataset isOpen (size.trans_le room)
    (chainRecords_short _ _ _) text (Nat.le_of_eq size) now with
      ⟨memories, last, dead, runs, sound, few, returned⟩
  rw [chainRecords_dead] at sound
  refine ⟨events, memories, last, dead, .ended history (.recall text (count + 1) []) (asks _ _)
    (Client.Yields.bind runs (.pure _)), named, sound, few (chainRecords_single _ _ _),
      fun number inside alive => ?_⟩
  have isRecord : chainRecord (strip text) now number ∈ chainRecords (strip text) now (count + 1) :=
    List.mem_map_of_mem (List.mem_range.mpr (Nat.lt_succ_of_le inside))
  rw [← chainRecord_id (strip text) now] at alive ⊢
  exact returned _ isRecord (chainRecord_isMemory _ _ _) alive

end Chains

/-! ## One owner on one shard -/

/-- Every text has the same vector. -/
def lapseEmbeds (texts : List String) (vectors : List (List Float32Bits)) : Prop :=
  vectors = texts.map fun _ => [0x3f800000]

def lapseScoring : Scoring (List Float32Bits) Int Int where
  ones dim := List.replicate dim 0x3f800000
  same distance := distance = 0
  similarity distance := 1 - distance
  score similarity _ _ := similarity

def lapseState : ClusterState :=
  ⟨some 0, [], [[⟨none, 7000, none, none⟩]], some (.memory "minilm" 1), none⟩

def lapseStore : MemoryStore := exampleStore

def lapseTime : FloatText := ⟨"0.0".toList, by decide⟩

/-- The histories of one owner on one shard. -/
abbrev LapseHistory (rule : List (MemoryEvent Int) → MemoryCommand → Prop) :
    List (MemoryEvent Int) → MemoryWorld Unit → Prop :=
  MemoryHistory (Numpy.flat Numpy.axisDistance) lapseEmbeds lapseScoring lapseStore rule 1
    ⟨2, 10, none, 0, .heuristic⟩

theorem flat_partitions : (Numpy.flat Numpy.axisDistance : Numpy Float32Bits Int Unit).Partitions :=
  Shard.exact_partitions _ _ _ _ _

theorem flat_steady : (Numpy.flat Numpy.axisDistance : Numpy Float32Bits Int Unit).Steady :=
    fun _ rng => ⟨0, rng, rfl⟩

theorem lapse_recalled (rule : List (MemoryEvent Int) → MemoryCommand → Prop)
    (stores : ∀ events text tags replaces, rule events (.remember text tags replaces)) (count : Nat)
    (small : count < 1024) (asks : ∀ events query, rule events (.recall query (count + 1) [])) :
    ∃ events memories world, ∃ dead : List String, LapseHistory rule (events ++ [.recalled memories]) world ∧
      MemoryEvent.named events = (List.range count).map chainId ∧ dead ⊆ (List.range count).map chainId ∧
      dead.length ≤ 1000 ∧ ∀ number ≤ count, chainId number ∉ dead → ∃ memory ∈ memories,
        memory.id = chainId number :=
  chain_recalled flat_partitions flat_steady List.length_replicate (show lapseState.dataset = _ from rfl)
    (show strip "the sky is blue" ≠ "" by decide) rfl rfl stores small asks lapseTime

/-- The 1002nd fact is stored, and a recall of them all returns one of the 1001
that were replaced. -/
theorem replaced_recalled : ¬ ∀ events world, LapseHistory (fun _ command => command.Proper) events world →
    Throughout events fun front event => event.Avoids (MemoryEvent.named front) := by
  intro leavesOut
  have proper : ∀ query, MemoryCommand.Proper (.recall query (1001 + 1) []) := fun _ =>
    Nat.succ_le_succ (Nat.zero_le _)
  rcases lapse_recalled (fun _ command => command.Proper) (fun _ _ _ _ => trivial) 1001 (by decide)
    (fun _ query => proper query) with ⟨events, memories, world, dead, history, named, _, few, returned⟩
  have spared : ∃ id ∈ (List.range 1001).map chainId, id ∉ dead := by
    by_contra all
    push Not at all
    have atMost := (List.subperm_of_subset (chainIds_nodup (by decide)) all).length_le
    rw [List.length_map, List.length_range] at atMost
    omega
  rcases spared with ⟨_, member, alive⟩
  rcases List.mem_map.mp member with ⟨number, isNumber, rfl⟩
  rcases returned number (Nat.le_of_lt (List.mem_range.mp isNumber)) alive with ⟨memory, isMemory, same⟩
  have avoids : ∀ memory ∈ memories, memory.id ∉ MemoryEvent.named events :=
    leavesOut _ _ history events (.recalled memories) [] rfl
  rw [named] at avoids
  exact avoids memory isMemory (same ▸ member)

/-! ## What recalls leave out -/

section Lapses

variable {D G S : Type} [LinearOrder D] [LinearOrder S] {np : Numpy Float32Bits D G}
  {embeds : List String → List (List Float32Bits) → Prop} {scoring : Scoring (List Float32Bits) D S}
  {store : MemoryStore}
  {numShards : Nat} {params : HnswParams} {events : List (MemoryEvent S)} {world : MemoryWorld G}

/-- As long as each recall can be answered, what was named is never recalled. -/
theorem MemoryHistory.avoids (partitions : np.Partitions)
    (history : MemoryHistory np embeds scoring store MemoryCommand.Answerable numShards params events world) :
    Throughout events fun front event => event.Avoids (MemoryEvent.named front) := by
  induction history with
  | start file => exact .nil
  | ended before command allowed run inductionHypothesis =>
      rcases before.kept partitions with ⟨records, remembers, recounts⟩
      rcases (command.telling partitions recounts () _ remembers).1 _ _ run with ⟨_, _, _, avoids⟩
      exact inductionHypothesis.snoc (avoids allowed)
  | raised before command run inductionHypothesis => exact inductionHypothesis

end Lapses

/-- One fact replaces another, and both are asked for. -/
theorem replaced_left_out : ∃ events memories world,
    LapseHistory (fun front command => command.Answerable front) (events ++ [.recalled memories]) world ∧
    MemoryEvent.named events = [chainId 0] ∧ (∃ memory ∈ memories, memory.id = chainId 1) ∧
    Throughout (events ++ [.recalled memories]) fun front event => event.Avoids (MemoryEvent.named front) := by
  rcases lapse_recalled (fun front command => command.Answerable front) (fun _ _ _ _ => trivial) 1 (by decide)
    (fun _ _ => Or.inl (by decide)) with ⟨events, memories, world, dead, history, named, sound, _, returned⟩
  have alive : chainId 1 ∉ dead := by
    intro isDead
    have same := List.mem_singleton.mp (sound isDead)
    exact absurd (chainId_injective (by decide) (by decide) same) (by decide)
  exact ⟨events, memories, world, history, named, returned 1 (Nat.le_refl 1) alive,
    history.avoids flat_partitions⟩

end Home
end VectorSearch
