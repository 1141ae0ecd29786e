import VectorSearch.Home.Recalling
import VectorSearch.Lib.Firsts

namespace VectorSearch

/-!
# Forgotten memories

The history of one owner: facts are remembered, replaced, forgotten and
recalled.  No recall returns a memory that was named before, unless more than
1000 records name a memory that it may return.
-/

namespace Home

open MemoryStore

/-! ## Histories -/

/-- What a command wrote: the id and tags of a memory, and the ids it takes out
of use. -/
structure Writing where
  memory : Option (String × List String)
  targets : List String

namespace Writing

/-- The memory, if it carries one of the tags. -/
def admits (tags : List String) (writing : Writing) : Option String :=
  match writing.memory with
  | none => none
  | some (id, carried) => if tags.isEmpty || carried.any (· ∈ tags) then some id else none

/-- The command took one of the ids out of use. -/
def names (ids : List String) (writing : Writing) : Bool := writing.targets.any (· ∈ ids)

end Writing

def MemoryRecord.writing : MemoryRecord → Writing
  | memory id _ tags _ replaces => ⟨some (id, tags), replaces⟩
  | forgetting _ _ target => ⟨none, [target]⟩

/-- What a command that returned did. -/
inductive MemoryEvent (S : Type) where
  | stored (id : String) (tags replaces : List String)
  | known (id : String)
  | forgot (id : String)
  | recalled (memories : List (Memory S))

namespace MemoryEvent

variable {S : Type}

def writing : MemoryEvent S → Option Writing
  | stored id tags replaces => some ⟨some (id, tags), replaces⟩
  | forgot id => some ⟨none, [id]⟩
  | known _ | recalled _ => none

/-- The ids that a successful command named. -/
def named (events : List (MemoryEvent S)) : List String := (events.filterMap writing).flatMap Writing.targets

/-- How many commands named a memory that carries one of the tags. -/
def namedWith (events : List (MemoryEvent S)) (tags : List String) : Nat :=
  let writings := events.filterMap writing
  writings.countP (Writing.names (writings.filterMap (Writing.admits tags)))

/-- What was recalled is none of the ids. -/
def Avoids (ids : List String) : MemoryEvent S → Prop
  | recalled memories => ∀ memory ∈ memories, memory.id ∉ ids
  | _ => True

end MemoryEvent

/-- A command of a store. -/
inductive MemoryCommand where
  | remember (text : String) (tags replaces : List String)
  | forget (id : String)
  | «recall» (query : String) (k : Nat) (tags : List String)

namespace MemoryCommand

variable {D S : Type} [LinearOrder S] (scoring : Scoring (List Float32Bits) D S) (store : MemoryStore)

def run : MemoryCommand → Command (List Float32Bits) D (MemoryEvent S)
  | remember text tags replaces => do
      let (id, isStored) ← MemoryStore.remember scoring store text tags replaces
      return if isStored then .stored id tags replaces.eraseDups else .known id
  | forget id => do
      MemoryStore.forget scoring store id
      return .forgot id
  | «recall» query k tags => do
      let memories ← MemoryStore.«recall» scoring store query k tags
      return .recalled memories

/-- A recall whose lookup of the dead is complete: it has few candidates, or few
commands have named one of them. -/
def Answerable (events : List (MemoryEvent S)) : MemoryCommand → Prop
  | «recall» _ k tags => k ≤ 250 ∨ MemoryEvent.namedWith events tags ≤ 1000
  | _ => True

end MemoryCommand

variable {D G S : Type} [LinearOrder D] [LinearOrder S] (np : Numpy Float32Bits D G)
  (embeds : List String → List (List Float32Bits) → Prop) (scoring : Scoring (List Float32Bits) D S)
  (store : MemoryStore)

/-- The commands of a store on a new cluster, each on the world the one before
it left.  A rule says which there are. -/
inductive MemoryHistory (rule : List (MemoryEvent S) → MemoryCommand → Prop) (numShards : Nat)
    (params : HnswParams) :
    List (MemoryEvent S) → MemoryWorld G → Prop
  | start (file : Option ClusterState) :
      MemoryHistory rule numShards params [] ⟨file, Coordinator.init np numShards params⟩
  | ended {events : List (MemoryEvent S)} {world last : MemoryWorld G} {event : MemoryEvent S}
      (before : MemoryHistory rule numShards params events world) (command : MemoryCommand)
      (allowed : rule events command)
      (run : Remote.Runs (memoryNetwork np embeds) (command.run scoring store ()) world (.ok event ()) last) :
      MemoryHistory rule numShards params (events ++ [event]) last
  | raised {events : List (MemoryEvent S)} {world last : MemoryWorld G} {error : Error}
      (before : MemoryHistory rule numShards params events world) (command : MemoryCommand)
      (run : Remote.Runs (memoryNetwork np embeds) (command.run scoring store ()) world
        (.error error ()) last) :
      MemoryHistory rule numShards params events last

/-! ## What the records say of the events -/

/-- The records are what the events wrote. -/
structure Recounts (events : List (MemoryEvent S)) (records : List MemoryRecord) : Prop where
  written : events.filterMap MemoryEvent.writing = records.map MemoryRecord.writing

theorem MemoryRecord.writing_targets (record : MemoryRecord) : record.writing.targets = record.targets := by
  cases record <;> rfl

theorem MemoryRecord.writing_admits (tags : List String) (record : MemoryRecord) :
    record.writing.admits tags =
      if record.isMemory && (tags.isEmpty || record.tags.any (· ∈ tags)) then some record.id else none := by
  cases record <;> rfl

namespace Recounts

variable {events : List (MemoryEvent S)} {records : List MemoryRecord}

omit [LinearOrder S] in
theorem named (recounts : Recounts events records) : MemoryEvent.named events = MemoryRecord.dead records := by
  unfold MemoryEvent.named MemoryRecord.dead
  rw [recounts.written, List.flatMap_map]
  exact congrArg (records.flatMap ·) (funext MemoryRecord.writing_targets)

omit [LinearOrder S] in
theorem namedWith (recounts : Recounts events records) (tags : List String) :
    MemoryEvent.namedWith events tags = records.countP (MemoryRecord.names (admitted records tags)) := by
  have sameIds : (records.map MemoryRecord.writing).filterMap (Writing.admits tags) =
    admitted records tags := by
    rw [List.filterMap_map]
    exact congrArg (records.filterMap ·) (funext (MemoryRecord.writing_admits tags))
  unfold MemoryEvent.namedWith
  dsimp only
  rw [recounts.written, sameIds, List.countP_map]
  apply List.countP_congr
  intro record _
  rw [Function.comp_apply, Writing.names, MemoryRecord.writing_targets]
  rfl

omit [LinearOrder S] in
theorem append (recounts : Recounts events records) {event : MemoryEvent S} {more : List MemoryRecord}
    (written : event.writing.toList = more.map MemoryRecord.writing) : Recounts (events ++ [event])
    (records ++ more) := by
  constructor
  rw [List.filterMap_append, List.map_append, recounts.written, ← written]
  cases isWriting : event.writing with
  | none => simp [isWriting]
  | some writing => simp [isWriting]

omit [LinearOrder S] in
theorem silent (recounts : Recounts events records) {event : MemoryEvent S} (nothing : event.writing = none) :
    Recounts (events ++ [event]) records :=
  ⟨by rw [List.filterMap_append, List.filterMap_cons, nothing, List.filterMap_nil, List.append_nil, recounts.written]⟩

end Recounts

/-! ## What a history keeps -/

section Histories

open Firsts

variable {np embeds scoring store} {events : List (MemoryEvent S)} {records : List MemoryRecord}

/-- A command writes what its event says, and a recall that can be answered
returns nothing that was named. -/
theorem MemoryCommand.telling (partitions : np.Partitions) (recounts : Recounts events records)
    (command : MemoryCommand) :
    Telling np embeds store.owner records (Remembers store.owner records)
      (command.run scoring store : Command (List Float32Bits) D (MemoryEvent S))
      fun event world => ∃ later, Remembers store.owner later world ∧ Recounts (events ++ [event]) later ∧
        (command.Answerable events → event.Avoids (MemoryEvent.named events)) := by
  cases command with
  | remember text tags replaces =>
      refine Client.Ensures.bind (remember_telling scoring store partitions text tags replaces) fun result => ?_
      rcases result with ⟨id, isStored⟩
      refine Client.Ensures.pure ?_
      rintro _ world ⟨later, remembers, ⟨isTrue, _, created, rfl⟩ | ⟨isFalse, _, rfl⟩⟩
      · cases isTrue
        exact ⟨_, remembers, recounts.append rfl, fun _ => trivial⟩
      · cases isFalse
        exact ⟨later, remembers, recounts.silent rfl, fun _ => trivial⟩
  | forget id =>
      refine Client.Ensures.bind (forget_telling scoring store partitions id) fun _ => Client.Ensures.pure ?_
      rintro _ world ⟨name, created, remembers⟩
      exact ⟨_, remembers, recounts.append rfl, fun _ => trivial⟩
  | «recall» query k tags =>
      refine Client.Ensures.bind (recall_telling scoring store partitions query k tags) fun memories => ?_
      refine Client.Ensures.pure ?_
      rintro _ world ⟨remembers, avoids⟩
      refine ⟨records, remembers, recounts.silent rfl, fun answerable => ?_⟩
      rw [MemoryCommand.Answerable, recounts.namedWith] at answerable
      rw [recounts.named]
      exact avoids answerable

omit [LinearOrder D] [LinearOrder S] in
/-- A new cluster holds no records. -/
theorem Remembers.init (file : Option ClusterState) (numShards : Nat) (params : HnswParams) :
    Remembers store.owner [] ⟨file, Coordinator.init np numShards params⟩ := by
  refine ⟨⟨fun shard member => ?_, (fun _ impossible => nomatch impossible), fun target isTarget => ?_⟩,
    List.nodup_nil⟩
  · rcases List.mem_map.mp member with ⟨position, _, rfl⟩
    exact Shard.init_searchable np _
  · have size : (Coordinator.init np numShards params).shards.length = numShards := by
      rw [Coordinator.init, List.length_map, List.length_range]
    rw [size] at isTarget
    unfold shardForNamespace at isTarget
    split at isTarget
    · cases isTarget
    · cases isTarget
      rename_i some
      refine ⟨_, List.getElem?_eq_getElem ?_, ?_⟩
      · rw [size]
        exact Nat.mod_lt _ (Nat.pos_of_ne_zero some)
      · simp [Coordinator.init, Shard.init]

variable {rule : List (MemoryEvent S) → MemoryCommand → Prop} {numShards : Nat} {params : HnswParams}
  {world : MemoryWorld G}

theorem MemoryHistory.kept (partitions : np.Partitions)
    (history : MemoryHistory np embeds scoring store rule numShards params events world) :
    ∃ records, Remembers store.owner records world ∧ Recounts events records := by
  induction history with
  | start file => exact ⟨[], .init file numShards params, ⟨rfl⟩⟩
  | ended before command allowed run inductionHypothesis =>
      rcases inductionHypothesis with ⟨records, remembers, recounts⟩
      rcases (command.telling partitions recounts () _ remembers).1 _ _ run with ⟨later, holds, written, _⟩
      exact ⟨later, holds, written⟩
  | raised before command run inductionHypothesis =>
      rcases inductionHypothesis with ⟨records, remembers, recounts⟩
      exact ⟨records, (command.telling partitions recounts () _ remembers).1 _ _ run, recounts⟩

end Histories

end Home
end VectorSearch
