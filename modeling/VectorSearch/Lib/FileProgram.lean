import Mathlib.Data.List.Basic

namespace VectorSearch

/-!
# Programs of file operations

A storage component alternates between changing its own memory and calling the
operating system.  Two things can go wrong at an operation: the process can
die, which loses the memory and keeps whatever part of the operation reached
the files, or the call can raise, which leaves the memory as it was at that
point of the program.

A program lists its file operations in order, each with the memory the process
holds when it makes the call.  From the three meanings of one operation
(performed, interrupted, failed) this module defines the complete run, the
worlds a crash can leave, and the worlds and memories a raised error can leave.
The predicates `Covers` and `Survives` turn a statement about every crash or
failure point into one obligation for each operation.

Programs are put together with `within`, which runs one inside another.  The
triple `Ensures` speaks of the crash points and of the outcome at once, so that
a loop over operations needs one induction.
-/

/-- What one operation does to the outside world: when it completes, when the
process dies inside it, and when it raises an error. -/
structure FileSystem (Op World : Type) where
  perform : Op → World → World
  interrupted : Op → World → World → Prop
  failed : Op → World → World → Prop

/-- A straight sequence of file operations, each labelled with the memory at
that point, ending in a return or in an exception of the program's own. -/
inductive Program (Op σ ε : Type) where
  | done (memory : σ)
  | raised (memory : σ) (error : ε)
  | call (memory : σ) (op : Op) (next : Program Op σ ε)

/-- How a complete run ended. -/
structure Outcome (World σ ε : Type) where
  world : World
  memory : σ
  error : Option ε

namespace Program

variable {Op σ ε World : Type}

section Meaning

variable (fs : FileSystem Op World)

/-- The run in which every operation completes. -/
def run : Program Op σ ε → World → Outcome World σ ε
  | done memory, world => ⟨world, memory, none⟩
  | raised memory error, world => ⟨world, memory, some error⟩
  | call _ op next, world => next.run (fs.perform op world)

/-- The worlds a process crash can leave, at any point of the program. -/
inductive Crashed : Program Op σ ε → World → World → Prop
  | between {program : Program Op σ ε} {world : World} : Crashed program world world
  | inside {memory : σ} {op : Op} {next : Program Op σ ε} {world left : World}
      (torn : fs.interrupted op world left) : Crashed (call memory op next) world left
  | later {memory : σ} {op : Op} {next : Program Op σ ε} {world left : World}
      (rest : Crashed next (fs.perform op world) left) : Crashed (call memory op next) world left

/-- The world and memory left when some operation raises, and which one it was. -/
inductive Failed : Program Op σ ε → World → Op → World → σ → Prop
  | here {memory : σ} {op : Op} {next : Program Op σ ε} {world left : World}
      (error : fs.failed op world left) : Failed (call memory op next) world op left memory
  | later {memory kept : σ} {op culprit : Op} {next : Program Op σ ε} {world left : World}
      (rest : Failed next (fs.perform op world) culprit left kept) :
      Failed (call memory op next) world culprit left kept

/-- Every world a crash of the program can leave satisfies the predicate. -/
def Covers (good : World → Prop) : Program Op σ ε → World → Prop
  | done _, world => good world
  | raised _ _, world => good world
  | call _ op next, world =>
      good world ∧ (∀ left, fs.interrupted op world left → good left) ∧
        next.Covers good (fs.perform op world)

/-- Whatever operation raises, the world and memory it leaves satisfy its
predicate. -/
def Survives (good : Op → World → σ → Prop) : Program Op σ ε → World → Prop
  | done _, _ => True
  | raised _ _, _ => True
  | call memory op next, world =>
      (∀ left, fs.failed op world left → good op left memory) ∧
        next.Survives good (fs.perform op world)

theorem Covers.here {good : World → Prop} {program : Program Op σ ε} {world : World}
    (covers : program.Covers fs good world) : good world := by
  cases program with
  | done memory => exact covers
  | raised memory error => exact covers
  | call memory op next => exact covers.1

theorem Covers.crashed {good : World → Prop} {program : Program Op σ ε} {world left : World}
    (covers : program.Covers fs good world) (crash : Crashed fs program world left) :
    good left := by
  induction crash with
  | between => exact Covers.here fs covers
  | inside torn => exact covers.2.1 _ torn
  | later _ inductionHypothesis => exact inductionHypothesis covers.2.2

theorem Survives.failed {good : Op → World → σ → Prop} {program : Program Op σ ε}
    {world left : World} {op : Op} {kept : σ} (survives : program.Survives fs good world)
    (failure : Failed fs program world op left kept) : good op left kept := by
  induction failure with
  | here error => exact survives.1 _ error
  | later _ inductionHypothesis => exact inductionHypothesis survives.2

/-- Weakening of what is known at every crash point. -/
theorem Covers.imp {good better : World → Prop} {program : Program Op σ ε} {world : World}
    (weaker : ∀ world, good world → better world) (covers : program.Covers fs good world) :
    program.Covers fs better world := by
  induction program generalizing world with
  | done memory => exact weaker _ covers
  | raised memory error => exact weaker _ covers
  | call memory op rest inductionHypothesis =>
      exact ⟨weaker _ covers.1, fun left torn => weaker _ (covers.2.1 left torn),
        inductionHypothesis covers.2.2⟩

theorem Survives.imp {good better : Op → World → σ → Prop} {program : Program Op σ ε}
    {world : World} (weaker : ∀ op world memory, good op world memory → better op world memory)
    (survives : program.Survives fs good world) : program.Survives fs better world := by
  induction program generalizing world with
  | done memory => trivial
  | raised memory error => trivial
  | call memory op rest inductionHypothesis =>
      exact ⟨fun left error => weaker _ _ _ (survives.1 left error), inductionHypothesis survives.2⟩

end Meaning

/-! ## Composition -/

section Composition

variable {Op' τ ε' World' : Type}

/-- A program as part of a larger one: its operations and its memory are placed
among those of the larger program, which goes on from the return or from the
exception. -/
def within (lift : Op → Op') (wrap : σ → τ) (returned : σ → Program Op' τ ε')
    (caught : σ → ε → Program Op' τ ε') : Program Op σ ε → Program Op' τ ε'
  | done memory => returned memory
  | raised memory error => caught memory error
  | call memory op next => call (wrap memory) (lift op) (next.within lift wrap returned caught)

/-- A program with its exceptions renamed. -/
def mapError (rename : ε → ε') (program : Program Op σ ε) : Program Op σ ε' :=
  program.within id id done fun memory error => raised memory (rename error)

end Composition

/-- Wherever the process dies the world is good, and a complete run ends as the
postcondition says. -/
def Ensures (fs : FileSystem Op World) (good : World → Prop) (post : Outcome World σ ε → Prop)
    (program : Program Op σ ε) (world : World) : Prop :=
  program.Covers fs good world ∧ post (program.run fs world)

namespace Ensures

variable {fs : FileSystem Op World} {good better : World → Prop}
  {post weaker : Outcome World σ ε → Prop} {program : Program Op σ ε} {world : World}

theorem imp (ensures : Ensures fs good post program world) (weakens : ∀ world, good world → better world)
    (implies : ∀ outcome, post outcome → weaker outcome) : Ensures fs better weaker program world :=
  ⟨ensures.1.imp fs weakens, implies _ ensures.2⟩

theorem done {memory : σ} (here : good world) (ends : post ⟨world, memory, none⟩) :
    Ensures fs good post (.done memory) world :=
  ⟨here, ends⟩

theorem raised {memory : σ} {error : ε} (here : good world) (ends : post ⟨world, memory, some error⟩) :
    Ensures fs good post (.raised memory error) world :=
  ⟨here, ends⟩

theorem call {memory : σ} {op : Op} {next : Program Op σ ε} (here : good world)
    (torn : ∀ left, fs.interrupted op world left → good left)
    (rest : Ensures fs good post next (fs.perform op world)) :
    Ensures fs good post (.call memory op next) world :=
  ⟨⟨here, torn, rest.1⟩, rest.2⟩

end Ensures
end Program

/-- A file system that is part of a larger one: the larger world holds the
smaller, and the lifted operations act on that part of it alone. -/
structure FileSystem.Part {Op World Op' World' : Type} (part : FileSystem Op World)
    (whole : FileSystem Op' World') (lift : Op → Op') (place : World → World') : Prop where
  perform : ∀ op world, whole.perform (lift op) (place world) = place (part.perform op world)
  interrupted : ∀ op world left, whole.interrupted (lift op) (place world) left →
    ∃ inner, left = place inner ∧ part.interrupted op world inner

namespace Program

variable {Op σ ε World Op' τ ε' World' : Type} {fs : FileSystem Op World}
  {whole : FileSystem Op' World'} {lift : Op → Op'} {place : World → World'}

/-- The part keeps its crash points good, and each way it ends is taken up by
what follows. -/
theorem Ensures.within (part : fs.Part whole lift place) {wrap : σ → τ}
    {returned : σ → Program Op' τ ε'} {caught : σ → ε → Program Op' τ ε'} {good : World' → Prop}
    {middle : Outcome World σ ε → Prop} {post : Outcome World' τ ε' → Prop} {program : Program Op σ ε}
    {world : World} (first : Ensures fs (fun left => good (place left)) middle program world)
    (returns : ∀ world memory, middle ⟨world, memory, none⟩ →
      Ensures whole good post (returned memory) (place world))
    (catches : ∀ world memory error, middle ⟨world, memory, some error⟩ →
      Ensures whole good post (caught memory error) (place world)) :
    Ensures whole good post (program.within lift wrap returned caught) (place world) := by
  induction program generalizing world with
  | done memory => exact returns world memory first.2
  | raised memory error => exact catches world memory error first.2
  | call memory op next inductionHypothesis =>
      rcases first with ⟨⟨here, torn, covers⟩, ends⟩
      apply Ensures.call here
      · intro left interrupted
        rcases part.interrupted op world left interrupted with ⟨inner, rfl, inside⟩
        exact torn inner inside
      · rw [part.perform]
        exact inductionHypothesis ⟨covers, ends⟩

/-- The memory is good at the end, whatever the files are. -/
def Leaves (good : σ → Prop) : Program Op σ ε → Prop
  | done memory => good memory
  | raised memory _ => good memory
  | call _ _ next => next.Leaves good

variable (fs) in
theorem Leaves.run {good : σ → Prop} {program : Program Op σ ε} (leaves : program.Leaves good) (world : World) :
    good (program.run fs world).memory := by
  induction program generalizing world with
  | done memory => exact leaves
  | raised memory error => exact leaves
  | call memory op next inductionHypothesis => exact inductionHypothesis leaves (fs.perform op world)

theorem Leaves.within {wrap : σ → τ} {returned : σ → Program Op' τ ε'} {caught : σ → ε → Program Op' τ ε'}
    {good : σ → Prop} {last : τ → Prop} {program : Program Op σ ε} (leaves : program.Leaves good)
    (returns : ∀ memory, good memory → (returned memory).Leaves last)
    (catches : ∀ memory error, good memory → (caught memory error).Leaves last) :
    (program.within lift wrap returned caught).Leaves last := by
  induction program with
  | done memory => exact returns memory leaves
  | raised memory error => exact catches memory error leaves
  | call memory op next inductionHypothesis => exact inductionHypothesis leaves

theorem Leaves.mapError {rename : ε → ε'} {good : σ → Prop} {program : Program Op σ ε}
    (leaves : program.Leaves good) :
    (program.mapError rename).Leaves good :=
  Leaves.within leaves (fun _ holds => holds) fun _ _ holds => holds

/-- A program makes the same operations whatever the files are, so its run can
be looked at through less detailed ones. -/
theorem run_project {World' : Type} {coarse : FileSystem Op World'} (project : World → World')
    (commutes : ∀ op world, project (fs.perform op world) = coarse.perform op (project world))
    (program : Program Op σ ε) (world : World) :
    program.run coarse (project world) =
      ⟨project (program.run fs world).world, (program.run fs world).memory, (program.run fs world).error⟩ := by
  induction program generalizing world with
  | done memory => rfl
  | raised memory error => rfl
  | call memory op next inductionHypothesis =>
      have later := inductionHypothesis (fs.perform op world)
      rw [commutes] at later
      exact later

/-- A program whose memory is held inside another one runs as it does by itself. -/
theorem run_held (hold : σ → τ) (program : Program Op σ ε) (world : World) :
    (program.within id hold (fun memory => done (hold memory)) fun memory error =>
      raised (hold memory) error).run fs world =
      ⟨(program.run fs world).world, hold (program.run fs world).memory, (program.run fs world).error⟩ := by
  induction program generalizing world with
  | done memory => rfl
  | raised memory error => rfl
  | call memory op next inductionHypothesis => exact inductionHypothesis (fs.perform op world)

/-- Renaming exceptions changes nothing else. -/
theorem run_mapError (rename : ε → ε') (program : Program Op σ ε) (world : World) :
    (program.mapError rename).run fs world =
      ⟨(program.run fs world).world, (program.run fs world).memory,
        (program.run fs world).error.map rename⟩ := by
  induction program generalizing world with
  | done memory => rfl
  | raised memory error => rfl
  | call memory op next inductionHypothesis => exact inductionHypothesis (fs.perform op world)

theorem mapError_id (program : Program Op σ ε) : program.mapError id = program := by
  induction program with
  | done memory => rfl
  | raised memory error => rfl
  | call memory op next inductionHypothesis => exact congrArg (call memory op) inductionHypothesis

theorem Crashed.of_mapError {rename : ε → ε'} {program : Program Op σ ε} {world left : World}
    (crash : Crashed fs (program.mapError rename) world left) : Crashed fs program world left := by
  induction program generalizing world with
  | done memory =>
      cases crash
      exact .between
  | raised memory error =>
      cases crash
      exact .between
  | call memory op next inductionHypothesis =>
      cases crash with
      | between => exact .between
      | inside torn => exact .inside torn
      | later rest => exact .later (inductionHypothesis rest)

end Program
end VectorSearch
