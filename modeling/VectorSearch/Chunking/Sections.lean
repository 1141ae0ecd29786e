import VectorSearch.Chunking.Document

namespace VectorSearch

/-!
# Sections, trails and fences

Two machines look for fences: `_sections` in one run over the document, and
`_blocks` anew in the body of each section.  A section begins where no fence is
open, so both call the same lines code.  The trail of a section is what is left
of the headings above it once each heading has removed those of its own level
and below.
-/

namespace Chunking

/-! ## Code in one run over the document -/

/-- The lines of a document, each with whether `_sections` takes it for code: it
stands inside a fence or is the marker of one. -/
def flagged (fence : Option Fence) : List Text → List (Text × Bool)
  | [] => []
  | line :: lines =>
      (line, (nextFence fence line).isSome || (matchFence line).isSome) :: flagged (nextFence fence line) lines

theorem flagged_append (fence : Option Fence) (first second : List Text) :
    flagged fence (first ++ second) = flagged fence first ++ flagged (first.foldl nextFence fence) second := by
  induction first generalizing fence with
  | nil => rfl
  | cons line first inductionHypothesis =>
      simp only [List.cons_append, flagged, inductionHypothesis, List.foldl_cons]

/-! ## Trails -/

/-- The headings that no later heading has a level at most theirs. -/
def enclosing : List Heading → List Heading
  | [] => []
  | heading :: later =>
      if later.all fun other => heading.level < other.level then heading :: enclosing later else enclosing later

theorem enclosing_sublist (headings : List Heading) : (enclosing headings).Sublist headings := by
  induction headings with
  | nil => exact .slnil
  | cons heading later inductionHypothesis =>
      unfold enclosing
      split
      · exact inductionHypothesis.cons_cons heading
      · exact inductionHypothesis.cons heading

/-- The levels of a trail grow from the outermost heading to the innermost. -/
theorem enclosing_levels (headings : List Heading) :
    (enclosing headings).Pairwise fun outer inner => outer.level < inner.level := by
  induction headings with
  | nil => exact .nil
  | cons heading later inductionHypothesis =>
      unfold enclosing
      split
      · rename_i above
        refine List.pairwise_cons.mpr ⟨fun other member => ?_, inductionHypothesis⟩
        exact of_decide_eq_true (List.all_eq_true.mp above other ((enclosing_sublist later).subset member))
      · exact inductionHypothesis

/-- What the next heading does to a trail. -/
theorem enclosing_append (headings : List Heading) (next : Heading) :
    enclosing (headings ++ [next]) = ((enclosing headings).filter fun above => above.level <
      next.level) ++ [next] := by
  induction headings with
  | nil => rfl
  | cons heading later inductionHypothesis =>
      rw [List.cons_append]
      unfold enclosing
      rw [inductionHypothesis, List.all_append, List.all_cons, List.all_nil, Bool.and_true]
      by_cases above : (later.all fun other => heading.level < other.level) = true
      · by_cases outer : heading.level < next.level
        · rw [if_pos above, List.filter_cons, if_pos (decide_eq_true outer), above, decide_eq_true outer]
          rfl
        · rw [if_pos above, List.filter_cons, decide_eq_false outer, above]
          rfl
      · rw [if_neg above, Bool.eq_false_iff.mpr above]
        rfl

/-! ## Outlines -/

/-- A heading line with what follows it up to the next. -/
structure Part where
  line : Text
  heading : Heading
  body : List (Text × Bool)

/-- A document cut at its headings. -/
structure Outline where
  preamble : List (Text × Bool)
  parts : List Part

namespace Outline

/-- All lines in order.  The heading lines are outside of code. -/
def lines (outline : Outline) : List (Text × Bool) :=
  outline.preamble ++ outline.parts.flatMap fun part => (part.line, false) :: part.body

def bodies (outline : Outline) : List (List (Text × Bool)) := outline.preamble :: outline.parts.map Part.body

/-- The sections of the parts behind some headings. -/
def sectionsBehind (seen : List Heading) : List Part → List (Text × List Text)
  | [] => []
  | part :: parts =>
      (trailText (enclosing (seen ++ [part.heading])), part.body.map Prod.fst) ::
        sectionsBehind (seen ++ [part.heading]) parts

/-- Each body with its trail. -/
def sections (outline : Outline) : List (Text × List Text) :=
  (trailText [], outline.preamble.map Prod.fst) :: sectionsBehind [] outline.parts

/-- The outline of a document: every line is a heading outside of code, or in one
body and no heading. -/
structure Describes (outline : Outline) (document : List Text) : Prop where
  all : flagged none document = outline.lines
  headings : ∀ part ∈ outline.parts, matchHeading part.line = some part.heading
  plain : ∀ body ∈ outline.bodies, ∀ line ∈ body, line.2 = false → matchHeading line.1 = none

end Outline

/-- The fences of a body are those of a run that begins with it. -/
def Restarts (body : List (Text × Bool)) : Prop := flagged none (body.map Prod.fst) = body

/-- The rest of a document, behind a part of the current body. -/
theorem sectionsFrom_outline (lines : List Text) (seen : List Heading) (begun : List (Text × Bool))
    (restarts : Restarts begun) :
    ∃ rest parts,
      flagged ((begun.map Prod.fst).foldl nextFence none) lines =
          rest ++ parts.flatMap (fun part : Part => (part.line, false) :: part.body) ∧
        sectionsFrom true (enclosing seen) (begun.map Prod.fst)
          ((begun.map Prod.fst).foldl nextFence none) lines =
          (trailText (enclosing seen), (begun ++ rest).map Prod.fst) :: Outline.sectionsBehind seen parts ∧
        (∀ part ∈ parts, matchHeading part.line = some part.heading) ∧
        (∀ line ∈ rest, line.2 = false → matchHeading line.1 = none) ∧
        (∀ part ∈ parts, ∀ line ∈ part.body, line.2 = false → matchHeading line.1 = none) ∧
        Restarts (begun ++ rest) ∧ ∀ part ∈ parts, Restarts part.body := by
  induction lines generalizing seen begun with
  | nil =>
      refine ⟨[], [], rfl, ?_, ?_, ?_, ?_, ?_, ?_⟩
      · rw [List.append_nil]
        rfl
      · exact fun _ impossible => nomatch impossible
      · exact fun _ impossible => nomatch impossible
      · exact fun _ impossible => nomatch impossible
      · rwa [List.append_nil]
      · exact fun _ impossible => nomatch impossible
  | cons line lines inductionHypothesis =>
      generalize opened : (begun.map Prod.fst).foldl nextFence none = fence
      -- the line as one more of the current body
      let flag := (nextFence fence line).isSome || (matchFence line).isSome
      have behind : ((begun ++ [(line, flag)]).map Prod.fst).foldl nextFence none = nextFence fence line := by
        rw [List.map_append, List.foldl_append, opened]
        rfl
      have restartsToo : Restarts (begun ++ [(line, flag)]) := by
        unfold Restarts
        rw [List.map_append, flagged_append, restarts, opened]
        rfl
      unfold flagged sectionsFrom
      dsimp only
      cases found : if true && (nextFence fence line).isNone && (matchFence line).isNone then
        matchHeading line else none with
      | none =>
          rcases inductionHypothesis seen (begun ++ [(line, flag)]) restartsToo with
            ⟨rest, parts, all, same, headings, plain, bodies, restart, restarted⟩
          rw [behind] at all same
          have whole : begun ++ (line, flag) :: rest = begun ++ [(line, flag)] ++ rest := by
            rw [List.append_assoc, List.singleton_append]
          refine ⟨(line, flag) :: rest, parts, ?_, ?_, headings, ?_, bodies, ?_, restarted⟩
          · rw [all]
            rfl
          · rw [List.map_append] at same
            rw [whole]
            exact same
          · intro other member isText
            rcases List.mem_cons.mp member with here | later
            · -- outside of code the line was looked at
              rw [here] at isText ⊢
              rw [Bool.or_eq_false_iff, Option.isSome_eq_false_iff, Option.isSome_eq_false_iff] at isText
              rw [isText.1, isText.2] at found
              exact found
            · exact plain other later isText
          · rw [whole]
            exact restart
      | some heading =>
          have outside : nextFence fence line = none ∧ matchFence line = none ∧
            matchHeading line = some heading := by
            split at found
            · rename_i unfenced
              rw [Bool.true_and, Bool.and_eq_true, Option.isNone_iff_eq_none,
                Option.isNone_iff_eq_none] at unfenced
              exact ⟨unfenced.1, unfenced.2, found⟩
            · cases found
          rcases inductionHypothesis (seen ++ [heading]) [] rfl with
            ⟨rest, parts, all, same, headings, plain, bodies, restart, restarted⟩
          rw [enclosing_append] at same
          change flagged none lines = _ at all
          rw [outside.1, outside.2.1]
          refine ⟨[], ⟨line, heading, rest⟩ :: parts, ?_, ?_, ?_, ?_, ?_, ?_, ?_⟩
          · rw [all]
            rfl
          · dsimp only
            rw [List.append_nil]
            unfold Outline.sectionsBehind
            rw [enclosing_append]
            exact congrArg _ same
          · intro part member
            rcases List.mem_cons.mp member with here | later
            · exact here ▸ outside.2.2
            · exact headings part later
          · exact fun _ impossible => nomatch impossible
          · intro part member
            rcases List.mem_cons.mp member with here | later
            · exact here ▸ plain
            · exact bodies part later
          · rwa [List.append_nil]
          · intro part member
            rcases List.mem_cons.mp member with here | later
            · exact here ▸ restart
            · exact restarted part later

/-! ## Blocks -/

/-- The lines of some blocks, each with whether its block is code. -/
def markedLines (blocks : List (BlockKind × List Text)) : List (Text × Bool) :=
  blocks.flatMap fun (kind, block) => block.map fun line => (line, decide (kind = .code))

/-- What blocks hold of a body: all of its code, and the text that is not blank,
without whitespace at the ends of the lines. -/
def shown (body : List (Text × Bool)) : List (Text × Bool) :=
  (body.filter fun (line, code) => code || decide (line.strip ≠ [])).map fun (line, code) => (line.rstrip, code)

theorem shown_cons (line : Text) (code : Bool) (body : List (Text × Bool)) :
    shown ((line, code) :: body) =
      bif code || decide (line.strip ≠ []) then (line.rstrip, code) :: shown body else shown body := by
  simp only [shown, List.filter_cons, Bool.cond_eq_ite]
  split <;> rfl

theorem kind_text (isDecimal : Char → Bool) (block : List Text) : decide (kind isDecimal block = .code) =
    false := by
  unfold kind
  split <;> rfl

/-- The machine of `_blocks` makes the steps of the one of `_sections`. -/
theorem blocksFrom_marked (isDecimal : Char → Bool) (lines block : List Text) (fence : Option Fence) :
    markedLines (blocksFrom isDecimal block fence lines) =
      block.map (fun line => (line, fence.isSome)) ++ shown (flagged fence lines) := by
  have marked_cons : ∀ kind block rest, markedLines ((kind, block) :: rest) =
      block.map (fun line => (line, decide (kind = .code))) ++ markedLines rest := fun _ _ _ => rfl
  induction lines generalizing block fence with
  | nil =>
      unfold blocksFrom
      split
      · rename_i empty
        rw [empty]
        rfl
      · rw [marked_cons]
        cases fence with
        | none => rw [Option.isSome_none, if_neg Bool.false_ne_true, kind_text]; rfl
        | some opened => rfl
  | cons line lines inductionHypothesis =>
      unfold blocksFrom flagged
      rw [shown_cons]
      unfold nextFence
      cases fence with
      | some opened =>
          cases matchFence line with
          | none =>
              have unmarked : ¬ (none : Option Fence) = some opened := fun impossible => nomatch impossible
              dsimp only
              rw [if_neg unmarked, inductionHypothesis, List.map_append, List.append_assoc]
              rfl
          | some marker =>
              dsimp only
              by_cases closes : marker = opened
              · rw [if_pos (congrArg some closes), if_pos closes, marked_cons, inductionHypothesis,
                  List.map_append,
                  List.append_assoc]
                rfl
              · rw [if_neg fun same => closes (Option.some.inj same), if_neg closes, inductionHypothesis,
                  List.map_append, List.append_assoc]
                rfl
      | none =>
          cases matchFence line with
          | some marker =>
              dsimp only
              split
              · rename_i empty
                rw [empty, inductionHypothesis]
                rfl
              · rw [marked_cons, inductionHypothesis, kind_text]
                rfl
          | none =>
              dsimp only
              by_cases blank : line.strip = []
              · rw [if_neg (not_not.mpr blank), decide_eq_false (not_not.mpr blank)]
                split
                · rename_i empty
                  rw [empty, inductionHypothesis]
                  rfl
                · rw [marked_cons, inductionHypothesis, kind_text]
                  rfl
              · rw [if_pos blank, decide_eq_true blank, inductionHypothesis, List.map_append, List.append_assoc]
                rfl

/-- With headings on, a document is cut at the heading lines outside of code and
nowhere else.  The trail of a section names the headings above it that no later
one has a level at most theirs, and in each body `_blocks` takes for code what
`_sections` did. -/
theorem sections_outline (isDecimal : Char → Bool) (document : List Text) :
    ∃ outline : Outline, outline.Describes document ∧ sections document true = outline.sections ∧
      (∀ seen, (enclosing seen).Pairwise fun outer inner => outer.level < inner.level) ∧
      ∀ body ∈ outline.bodies, markedLines (blocks isDecimal (body.map Prod.fst)) = shown body := by
  rcases sectionsFrom_outline document [] [] rfl with
    ⟨preamble, parts, all, same, headings, plain, bodies, restart, restarted⟩
  have agrees : ∀ body, Restarts body → markedLines (blocks isDecimal (body.map Prod.fst)) = shown body := by
    intro body restarts
    unfold blocks
    rw [blocksFrom_marked, restarts]
    rfl
  refine ⟨⟨preamble, parts⟩, ⟨all, headings, ?_⟩, same, enclosing_levels, ?_⟩
  · intro body member
    rcases List.mem_cons.mp member with here | later
    · exact here ▸ plain
    · rcases List.mem_map.mp later with ⟨part, isPart, isBody⟩
      exact isBody ▸ bodies part isPart
  · intro body member
    rcases List.mem_cons.mp member with here | later
    · exact agrees body (here ▸ restart)
    · rcases List.mem_map.mp later with ⟨part, isPart, isBody⟩
      exact agrees body (isBody ▸ restarted part isPart)

end Chunking
end VectorSearch
