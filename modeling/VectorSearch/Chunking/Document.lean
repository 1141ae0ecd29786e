import Mathlib.Algebra.GroupWithZero.Nat
import VectorSearch.Exceptions
import VectorSearch.Lib.Text

namespace VectorSearch

/-!
# Splitting a document into passages

`chunking.py`: a document is cut into sections at its Markdown headings, each
section into blocks, pieces and units, and the units are packed into passages.
The three regular expressions are matched by hand.  `isDecimal` says which
characters `\d` matches, which depends on the Unicode tables that Python is
built with.
-/

namespace Chunking

/-! ## The regular expressions -/

/-- The level and the title of a heading. -/
structure Heading where
  level : Nat
  title : Text
  deriving DecidableEq

/-- The end of a heading line, `\s*#*\s*$`. -/
def closesHeading (text : Text) : Bool :=
  ((text.dropWhile Text.isSpace).dropWhile (· == '#')).dropWhile Text.isSpace == []

/-- `(.*?)` with what `_HEADING` has behind it.  A dot matches no newline. -/
def headingTitle (text : Text) : Option Text :=
  if closesHeading text then some []
  else match text with
    | [] => none
    | c :: rest => if c = '\n' then none else (headingTitle rest).map (c :: ·)

/-- `_HEADING`. -/
def matchHeading (line : Text) : Option Heading :=
  let level := (line.takeWhile (· == '#')).length
  let rest := line.dropWhile (· == '#')
  if 1 ≤ level ∧ level ≤ 6 ∧ rest.takeWhile Text.isSpace ≠ [] then
    (headingTitle (rest.dropWhile Text.isSpace)).map fun title => ⟨level, title⟩
  else none

/-- What opens and closes a block of code. -/
inductive Fence where
  | backticks
  | tildes
  deriving DecidableEq

/-- `_FENCE`. -/
def matchFence (line : Text) : Option Fence :=
  match line.lstrip with
  | '`' :: '`' :: '`' :: _ => some .backticks
  | '~' :: '~' :: '~' :: _ => some .tildes
  | _ => none

section Lines

variable (isDecimal : Char → Bool)

/-- `_LINE_STRUCTURED`. -/
def lineStructured (line : Text) : Bool :=
  let spaceNext (rest : Text) : Bool := (rest.takeWhile Text.isSpace != [])
  match line.lstrip with
  | [] => false
  | c :: rest =>
      c == '|' || c == '>' || ((c == '-' || c == '*' || c == '+') && spaceNext rest) ||
        (isDecimal c && match rest.dropWhile isDecimal with
          | [] => false
          | mark :: rest => (mark == '.' || mark == ')') && spaceNext rest)

end Lines

/-- Characters that end a sentence. -/
def endsSentence (c : Char) : Bool := c == '.' || c == '!' || c == '?'

/-- Characters that begin a sentence. -/
def startsSentence (c : Char) : Bool :=
  ('A' ≤ c && c ≤ 'Z') || ('0' ≤ c && c ≤ '9') || ['"', '\'', '(', '[', '`', '*', '_'].contains c

/-- Whether `_SENTENCE_END` matches here, with the sentence so far in front. -/
def breaksHere (sentence text : Text) : Bool :=
  sentence.getLast?.any endsSentence && text.head?.any Text.isSpace && text.lstrip.head?.any startsSentence

/-- The sentences of a text behind the beginning of the first. -/
def sentencesFrom (sentence : Text) : Text → List Text
  | [] => [sentence]
  | c :: rest =>
      if breaksHere sentence (c :: rest) then sentence :: sentencesFrom [] (Text.lstrip rest)
      else sentencesFrom (sentence ++ [c]) rest
termination_by text => text.length
decreasing_by
  · exact Nat.lt_succ_of_le (List.dropWhile_suffix _).length_le
  · exact Nat.lt_succ_self _

/-- `_sentences`. -/
def sentences (text : Text) : List Text := sentencesFrom [] text

/-! ## Sections -/

/-- `" > ".join(title for _, title in trail)`. -/
def trailText (trail : List Heading) : Text := Text.join [' ', '>', ' '] (trail.map Heading.title)

/-- The fence that is open behind a line. -/
def nextFence (fence : Option Fence) (line : Text) : Option Fence :=
  match matchFence line with
  | none => fence
  | some marker =>
      match fence with
      | none => some marker
      | some opened => if marker = opened then none else some opened

/-- The loop of `_sections`. -/
def sectionsFrom (headings : Bool) (trail : List Heading) (body : List Text) (fence : Option Fence) :
    List Text → List (Text × List Text)
  | [] => [(trailText trail, body)]
  | line :: lines =>
      let fence := nextFence fence line
      let heading := if headings && fence.isNone && (matchFence line).isNone then matchHeading line else none
      match heading with
      | none => sectionsFrom headings trail (body ++ [line]) fence lines
      | some heading =>
          (trailText trail, body) ::
            sectionsFrom headings ((trail.filter fun above => above.level < heading.level) ++ [heading])
              [] fence lines

/-- `_sections`: the heading trail and the body lines of each section. -/
def sections (lines : List Text) (headings : Bool) : List (Text × List Text) :=
    sectionsFrom headings [] [] none lines

/-! ## Blocks -/

inductive BlockKind where
  | prose
  | lines
  | code
  deriving DecidableEq

section Blocks

variable (isDecimal : Char → Bool)

/-- `_kind`. -/
def kind (block : List Text) : BlockKind := if block.any (lineStructured isDecimal) then .lines else .prose

/-- The loop of `_blocks`. -/
def blocksFrom (block : List Text) (fence : Option Fence) : List Text → List (BlockKind × List Text)
  | [] =>
      if block = [] then []
      else [(if fence.isSome then .code else kind isDecimal block, block)]
  | line :: lines =>
      let marker := matchFence line
      match fence with
      | some opened =>
          let block := block ++ [line.rstrip]
          if marker = some opened then (.code, block) :: blocksFrom [] none lines
          else blocksFrom block (some opened) lines
      | none =>
          match marker with
          | some marker =>
              if block = [] then blocksFrom [line.rstrip] (some marker) lines
              else (kind isDecimal block, block) :: blocksFrom [line.rstrip] (some marker) lines
          | none =>
              if line.strip ≠ [] then blocksFrom (block ++ [line.rstrip]) none lines
              else if block = [] then blocksFrom [] none lines
              else (kind isDecimal block, block) :: blocksFrom [] none lines

/-- `_blocks`. -/
def blocks (lines : List Text) : List (BlockKind × List Text) := blocksFrom isDecimal [] none lines

/-! ## Pieces -/

/-- One line more of a list, a table or a quote. -/
def addItem (items : List Text) (line : Text) : List Text :=
  match items.getLast? with
  | none => items ++ [line]
  | some item =>
      if lineStructured isDecimal line then items ++ [line]
      else items.dropLast ++ [item ++ ' ' :: line.strip]

/-- The pieces of one item. -/
def itemPieces (maxChars : Nat) (item : Text) : List (Text × Text) :=
  if item.length ≤ maxChars then [(['\n'], item)]
  else match sentences item with
    | [] => []
    | first :: rest => (['\n'], first) :: rest.map fun sentence => ([' '], sentence)

/-- `_pieces`: each piece behind its joiner. -/
def pieces (kind : BlockKind) (block : List Text) (maxChars : Nat) : List (Text × Text) :=
  match kind with
  | .code => block.map fun line => (['\n'], line)
  | .prose => (sentences (Text.join [' '] (block.map Text.strip))).map fun sentence => ([' '], sentence)
  | .lines => (block.foldl (addItem isDecimal) []).flatMap (itemPieces maxChars)

end Blocks

/-! ## Units -/

/-- Where `_hard_split` cuts. -/
def hardCut (maxChars : Nat) (text : Text) : Nat := (Text.rfind ' ' 1 (maxChars + 1) text).getD maxChars

theorem hardCut_bounds {maxChars : Nat} (positive : 0 < maxChars) (text : Text) :
    0 < hardCut maxChars text ∧ hardCut maxChars text ≤ maxChars := by
  unfold hardCut
  cases found : Text.rfind ' ' 1 (maxChars + 1) text with
  | none => exact ⟨positive, Nat.le_refl _⟩
  | some cut =>
      have bounds := Text.rfind_bounds found
      exact ⟨bounds.1, Nat.le_of_lt_succ bounds.2⟩

/-- `_hard_split`.  With no room for a character it would run forever. -/
def hardSplit (maxChars : Nat) (positive : 0 < maxChars) (text : Text) : List Text :=
  if maxChars < text.length then
    text.take (hardCut maxChars text) ::
      hardSplit maxChars positive ((text.drop (hardCut maxChars text)).dropWhile (· == ' '))
  else if text = [] then []
  else [text]
termination_by text.length
decreasing_by
  have cut := hardCut_bounds positive text
  have shorter := (List.dropWhile_suffix (l := text.drop (hardCut maxChars text)) (· == ' ')).length_le
  rw [List.length_drop] at shorter
  omega

/-- A text behind its separator. -/
structure TextUnit where
  separator : Text
  text : Text
  deriving DecidableEq

/-- The units of one piece. -/
def pieceUnits (maxChars : Nat) (positive : 0 < maxChars) (separator piece : Text) : List TextUnit :=
  match if piece.length ≤ maxChars then [piece] else hardSplit maxChars positive piece with
  | [] => []
  | part :: parts => ⟨separator, part⟩ :: parts.map fun part => ⟨[' '], part⟩

/-- The units of the pieces of a block.  There is a separator only in front of
the first of them. -/
def blockUnits (maxChars : Nat) (positive : 0 < maxChars) (separator : Option Text) : List (Text × Text) →
    List TextUnit
  | [] => []
  | (joiner, piece) :: pieces =>
      pieceUnits maxChars positive (separator.getD joiner) piece ++ blockUnits maxChars positive none pieces

/-- `_units`. -/
def units (isDecimal : Char → Bool) (maxChars : Nat) (positive : 0 < maxChars) (lines : List Text) :
    List TextUnit :=
  (blocks isDecimal lines).flatMap fun (kind, block) =>
    blockUnits maxChars positive (some ['\n', '\n']) (pieces isDecimal kind block maxChars)

/-! ## Passages -/

/-- `_length`. -/
def length (units : List TextUnit) : Nat :=
  (units.map fun unit => unit.text.length).sum + (units.tail.map fun unit => unit.separator.length).sum

/-- `_join`.  There is at least one unit. -/
def joinUnits (units : List TextUnit) : Text :=
  Text.stripChar '\n' ((units.flatMap fun unit => unit.separator ++ unit.text).drop
    ((units.head?.map fun unit => unit.separator.length).getD 0))

end Chunking
end VectorSearch
