import VectorSearch.Lib.JsonRoundTrip

namespace VectorSearch

/-!
# Printed values are one line

The printer escapes the newlines of strings and writes none of its own.
-/

namespace Json

theorem hexDigit_not_newline (value : Nat) : hexDigit (value % 16) ≠ '\n' := by
  intro same
  have read := hexValue_hexDigit (Nat.mod_lt value (show 0 < 16 by decide))
  rw [same] at read
  cases read

theorem escapeUnit_not_newline (unit : Nat) : '\n' ∉ escapeUnit unit := by
  intro member
  have digit := hexDigit_not_newline
  simp only [escapeUnit, List.mem_cons, List.not_mem_nil, or_false] at member
  rcases member with same | same | same | same | same | same
  · exact absurd same (by decide)
  · exact absurd same (by decide)
  · exact digit _ same.symm
  · exact digit _ same.symm
  · exact digit _ same.symm
  · exact digit _ same.symm

theorem writeChar_not_newline (ensureAscii : Bool) (c : Char) : '\n' ∉ writeChar ensureAscii c := by
  unfold writeChar
  split
  · decide
  split
  · decide
  split
  · decide
  split
  · decide
  split
  · decide
  split
  · decide
  split
  · decide
  split
  · exact escapeUnit_not_newline _
  split
  · unfold escapeWide
    split
    · exact escapeUnit_not_newline _
    · intro member
      rcases List.mem_append.mp member with first | second
      · exact escapeUnit_not_newline _ first
      · exact escapeUnit_not_newline _ second
  · rename_i newline _ _ _ _ _ _
    intro member
    exact newline (List.mem_singleton.mp member).symm

theorem writeString_not_newline (ensureAscii : Bool) (text : String) : '\n' ∉ writeString ensureAscii text := by
  unfold writeString
  intro member
  rcases List.mem_cons.mp member with same | later
  · exact absurd same (by decide)
  · rcases List.mem_append.mp later with inside | quote
    · rcases List.mem_flatMap.mp inside with ⟨c, _, isPart⟩
      exact writeChar_not_newline ensureAscii c isPart
    · exact absurd (List.mem_singleton.mp quote) (by decide)

theorem float_not_newline (value : FloatText) : '\n' ∉ value.val := by
  intro member
  have valid := value.property
  unfold JsonNumber.isFloatText at valid
  rcases Bool.or_eq_true_iff.mp valid with named | digits
  · have literals : (JsonNumber.nonFinite.all fun text => !text.contains '\n') = true := by decide
    have none := List.all_eq_true.mp literals value.val (List.contains_iff_mem.mp named)
    rw [List.contains_iff_mem.mpr member] at none
    cases none
  · rw [Bool.and_eq_true] at digits
    exact absurd (List.all_eq_true.mp digits.1 '\n' member) (by decide)

mutual

theorem write_not_newline (ensureAscii : Bool) : ∀ value : Json, '\n' ∉ write ensureAscii value
  | .null => show '\n' ∉ "null".toList by decide
  | .bool true => show '\n' ∉ "true".toList by decide
  | .bool false => show '\n' ∉ "false".toList by decide
  | .int value => fun member => absurd (JsonNumber.writeInt_chars value '\n' member) (by decide)
  | .float value => float_not_newline value
  | .str value => writeString_not_newline ensureAscii value
  | .arr items => by
      simp only [write, List.mem_cons, List.mem_append, List.not_mem_nil, or_false, not_or]
      exact ⟨by decide, writeItems_not_newline ensureAscii items, by decide⟩
  | .obj fields => by
      simp only [write, List.mem_cons, List.mem_append, List.not_mem_nil, or_false, not_or]
      exact ⟨by decide, writeFields_not_newline ensureAscii fields, by decide⟩

theorem writeItems_not_newline (ensureAscii : Bool) : ∀ items : List Json, '\n' ∉ writeItems ensureAscii items
  | [] => fun member => nomatch member
  | [item] => write_not_newline ensureAscii item
  | item :: other :: others => by
      simp only [writeItems_cons, List.mem_append, List.mem_cons, not_or]
      exact ⟨write_not_newline ensureAscii item, by decide, by decide,
        writeItems_not_newline ensureAscii (other :: others)⟩

theorem writeFields_not_newline (ensureAscii : Bool) :
    ∀ fields : List (String × Json), '\n' ∉ writeFields ensureAscii fields
  | [] => fun member => nomatch member
  | [(key, value)] => by
      simp only [writeFields, List.mem_append, List.mem_cons, List.not_mem_nil, or_false, not_or]
      exact ⟨⟨writeString_not_newline ensureAscii key, by decide, by decide⟩,
        write_not_newline ensureAscii value⟩
  | (key, value) :: other :: others => by
      simp only [writeFields_cons, List.mem_append, List.mem_cons, List.not_mem_nil, or_false, not_or]
      exact ⟨⟨⟨writeString_not_newline ensureAscii key, by decide, by decide⟩,
        write_not_newline ensureAscii value⟩,
        by decide, by decide, writeFields_not_newline ensureAscii (other :: others)⟩

end

/-- A printed value is one line. -/
theorem dumps_not_newline (value : Json) (ensureAscii : Bool) : '\n' ∉ (dumps value ensureAscii).toList := by
  unfold dumps
  rw [String.toList_ofList]
  exact write_not_newline ensureAscii value

end Json
end VectorSearch
