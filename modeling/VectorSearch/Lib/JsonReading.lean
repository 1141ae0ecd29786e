import Mathlib.Data.List.Induction
import VectorSearch.Lib.JsonRoundTrip
namespace VectorSearch

/-!
# What was read can be printed

An integer has no more digits than the text it was read from, so a value that
was read is never too long to print.  A value that is too long would have a text
of more characters than Python converts digits.
-/

namespace JsonNumber

theorem ofDigitChars_lt {digits : List Char} (isDigits : ∀ c ∈ digits, c.isDigit = true) :
    Nat.ofDigitChars 10 digits 0 < 10 ^ digits.length := by
  induction digits using List.reverseRecOn with
  | nil => decide
  | append_singleton digits c inductionHypothesis =>
      have below := inductionHypothesis fun other member => isDigits other (List.mem_append_left _ member)
      have isDigit := isDigits c (List.mem_append_right _ (List.mem_singleton_self _))
      have last : c.toNat - 48 < 10 := by
        have upper : c.toNat ≤ 57 := by
          simp only [Char.isDigit, Bool.and_eq_true, decide_eq_true_eq] at isDigit
          exact isDigit.2
        omega
      rw [Nat.ofDigitChars_append, Nat.ofDigitChars_cons, Nat.ofDigitChars_nil,
        List.length_append, List.length_singleton,
        Nat.pow_succ]
      change 10 * _ + (c.toNat - 48) < _
      omega

/-- What was read can be written in as many digits. -/
theorem length_toDigits_le {digits : List Char} (nonempty : digits ≠ [])
    (isDigits : ∀ c ∈ digits, c.isDigit = true) :
    (Nat.toDigits 10 (Nat.ofDigitChars 10 digits 0)).length ≤ digits.length :=
  (Nat.length_toDigits_le_iff (by decide) (List.length_pos_iff.mpr nonempty)).mpr (ofDigitChars_lt isDigits)

theorem countP_isDigit_writeInt (value : Int) :
    (writeInt value).countP Char.isDigit = (Nat.toDigits 10 value.natAbs).length := by
  have all : ∀ number : Nat, (Nat.toDigits 10 number).countP Char.isDigit =
    (Nat.toDigits 10 number).length := by
    intro number
    exact List.countP_eq_length.mpr fun c member => Nat.isDigit_of_mem_toDigits (by decide) (by decide) member
  cases value with
  | ofNat value => exact all value
  | negSucc value =>
      change ('-' :: Nat.toDigits 10 (value + 1)).countP Char.isDigit = _
      rw [List.countP_cons_of_neg (by decide), all]
      rfl

/-- An integer that was read can be printed. -/
theorem convertible_readInt {text : List Char} (isInt : isIntText text = true)
    (short : convertible text = true) :
    convertible (writeInt (readInt text)) = true := by
  have bounded : ∀ digits : List Char, isWhole digits = true → digits.countP Char.isDigit ≤ maxDigits →
      (Nat.toDigits 10 (Nat.ofDigitChars 10 digits 0)).length ≤ maxDigits := by
    intro digits whole few
    have isDigits := isWhole_digits whole
    rw [List.countP_eq_length.mpr isDigits] at few
    refine (length_toDigits_le ?_ isDigits).trans few
    rintro rfl
    cases whole
  have few := of_decide_eq_true short
  apply decide_eq_true
  rw [countP_isDigit_writeInt]
  unfold isIntText at isInt
  unfold readInt
  split at isInt
  · rename_i digits
    rw [Int.natAbs_neg, Int.natAbs_natCast]
    exact bounded digits isInt (by rwa [List.countP_cons_of_neg (by decide)] at few)
  · rename_i notNegative
    exact bounded text isInt few

end JsonNumber

namespace Json

theorem readAtom_printable {chars rest : List Char} {value : Json}
    (read : readAtom chars = some (value, rest)) :
    value.printable = true := by
  unfold readAtom at read
  split at read
  · cases read
    rfl
  split at read
  · cases read
    rfl
  split at read
  · cases read
    rfl
  dsimp only at read
  -- whichever text was taken for a number
  generalize (if "NaN".toList.isPrefixOf chars = true then chars.take 3 else _) = literal at read
  split at read
  · rename_i isInt
    split at read
    · rename_i short
      cases read
      exact JsonNumber.convertible_readInt isInt short
    · cases read
  · split at read
    · cases read
      rfl
    · cases read

theorem printableFields_iff {fields : List (String × Json)} :
    printableFields fields = true ↔ ∀ field ∈ fields, field.2.printable = true := by
  induction fields with
  | nil => exact iff_of_true rfl fun _ impossible => absurd impossible List.not_mem_nil
  | cons field fields inductionHypothesis =>
      rw [List.forall_mem_cons, ← inductionHypothesis]
      exact Bool.and_eq_true_iff

theorem printableItems_iff {items : List Json} :
    printableItems items = true ↔ ∀ item ∈ items, item.printable = true := by
  induction items with
  | nil => exact iff_of_true rfl fun _ impossible => absurd impossible List.not_mem_nil
  | cons item items inductionHypothesis =>
      rw [List.forall_mem_cons, ← inductionHypothesis]
      exact Bool.and_eq_true_iff

theorem printable_find {fields : List (String × Json)} (printable : (obj fields).printable = true)
    {key : String} {value : Json} (found : Dict.find key fields = some value) : value.printable = true :=
  printableFields_iff.mp printable _ (Dict.find_mem key value fields found)

theorem printableFields_update {key : String} {value : Json} {fields : List (String × Json)}
    (isValue : value.printable = true) (printable : printableFields fields = true) :
    printableFields (Dict.update key value fields) = true := by
  induction fields with
  | nil => exact Bool.and_eq_true_iff.mpr ⟨isValue, rfl⟩
  | cons field fields inductionHypothesis =>
      have parts := Bool.and_eq_true_iff.mp printable
      unfold Dict.update
      split
      · exact Bool.and_eq_true_iff.mpr ⟨isValue, parts.2⟩
      · exact Bool.and_eq_true_iff.mpr ⟨parts.1, inductionHypothesis parts.2⟩

/-- What the readers return, with any fuel, can be printed. -/
theorem read_printable (fuel : Nat) :
    (∀ chars value rest, readValue fuel chars = some (value, rest) → value.printable = true) ∧
    (∀ chars items rest, readItems fuel chars = some (items, rest) → printableItems items = true) ∧
    ∀ before chars fields rest, printableFields before = true → readFields fuel before chars =
      some (fields, rest) →
      printableFields fields = true := by
  induction fuel with
  | zero =>
      refine ⟨?_, ?_, ?_⟩
      · intro chars value rest read
        cases read
      · intro chars items rest read
        cases read
      · intro before chars fields rest printable read
        cases read
  | succ fuel inductionHypothesis =>
      rcases inductionHypothesis with ⟨values, itemLists, fieldLists⟩
      refine ⟨?_, ?_, ?_⟩
      · intro chars value rest read
        unfold readValue at read
        split at read
        · simp only [Option.bind_eq_bind, Option.bind_eq_some_iff] at read
          obtain ⟨text, _, same⟩ := read
          cases same
          rfl
        · split at read
          · cases read
            rfl
          · simp only [Option.bind_eq_bind, Option.bind_eq_some_iff] at read
            obtain ⟨items, isItems, same⟩ := read
            cases same
            exact itemLists _ _ _ isItems
        · split at read
          · cases read
            rfl
          · simp only [Option.bind_eq_bind, Option.bind_eq_some_iff] at read
            obtain ⟨fields, isFields, same⟩ := read
            cases same
            exact fieldLists _ _ _ _ rfl isFields
        · exact readAtom_printable read
      · intro chars items rest read
        unfold readItems at read
        simp only [Option.bind_eq_bind, Option.bind_eq_some_iff] at read
        obtain ⟨item, isItem, read⟩ := read
        have first := values _ _ _ isItem
        split at read
        · cases read
          exact Bool.and_eq_true_iff.mpr ⟨first, rfl⟩
        · simp only [Option.bind_eq_some_iff] at read
          obtain ⟨others, isOthers, same⟩ := read
          cases same
          exact Bool.and_eq_true_iff.mpr ⟨first, itemLists _ _ _ isOthers⟩
        · cases read
      · intro before chars fields rest printable read
        unfold readFields at read
        split at read
        · simp only [Option.bind_eq_bind, Option.bind_eq_some_iff] at read
          obtain ⟨key, _, read⟩ := read
          split at read
          · simp only [Option.bind_eq_some_iff] at read
            obtain ⟨value, isValue, read⟩ := read
            have updated : printableFields (Dict.update (String.ofList key.1) value.1 before) = true :=
              printableFields_update (values _ _ _ isValue) printable
            split at read
            · cases read
              exact updated
            · exact fieldLists _ _ _ _ updated read
            · cases read
          · cases read
        · cases read

/-- Every integer of a value that was read can be printed. -/
theorem loads_printable {text : String} {value : Json} (loaded : loads text = some value) :
    value.printable = true := by
  unfold loads at loaded
  simp only [Option.bind_eq_bind, Option.bind_eq_some_iff] at loaded
  obtain ⟨read, isRead, same⟩ := loaded
  split at same
  · cases same
    exact (read_printable _).1 _ _ _ isRead
  · cases same

end Json

/-! ## What cannot be printed -/

namespace Json

theorem writeItems_length (ensureAscii : Bool) (item : Json) (rest : List Json) :
    (write ensureAscii item).length + (writeItems ensureAscii rest).length ≤
      (writeItems ensureAscii (item :: rest)).length := by
  cases rest with
  | nil => exact Nat.le_refl _
  | cons other others =>
      rw [writeItems_cons, List.length_append, List.length_cons, List.length_cons]
      omega

theorem writeFields_length (ensureAscii : Bool) (key : String) (value : Json) (rest : List (String × Json)) :
    key.toList.length + (write ensureAscii value).length + (writeFields ensureAscii rest).length ≤
      (writeFields ensureAscii ((key, value) :: rest)).length := by
  have isKey : key.toList.length ≤ (writeString ensureAscii key).length := by
    have written := length_le_written ensureAscii key.toList
    unfold writeString
    rw [List.length_cons, List.length_append]
    omega
  cases rest with
  | nil =>
      simp only [writeFields, List.length_append, List.length_nil]
      omega
  | cons other others =>
      rw [writeFields_cons]
      simp only [List.length_append, List.length_cons]
      omega

end Json

namespace PyValue

theorem writeInt_long {value : Int} (long : JsonNumber.convertible (JsonNumber.writeInt value) = false) :
    JsonNumber.maxDigits < (JsonNumber.writeInt value).length :=
  Nat.lt_of_lt_of_le (Nat.lt_of_not_le (of_decide_eq_false long)) List.countP_le_length

mutual

/-- A value that cannot be printed would have a long text. -/
theorem write_long (ensureAscii : Bool) (value : PyValue) (long : value.printable = false) :
    JsonNumber.maxDigits < (Json.write ensureAscii value.toJson).length := by
  cases value with
  | none | bool | float | str => cases long
  | int value => exact writeInt_long long
  | list items =>
      have inside := writeItems_long ensureAscii items long
      change _ < ('[' :: (_ ++ [']'])).length
      rw [List.length_cons, List.length_append]
      omega
  | dict entries =>
      have inside := writeEntries_long ensureAscii entries long
      change _ < ('{' :: (_ ++ ['}'])).length
      rw [List.length_cons, List.length_append]
      omega

theorem writeItems_long (ensureAscii : Bool) (items : List PyValue) (long : printableItems items = false) :
    JsonNumber.maxDigits < (Json.writeItems ensureAscii (toJsonItems items)).length := by
  match items with
  | [] => cases long
  | item :: rest =>
      have parts := Json.writeItems_length ensureAscii item.toJson (toJsonItems rest)
      refine Nat.lt_of_lt_of_le ?_ parts
      rcases Bool.and_eq_false_iff.mp long with first | later
      · exact Nat.lt_add_right _ (write_long ensureAscii item first)
      · exact Nat.lt_add_left _ (writeItems_long ensureAscii rest later)

theorem writeEntries_long (ensureAscii : Bool) (entries : List (PyKey × PyValue))
    (long : printableEntries entries = false) :
    JsonNumber.maxDigits < (Json.writeFields ensureAscii (toJsonEntries entries)).length := by
  match entries with
  | [] => cases long
  | (key, value) :: rest =>
      have parts := Json.writeFields_length ensureAscii key.text value.toJson (toJsonEntries rest)
      refine Nat.lt_of_lt_of_le ?_ parts
      rcases Bool.and_eq_false_iff.mp long with first | later
      · rcases Bool.and_eq_false_iff.mp first with isKey | isValue
        · have keyLong : JsonNumber.maxDigits < key.text.toList.length := by
            cases key with
            | int value =>
                unfold PyKey.text
                rw [String.toList_ofList]
                exact writeInt_long isKey
            | _ => cases isKey
          omega
        · have valueLong := write_long ensureAscii value isValue
          omega
      · exact Nat.lt_add_left _ (writeEntries_long ensureAscii rest later)

end

end PyValue

end VectorSearch
