import Mathlib.Data.List.TakeWhile
import VectorSearch.Lib.PyValue

namespace VectorSearch

/-!
# JSON texts read back

`loads` undoes `dumps` on every value whose objects have distinct keys, with and
without escaping: each reader takes exactly what the printer wrote for its part
and leaves what follows.
-/

/-! ## Numbers -/

namespace JsonNumber

theorem digitChar_isDigit {value : Nat} (small : value < 10) : (Nat.digitChar value).isDigit = true := by
  revert value
  decide

theorem digitChar_eq_zero {value : Nat} (small : value < 10) (zero : Nat.digitChar value = '0') : value =
    0 := by
  revert value
  decide

/-- A decimal text has digits only, and begins with a zero only for zero. -/
theorem toDigits_shape (value : Nat) : ∃ first rest, Nat.toDigits 10 value = first :: rest ∧
    first.isDigit = true ∧ (∀ c ∈ rest, c.isDigit = true) ∧ (first = '0' → value = 0 ∧ rest = []) := by
  induction value using Nat.strongRecOn with
  | ind value inductionHypothesis =>
      by_cases small : value < 10
      · refine ⟨Nat.digitChar value, [], Nat.toDigits_of_lt_base small, digitChar_isDigit small, ?_, ?_⟩
        · exact fun _ member => absurd member List.not_mem_nil
        · exact fun zero => ⟨digitChar_eq_zero small zero, rfl⟩
      · rcases inductionHypothesis (value / 10) (by omega) with ⟨first, rest, isFront, isDigit, digits, zero⟩
        refine ⟨first, rest ++ [Nat.digitChar (value % 10)], ?_, isDigit, ?_, ?_⟩
        · rw [Nat.toDigits_of_base_le (by decide) (by omega), isFront]
          rfl
        · intro c member
          rcases List.mem_append.mp member with front | last
          · exact digits c front
          · rw [List.mem_singleton.mp last]
            exact digitChar_isDigit (Nat.mod_lt _ (by decide))
        · intro isZero
          have noFront := (zero isZero).1
          omega

theorem isWhole_toDigits (value : Nat) : isWhole (Nat.toDigits 10 value) = true := by
  rcases toDigits_shape value with ⟨first, rest, isText, isDigit, digits, zero⟩
  rw [isText]
  by_cases isZero : first = '0'
  · rw [isZero, (zero isZero).2]
    rfl
  · unfold isWhole
    split
    · rename_i same
      cases same
    · rfl
    · rename_i same
      cases same
      exact absurd rfl isZero
    · rw [List.all_cons, isDigit, Bool.true_and, List.all_eq_true]
      exact digits

theorem isIntText_writeInt (value : Int) : isIntText (writeInt value) = true := by
  cases value with
  | ofNat value =>
      have whole := isWhole_toDigits value
      change isIntText (Nat.toDigits 10 value) = true
      rcases toDigits_shape value with ⟨first, rest, isText, isDigit, _, _⟩
      rw [isText] at whole ⊢
      unfold isIntText
      split
      · rename_i same
        cases same
        exact absurd isDigit (by decide)
      · exact whole
  | negSucc value => exact isWhole_toDigits (value + 1)

theorem readInt_writeInt (value : Int) : readInt (writeInt value) = value := by
  cases value with
  | ofNat value =>
      change readInt (Nat.toDigits 10 value) = Int.ofNat value
      rcases toDigits_shape value with ⟨first, rest, isText, isDigit, _, _⟩
      have reads := @Nat.ofDigitChars_ten_toDigits value
      rw [isText] at reads ⊢
      unfold readInt
      split
      · rename_i same
        cases same
        exact absurd isDigit (by decide)
      · rw [reads]
        rfl
  | negSucc value =>
      change -((Nat.ofDigitChars 10 (Nat.toDigits 10 (value + 1)) 0 : Nat) : Int) = _
      rw [Nat.ofDigitChars_ten_toDigits]
      rfl

theorem writeInt_chars (value : Int) : ∀ c ∈ writeInt value, isNumberChar c = true := by
  have ofDigit : ∀ c : Char, c.isDigit = true → isNumberChar c = true := by
    intro c isDigit
    unfold isNumberChar
    simp only [isDigit, Bool.true_or]
  have digits : ∀ number : Nat, ∀ c ∈ Nat.toDigits 10 number, isNumberChar c = true := by
    intro number c member
    rcases toDigits_shape number with ⟨first, rest, isText, isDigit, others, _⟩
    rw [isText] at member
    rcases List.mem_cons.mp member with same | later
    · exact ofDigit c (same ▸ isDigit)
    · exact ofDigit c (others c later)
  cases value with
  | ofNat value => exact digits value
  | negSucc value =>
      intro c member
      rcases List.mem_cons.mp member with same | later
      · rw [same]
        decide
      · exact digits (value + 1) c later

theorem isWhole_digits {text : List Char} (whole : isWhole text = true) : ∀ c ∈ text, c.isDigit = true := by
  unfold isWhole at whole
  split at whole
  · cases whole
  · exact List.all_eq_true.mp rfl
  · cases whole
  · exact List.all_eq_true.mp whole

/-- A decimal is not also an integer. -/
theorem not_int_of_decimal {text : List Char} (decimal : isDecimalText text = true) :
    isIntText text = false := by
  rw [Bool.eq_false_iff]
  intro int
  have front : ∀ c ∈ text, (c.isDigit || c == '-') = true := by
    unfold isIntText at int
    split at int
    · intro c member
      rcases List.mem_cons.mp member with same | later
      · rw [same]
        decide
      · rw [isWhole_digits int c later, Bool.true_or]
    · intro c member
      rw [isWhole_digits int c member, Bool.true_or]
  have nothing : (text.dropWhile fun c => c.isDigit || c == '-') = [] := List.dropWhile_eq_nil_iff.mpr front
  unfold isDecimalText at decimal
  simp only [nothing, isExponent, Bool.and_false] at decimal
  cases decimal

end JsonNumber

namespace Json

/-! ## Strings -/

theorem hexValue_hexDigit {value : Nat} (small : value < 16) : hexValue (hexDigit value) = some value := by
  revert value
  decide

/-- The four digits of a unit. -/
def unitDigits (unit : Nat) : List Char :=
  [hexDigit (unit / 4096 % 16), hexDigit (unit / 256 % 16), hexDigit (unit / 16 % 16), hexDigit (unit % 16)]

theorem escapeUnit_eq (unit : Nat) : escapeUnit unit = '\\' :: 'u' :: unitDigits unit := rfl

theorem readUnit_digits {unit : Nat} (small : unit < 65536) (rest : List Char) :
    readUnit (unitDigits unit ++ rest) = some (unit, rest) := by
  have sum : unit / 4096 % 16 * 4096 + unit / 256 % 16 * 256 + unit / 16 % 16 * 16 +
    unit % 16 = unit := by omega
  have digits : ∀ value, hexValue (hexDigit (value % 16)) = some (value % 16) := fun value =>
    hexValue_hexDigit (Nat.mod_lt value (by decide))
  simp only [unitDigits, List.cons_append, List.nil_append, readUnit, digits, Option.bind_eq_bind,
    Option.bind_some,
    sum]
  rfl

theorem char_range (c : Char) : c.toNat < 0xD800 ∨ (0xE000 ≤ c.toNat ∧ c.toNat < 0x110000) := by
  rcases c.valid with low | ⟨above, below⟩
  · exact Or.inl low
  · exact Or.inr ⟨above, below⟩

theorem readWide_unit {c : Char} (small : c.toNat < 0x10000) (rest : List Char) :
    readWide (unitDigits c.toNat ++ rest) = some (c, rest) := by
  have range := char_range c
  unfold readWide
  rw [readUnit_digits (by omega)]
  simp only [Option.bind_eq_bind, Option.bind_some]
  rw [if_neg (by omega), if_neg (by omega), Char.ofNat_toNat]
  rfl

/-- Two units that form a pair. -/
theorem readWide_pair {high low : Nat} (isHigh : 0xD800 ≤ high ∧ high < 0xDC00)
    (isLow : 0xDC00 ≤ low ∧ low < 0xE000) (rest : List Char) :
    readWide (unitDigits high ++ escapeUnit low ++ rest) =
      some (Char.ofNat (0x10000 + (high - 0xD800) * 1024 + (low - 0xDC00)), rest) := by
  have first := readUnit_digits (show high < 65536 by omega) (escapeUnit low ++ rest)
  have second := readUnit_digits (show low < 65536 by omega) rest
  unfold readWide
  rw [List.append_assoc, first]
  simp only [Option.bind_eq_bind, Option.bind_some]
  rw [if_pos isHigh, escapeUnit_eq]
  simp only [List.cons_append, second, Option.bind_some]
  rw [if_pos isLow]
  rfl

/-- After a backslash and a `u`. -/
theorem readString_wide (fuel : Nat) {chars rest : List Char} {c : Char}
    (reads : readWide chars = some (c, rest)) :
    readString (fuel + 1) ('\\' :: 'u' :: chars) = (readString fuel rest).map fun read =>
      (c :: read.1, read.2) := by
  simp only [readString, reads, Option.bind_eq_bind, Option.bind_some]
  cases readString fuel rest <;> rfl

theorem eq_ofNat {c : Char} {code : Nat} (same : c.toNat = code) : c = Char.ofNat code := by
  rw [← same, Char.ofNat_toNat]

theorem readString_wideChar {c : Char} (notSurrogate : c.toNat < 0x110000) (fuel : Nat) (rest : List Char) :
    readString (fuel + 1) (escapeWide c.toNat ++ rest) =
      (readString fuel rest).map fun read => (c :: read.1, read.2) := by
  unfold escapeWide
  split
  · rename_i small
    exact readString_wide fuel (readWide_unit small rest)
  · rename_i large
    have reads := @readWide_pair (0xD800 + (c.toNat - 0x10000) / 1024) (0xDC00 + (c.toNat - 0x10000) % 1024)
      (by omega) (by omega) rest
    have sum : 0x10000 + (0xD800 + (c.toNat - 0x10000) / 1024 - 0xD800) * 1024 +
        (0xDC00 + (c.toNat - 0x10000) % 1024 - 0xDC00) = c.toNat := by omega
    rw [sum, Char.ofNat_toNat] at reads
    exact readString_wide fuel reads

/-- The reader takes one character as it was written. -/
theorem readString_writeChar (ensureAscii : Bool) (c : Char) (fuel : Nat) (rest : List Char) :
    readString (fuel + 1) (writeChar ensureAscii c ++ rest) =
      (readString fuel rest).map fun read => (c :: read.1, read.2) := by
  have range := char_range c
  unfold writeChar
  split
  · rename_i isChar
    cases tail : readString fuel rest <;> simp [readString, tail, isChar]
  split
  · rename_i isChar
    cases tail : readString fuel rest <;> simp [readString, tail, isChar]
  split
  · rename_i isChar
    cases tail : readString fuel rest <;> simp [readString, tail, isChar]
  split
  · rename_i isChar
    cases tail : readString fuel rest <;> simp [readString, tail, isChar]
  split
  · rename_i isChar
    cases tail : readString fuel rest <;> simp [readString, tail, isChar]
  split
  · rename_i isCode
    rw [eq_ofNat isCode]
    cases tail : readString fuel rest <;> simp [readString, tail]
  split
  · rename_i isCode
    rw [eq_ofNat isCode]
    cases tail : readString fuel rest <;> simp [readString, tail]
  split
  · exact readString_wide fuel (readWide_unit (by omega) rest)
  split
  · exact readString_wideChar (by omega) fuel rest
  · rename_i notQuote notBackslash _ _ _ _ _ printable _
    cases tail : readString fuel rest <;> simp [readString, tail, notQuote, notBackslash, printable]

theorem writeChar_ne_nil (ensureAscii : Bool) (c : Char) : writeChar ensureAscii c ≠ [] := by
  intro nothing
  have reads := readString_writeChar ensureAscii c 0 ['"']
  rw [nothing] at reads
  cases reads

theorem length_le_written (ensureAscii : Bool) (text : List Char) :
    text.length ≤ (text.flatMap (writeChar ensureAscii)).length := by
  induction text with
  | nil => exact Nat.le_refl 0
  | cons c rest inductionHypothesis =>
      have written := List.length_pos_iff.mpr (writeChar_ne_nil ensureAscii c)
      rw [List.flatMap_cons, List.length_append, List.length_cons]
      omega

/-- A string literal is read back, and what follows it is left. -/
theorem readString_written (ensureAscii : Bool) (text : List Char) {fuel : Nat} (enough : text.length < fuel)
    (rest : List Char) :
    readString fuel (text.flatMap (writeChar ensureAscii) ++ '"' :: rest) = some (text, rest) := by
  induction text generalizing fuel with
  | nil =>
      rcases Nat.exists_eq_succ_of_ne_zero (Nat.ne_of_gt enough) with ⟨smaller, rfl⟩
      exact if_pos rfl
  | cons c others inductionHypothesis =>
      rcases Nat.exists_eq_succ_of_ne_zero (Nat.ne_of_gt (Nat.zero_lt_of_lt enough)) with ⟨smaller, rfl⟩
      rw [List.flatMap_cons, List.append_assoc, readString_writeChar,
        inductionHypothesis (Nat.lt_of_succ_lt_succ enough)]
      rfl

/-! ## Atoms -/

/-- What follows a value: nothing that a number could go on with. -/
def Ends (rest : List Char) : Prop := ∀ c ∈ rest.head?, JsonNumber.isNumberChar c = false

theorem takeWhile_number {text rest : List Char} (chars : ∀ c ∈ text, JsonNumber.isNumberChar c = true)
    (ends : Ends rest) : (text ++ rest).takeWhile JsonNumber.isNumberChar = text := by
  rw [List.takeWhile_append_of_pos chars]
  cases rest with
  | nil => rw [List.takeWhile_nil, List.append_nil]
  | cons c others => rw [List.takeWhile_cons, ends c rfl, if_neg Bool.false_ne_true, List.append_nil]

theorem not_prefix {word text : List Char} (differ : word.takeWhile JsonNumber.isNumberChar ≠ word)
    (literal : text.takeWhile JsonNumber.isNumberChar ≠ word.takeWhile JsonNumber.isNumberChar) :
    word.isPrefixOf text = false := by
  rw [Bool.eq_false_iff]
  intro isPrefix
  rcases List.isPrefixOf_iff_prefix.mp isPrefix with ⟨tail, rfl⟩
  apply literal
  rw [List.takeWhile_append, if_neg]
  intro whole
  exact differ ((List.takeWhile_prefix _).eq_of_length whole)

/-- A number is read up to the first character that cannot belong to it. -/
theorem readAtom_number {text rest : List Char} (chars : ∀ c ∈ text, JsonNumber.isNumberChar c = true)
    (nonempty : text ≠ []) (digits : text ≠ ['-']) (ends : Ends rest) :
    readAtom (text ++ rest) =
      if JsonNumber.isIntText text then
        if JsonNumber.convertible text then some (int (JsonNumber.readInt text), rest) else none
      else if valid : JsonNumber.isFloatText text = true then some (float ⟨text, valid⟩, rest)
      else none := by
  have literal := takeWhile_number chars ends
  have noWord : ∀ word : List Char, word.takeWhile JsonNumber.isNumberChar = [] → word ≠ [] →
      word.isPrefixOf (text ++ rest) = false := by
    intro word front some
    apply not_prefix
    · rw [front]
      exact some.symm
    · rw [front, literal]
      exact nonempty
  have noInfinity : "-Infinity".toList.isPrefixOf (text ++ rest) = false := by
    apply not_prefix
    · decide
    · rw [literal]
      exact digits
  unfold readAtom
  rw [noWord "null".toList rfl (by decide), noWord "true".toList rfl (by decide),
    noWord "false".toList rfl (by decide), noWord "NaN".toList rfl (by decide),
    noWord "Infinity".toList rfl (by decide), noInfinity, literal]
  simp only [Bool.false_eq_true, if_false, List.drop_left]

theorem readAtom_int {value : Int} (short : JsonNumber.convertible (JsonNumber.writeInt value) = true)
    {rest : List Char} (ends : Ends rest) :
    readAtom (JsonNumber.writeInt value ++ rest) = some (int value, rest) := by
  have isInt := JsonNumber.isIntText_writeInt value
  have nonempty : JsonNumber.writeInt value ≠ [] := fun nothing => by
    rw [nothing] at isInt
    cases isInt
  have digits : JsonNumber.writeInt value ≠ ['-'] := fun nothing => by
    rw [nothing] at isInt
    cases isInt
  rw [readAtom_number (JsonNumber.writeInt_chars value) nonempty digits ends, if_pos isInt,
    if_pos short, JsonNumber.readInt_writeInt]

theorem readAtom_float (value : FloatText) {rest : List Char} (ends : Ends rest) :
    readAtom (value.val ++ rest) = some (float value, rest) := by
  rcases value with ⟨text, valid⟩
  change readAtom (text ++ rest) = some (float ⟨text, valid⟩, rest)
  have parts := valid
  unfold JsonNumber.isFloatText at parts
  rw [Bool.or_eq_true, Bool.and_eq_true] at parts
  rcases parts with special | ⟨chars, decimal⟩
  · have isOne : text = "NaN".toList ∨ text = "Infinity".toList ∨ text = "-Infinity".toList := by
      have member := List.contains_iff_mem.mp special
      simpa [JsonNumber.nonFinite] using member
    rcases isOne with rfl | rfl | rfl <;> rfl
  · have notInt := JsonNumber.not_int_of_decimal decimal
    have nonempty : text ≠ [] := by
      rintro rfl
      cases decimal
    have digits : text ≠ ['-'] := by
      rintro rfl
      cases decimal
    rw [readAtom_number (List.all_eq_true.mp chars) nonempty digits ends, notInt, if_neg Bool.false_ne_true,
      dif_pos valid]

theorem readAtom_null (rest : List Char) : readAtom ("null".toList ++ rest) = some (null, rest) := rfl

theorem readAtom_true (rest : List Char) : readAtom ("true".toList ++ rest) = some (bool true, rest) := rfl

theorem readAtom_false (rest : List Char) : readAtom ("false".toList ++ rest) = some (bool false, rest) := rfl

/-! ## Values -/

mutual

/-- No object has a key twice. -/
def Distinct : Json → Prop
  | arr items => DistinctItems items
  | obj fields => (fields.map Prod.fst).Nodup ∧ DistinctFields fields
  | _ => True

def DistinctItems : List Json → Prop
  | [] => True
  | item :: rest => Distinct item ∧ DistinctItems rest

def DistinctFields : List (String × Json) → Prop
  | [] => True
  | (_, value) :: rest => Distinct value ∧ DistinctFields rest

end

/-- The characters a keyword or a number does not begin with. -/
def brackets : List Char := ['"', '[', '{', ']', '}', ' ', '\n', '\r', '\t']

theorem number_not_bracket {c : Char} (number : JsonNumber.isNumberChar c = true) : c ∉ brackets := by
  have none : (brackets.all fun other => !JsonNumber.isNumberChar other) = true := by decide
  intro member
  have other := List.all_eq_true.mp none c member
  rw [number] at other
  cases other

theorem writeInt_head (value : Int) : ∃ c tail, JsonNumber.writeInt value = c :: tail ∧ c ∉ brackets := by
  have isInt := JsonNumber.isIntText_writeInt value
  cases text : JsonNumber.writeInt value with
  | nil =>
      rw [text] at isInt
      cases isInt
  | cons c tail =>
      refine ⟨c, tail, rfl, number_not_bracket (JsonNumber.writeInt_chars value c ?_)⟩
      rw [text]
      exact List.mem_cons_self

theorem float_head (value : FloatText) : ∃ c tail, value.val = c :: tail ∧ c ∉ brackets := by
  rcases value with ⟨text, valid⟩
  unfold JsonNumber.isFloatText at valid
  rw [Bool.or_eq_true, Bool.and_eq_true] at valid
  rcases valid with special | ⟨chars, decimal⟩
  · have isOne : text = "NaN".toList ∨ text = "Infinity".toList ∨ text = "-Infinity".toList := by
      have member := List.contains_iff_mem.mp special
      simpa [JsonNumber.nonFinite] using member
    rcases isOne with rfl | rfl | rfl
    · exact ⟨'N', _, rfl, by decide⟩
    · exact ⟨'I', _, rfl, by decide⟩
    · exact ⟨'-', _, rfl, by decide⟩
  · cases text with
    | nil => cases decimal
    | cons c tail => exact ⟨c, tail, rfl, number_not_bracket (List.all_eq_true.mp chars c List.mem_cons_self)⟩

/-- A value begins with a character that is neither a blank nor closes a list. -/
theorem write_head (ensureAscii : Bool) (value : Json) :
    ∃ c tail, write ensureAscii value = c :: tail ∧ isSpace c = false ∧ c ≠ ']' := by
  have plain : ∀ c, c ∉ brackets → isSpace c = false ∧ c ≠ ']' := by
    intro c outside
    constructor
    · rw [Bool.eq_false_iff]
      intro space
      unfold isSpace at space
      simp only [Bool.or_eq_true, beq_iff_eq] at space
      exact outside (by rcases space with ((rfl | rfl) | rfl) | rfl <;> decide)
    · rintro rfl
      exact outside (by decide)
  cases value with
  | null => exact ⟨'n', _, rfl, by decide⟩
  | bool value =>
      cases value
      · exact ⟨'f', _, rfl, by decide⟩
      · exact ⟨'t', _, rfl, by decide⟩
  | int value =>
      rcases writeInt_head value with ⟨c, tail, isText, outside⟩
      exact ⟨c, tail, isText, plain c outside⟩
  | float value =>
      rcases float_head value with ⟨c, tail, isText, outside⟩
      exact ⟨c, tail, isText, plain c outside⟩
  | str value => exact ⟨'"', _, rfl, by decide⟩
  | arr items => exact ⟨'[', _, rfl, by decide⟩
  | obj fields => exact ⟨'{', _, rfl, by decide⟩

theorem readValue_atom {chars : List Char} {c : Char} {tail : List Char} (isText : chars = c :: tail)
    (outside : c ∉ brackets) (fuel : Nat) (rest : List Char) :
    readValue (fuel + 1) (chars ++ rest) = readAtom (chars ++ rest) := by
  subst isText
  rw [List.cons_append]
  unfold readValue
  split
  · rename_i same
    cases same
    exact absurd (by decide) outside
  · rename_i same
    cases same
    exact absurd (by decide) outside
  · rename_i same
    cases same
    exact absurd (by decide) outside
  · rfl

theorem skipSpace_cons {c : Char} (noSpace : isSpace c = false) (rest : List Char) :
    skipSpace (c :: rest) = c :: rest := by
  unfold skipSpace
  rw [List.dropWhile_cons, noSpace, if_neg Bool.false_ne_true]

theorem readValue_string (ensureAscii : Bool) (value : String) (fuel : Nat) (rest : List Char) :
    readValue (fuel + 1) (writeString ensureAscii value ++ rest) = some (str value, rest) := by
  have body := readString_written ensureAscii value.toList
    (Nat.lt_succ_of_le (Nat.le_trans (length_le_written ensureAscii value.toList)
      (Nat.le_add_right _ ('"' :: rest).length)))
    rest
  rw [← List.length_append] at body
  unfold writeString readValue
  rw [List.cons_append, List.append_assoc, List.singleton_append]
  simp only [body, Option.bind_eq_bind, Option.bind_some, String.ofList_toList]
  rfl

theorem ends_of {c : Char} (isEnd : c ∈ [',', ']', '}']) (rest : List Char) : Ends (c :: rest) := by
  rintro _ ⟨⟩
  simp only [List.mem_cons, List.not_mem_nil, or_false] at isEnd
  rcases isEnd with rfl | rfl | rfl <;> rfl

theorem writeItems_cons (ensureAscii : Bool) (item other : Json) (others : List Json) :
    writeItems ensureAscii (item :: other :: others) =
      write ensureAscii item ++ ',' :: ' ' :: writeItems ensureAscii (other :: others) := by
  rw [writeItems, List.append_assoc]
  · rfl
  · exact List.cons_ne_nil _ _

theorem writeFields_cons (ensureAscii : Bool) (key : String) (value : Json) (other : String × Json)
    (others : List (String × Json)) :
    writeFields ensureAscii ((key, value) :: other :: others) =
      writeString ensureAscii key ++ [':', ' '] ++ write ensureAscii value ++
        ',' :: ' ' :: writeFields ensureAscii (other :: others) := by
  rw [writeFields]
  · simp only [List.append_assoc, List.cons_append, List.nil_append]
  · exact List.cons_ne_nil _ _

/-- What a list of values begins with. -/
theorem writeItems_head (ensureAscii : Bool) (item : Json) (others : List Json) :
    ∃ c tail, writeItems ensureAscii (item :: others) = c :: tail ∧ isSpace c = false ∧ c ≠ ']' := by
  rcases write_head ensureAscii item with ⟨c, tail, isText, noSpace, noBracket⟩
  cases others with
  | nil => exact ⟨c, tail, isText, noSpace, noBracket⟩
  | cons other rest =>
      refine ⟨c, tail ++ ',' :: ' ' :: writeItems ensureAscii (other :: rest), ?_, noSpace, noBracket⟩
      rw [writeItems_cons, isText, List.cons_append]

theorem readValue_items (ensureAscii : Bool) {items : List Json} (nonempty : items ≠ []) {fuel : Nat}
    {rest : List Char} (reads : readItems fuel (writeItems ensureAscii items ++ ']' :: rest) =
      some (items, rest)) :
    readValue (fuel + 1) (write ensureAscii (arr items) ++ rest) = some (arr items, rest) := by
  rcases List.exists_cons_of_ne_nil nonempty with ⟨item, others, rfl⟩
  rcases writeItems_head ensureAscii item others with ⟨c, tail, isText, noSpace, noBracket⟩
  rw [isText, List.cons_append] at reads
  rw [write, isText]
  simp only [List.cons_append, List.append_assoc, List.nil_append, readValue, skipSpace_cons noSpace]
  split
  · rename_i same
    cases same
    exact absurd rfl noBracket
  · simp only [reads, Option.bind_eq_bind, Option.bind_some]
    rfl

/-- What the fields of an object begin with. -/
theorem writeFields_head (ensureAscii : Bool) (field : String × Json) (others : List (String × Json)) :
    ∃ tail, writeFields ensureAscii (field :: others) = '"' :: tail := by
  cases others with
  | nil => exact ⟨_, rfl⟩
  | cons other rest => exact ⟨_, rfl⟩

theorem readValue_fields (ensureAscii : Bool) {fields : List (String × Json)} (nonempty : fields ≠ [])
    {fuel : Nat}
    {rest : List Char}
    (reads : readFields fuel [] (writeFields ensureAscii fields ++ '}' :: rest) = some (fields, rest)) :
    readValue (fuel + 1) (write ensureAscii (obj fields) ++ rest) = some (obj fields, rest) := by
  rcases List.exists_cons_of_ne_nil nonempty with ⟨field, others, rfl⟩
  rcases writeFields_head ensureAscii field others with ⟨tail, isText⟩
  rw [isText, List.cons_append] at reads
  rw [write, isText]
  simp only [List.cons_append, List.append_assoc, List.nil_append, readValue,
    skipSpace_cons (show isSpace '"' = false from rfl), Option.bind_eq_bind]
  change ((readFields fuel [] ('"' :: (tail ++ '}' :: rest))).bind fun read => some (obj read.1, read.2)) = _
  rw [reads]
  rfl

theorem skipSpace_write (ensureAscii : Bool) (value : Json) (rest : List Char) :
    skipSpace (' ' :: (write ensureAscii value ++ rest)) = write ensureAscii value ++ rest := by
  rcases write_head ensureAscii value with ⟨c, tail, isText, noSpace, _⟩
  change skipSpace (write ensureAscii value ++ rest) = _
  rw [isText, List.cons_append, skipSpace_cons noSpace]

theorem skipSpace_writeItems (ensureAscii : Bool) (item : Json) (others : List Json) (rest : List Char) :
    skipSpace (' ' :: (writeItems ensureAscii (item :: others) ++ rest)) =
      writeItems ensureAscii (item :: others) ++ rest := by
  rcases writeItems_head ensureAscii item others with ⟨c, tail, isText, noSpace, _⟩
  change skipSpace (writeItems ensureAscii (item :: others) ++ rest) = _
  rw [isText, List.cons_append, skipSpace_cons noSpace]

theorem skipSpace_writeFields (ensureAscii : Bool) (field : String × Json) (others : List (String × Json))
    (rest : List Char) :
    skipSpace (' ' :: (writeFields ensureAscii (field :: others) ++ rest)) =
      writeFields ensureAscii (field :: others) ++ rest := by
  rcases writeFields_head ensureAscii field others with ⟨tail, isText⟩
  change skipSpace (writeFields ensureAscii (field :: others) ++ rest) = _
  rw [isText]
  rfl

/-- One field, up to what follows its value. -/
theorem readFields_field (ensureAscii : Bool) (key : String) (value : Json) (earlier : List (String × Json))
    {fuel : Nat} {rest after : List Char}
    (reads : readValue fuel (write ensureAscii value ++ rest) = some (value, after)) :
    readFields (fuel + 1) earlier (writeString ensureAscii key ++ [':', ' '] ++ write ensureAscii value ++
      rest) =
      match skipSpace after with
      | '}' :: rest => some (Dict.update key value earlier, rest)
      | ',' :: rest => readFields fuel (Dict.update key value earlier) (skipSpace rest)
      | _ => none := by
  have body := readString_written ensureAscii key.toList
    (Nat.lt_succ_of_le (Nat.le_trans (length_le_written ensureAscii key.toList)
      (Nat.le_add_right _ ('"' :: ':' :: ' ' :: (write ensureAscii value ++ rest)).length)))
    (':' :: ' ' :: (write ensureAscii value ++ rest))
  rw [← List.length_append] at body
  conv_lhs => unfold writeString readFields
  simp only [List.cons_append, List.append_assoc, List.nil_append, body, Option.bind_eq_bind, Option.bind_some,
    skipSpace_cons (show isSpace ':' = false from rfl), skipSpace_write, reads, String.ofList_toList]
  rfl

theorem readItems_last {fuel : Nat} {chars rest : List Char} {item : Json}
    (reads : readValue fuel chars = some (item, ']' :: rest)) :
    readItems (fuel + 1) chars = some ([item], rest) := by
  unfold readItems
  simp only [reads, Option.bind_eq_bind, Option.bind_some, skipSpace_cons (show isSpace ']' = false from rfl)]
  rfl

theorem readItems_more {fuel : Nat} {chars middle rest : List Char} {item : Json} {items : List Json}
    (reads : readValue fuel chars = some (item, ',' :: middle))
    (later : readItems fuel (skipSpace middle) = some (items, rest)) :
    readItems (fuel + 1) chars = some (item :: items, rest) := by
  unfold readItems
  simp only [reads, Option.bind_eq_bind, Option.bind_some, skipSpace_cons
    (show isSpace ',' = false from rfl), later]
  rfl

mutual

/-- A value is read back, and what follows it is left. -/
theorem readValue_write (ensureAscii : Bool) (value : Json) (distinct : value.Distinct)
    (printable : value.printable = true) {fuel : Nat}
    (enough : (write ensureAscii value).length ≤ fuel) {rest : List Char} (ends : Ends rest) :
    readValue fuel (write ensureAscii value ++ rest) = some (value, rest) := by
  have positive : 0 < (write ensureAscii value).length := by
    rcases write_head ensureAscii value with ⟨c, tail, isText, _⟩
    rw [isText]
    exact Nat.succ_pos _
  rcases Nat.exists_eq_succ_of_ne_zero (Nat.ne_of_gt (Nat.lt_of_lt_of_le positive enough)) with ⟨smaller, rfl⟩
  cases value with
  | null => exact (readValue_atom rfl (by decide) smaller rest).trans (readAtom_null rest)
  | bool value =>
      cases value
      · exact (readValue_atom rfl (by decide) smaller rest).trans (readAtom_false rest)
      · exact (readValue_atom rfl (by decide) smaller rest).trans (readAtom_true rest)
  | int value =>
      rcases writeInt_head value with ⟨c, tail, isText, outside⟩
      exact (readValue_atom isText outside smaller rest).trans (readAtom_int printable ends)
  | float value =>
      rcases float_head value with ⟨c, tail, isText, outside⟩
      exact (readValue_atom isText outside smaller rest).trans (readAtom_float value ends)
  | str value => exact readValue_string ensureAscii value smaller rest
  | arr items =>
      by_cases nonempty : items = []
      · rw [nonempty]
        rfl
      · apply readValue_items ensureAscii nonempty
        apply readItems_write ensureAscii items distinct printable nonempty
        rw [write, List.length_cons, List.length_append, List.length_singleton] at enough
        exact Nat.le_of_succ_le_succ enough
  | obj fields =>
      by_cases nonempty : fields = []
      · rw [nonempty]
        rfl
      · apply readValue_fields ensureAscii nonempty
        apply readFields_write ensureAscii fields distinct.2 printable nonempty [] distinct.1
        rw [write, List.length_cons, List.length_append, List.length_singleton] at enough
        exact Nat.le_of_succ_le_succ enough

theorem readItems_write (ensureAscii : Bool) (items : List Json) (distinct : DistinctItems items)
    (printable : printableItems items = true) (nonempty : items ≠ []) {fuel : Nat}
    (enough : (writeItems ensureAscii items).length + 1 ≤ fuel)
    {rest : List Char} : readItems fuel (writeItems ensureAscii items ++ ']' :: rest) = some (items, rest) := by
  rcases Nat.exists_eq_succ_of_ne_zero (Nat.ne_of_gt (Nat.lt_of_lt_of_le (Nat.succ_pos _) enough)) with
    ⟨smaller, rfl⟩
  match items with
  | [] => exact absurd rfl nonempty
  | [item] =>
      have parts := Bool.and_eq_true_iff.mp printable
      exact readItems_last (readValue_write ensureAscii item distinct.1 parts.1 (Nat.le_of_succ_le_succ enough)
        (ends_of (by decide) rest))
  | item :: other :: others =>
      have parts := Bool.and_eq_true_iff.mp printable
      rw [writeItems_cons] at enough ⊢
      rw [List.length_append, List.length_cons, List.length_cons] at enough
      rw [List.append_assoc, List.cons_append, List.cons_append]
      refine readItems_more (readValue_write ensureAscii item distinct.1 parts.1 (by omega)
        (ends_of (by decide) _)) ?_
      rw [skipSpace_writeItems]
      exact readItems_write ensureAscii (other :: others) distinct.2 parts.2 (List.cons_ne_nil _ _) (by omega)

theorem readFields_write (ensureAscii : Bool) (fields : List (String × Json)) (distinct : DistinctFields fields)
    (printable : printableFields fields = true) (nonempty : fields ≠ []) (earlier : List (String × Json))
    (keys : ((earlier ++ fields).map Prod.fst).Nodup)
    {fuel : Nat} (enough : (writeFields ensureAscii fields).length + 1 ≤ fuel) {rest : List Char} :
    readFields fuel earlier (writeFields ensureAscii fields ++ '}' :: rest) =
      some (earlier ++ fields, rest) := by
  rcases Nat.exists_eq_succ_of_ne_zero (Nat.ne_of_gt (Nat.lt_of_lt_of_le (Nat.succ_pos _) enough)) with
    ⟨smaller, rfl⟩
  match fields with
  | [] => exact absurd rfl nonempty
  | [(key, value)] =>
      have parts := Bool.and_eq_true_iff.mp printable
      have new : key ∉ earlier.map Prod.fst := by
        rw [List.map_append] at keys
        exact fun old => (List.nodup_append.mp keys).2.2 key old key (List.mem_singleton_self key) rfl
      change (writeString ensureAscii key ++ [':', ' '] ++ write ensureAscii value).length +
        1 ≤ smaller + 1 at enough
      rw [List.length_append] at enough
      have reads := @readValue_write ensureAscii value distinct.1 parts.1 smaller (by omega) ('}' :: rest)
        (ends_of (by decide) rest)
      have field := readFields_field ensureAscii key value earlier reads
      rw [skipSpace_cons (by decide), Dict.update_new key value earlier new] at field
      exact field
  | (key, value) :: other :: others =>
      have parts := Bool.and_eq_true_iff.mp printable
      have new : key ∉ earlier.map Prod.fst := by
        rw [List.map_append] at keys
        exact fun old => (List.nodup_append.mp keys).2.2 key old key List.mem_cons_self rfl
      rw [writeFields_cons] at enough ⊢
      rw [List.length_append, List.length_append, List.length_cons, List.length_cons] at enough
      have middle : Ends (',' :: ' ' :: (writeFields ensureAscii (other :: others) ++ '}' :: rest)) :=
        ends_of (by decide) _
      have reads := @readValue_write ensureAscii value distinct.1 parts.1 smaller (by omega) _ middle
      have field := readFields_field ensureAscii key value earlier reads
      rw [List.append_assoc, List.cons_append, List.cons_append, field, skipSpace_cons (by decide)]
      change readFields smaller (Dict.update key value earlier) (skipSpace (' ' :: _)) = _
      rw [skipSpace_writeFields, Dict.update_new key value earlier new]
      have keys' : (((earlier ++ [(key, value)]) ++ other :: others).map Prod.fst).Nodup := by
        rw [List.append_assoc]
        exact keys
      have later := @readFields_write ensureAscii (other :: others) distinct.2 parts.2 (List.cons_ne_nil _ _)
        (earlier ++ [(key, value)]) keys' smaller (by omega) rest
      rw [later, List.append_assoc]
      rfl

end

/-- What was printed can be read back. -/
theorem loads_dumps (ensureAscii : Bool) {value : Json} (distinct : value.Distinct)
    (printable : value.printable = true) :
    loads (value.dumps ensureAscii) = some value := by
  rcases write_head ensureAscii value with ⟨c, tail, isText, noSpace, _⟩
  have reads := @readValue_write ensureAscii value distinct printable
    (2 * (write ensureAscii value).length + 2) (by omega) []
    (fun _ none => nomatch none)
  rw [List.append_nil] at reads
  have starts : skipSpace (write ensureAscii value) = write ensureAscii value := by
    rw [isText, skipSpace_cons noSpace]
  unfold loads dumps
  rw [String.toList_ofList, starts, reads]
  rfl

end Json

/-! ## Python values -/

namespace PyValue

mutual

/-- Every dictionary has distinct keys, all of them strings. -/
def StringKeyed : PyValue → Prop
  | list items => StringKeyedItems items
  | dict entries => (entries.map Prod.fst).Nodup ∧ StringKeyedEntries entries
  | _ => True

def StringKeyedItems : List PyValue → Prop
  | [] => True
  | item :: rest => StringKeyed item ∧ StringKeyedItems rest

def StringKeyedEntries : List (PyKey × PyValue) → Prop
  | [] => True
  | (key, value) :: rest => (∃ text, key = .str text) ∧ StringKeyed value ∧ StringKeyedEntries rest

end

theorem mem_toJsonEntries {entries : List (PyKey × PyValue)} (keyed : StringKeyedEntries entries)
    {text : String}
    (member : text ∈ (toJsonEntries entries).map Prod.fst) : PyKey.str text ∈ entries.map Prod.fst := by
  induction entries with
  | nil => cases member
  | cons entry rest inductionHypothesis =>
      rcases entry with ⟨key, value⟩
      rcases keyed with ⟨⟨name, rfl⟩, _, others⟩
      rcases List.mem_cons.mp member with same | later
      · rw [show text = name from same]
        exact List.mem_cons_self
      · exact List.mem_cons_of_mem _ (inductionHypothesis others later)

theorem toJsonEntries_nodup {entries : List (PyKey × PyValue)} (keyed : StringKeyedEntries entries)
    (distinct : (entries.map Prod.fst).Nodup) : ((toJsonEntries entries).map Prod.fst).Nodup := by
  induction entries with
  | nil => exact List.nodup_nil
  | cons entry rest inductionHypothesis =>
      rcases entry with ⟨key, value⟩
      rcases keyed with ⟨⟨name, rfl⟩, _, others⟩
      rcases List.nodup_cons.mp distinct with ⟨new, later⟩
      exact List.nodup_cons.mpr ⟨fun member => new (mem_toJsonEntries others member),
        inductionHypothesis others later⟩

mutual

theorem toJson_distinct (value : PyValue) (keyed : value.StringKeyed) : value.toJson.Distinct := by
  cases value with
  | none | bool | int | float | str => exact trivial
  | list items => exact toJsonItems_distinct items keyed
  | dict entries => exact ⟨toJsonEntries_nodup keyed.2 keyed.1, toJsonEntries_distinct entries keyed.2⟩

theorem toJsonItems_distinct (items : List PyValue) (keyed : StringKeyedItems items) :
    Json.DistinctItems (toJsonItems items) := by
  match items with
  | [] => exact trivial
  | item :: rest => exact ⟨toJson_distinct item keyed.1, toJsonItems_distinct rest keyed.2⟩

theorem toJsonEntries_distinct (entries : List (PyKey × PyValue)) (keyed : StringKeyedEntries entries) :
    Json.DistinctFields (toJsonEntries entries) := by
  match entries with
  | [] => exact trivial
  | (_, value) :: rest => exact ⟨toJson_distinct value keyed.2.1, toJsonEntries_distinct rest keyed.2.2⟩

end

mutual

theorem ofJson_toJson (value : PyValue) (keyed : value.StringKeyed) : ofJson value.toJson = value := by
  cases value with
  | none | bool | int | float | str => rfl
  | list items => exact congrArg list (ofJsonItems_toJson items keyed)
  | dict entries => exact congrArg dict (ofJsonFields_toJson entries keyed.2)

theorem ofJsonItems_toJson (items : List PyValue) (keyed : StringKeyedItems items) :
    ofJsonItems (toJsonItems items) = items := by
  match items with
  | [] => rfl
  | item :: rest =>
      change ofJson item.toJson :: ofJsonItems (toJsonItems rest) = item :: rest
      rw [ofJson_toJson item keyed.1, ofJsonItems_toJson rest keyed.2]

theorem ofJsonFields_toJson (entries : List (PyKey × PyValue)) (keyed : StringKeyedEntries entries) :
    ofJsonFields (toJsonEntries entries) = entries := by
  match entries with
  | [] => rfl
  | (key, value) :: rest =>
      rcases keyed with ⟨⟨name, rfl⟩, isKeyed, others⟩
      change (PyKey.str name, ofJson value.toJson) :: ofJsonFields (toJsonEntries rest) =
        (PyKey.str name, value) :: rest
      rw [ofJson_toJson value isKeyed, ofJsonFields_toJson rest others]

end

mutual

theorem toJson_printable (value : PyValue) (printable : value.printable = true) : value.toJson.printable =
    true := by
  cases value with
  | none | bool | float | str => rfl
  | int value => exact printable
  | list items => exact toJsonItems_printable items printable
  | dict entries => exact toJsonEntries_printable entries printable

theorem toJsonItems_printable (items : List PyValue) (printable : printableItems items = true) :
    Json.printableItems (toJsonItems items) = true := by
  match items with
  | [] => rfl
  | item :: rest =>
      have parts := Bool.and_eq_true_iff.mp printable
      exact Bool.and_eq_true_iff.mpr ⟨toJson_printable item parts.1, toJsonItems_printable rest parts.2⟩

theorem toJsonEntries_printable (entries : List (PyKey × PyValue))
    (printable : printableEntries entries = true) :
    Json.printableFields (toJsonEntries entries) = true := by
  match entries with
  | [] => rfl
  | (key, value) :: rest =>
      have parts := Bool.and_eq_true_iff.mp printable
      exact Bool.and_eq_true_iff.mpr
        ⟨toJson_printable value (Bool.and_eq_true_iff.mp parts.1).2, toJsonEntries_printable rest parts.2⟩

end

/-- A value with string keys survives its text. -/
theorem loads_dumps (ensureAscii : Bool) {value : PyValue} (keyed : value.StringKeyed)
    (printable : value.printable = true) : loads (value.dumps ensureAscii) = some value := by
  unfold loads dumps
  rw [Json.loads_dumps ensureAscii (toJson_distinct value keyed) (toJson_printable value printable),
    Option.map_some,
    ofJson_toJson value keyed]

end PyValue
end VectorSearch
