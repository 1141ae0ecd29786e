import VectorSearch.Lib.LittleEndian

namespace VectorSearch

/-!
# The wire format of protocol buffers

A message is the bytes of its fields, each behind a tag with its number and its
wire type.  Numbers are varints, which take a byte for every seven bits; texts
and packed fields are preceded by their length.  Fields with their default value
are left out.
-/

namespace Protobuf

/-! ## Varints -/

/-- Seven bits at a time, the lowest first; all bytes but the last have their
high bit set. -/
def varint (value : Nat) : Bytes :=
  if value < 128 then [UInt8.ofNat value]
  else UInt8.ofNat (value % 128 + 128) :: varint (value / 128)
termination_by value
decreasing_by omega

theorem varint_small {value : Nat} (small : value < 128) : (varint value).length = 1 := by
  unfold varint
  rw [if_pos small]
  rfl

theorem varint_large {value : Nat} (large : 128 ≤ value) :
    (varint value).length = (varint (value / 128)).length + 1 := by
  rw [varint, if_neg (Nat.not_lt.mpr large)]
  rfl

/-- A varint has a byte more than seven bits as often as they are needed. -/
theorem varint_length_le {value bytes : Nat} (positive : 0 < bytes) (small : value < 128 ^ bytes) :
    (varint value).length ≤ bytes := by
  induction bytes generalizing value with
  | zero => cases positive
  | succ bytes inductionHypothesis =>
      rcases Nat.lt_or_ge value 128 with isSmall | isLarge
      · rw [varint_small isSmall]
        exact Nat.le_add_left 1 bytes
      · rw [varint_large isLarge]
        have some : 0 < bytes := by
          refine Nat.pos_of_ne_zero ?_
          rintro rfl
          rw [Nat.zero_add, pow_one] at small
          omega
        have smaller : value / 128 < 128 ^ bytes := by
          rw [Nat.div_lt_iff_lt_mul (by decide), ← pow_succ]
          exact small
        exact Nat.succ_le_succ (inductionHypothesis some smaller)

theorem lt_varint_length {value bytes : Nat} (large : 128 ^ bytes ≤ value) : bytes < (varint value).length := by
  induction bytes generalizing value with
  | zero =>
      rcases Nat.lt_or_ge value 128 with isSmall | isLarge
      · rw [varint_small isSmall]
        decide
      · rw [varint_large isLarge]
        exact Nat.succ_pos _
  | succ bytes inductionHypothesis =>
      have isLarge : 128 ≤ value := Nat.le_trans (Nat.le_self_pow (Nat.succ_ne_zero bytes) 128) large
      rw [varint_large isLarge]
      refine Nat.succ_lt_succ (inductionHypothesis ?_)
      rw [Nat.le_div_iff_mul_le (by decide), ← pow_succ]
      exact large

/-! ## Fields -/

/-- The number of a field with its wire type. -/
def tag (field wireType : Nat) : Bytes := varint (8 * field + wireType)

/-- Bytes behind their length. -/
def delimited (field : Nat) (content : Bytes) : Bytes := tag field 2 ++ varint content.length ++ content

/-- A single text, left out when it is empty. -/
def text (field : Nat) (content : Bytes) : Bytes := if content.isEmpty then [] else delimited field content

/-- A number, left out when it is 0. -/
def number (field value : Nat) : Bytes := if value = 0 then [] else tag field 0 ++ varint value

/-- The elements of a repeated field of numbers, left out when there are none. -/
def packed {α : Type} (field : Nat) (encode : α → Bytes) (values : List α) : Bytes :=
  if values.isEmpty then [] else delimited field (values.flatMap encode)

/-- A signed number as a varint: two's complement in 64 bits. -/
def int64 (value : Int) : Bytes := varint (value % 2 ^ 64).toNat

/-- A number of 32 bits, in four bytes. -/
def fixed32 (value : UInt32) : Bytes := LittleEndian.encode 4 value.toNat

theorem tag_length {field : Nat} (few : field < 16) (wireType : Nat) (isType : wireType < 8) :
    (tag field wireType).length = 1 := varint_small (by omega)

theorem delimited_length {field : Nat} (few : field < 16) (content : Bytes) :
    (delimited field content).length = 1 + (varint content.length).length + content.length := by
  unfold delimited
  rw [List.length_append, List.length_append, tag_length few 2 (by decide)]

theorem number_length_le {field bytes value : Nat} (few : field < 16) (positive : 0 < bytes)
    (small : value < 128 ^ bytes) :
    (number field value).length ≤ 1 + bytes := by
  unfold number
  split
  · exact Nat.zero_le _
  · rw [List.length_append, tag_length few 0 (by decide)]
    exact Nat.add_le_add_left (varint_length_le positive small) 1

theorem lt_number_length {field bytes value : Nat} (few : field < 16) (large : 128 ^ bytes ≤ value) :
    1 + bytes < (number field value).length := by
  unfold number
  rw [if_neg (Nat.ne_of_gt (Nat.lt_of_lt_of_le (Nat.pow_pos (by decide)) large)), List.length_append,
    tag_length few 0 (by decide)]
  exact Nat.add_lt_add_left (lt_varint_length large) 1

theorem fixed32_length (value : UInt32) : (fixed32 value).length = 4 := LittleEndian.encode_length 4 value.toNat

/-- As many bytes as all the elements take at most. -/
theorem flatMap_length_le {α : Type} {encode : α → Bytes} {values : List α} {most : Nat}
    (each : ∀ value ∈ values, (encode value).length ≤ most) : (values.flatMap encode).length ≤
    values.length * most := by
  induction values with
  | nil => exact Nat.zero_le _
  | cons value values inductionHypothesis =>
      rw [List.flatMap_cons, List.length_append, List.length_cons, Nat.succ_mul, Nat.add_comm]
      exact Nat.add_le_add (inductionHypothesis fun other member => each other (List.mem_cons_of_mem _ member))
        (each value List.mem_cons_self)

theorem le_flatMap_length {α : Type} {encode : α → Bytes} {values : List α} {least : Nat}
    (each : ∀ value ∈ values, least ≤ (encode value).length) : values.length * least ≤
    (values.flatMap encode).length := by
  induction values with
  | nil => exact Nat.le_of_eq (Nat.zero_mul least)
  | cons value values inductionHypothesis =>
      rw [List.flatMap_cons, List.length_append, List.length_cons, Nat.succ_mul, Nat.add_comm]
      exact Nat.add_le_add (each value List.mem_cons_self)
        (inductionHypothesis fun other member => each other (List.mem_cons_of_mem _ member))

theorem packed_length_le {α : Type} {field most bytes : Nat} {encode : α → Bytes} {values : List α}
    (few : field < 16) (each : ∀ value ∈ values, (encode value).length ≤ most) (positive : 0 < bytes)
    (small : values.length * most < 128 ^ bytes) :
    (packed field encode values).length ≤ 1 + bytes + values.length * most := by
  have content := flatMap_length_le each
  unfold packed
  split
  · exact Nat.zero_le _
  · rw [delimited_length few]
    exact Nat.add_le_add (Nat.add_le_add_left
      (varint_length_le positive (Nat.lt_of_le_of_lt content small)) 1) content

theorem lt_packed_length {α : Type} {field least bytes : Nat} {encode : α → Bytes}
    {values : List α} (few : field < 16)
    (each : ∀ value ∈ values, least ≤ (encode value).length) (large : 128 ^ bytes ≤ values.length * least) :
    1 + bytes + values.length * least < (packed field encode values).length := by
  have content := le_flatMap_length each
  have some : values.isEmpty = false := by
    cases values with
    | nil =>
        rw [List.length_nil, Nat.zero_mul] at large
        exact absurd large (Nat.not_le.mpr (Nat.pow_pos (by decide)))
    | cons value values => rfl
  have length := lt_varint_length (Nat.le_trans large content)
  unfold packed
  rw [some, if_neg Bool.false_ne_true, delimited_length few]
  omega

/-- A number that is not negative is its own two's complement. -/
theorem int64_natural {value : Int} (natural : 0 ≤ value) (fits : value < 2 ^ 64) : int64 value =
    varint value.toNat := by
  unfold int64
  rw [Int.emod_eq_of_lt natural fits]

theorem int64_length_le {value : Int} {bytes : Nat} (positive : 0 < bytes) (fits : value < 2 ^ 64)
    (natural : 0 ≤ value) (small : value < 128 ^ bytes) : (int64 value).length ≤ bytes := by
  rw [int64_natural natural fits]
  refine varint_length_le positive ?_
  rw [Int.toNat_lt natural]
  exact_mod_cast small

theorem lt_int64_length {value : Int} {bytes : Nat} (large : 128 ^ bytes ≤ value) (fits : value < 2 ^ 64) :
    bytes < (int64 value).length := by
  have natural : 0 ≤ value := le_trans (pow_nonneg (by decide) bytes) large
  rw [int64_natural natural fits]
  refine lt_varint_length ?_
  rw [Int.le_toNat natural]
  exact_mod_cast large

end Protobuf
end VectorSearch
