import Mathlib.Data.List.Basic
import Mathlib.Tactic.Ring
import Mathlib.Tactic.NormNum

namespace VectorSearch

/-!
# Little-endian fixed-width numbers

Binary file formats store numbers as a fixed count of bytes, least significant
first.  This module gives the unsigned and the two's-complement form of one
number, and of a run of numbers of one width, with the round trips that
decoders of such formats rest on.  Nothing here knows about a particular
format.
-/

/-- A string of bytes, as read from or written to a file. -/
abbrev Bytes := List UInt8

namespace LittleEndian

/-- The `width` lowest base-256 digits of a number, least significant first. -/
def encode : Nat → Nat → Bytes
  | 0, _ => []
  | width + 1, value => UInt8.ofNat value :: encode width (value / 256)

/-- The number whose base-256 digits are the given bytes. -/
def decode : Bytes → Nat
  | [] => 0
  | byte :: rest => byte.toNat + 256 * decode rest

@[simp] theorem encode_length (width value : Nat) : (encode width value).length = width := by
  induction width generalizing value with
  | zero => rfl
  | succ width inductionHypothesis => simp [encode, inductionHypothesis]

theorem decode_encode (width value : Nat) (fits : value < 256 ^ width) :
    decode (encode width value) = value := by
  induction width generalizing value with
  | zero =>
      rw [pow_zero] at fits
      simp only [encode, decode]
      omega
  | succ width inductionHypothesis =>
      have quotient : value / 256 < 256 ^ width := by
        rw [pow_succ] at fits
        exact Nat.div_lt_of_lt_mul (by omega)
      have digit : (UInt8.ofNat value).toNat = value % 256 := UInt8.toNat_ofNat'
      simp only [encode, decode, inductionHypothesis _ quotient, digit]
      omega

/-! ## Two's complement -/

/-- A signed number in `width` bytes, two's complement. -/
def encodeInt (width : Nat) (value : Int) : Bytes :=
  encode width (value % (256 ^ width : Nat)).toNat

/-- The signed number in a two's-complement byte string. -/
def decodeInt (bytes : Bytes) : Int :=
  if 2 * decode bytes < 256 ^ bytes.length then decode bytes
  else decode bytes - (256 ^ bytes.length : Nat)

@[simp] theorem encodeInt_length (width : Nat) (value : Int) :
    (encodeInt width value).length = width :=
  encode_length width _

theorem decodeInt_encodeInt (width : Nat) (value : Int)
    (lower : -(256 ^ width : Nat) ≤ 2 * value) (upper : 2 * value < (256 ^ width : Nat)) :
    decodeInt (encodeInt width value) = value := by
  have positive : 0 < 256 ^ width := Nat.pow_pos (by decide)
  generalize modulus : 256 ^ width = size at *
  have below : value % (size : Int) < size := Int.emod_lt_of_pos value (by omega)
  have small : (value % (size : Nat)).toNat < size := by omega
  have digits : decode (encodeInt width value) = (value % (size : Nat)).toNat := by
    unfold encodeInt
    rw [modulus]
    exact decode_encode width _ (by omega)
  unfold decodeInt
  rw [digits, encodeInt_length, modulus]
  by_cases sign : 0 ≤ value
  · have same : value % (size : Nat) = value := Int.emod_eq_of_lt sign (by omega)
    rw [same, if_pos (by omega)]
    omega
  · have wrapped : value % (size : Nat) = value + size := by
      rw [← Int.add_emod_right]
      exact Int.emod_eq_of_lt (by omega) (by omega)
    rw [wrapped, if_neg (by omega)]
    omega

/-! ## Runs of items of one width -/

section Runs

variable {α β : Type}

/-- Read `count` items of `width` elements each from the front of a list. -/
def readMany (width : Nat) (item : List β → α) : Nat → List β → List α
  | 0, _ => []
  | count + 1, elements =>
      item (elements.take width) :: readMany width item count (elements.drop width)

theorem readMany_flatMap (width : Nat) (item : List β → α) (write : α → List β) (values : List α)
    (rest : List β) (widths : ∀ value ∈ values, (write value).length = width)
    (inverse : ∀ value ∈ values, item (write value) = value) :
    readMany width item values.length (values.flatMap write ++ rest) = values := by
  induction values with
  | nil => rfl
  | cons value values inductionHypothesis =>
      have head : (write value).length = width := widths value List.mem_cons_self
      have front : (write value ++ (values.flatMap write ++ rest)).take width = write value := by
        rw [← head, List.take_left]
      have back : (write value ++ (values.flatMap write ++ rest)).drop width =
          values.flatMap write ++ rest := by
        rw [← head, List.drop_left]
      simp only [List.length_cons, readMany, List.flatMap_cons, List.append_assoc, front, back,
        inverse value List.mem_cons_self]
      rw [inductionHypothesis (fun other later => widths other (List.mem_cons_of_mem _ later))
        (fun other later => inverse other (List.mem_cons_of_mem _ later))]

theorem flatMap_length (width : Nat) (write : α → List β) (values : List α)
    (widths : ∀ value ∈ values, (write value).length = width) :
    (values.flatMap write).length = width * values.length := by
  induction values with
  | nil => rfl
  | cons value values inductionHypothesis =>
      rw [List.flatMap_cons, List.length_append, widths value List.mem_cons_self,
        inductionHypothesis (fun other later => widths other (List.mem_cons_of_mem _ later)),
        List.length_cons]
      ring

@[simp] theorem readMany_length (width : Nat) (item : List β → α) (count : Nat)
    (elements : List β) : (readMany width item count elements).length = count := by
  induction count generalizing elements with
  | zero => rfl
  | succ count inductionHypothesis => simp [readMany, inductionHypothesis]

/-- As many elements as the items need make every item a full one. -/
theorem readMany_widths (width count : Nat) (elements : List β) (enough : count * width ≤ elements.length) :
    ∀ part ∈ readMany width id count elements, part.length = width := by
  induction count generalizing elements with
  | zero => intro part member; cases member
  | succ count inductionHypothesis =>
      rw [Nat.succ_mul] at enough
      intro part member
      rcases List.mem_cons.mp member with first | later
      · rw [first, id_eq, List.length_take]
        omega
      · exact inductionHypothesis _ (by rw [List.length_drop]; omega) part later

end Runs

end LittleEndian
end VectorSearch
