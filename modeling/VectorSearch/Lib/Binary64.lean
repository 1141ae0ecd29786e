import Mathlib.Algebra.Order.Floor.Ring
import Mathlib.Data.Rat.Floor
import VectorSearch.Lib.Json

namespace VectorSearch

/-!
# Double precision

The floats of Python as JSON texts write them: a decimal is rounded to the
nearest number of 53 binary digits, ties to the even one, and the largest and
the smallest decimals become an infinity and zero.  A comparison with NaN is
false, and an integer is compared exactly.
-/

/-- A float: not a number, an infinity, or a number. -/
inductive Binary64 where
  | nan
  | negInf
  | posInf
  | number (value : ℚ)
  deriving DecidableEq

namespace Binary64

/-! ## Rounding -/

/-- The nearest integer, of two equally near ones the even one. -/
def nearest (value : ℚ) : ℤ :=
  let below := ⌊value⌋
  let rest := value - below
  if rest < 1 / 2 then below
  else if 1 / 2 < rest then below + 1
  else if below % 2 = 0 then below
  else below + 1

/-- The binary exponent of a positive ratio: the largest `e` with `2 ^ e ≤ num / den`. -/
def exponent (num den : Nat) : ℤ :=
  let guess : ℤ := (num.log2 : ℤ) - den.log2
  if (2 : ℚ) ^ guess ≤ (num : ℚ) / den then guess else guess - 1

/-- The distance of two neighbouring floats around a number that is not zero. -/
def spacing (value : ℚ) : ℚ := 2 ^ max (exponent value.num.natAbs value.den - 52) (-1074)

/-- The float a number is rounded to. -/
def round (value : ℚ) : Binary64 :=
  if value = 0 then number 0
  else
    let rounded := nearest (value / spacing value) * spacing value
    if 2 ^ 1024 ≤ rounded then posInf
    else if rounded ≤ -2 ^ 1024 then negInf
    else number rounded

/-! ## Comparisons -/

/-- `left < right`. -/
def less : Binary64 → Binary64 → Bool
  | number left, number right => left < right
  | negInf, number _ | negInf, posInf | number _, posInf => true
  | _, _ => false

/-- `left <= right`. -/
def atMost : Binary64 → Binary64 → Bool
  | number left, number right => left ≤ right
  | negInf, negInf | negInf, number _ | negInf, posInf | number _, posInf | posInf, posInf => true
  | _, _ => false

/-- Between numbers and infinities, not less is at least. -/
theorem atMost_iff {left right : Binary64} (isLeft : left ≠ nan) (isRight : right ≠ nan) :
    atMost left right = true ↔ less right left = false := by
  cases left with
  | nan => exact absurd rfl isLeft
  | negInf =>
      cases right with
      | nan => exact absurd rfl isRight
      | _ => exact iff_of_true rfl rfl
  | posInf =>
      cases right with
      | nan => exact absurd rfl isRight
      | posInf => exact iff_of_true rfl rfl
      | _ => exact iff_of_false Bool.false_ne_true (Ne.symm Bool.false_ne_true)
  | number left =>
      cases right with
      | nan => exact absurd rfl isRight
      | negInf => exact iff_of_false Bool.false_ne_true (Ne.symm Bool.false_ne_true)
      | posInf => exact iff_of_true rfl rfl
      | number right => simp [atMost, less]

/-- NaN is not at most anything, and nothing is at most NaN. -/
theorem not_nan_of_atMost {left right : Binary64} (order : atMost left right = true) : left ≠
    nan ∧ right ≠ nan := by
  constructor
  · rintro rfl
    cases order
  · rintro rfl
    cases left <;> cases order

end Binary64

/-! ## Literals -/

namespace FloatText

/-- The decimal number of a literal with a fraction or an exponent. -/
def decimal (text : List Char) : ℚ :=
  let front := text.takeWhile fun c => c.isDigit || c == '-'
  let back := text.dropWhile fun c => c.isDigit || c == '-'
  let fraction :=
    match back with
    | '.' :: rest => rest.takeWhile Char.isDigit
    | _ => []
  let exponent : ℤ :=
    match back.dropWhile fun c => c == '.' || c.isDigit with
    | _ :: '+' :: digits => Nat.ofDigitChars 10 digits 0
    | _ :: '-' :: digits => -(Nat.ofDigitChars 10 digits 0 : ℤ)
    | _ :: digits => Nat.ofDigitChars 10 digits 0
    | [] => 0
  let digits := front.filter Char.isDigit ++ fraction
  let magnitude : ℚ := Nat.ofDigitChars 10 digits 0 * 10 ^ (exponent - fraction.length)
  if front.head? = some '-' then -magnitude else magnitude

/-- The float of a literal. -/
def value (literal : FloatText) : Binary64 :=
  if literal.val = "NaN".toList then .nan
  else if literal.val = "Infinity".toList then .posInf
  else if literal.val = "-Infinity".toList then .negInf
  else .round (decimal literal.val)

end FloatText

end VectorSearch
