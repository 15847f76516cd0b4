import Mathlib
import BybitMonitor.Python.Exception

/-!
# Python floats

A `float` is a rational number, an infinity or not a number; the two zeros are one. Differences of
times, products and quotients are rounded to binary64, and the format specifications are the ones
the messages use.

* `PyFloat.toInt`: `int()`, which truncates towards zero and raises on non-finite values.
* `PyFloat.formatFixed`, `PyFloat.formatGeneral`: the presentation types `f` and `g`.
-/

namespace BybitMonitor

/-- A Python `float`. -/
inductive PyFloat
  | nan
  | inf (negative : Bool)
  | finite (value : ℚ)
  deriving DecidableEq, Repr

namespace PyFloat

instance (n : ℕ) : OfNat PyFloat n where ofNat := finite n

/-- `math.isfinite`. -/
def isFinite : PyFloat → Bool
  | finite _ => true
  | _ => false

/-- The number that a finite `float` is. -/
def value : PyFloat → ℚ
  | finite x => x
  | _ => 0

/-- `x < y`, false whenever one side is not a number. -/
def lt : PyFloat → PyFloat → Bool
  | nan, _ | _, nan => false
  | inf true, inf true => false
  | inf true, _ => true
  | inf false, _ => false
  | finite _, inf negative => !negative
  | finite x, finite y => decide (x < y)

/-- `x <= y`, false whenever one side is not a number. -/
def le : PyFloat → PyFloat → Bool
  | nan, _ | _, nan => false
  | x, y => !(y.lt x)

/-- Numbers are ordered one way or the other. -/
theorem le_eq_not_lt {x y : PyFloat} (hx : x ≠ nan) (hy : y ≠ nan) : x.le y = !(y.lt x) := by
  cases x with
  | nan => exact absurd rfl hx
  | inf negative =>
      cases y with
      | nan => exact absurd rfl hy
      | _ => rfl
  | finite x =>
      cases y with
      | nan => exact absurd rfl hy
      | _ => rfl

theorem le_zero_eq_false_iff {x : ℚ} : (finite x).le 0 = false ↔ 0 < x := by
  change (!((finite ((0 : ℕ) : ℚ)).lt (finite x))) = false ↔ 0 < x
  simp [lt]

/-- The integer part of a finite number, truncated towards zero. -/
def truncated : PyFloat → ℤ
  | finite x => if x < 0 then ⌈x⌉ else ⌊x⌋
  | _ => 0

/-- `int(x)`. -/
def toInt : PyFloat → Except PyExc ℤ
  | nan => .error (.valueError "cannot convert float NaN to integer")
  | inf _ => .error (.overflowError "cannot convert float infinity to integer")
  | finite x => .ok (finite x).truncated

/-! ## Rounding -/

/-- The nearest integer, ties to even. -/
def roundHalfEven (x : ℚ) : ℤ :=
  let below := ⌊x⌋
  if x - below < 1 / 2 then below
  else if x - below = 1 / 2 ∧ below % 2 = 0 then below
  else below + 1

/-- The nearest binary64 number. -/
def roundBinary64 (x : ℚ) : PyFloat :=
  if x = 0 then finite 0
  else
    let exponent := max (Int.log 2 |x| - 52) (-1074)
    let rounded := (roundHalfEven (x / 2 ^ exponent) : ℚ) * 2 ^ exponent
    if 2 ^ 1024 ≤ |rounded| then inf (decide (x < 0)) else finite rounded

theorem roundBinary64_ne_nan (x : ℚ) : roundBinary64 x ≠ nan := by
  rw [roundBinary64]
  dsimp only
  split
  · simp
  · split <;> simp

/-- `now - since`, for two readings of a clock. -/
def elapsed (now since : ℚ) : PyFloat := roundBinary64 (now - since)

/-- The product with a positive constant. -/
def mulPos (factor : ℚ) : PyFloat → PyFloat
  | nan => nan
  | inf negative => inf negative
  | finite x => roundBinary64 (x * factor)

/-- The quotient by a positive constant. -/
def divPos (divisor : ℚ) : PyFloat → PyFloat
  | nan => nan
  | inf negative => inf negative
  | finite x => roundBinary64 (x / divisor)

/-- `abs(x)`. -/
def abs : PyFloat → PyFloat
  | nan => nan
  | inf _ => inf false
  | finite x => finite |x|

/-! ## Formatting -/

/-- The sign of a formatted number. -/
def signText (plus negative : Bool) : String :=
  if negative then "-" else if plus then "+" else ""

/-- A numeral padded with zeros on the left. -/
def padLeft (width n : ℕ) : String :=
  String.ofList (List.replicate (width - n.repr.length) '0') ++ n.repr

/-- Separate thousands by commas, in a list of digits with the last digit first. -/
def groupDigits : List Char → List Char
  | a :: b :: c :: d :: rest => a :: b :: c :: ',' :: groupDigits (d :: rest)
  | digits => digits

/-- A numeral with its thousands separated if `grouping` is set. -/
def integerText (grouping : Bool) (n : ℕ) : String :=
  if grouping then String.ofList (groupDigits n.repr.toList.reverse).reverse else n.repr

/-- `|x|` rounded to `decimals` decimals. -/
def fixedText (grouping : Bool) (decimals : ℕ) (x : ℚ) : String :=
  let scaled := (roundHalfEven (|x| * 10 ^ decimals)).toNat
  let whole := integerText grouping (scaled / 10 ^ decimals)
  if decimals = 0 then whole else whole ++ "." ++ padLeft decimals (scaled % 10 ^ decimals)

/-- Drop the zeros at the end of a fraction, and its point if nothing is left of it. -/
def stripZeros (text : String) : String :=
  if '.' ∈ text.toList then
    let kept := text.toList.reverse.dropWhile (· = '0')
    String.ofList (kept.dropWhile (· = '.')).reverse
  else text

/-- The format specification `[+].<decimals>f`. -/
def formatFixed (plus : Bool) (decimals : ℕ) : PyFloat → String
  | nan => signText plus false ++ "nan"
  | inf negative => signText plus negative ++ "inf"
  | finite x => signText plus (decide (x < 0)) ++ fixedText false decimals x

/-- The format specification `[,].<precision>g`. -/
def formatGeneral (grouping : Bool) (precision : ℕ) : PyFloat → String
  | nan => "nan"
  | inf negative => signText false negative ++ "inf"
  | finite x =>
      if x = 0 then "0"
      else
        let scale := Int.log 10 |x|
        let digits := roundHalfEven (|x| / 10 ^ (scale - precision + 1))
        -- rounding up to the next power of ten adds a digit
        let exponent := if digits = 10 ^ precision then scale + 1 else scale
        signText false (decide (x < 0)) ++
          if -4 ≤ exponent ∧ exponent < precision then
            stripZeros (fixedText grouping (precision - 1 - exponent).toNat x)
          else
            let mantissa := stripZeros (fixedText false (precision - 1) (x / 10 ^ exponent))
            mantissa ++ "e" ++ (if exponent < 0 then "-" else "+") ++ padLeft 2 exponent.natAbs

end PyFloat

end BybitMonitor
