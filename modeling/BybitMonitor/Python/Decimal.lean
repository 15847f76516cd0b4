import Mathlib
import BybitMonitor.Python.Float

/-!
# Decimal arithmetic

The operations of `decimal` in the default context: 28 digits, ties to even, and the traps of
division by zero and invalid operations. The exponents of the numbers below stay far within the
bounds of the context.

* `PyFloat.shortest`: the number that `repr` of a `float` denotes.
-/

namespace BybitMonitor

/-- A `Decimal`. -/
inductive PyDecimal
  | nan
  | inf (negative : Bool)
  | finite (x : ℚ)
  deriving DecidableEq, Repr

namespace PyFloat

/-- The decimal numbers with `digits` digits next to `x`, the nearer one first. Of two that are as
near, the one with an even last digit is first. -/
def neighbours (digits : ℕ) (x : ℚ) : List ℚ :=
  let unit : ℚ := 10 ^ (Int.log 10 |x| + 1 - digits)
  let below := ⌊x / unit⌋ * unit
  if roundHalfEven (x / unit) = ⌊x / unit⌋ then [below, below + unit] else [below + unit, below]

/-- The shortest decimal number that is rounded to `x`. -/
def shortest (x : ℚ) : ℚ :=
  ((List.range 17).findSome? fun digits =>
    (neighbours (digits + 1) x).find? fun y => roundBinary64 y = finite x).getD x

/-- A number other than zero is not written as zero. -/
theorem shortest_ne_zero {x : ℚ} (hx : x ≠ 0) : shortest x ≠ 0 := by
  rw [shortest]
  cases hfound : (List.range 17).findSome? fun digits =>
      (neighbours (digits + 1) x).find? fun y => roundBinary64 y = finite x with
  | none => exact hx
  | some y =>
      obtain ⟨digits, -, hy⟩ := List.exists_of_findSome?_eq_some hfound
      have hround : roundBinary64 y = finite x := by simpa using List.find?_some hy
      rintro rfl
      -- zero is rounded to zero
      rw [roundBinary64, if_pos rfl] at hround
      exact hx (by simpa using hround.symm)

end PyFloat

namespace PyDecimal

/-- `Decimal(str(x))`. -/
def ofFloat : PyFloat → PyDecimal
  | .nan => nan
  | .inf negative => inf negative
  | .finite x => finite (PyFloat.shortest x)

/-- The precision of the context. -/
def precision : ℕ := 28

/-- Round to the precision of the context. -/
def round (x : ℚ) : ℚ :=
  if x = 0 then 0
  else
    let unit : ℚ := 10 ^ (Int.log 10 |x| + 1 - precision)
    PyFloat.roundHalfEven (x / unit) * unit

/-- `x / y`. -/
def div : PyDecimal → PyDecimal → Except PyExc PyDecimal
  | nan, _ | _, nan => .ok nan
  | inf _, inf _ => .error (.other "InvalidOperation")
  | inf negative, finite y => .ok (inf (negative != decide (y < 0)))
  | finite _, inf _ => .ok (finite 0)
  | finite x, finite y =>
      if y = 0 then .error (.other (if x = 0 then "InvalidOperation" else "DivisionByZero"))
      else .ok (finite (round (x / y)))

/-- `x - y` for a finite `y`. -/
def sub (y : ℚ) : PyDecimal → PyDecimal
  | finite x => finite (round (x - y))
  | x => x

/-- `x * y` for a finite, positive `y`. -/
def mul (y : ℚ) : PyDecimal → PyDecimal
  | finite x => finite (round (x * y))
  | x => x

/-- `float(x)`. -/
def toFloat : PyDecimal → PyFloat
  | nan => .nan
  | inf negative => .inf negative
  | finite x => PyFloat.roundBinary64 x

end PyDecimal

end BybitMonitor
