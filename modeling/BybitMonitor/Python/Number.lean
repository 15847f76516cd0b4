import Mathlib
import BybitMonitor.Python.Float
import BybitMonitor.Python.Text

/-!
# Python numbers

Where a `float` is declared, Python accepts an `int` too, whose arithmetic is exact.

* `PyNumber.Denotes`: the numbers with an integer value.
* `PyNumber.toInt_addInt`: `int(n + x)` is the sum, if `x` is an `int` or the sum is below 2 ^ 53.
-/

namespace BybitMonitor

namespace PyFloat

/-- `float(n)`. -/
def ofInt (n : ℤ) : Except PyExc PyFloat :=
  match roundBinary64 n with
  | finite x => .ok (finite x)
  | _ => .error (.overflowError "int too large to convert to float")

/-- `x + y`. -/
def add : PyFloat → PyFloat → PyFloat
  | nan, _ | _, nan => nan
  | inf a, inf b => if a = b then inf a else nan
  | inf a, finite _ => inf a
  | finite _, inf b => inf b
  | finite x, finite y => roundBinary64 (x + y)

/-! ### Texts -/

/-- The digit zero of every script that has decimal digits. -/
def digitZeros : List ℕ :=
  [0x30, 0x660, 0x6f0, 0x7c0, 0x966, 0x9e6, 0xa66, 0xae6, 0xb66, 0xbe6, 0xc66, 0xce6, 0xd66, 0xde6,
    0xe50, 0xed0, 0xf20, 0x1040, 0x1090, 0x17e0, 0x1810, 0x1946, 0x19d0, 0x1a80, 0x1a90, 0x1b50,
    0x1bb0, 0x1c40, 0x1c50, 0xa620, 0xa8d0, 0xa900, 0xa9d0, 0xa9f0, 0xaa50, 0xabf0, 0xff10, 0x104a0,
    0x10d30, 0x11066, 0x110f0, 0x11136, 0x111d0, 0x112f0, 0x11450, 0x114d0, 0x11650, 0x116c0,
    0x11730, 0x118e0, 0x11950, 0x11c50, 0x11d50, 0x11da0, 0x11f50, 0x16a60, 0x16ac0, 0x16b50,
    0x1d7ce, 0x1d7d8, 0x1d7e2, 0x1d7ec, 0x1d7f6, 0x1e140, 0x1e2f0, 0x1e4f0, 0x1e950, 0x1fbf0]

/-- A character as `float()` reads it: digits of every script are digits, and white space outside
ASCII is a space. -/
def toAscii (c : Char) : Char :=
  if c.toNat < 127 then c
  else if PyText.isSpace c then ' '
  else
    match digitZeros.find? fun start => start ≤ c.toNat && c.toNat < start + 10 with
    | some start => Char.ofNat (0x30 + (c.toNat - start))
    | none => '?'

/-- White space in ASCII. -/
def isAsciiSpace (c : Char) : Bool := c = ' ' || (9 ≤ c.toNat && c.toNat ≤ 13)

/-- The text without the underscores, which stand between two digits. -/
def dropUnderscores (afterDigit : Bool) : List Char → Option (List Char)
  | [] => some []
  | ['_'] => none
  | '_' :: c :: rest =>
      if afterDigit && c.isDigit then (c :: ·) <$> dropUnderscores true rest else none
  | c :: rest => (c :: ·) <$> dropUnderscores c.isDigit rest

/-- The number that digits write. -/
def natOfDigits (digits : List Char) : ℕ :=
  digits.foldl (fun n c => 10 * n + (c.toNat - 0x30)) 0

/-- A sign, if there is one, and what follows it. -/
def splitSign : List Char → Bool × List Char
  | '-' :: rest => (true, rest)
  | '+' :: rest => (false, rest)
  | rest => (false, rest)

/-- The exponent of a decimal number, which ends the text. -/
def exponentOf : List Char → Option ℤ
  | [] => some 0
  | c :: rest =>
      let (negative, digits) := splitSign rest
      if (c = 'e' || c = 'E') && !digits.isEmpty && digits.all Char.isDigit then
        some (if negative then -natOfDigits digits else natOfDigits digits)
      else none

/-- A decimal number without its sign. -/
def magnitudeOf (text : List Char) : Option ℚ :=
  let (whole, rest) := text.span Char.isDigit
  let (fraction, rest) :=
    match rest with
    | '.' :: rest => rest.span Char.isDigit
    | _ => ([], rest)
  if whole.isEmpty && fraction.isEmpty then none
  else
    (exponentOf rest).map fun exponent : ℤ =>
      natOfDigits (whole ++ fraction) * (10 : ℚ) ^ (exponent - fraction.length)

/-- `float(text)`; `none` is the `ValueError`. -/
def ofText (text : String) : Option PyFloat := do
  let stripped := ((text.toList.map toAscii).dropWhile isAsciiSpace).reverse.dropWhile isAsciiSpace
  let (negative, digits) := splitSign (← dropUnderscores false stripped.reverse)
  let word := String.ofList (digits.map Char.toLower)
  if word = "inf" || word = "infinity" then return inf negative
  else if word = "nan" then return nan
  else
    let magnitude ← magnitudeOf digits
    return roundBinary64 (if negative then -magnitude else magnitude)

/-- `-x`. -/
def neg : PyFloat → PyFloat
  | nan => nan
  | inf negative => inf !negative
  | finite x => finite (-x)

theorem roundHalfEven_intCast (n : ℤ) : roundHalfEven n = n := by
  rw [roundHalfEven]
  simp

/-- Integers below 2 ^ 53 are binary64 numbers. -/
theorem roundBinary64_intCast {n : ℤ} (hn : |n| < 2 ^ 53) : roundBinary64 n = finite n := by
  by_cases hzero : n = 0
  · simp [hzero, roundBinary64]
  · have hone : (1 : ℚ) ≤ |(n : ℚ)| := by exact_mod_cast Int.one_le_abs hzero
    have hbound : |(n : ℚ)| < 2 ^ 53 := by exact_mod_cast hn
    have hlog : Int.log 2 |(n : ℚ)| < 53 := by
      rw [← Int.lt_zpow_iff_log_lt (by norm_num) (by linarith)]
      exact_mod_cast hbound
    set exponent := max (Int.log 2 |(n : ℚ)| - 52) (-1074)
    have hexponent : exponent ≤ 0 := max_le (by omega) (by norm_num)
    -- the exponent is not positive, so that the scaled number is an integer
    have hscaled : (n : ℚ) / 2 ^ exponent = ((n * 2 ^ (-exponent).toNat : ℤ) : ℚ) := by
      have hpow : ((2 : ℚ) ^ exponent)⁻¹ = 2 ^ (-exponent).toNat := by
        rw [← zpow_neg, ← zpow_natCast, Int.toNat_of_nonneg (by omega)]
      rw [div_eq_mul_inv, hpow]
      push_cast
      ring
    have hrounded : (roundHalfEven ((n : ℚ) / 2 ^ exponent) : ℚ) * 2 ^ exponent = n := by
      rw [hscaled, roundHalfEven_intCast, ← hscaled, div_mul_cancel₀]
      positivity
    have hlarge : ¬ (2 : ℚ) ^ 1024 ≤ |(n : ℚ)| :=
      not_le.mpr (hbound.trans (pow_lt_pow_right₀ (by norm_num) (by norm_num)))
    rw [roundBinary64, if_neg (by exact_mod_cast hzero)]
    dsimp only
    rw [hrounded, if_neg hlarge]

end PyFloat

/-- An `int` or a `float`. -/
inductive PyNumber
  | int (n : ℤ)
  | float (x : PyFloat)
  deriving DecidableEq, Repr

namespace PyNumber

/-- `int(x)`. -/
def toInt : PyNumber → Except PyExc ℤ
  | int n => .ok n
  | float x => x.toInt

/-- `n < x`. -/
def gtInt (n : ℤ) : PyNumber → Bool
  | int m => n < m
  | float x => (PyFloat.finite n).lt x

/-- `n + x`. -/
def addInt (n : ℤ) : PyNumber → Except PyExc PyNumber
  | int m => .ok (int (n + m))
  | float x => (fun n => float (n.add x)) <$> PyFloat.ofInt n

/-- `-x`. -/
def neg : PyNumber → PyNumber
  | int n => int (-n)
  | float x => float x.neg

/-- The number has an integer value. -/
def Denotes (x : PyNumber) (n : ℤ) : Prop := x = int n ∨ x = float (.finite n)

variable {x : PyNumber} {k : ℤ}

theorem Denotes.neg (h : x.Denotes k) : x.neg.Denotes (-k) := by
  rcases h with rfl | rfl
  · exact Or.inl rfl
  · exact Or.inr (by simp [PyNumber.neg, PyFloat.neg])

theorem Denotes.toInt_eq (h : x.Denotes k) : x.toInt = .ok k := by
  rcases h with rfl | rfl
  · rfl
  · simp [toInt, PyFloat.toInt, PyFloat.truncated]

theorem Denotes.gtInt_iff (h : x.Denotes k) (n : ℤ) : x.gtInt n = true ↔ n < k := by
  rcases h with rfl | rfl
  · simp [gtInt]
  · simp [gtInt, PyFloat.lt]

/-- The sum is exact for an `int`, and for a `float` as long as it stays below 2 ^ 53. -/
theorem toInt_addInt {n : ℤ}
    (h : x = int k ∨ (x.Denotes k ∧ |n| < 2 ^ 53 ∧ |n + k| < 2 ^ 53)) :
    (x.addInt n >>= toInt) = .ok (n + k) := by
  rcases h with rfl | ⟨rfl | rfl, hn, hsum⟩
  · rfl
  · rfl
  · have hadd : PyFloat.roundBinary64 ((n : ℚ) + k) = .finite ((n + k : ℤ) : ℚ) := by
      exact_mod_cast PyFloat.roundBinary64_intCast hsum
    rw [addInt, PyFloat.ofInt, PyFloat.roundBinary64_intCast hn]
    change toInt (float ((PyFloat.finite n).add (.finite k))) = _
    rw [PyFloat.add, hadd]
    exact Denotes.toInt_eq (Or.inr rfl)

/-- The ends of a window around `n`. -/
theorem Denotes.window (h : x.Denotes k) {n : ℤ} (hexact : x = int k ∨ |n| + |k| < 2 ^ 53) :
    (x.neg.addInt n >>= toInt) = .ok (n - k) ∧ (x.addInt n >>= toInt) = .ok (n + k) := by
  rcases hexact with rfl | hbound
  · exact ⟨toInt_addInt (Or.inl rfl), toInt_addInt (Or.inl rfl)⟩
  · have hn : |n| < 2 ^ 53 := by linarith [abs_nonneg k]
    have hadd : |n + k| < 2 ^ 53 := (abs_add_le n k).trans_lt hbound
    have hsub : |n + -k| < 2 ^ 53 := (abs_add_le n (-k)).trans_lt (by rwa [abs_neg])
    exact ⟨toInt_addInt (Or.inr ⟨h.neg, hn, hsub⟩), toInt_addInt (Or.inr ⟨h, hn, hadd⟩)⟩

end PyNumber

end BybitMonitor
