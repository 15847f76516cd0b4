import Mathlib
import BybitMonitor.Python.Number
import BybitMonitor.Python.Shortest
import BybitMonitor.ToMathlib.JsonValue

/-!
# The texts of floats

`repr` of a finite `float` writes the shortest decimal number that is rounded to it, and `float()`
reads that number back.

* `PyFloat.repr`: the text.
* `PyFloat.isNumber_repr`: it is the text of a number in JSON.
* `PyFloat.ofText_repr`: it is read as the number that it was written for.
-/

namespace BybitMonitor

namespace PyFloat

open JsonText (IsDigits IsNumber NoDigit Numeral)

/-! ## Writing -/

/-- The numeral of digits of which the first stands for `10 ^ e`. Numbers far from one have an
exponent. -/
def numeral (digits : List Char) (e : ℤ) : Numeral :=
  if 0 ≤ e ∧ e < 16 then
    let places := (e + 1).toNat
    { whole := (digits.rightpad places '0').take places
      fraction := if digits.length ≤ places then ['0'] else digits.drop places }
  else if -4 ≤ e ∧ e < 0 then
    { whole := ['0'], fraction := List.replicate (-e - 1).toNat '0' ++ digits }
  else { whole := digits.take 1, fraction := digits.drop 1, exponent := some e }

/-- The numeral of the shortest number for `x`, which has at most 17 digits. -/
def shortestNumeral (x : ℚ) : Numeral :=
  if x = 0 then { whole := ['0'], fraction := ['0'] }
  else
    let scale := Int.log 10 |x| + 1 - 17
    let digits := Nat.toDigits 10 ⌊shortest x / 10 ^ scale⌋.toNat
    numeral (digits.rdropWhile (· = '0')) (scale + digits.length - 1)

/-- `repr(x)` of a finite number. -/
def repr (x : ℚ) : List Char :=
  (if decide (x < 0) then ['-'] else []) ++ (shortestNumeral |x|).text

/-! ## Digits -/

variable {digits : List Char}

theorem natOfDigits_eq (digits : List Char) :
    natOfDigits digits = Nat.ofDigitChars 10 digits 0 := by
  rfl

theorem natOfDigits_append (front back : List Char) :
    natOfDigits (front ++ back) = natOfDigits front * 10 ^ back.length + natOfDigits back := by
  rw [natOfDigits_eq, Nat.ofDigitChars_append, Nat.ofDigitChars_eq_ofDigitChars_zero, mul_comm]
  rfl

theorem natOfDigits_zeros (n : ℕ) : natOfDigits (List.replicate n '0') = 0 := by
  rw [natOfDigits_eq, Nat.ofDigitChars_replicate_zero, mul_zero]

/-- Zeros in front do not count. -/
theorem natOfDigits_leftpad (n : ℕ) (digits : List Char) :
    natOfDigits (digits.leftpad n '0') = natOfDigits digits := by
  rw [List.leftpad, natOfDigits_append, natOfDigits_zeros, zero_mul, zero_add]

/-- Zeros at the end are factors of ten. -/
theorem natOfDigits_rdropWhile (digits : List Char) :
    natOfDigits digits = natOfDigits (digits.rdropWhile (· = '0')) *
      10 ^ (digits.length - (digits.rdropWhile (· = '0')).length) := by
  have hsplit : digits.rdropWhile (· = '0') ++ digits.rtakeWhile (· = '0') = digits :=
    List.rdropWhile_append_rtakeWhile
  have hzeros : digits.rtakeWhile (· = '0') =
      List.replicate (digits.rtakeWhile (· = '0')).length '0' :=
    List.eq_replicate_of_mem fun c hc => by simpa using List.mem_rtakeWhile_imp hc
  have hlength := congrArg List.length hsplit
  rw [List.length_append] at hlength
  conv_lhs => rw [← hsplit, natOfDigits_append, hzeros, natOfDigits_zeros]
  rw [add_zero, List.length_replicate]
  congr 2
  omega

/-! ## Reading -/

/-- The number that a numeral denotes. -/
def numeralValue (n : Numeral) : ℚ :=
  natOfDigits (n.whole ++ n.fraction) * 10 ^ (n.exponent.getD 0 - n.fraction.length)

/-- The exponent of a numeral is read. -/
theorem exponentOf_text (exponent : Option ℤ) :
    exponentOf (Numeral.exponentText exponent) = some (exponent.getD 0) := by
  cases exponent with
  | none => rfl
  | some e =>
      have hdigits := Numeral.isDigits_exponent e
      have hvalue : natOfDigits ((Nat.toDigits 10 e.natAbs).leftpad 2 '0') = e.natAbs := by
        rw [natOfDigits_leftpad, natOfDigits_eq, Nat.ofDigitChars_ten_toDigits]
      rw [Numeral.exponentText]
      generalize (Nat.toDigits 10 e.natAbs).leftpad 2 '0' = digits at *
      have hsign : splitSign ((if e < 0 then '-' else '+') :: digits) =
          (decide (e < 0), digits) := by
        split <;> simp [splitSign, *]
      have hall : digits.all Char.isDigit = true := List.all_eq_true.mpr hdigits.2
      have hne : digits.isEmpty = false := by simpa using hdigits.1
      rw [exponentOf]
      simp only [hsign, hall, hne, hvalue, Option.getD_some, decide_true, Bool.true_or,
        Bool.not_false, Bool.and_self, if_true, decide_eq_true_eq]
      split <;> congr 1 <;> omega

/-- A numeral is read as what it denotes. -/
theorem magnitudeOf_text {n : Numeral} (h : n.Valid) :
    magnitudeOf n.text = some (numeralValue n) := by
  obtain ⟨whole, fraction, exponent⟩ := n
  have hhead := Numeral.head_exponentText exponent JsonText.delimited_nil
  rw [List.append_nil] at hhead
  have hwhole : (whole ++ (Numeral.fractionText fraction ++ Numeral.exponentText exponent)).span
      Char.isDigit = (whole, Numeral.fractionText fraction ++ Numeral.exponentText exponent) :=
    JsonText.span_digits h.whole.2 (Numeral.noDigit_fractionText fraction hhead)
  have hne : whole.isEmpty = false := by simpa using h.whole.1
  rw [magnitudeOf, Numeral.text, hwhole]
  by_cases hnone : fraction = []
  · -- what follows the digits is no point
    subst hnone
    rw [Numeral.fractionText, if_pos rfl, List.nil_append]
    have hexponent := exponentOf_text exponent
    cases exponent with
    | none =>
        simp only [Numeral.exponentText, hne]
        rfl
    | some e =>
        obtain ⟨rest, hrest⟩ : ∃ rest, Numeral.exponentText (some e) = 'e' :: rest := ⟨_, rfl⟩
        rw [hrest] at hexponent ⊢
        simp [hne, hexponent, numeralValue]
  · have hfraction : (fraction ++ Numeral.exponentText exponent).span Char.isDigit =
        (fraction, Numeral.exponentText exponent) :=
      JsonText.span_digits h.fraction fun c hc => (hhead c hc).1
    rw [Numeral.fractionText, if_neg hnone, List.cons_append]
    simp only [hfraction, hne, Bool.false_and, Bool.false_eq_true, if_false, exponentOf_text]
    rfl

/-! ## The numeral of a number -/

/-- The digits of a numeral, filled up with zeros to the point. -/
theorem whole_of_le {places : ℕ} (hle : digits.length ≤ places) :
    (digits.rightpad places '0').take places =
      digits ++ List.replicate (places - digits.length) '0' := by
  rw [List.rightpad]
  refine List.take_of_length_le ?_
  rw [List.length_append, List.length_replicate]
  omega

/-- The digits of a numeral in front of its point. -/
theorem whole_of_lt {places : ℕ} (hlt : places < digits.length) :
    (digits.rightpad places '0').take places = digits.take places := by
  rw [List.rightpad]
  exact List.take_append_of_le_length hlt.le

/-- A numeral denotes the number of its digits, with the point where the exponent says. -/
theorem numeralValue_numeral (hdigits : digits ≠ []) (e : ℤ) :
    numeralValue (numeral digits e) = natOfDigits digits * 10 ^ (e + 1 - digits.length) := by
  unfold numeral
  split
  · rename_i hrange
    obtain ⟨places, hplaces⟩ : ∃ places : ℕ, e + 1 = places := ⟨(e + 1).toNat, by omega⟩
    have htoNat : (e + 1).toNat = places := by omega
    rw [htoNat, hplaces, numeralValue]
    dsimp only
    by_cases hle : digits.length ≤ places
    · rw [if_pos hle, whole_of_le hle, natOfDigits_append, natOfDigits_append, natOfDigits_zeros,
        List.length_replicate]
      have hpow : (10 : ℚ) ^ (places - digits.length : ℤ) = 10 ^ (places - digits.length) := by
        rw [← zpow_natCast, Nat.cast_sub hle]
      rw [hpow]
      simp [natOfDigits]
    · rw [if_neg hle, whole_of_lt (not_le.mp hle), List.take_append_drop, List.length_drop,
        Nat.cast_sub (not_le.mp hle).le]
      congr 2
      simp
  · split
    · rename_i hrange
      rw [numeralValue]
      dsimp only
      have hzero : natOfDigits (['0'] ++ (List.replicate (-e - 1).toNat '0' ++ digits)) =
          natOfDigits digits := by
        rw [natOfDigits_append, natOfDigits_append, natOfDigits_zeros]
        simp [natOfDigits]
      rw [hzero, List.length_append, List.length_replicate, Option.getD_none]
      congr 2
      push_cast
      omega
    · rw [numeralValue]
      dsimp only
      rw [List.take_append_drop, List.length_drop]
      have hlength : 1 ≤ digits.length := List.length_pos_of_ne_nil hdigits
      congr 2
      push_cast [Nat.cast_sub hlength]
      simp
      omega

/-- A numeral of digits without a zero in front. -/
theorem valid_numeral (hdigits : IsDigits digits) (hhead : digits.head? ≠ some '0') (e : ℤ) :
    (numeral digits e).Valid := by
  obtain ⟨hne, hall⟩ := hdigits
  obtain ⟨c, cs, rfl⟩ := List.exists_cons_of_ne_nil hne
  have hc : c ≠ '0' := by simpa using hhead
  have hpad : ∀ n : ℕ, ∀ d ∈ (c :: cs) ++ List.replicate n '0', d.isDigit = true := by
    intro n d hd
    rcases List.mem_append.mp hd with hdigit | hzero
    · exact hall d hdigit
    · rw [(List.mem_replicate.mp hzero).2]
      rfl
  unfold numeral
  split
  · obtain ⟨places, hplaces⟩ : ∃ places : ℕ, (e + 1).toNat = places + 1 :=
      ⟨(e + 1).toNat - 1, by omega⟩
    rw [hplaces]
    refine ⟨⟨by simp [List.rightpad], fun d hd => ?_⟩, fun hzero => ?_, fun d hd => ?_, Or.inl ?_⟩
    · exact hpad _ d (List.mem_of_mem_take hd)
    · exact absurd (by simpa [List.rightpad] using hzero) hc
    · dsimp only at hd
      split at hd
      · obtain rfl := List.mem_singleton.mp hd
        rfl
      · exact hall d (List.mem_of_mem_drop hd)
    · dsimp only
      split
      · exact List.cons_ne_nil _ _
      · rename_i hlength
        rw [Ne, List.drop_eq_nil_iff]
        exact hlength
  · split
    · refine ⟨⟨by simp, by simp⟩, fun _ => rfl, fun d hd => ?_, Or.inl (by simp)⟩
      rcases List.mem_append.mp hd with hzero | hdigit
      · rw [(List.mem_replicate.mp hzero).2]
        rfl
      · exact hall d hdigit
    · refine ⟨⟨by simp, fun d hd => hall d (List.mem_of_mem_take hd)⟩, fun hzero => ?_,
        fun d hd => hall d (List.mem_of_mem_drop hd), Or.inr (by simp)⟩
      exact absurd (by simpa using hzero) hc

/-- Without its zeros at the end, a numeral that does not begin with one is still a numeral. -/
theorem isDigits_rdropWhile (hdigits : IsDigits digits) (hhead : digits.head? ≠ some '0') :
    IsDigits (digits.rdropWhile (· = '0')) ∧
      (digits.rdropWhile (· = '0')).head? ≠ some '0' := by
  obtain ⟨hne, hall⟩ := hdigits
  obtain ⟨c, cs, rfl⟩ := List.exists_cons_of_ne_nil hne
  have hc : c ≠ '0' := by simpa using hhead
  obtain ⟨zeros, hzeros⟩ : (c :: cs).rdropWhile (· = '0') <+: c :: cs :=
    List.rdropWhile_prefix _ _
  cases hkept : (c :: cs).rdropWhile (· = '0') with
  | nil =>
      -- then the first digit would be a zero
      have := List.rdropWhile_eq_nil_iff.mp hkept c List.mem_cons_self
      exact absurd (by simpa using this) hc
  | cons d ds =>
      rw [hkept, List.cons_append] at hzeros
      obtain ⟨rfl, htail⟩ := List.cons.inj hzeros
      refine ⟨⟨List.cons_ne_nil _ _, fun e he => hall e ?_⟩, by simpa using hc⟩
      rw [← hzeros, ← List.cons_append]
      exact List.mem_append_left _ he

/-- The numeral of a binary64 number denotes a number that is rounded to it. -/
theorem shortestNumeral_spec {x : ℚ} (hx : 0 ≤ x) (hround : roundBinary64 x = finite x) :
    (shortestNumeral x).Valid ∧ roundBinary64 (numeralValue (shortestNumeral x)) = finite x := by
  rw [shortestNumeral]
  split
  · rename_i hzero
    subst hzero
    refine ⟨⟨⟨by simp, by simp⟩, fun _ => rfl, by simp, Or.inl (by simp)⟩, ?_⟩
    rw [← hround]
    congr 1
    simp [numeralValue, natOfDigits]
  · rename_i hne
    obtain ⟨hshortest, m, hm, heq⟩ := shortest_spec (lt_of_le_of_ne hx (Ne.symm hne)) hround
    have hunit := decimalUnit_pos 17 x
    have hfloor : ⌊shortest x / 10 ^ (Int.log 10 |x| + 1 - 17)⌋ = m := by
      change ⌊shortest x / decimalUnit 17 x⌋ = m
      rw [heq, mul_div_cancel_right₀ _ hunit.ne', Int.floor_intCast]
    dsimp only
    rw [hfloor]
    set digits := Nat.toDigits 10 m.toNat with hdigits
    have hvalue : (natOfDigits digits : ℚ) = m := by
      rw [natOfDigits_eq, hdigits, Nat.ofDigitChars_ten_toDigits]
      exact_mod_cast Int.toNat_of_nonneg hm.le
    have hhead : digits.head? ≠ some '0' := by
      obtain ⟨c, cs, hcons, hc, -⟩ := JsonText.toDigits_head (show 0 < m.toNat by omega)
      rw [hdigits, hcons]
      simpa using hc
    obtain ⟨hkept, hkeptHead⟩ := isDigits_rdropWhile (JsonText.isDigits_toDigits m.toNat) hhead
    refine ⟨valid_numeral hkept hkeptHead _, ?_⟩
    have hlength : (digits.rdropWhile (· = '0')).length ≤ digits.length :=
      (List.rdropWhile_prefix _ _).length_le
    rw [numeralValue_numeral hkept.1, ← hshortest, heq, ← hvalue, natOfDigits_rdropWhile digits]
    congr 1
    push_cast
    rw [← zpow_natCast, mul_assoc, decimalUnit, ← zpow_add₀ (by norm_num)]
    congr 2
    push_cast [Nat.cast_sub hlength]
    ring

/-! ## Signs -/

theorem binaryUnit_neg (x : ℚ) : binaryUnit (-x) = binaryUnit x := by
  rw [binaryUnit, binaryUnit, abs_neg]

/-- Rounding does not favour a sign. -/
theorem roundBinary64_neg (x : ℚ) : roundBinary64 (-x) = (roundBinary64 x).neg := by
  by_cases hx : x = 0
  · simp [hx, roundBinary64, neg]
  · have hgrid : onGrid roundHalfEven (binaryUnit x) (-x) =
        -onGrid roundHalfEven (binaryUnit x) x := by
      rw [onGrid, onGrid, neg_div, roundHalfEven_neg, Int.cast_neg, neg_mul]
    have hsign : decide (-x < 0) = !decide (x < 0) := by
      rcases lt_or_gt_of_ne hx with h | h
      · simp [h, h.le]
      · simp [h, h.le]
    rw [roundBinary64_eq hx, roundBinary64_eq (neg_ne_zero.mpr hx), binaryUnit_neg, hgrid, abs_neg,
      hsign]
    split <;> rfl

/-- The absolute value of a binary64 number is one. -/
theorem roundBinary64_abs {x : ℚ} (hround : roundBinary64 x = finite x) :
    roundBinary64 |x| = finite |x| := by
  rcases abs_choice x with habs | habs
  · rw [habs, hround]
  · rw [habs, roundBinary64_neg, hround]
    rfl

/-- What a `float` is: not a number, an infinity or a binary64 number. -/
def IsBinary64 (x : PyFloat) : Prop := ∀ r, x = finite r → roundBinary64 r = finite r

/-- `repr` of a binary64 number is the text of a number in JSON. -/
theorem isNumber_repr {x : ℚ} (hround : roundBinary64 x = finite x) : IsNumber (repr x) :=
  .numeral _ (shortestNumeral_spec (abs_nonneg x) (roundBinary64_abs hround)).1

/-! ## Reading the text -/

/-- The characters of a numeral. -/
def IsNumeralChar (c : Char) : Prop :=
  c.isDigit = true ∨ c = '.' ∨ c = 'e' ∨ c = '+' ∨ c = '-'

/-- A character of a numeral is read as it is. -/
theorem IsNumeralChar.spec {c : Char} (h : IsNumeralChar c) :
    toAscii c = c ∧ isAsciiSpace c = false ∧ c ≠ '_' := by
  rcases h with hdigit | rfl | rfl | rfl | rfl
  · have hrange : 48 ≤ c.toNat ∧ c.toNat ≤ 57 := Char.isDigit_iff_toNat.mp hdigit
    refine ⟨?_, ?_, ?_⟩
    · rw [toAscii, if_pos (by omega)]
    · have hspace : c ≠ ' ' := by
        rintro rfl
        exact absurd hrange (by decide)
      simp [isAsciiSpace, hspace]
      omega
    · rintro rfl
      exact absurd hrange (by decide)
  · decide
  · decide
  · decide
  · decide

/-- The characters of the text of a numeral. -/
theorem isNumeralChar_text {n : Numeral} (h : n.Valid) : ∀ c ∈ n.text, IsNumeralChar c := by
  intro c hc
  rcases List.mem_append.mp hc with hwhole | hrest
  · exact Or.inl (h.whole.2 c hwhole)
  rcases List.mem_append.mp hrest with hfraction | hexponent
  · unfold Numeral.fractionText at hfraction
    split at hfraction
    · cases hfraction
    · rcases List.mem_cons.mp hfraction with rfl | hdigit
      · exact Or.inr (Or.inl rfl)
      · exact Or.inl (h.fraction c hdigit)
  · cases hcases : n.exponent with
    | none =>
        rw [hcases] at hexponent
        cases hexponent
    | some e =>
        rw [hcases, Numeral.exponentText] at hexponent
        rcases List.mem_cons.mp hexponent with rfl | hsigned
        · exact Or.inr (Or.inr (Or.inl rfl))
        rcases List.mem_cons.mp hsigned with rfl | hdigit
        · split
          · exact Or.inr (Or.inr (Or.inr (Or.inr rfl)))
          · exact Or.inr (Or.inr (Or.inr (Or.inl rfl)))
        · exact Or.inl ((Numeral.isDigits_exponent e).2 c hdigit)

/-- A text without underscores loses nothing. -/
theorem dropUnderscores_eq {text : List Char} (h : ∀ c ∈ text, c ≠ '_') (afterDigit : Bool) :
    dropUnderscores afterDigit text = some text := by
  induction text generalizing afterDigit with
  | nil => rfl
  | cons c rest ih =>
      have hc : c ≠ '_' := h c List.mem_cons_self
      rw [dropUnderscores, ih (fun d hd => h d (List.mem_cons_of_mem _ hd))]
      · rfl
      · rintro rfl
        exact absurd rfl hc
      · rintro _ _ rfl
        exact absurd rfl hc

/-- White space is stripped from no text without it. -/
theorem dropWhile_isAsciiSpace {text : List Char} (h : ∀ c ∈ text, isAsciiSpace c = false) :
    text.dropWhile isAsciiSpace = text := by
  cases text with
  | nil => rfl
  | cons c rest => rw [List.dropWhile_cons_of_neg (by simp [h c List.mem_cons_self])]

/-- A digit is no letter. -/
theorem isAlpha_toLower {c : Char} (hc : c.isDigit = true) : c.toLower.isAlpha = false := by
  have hrange : 48 ≤ c.toNat ∧ c.toNat ≤ 57 := Char.isDigit_iff_toNat.mp hc
  rw [Char.isAlpha_toLower_eq_isAlpha]
  simp [Char.isAlpha, Char.isUpper, Char.isLower, UInt32.le_iff_toNat_le]
  omega

/-- A numeral with its sign is read as the number that it denotes. -/
theorem ofText_numeral {n : Numeral} (h : n.Valid) (negative : Bool) :
    ofText (String.ofList ((if negative then ['-'] else []) ++ n.text)) =
      some (roundBinary64 (if negative then -numeralValue n else numeralValue n)) := by
  set text := (if negative then ['-'] else []) ++ n.text with htext
  have hchars : ∀ c ∈ text, IsNumeralChar c := by
    intro c hc
    rcases List.mem_append.mp hc with hsign | hnumeral
    · cases negative with
      | true => 
          obtain rfl := List.mem_singleton.mp hsign
          exact Or.inr (Or.inr (Or.inr (Or.inr rfl)))
      | false => cases hsign
    · exact isNumeralChar_text h c hnumeral
  have hmap : text.map toAscii = text :=
    (List.map_congr_left fun c hc => (hchars c hc).spec.1).trans (List.map_id' text)
  have hspace : ∀ c ∈ text, isAsciiSpace c = false := fun c hc => (hchars c hc).spec.2.1
  have hreverse : text.reverse.dropWhile isAsciiSpace = text.reverse :=
    dropWhile_isAsciiSpace fun c hc => hspace c (List.mem_reverse.mp hc)
  have hunder : dropUnderscores false text = some text :=
    dropUnderscores_eq (fun c hc => (hchars c hc).spec.2.2) false
  obtain ⟨c, cs, hcons⟩ := List.exists_cons_of_ne_nil h.whole.1
  have hdigit : c.isDigit = true := h.whole.2 c (by rw [hcons]; exact List.mem_cons_self)
  have hhead : n.text = c :: (cs ++ (Numeral.fractionText n.fraction ++
      Numeral.exponentText n.exponent)) := by
    rw [Numeral.text, hcons, List.cons_append]
  have hsign : splitSign text = (negative, n.text) := by
    cases negative with
    | true => rfl
    | false =>
        have hminus : c ≠ '-' ∧ c ≠ '+' :=
          ⟨by rintro rfl; exact absurd hdigit (by decide),
            by rintro rfl; exact absurd hdigit (by decide)⟩
        rw [htext, hhead]
        simp [splitSign, hminus]
  -- the words for numbers that are not finite begin with a letter
  have hword (word : String) (hletter : word.toList.head?.any Char.isAlpha = true) :
      String.ofList (n.text.map Char.toLower) ≠ word := by
    rintro rfl
    rw [hhead] at hletter
    simp [isAlpha_toLower hdigit] at hletter
  rw [ofText, String.toList_ofList, hmap, dropWhile_isAsciiSpace hspace, hreverse,
    List.reverse_reverse, hunder]
  have hinf := hword "inf" (by decide)
  have hinfinity := hword "infinity" (by decide)
  have hnan := hword "nan" (by decide)
  simp [hsign, magnitudeOf_text h, hinf, hinfinity, hnan]

/-- **The round trip of a float.** -/
theorem ofText_repr {x : ℚ} (hround : roundBinary64 x = finite x) :
    ofText (String.ofList (repr x)) = some (finite x) := by
  have habs := roundBinary64_abs hround
  obtain ⟨hvalid, hvalue⟩ := shortestNumeral_spec (abs_nonneg x) habs
  rw [repr, ofText_numeral hvalid]
  by_cases hneg : x < 0
  · simp only [hneg, decide_true, if_true]
    rw [roundBinary64_neg, hvalue, abs_of_neg hneg, neg, neg_neg]
  · simp only [hneg, decide_false, Bool.false_eq_true, if_false]
    rw [hvalue, abs_of_nonneg (not_lt.mp hneg)]

end PyFloat

end BybitMonitor
