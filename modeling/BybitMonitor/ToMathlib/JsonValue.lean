import Mathlib
import BybitMonitor.ToMathlib.JsonText

/-!
# JSON text of values

`JsonText.write` writes a value as JSON text with its default separators, and `JsonText.read` reads
any JSON text. Numbers with a fraction or an exponent, and the three words for numbers that are not
finite, are read as their text; what they denote is left to the reader of the value.

* `JsonText.Numeral.scanNumber_text`: a numeral is scanned up to its end.
* `JsonText.scanValue_write`: a written value is scanned up to its end.
* `JsonText.read_write`: reading a written value gives the value back.
-/

namespace JsonText

/-- A JSON value. -/
inductive Value
  | null
  | bool (value : Bool)
  | int (value : ℤ)
  /-- A number that is not written as an integer, as its text. -/
  | number (token : List Char)
  | string (value : String)
  | array (items : List Value)
  /-- The members in the order of the text, where a key may come twice. -/
  | object (fields : List (String × Value))

/-! ## Writing -/

/-- The decimal numeral of an integer. -/
def writeInt (n : ℤ) : List Char :=
  if n < 0 then '-' :: Nat.toDigits 10 n.natAbs else Nat.toDigits 10 n.natAbs

mutual

/-- A value as JSON text. -/
def write : Value → List Char
  | .null => ['n', 'u', 'l', 'l']
  | .bool true => ['t', 'r', 'u', 'e']
  | .bool false => ['f', 'a', 'l', 's', 'e']
  | .int n => writeInt n
  | .number token => token
  | .string s => encodeString s.toList
  | .array items => '[' :: (writeItems items ++ [']'])
  | .object fields => '{' :: (writeFields fields ++ ['}'])

/-- The items of an array, separated by `", "`. -/
def writeItems : List Value → List Char
  | [] => []
  | [v] => write v
  | v :: rest => write v ++ ',' :: ' ' :: writeItems rest

/-- The members of an object, separated by `", "`, with `": "` after their keys. -/
def writeFields : List (String × Value) → List Char
  | [] => []
  | [(key, v)] => encodeString key.toList ++ ':' :: ' ' :: write v
  | (key, v) :: rest =>
      encodeString key.toList ++ ':' :: ' ' :: (write v ++ ',' :: ' ' :: writeFields rest)

end

/-! ## Reading -/

/-- The integer part of a number: no zero stands in front of another digit. -/
def scanWhole : List Char → List Char × List Char
  | '0' :: rest => (['0'], rest)
  | input => input.span Char.isDigit

/-- A point with digits after it, if there is one. -/
def scanFraction : List Char → List Char × List Char
  | '.' :: rest =>
      match rest.span Char.isDigit with
      | ([], _) => ([], '.' :: rest)
      | (digits, rest) => ('.' :: digits, rest)
  | input => ([], input)

/-- The sign of an exponent. -/
def scanSign : List Char → List Char × List Char
  | '+' :: rest => (['+'], rest)
  | '-' :: rest => (['-'], rest)
  | input => ([], input)

/-- An exponent, if there is one. -/
def scanExponent : List Char → List Char × List Char
  | c :: rest =>
      if c = 'e' ∨ c = 'E' then
        let (sign, unsigned) := scanSign rest
        match unsigned.span Char.isDigit with
        | ([], _) => ([], c :: rest)
        | (digits, rest) => (c :: (sign ++ digits), rest)
      else ([], c :: rest)
  | [] => ([], [])

/-- The sign of a number, which is a minus. -/
def scanMinus : List Char → Bool × List Char
  | '-' :: rest => (true, rest)
  | input => (false, input)

/-- A number. -/
def scanNumber (input : List Char) : Option (Value × List Char) :=
  let (negative, rest) := scanMinus input
  let (whole, rest) := scanWhole rest
  if whole = [] then none
  else
    let (fraction, rest) := scanFraction rest
    let (exponent, rest) := scanExponent rest
    let n : ℤ := Nat.ofDigitChars 10 whole 0
    if fraction = [] ∧ exponent = [] then some (.int (if negative then -n else n), rest)
    else some (.number ((if negative then ['-'] else []) ++ whole ++ fraction ++ exponent), rest)

/-- The words that are values. -/
def words : List (List Char × Value) :=
  [("null".toList, .null), ("true".toList, .bool true), ("false".toList, .bool false),
    ("NaN".toList, .number "NaN".toList), ("Infinity".toList, .number "Infinity".toList),
    ("-Infinity".toList, .number "-Infinity".toList)]

/-- One of the words at the front of the input. -/
def scanWord (input : List Char) : Option (Value × List Char) :=
  (words.find? fun word => word.1.isPrefixOf input).map fun word =>
    (word.2, input.drop word.1.length)

mutual

/-- A value at the front of the input. The fuel bounds its length. -/
def scanValue : ℕ → List Char → Option (Value × List Char)
  | 0, _ => none
  | fuel + 1, input =>
      match input with
      | '"' :: rest => do
          let (s, rest) ← scanString rest.length rest
          return (.string (String.ofList s), rest)
      | '[' :: rest =>
          match skipSpace rest with
          | ']' :: rest => some (.array [], rest)
          | rest => do
              let (items, rest) ← scanElements fuel rest
              return (.array items, rest)
      | '{' :: rest =>
          match skipSpace rest with
          | '}' :: rest => some (.object [], rest)
          | rest => do
              let (fields, rest) ← scanMembers fuel rest
              return (.object fields, rest)
      | input => (scanNumber input).or (scanWord input)

/-- The items of an array from one that starts here to the closing bracket. -/
def scanElements : ℕ → List Char → Option (List Value × List Char)
  | 0, _ => none
  | fuel + 1, input => do
      let (v, rest) ← scanValue fuel input
      match skipSpace rest with
      | ']' :: rest => return ([v], rest)
      | ',' :: rest => do
          let (items, rest) ← scanElements fuel (skipSpace rest)
          return (v :: items, rest)
      | _ => none

/-- The members of an object from one that starts here to the closing brace. -/
def scanMembers : ℕ → List Char → Option (List (String × Value) × List Char)
  | 0, _ => none
  | fuel + 1, input =>
      match input with
      | '"' :: rest => do
          let (key, rest) ← scanString rest.length rest
          match skipSpace rest with
          | ':' :: rest => do
              let (v, rest) ← scanValue fuel (skipSpace rest)
              match skipSpace rest with
              | '}' :: rest => return ([(String.ofList key, v)], rest)
              | ',' :: rest => do
                  let (fields, rest) ← scanMembers fuel (skipSpace rest)
                  return ((String.ofList key, v) :: fields, rest)
              | _ => none
          | _ => none
      | _ => none

end

/-- Read a JSON text; `none` if it is none. -/
def read (text : String) : Option Value :=
  let input := skipSpace text.toList
  match scanValue input.length input with
  | some (v, rest) => if skipSpace rest = [] then some v else none
  | none => none

/-! ## Integers -/

/-- What may follow a value inside a text. -/
def Delimited (rest : List Char) : Prop := ∀ c ∈ rest.head?, c = ',' ∨ c = ']' ∨ c = '}'

theorem delimited_nil : Delimited [] := by simp [Delimited]

theorem delimited_cons {c : Char} (rest : List Char) (h : c = ',' ∨ c = ']' ∨ c = '}') :
    Delimited (c :: rest) := by
  simpa [Delimited] using h

/-- What does not go on with a digit. -/
def NoDigit (rest : List Char) : Prop := ∀ c ∈ rest.head?, c.isDigit = false

theorem Delimited.noDigit {rest : List Char} (h : Delimited rest) : NoDigit rest := by
  intro c hc
  rcases h c hc with rfl | rfl | rfl <;> decide

/-- Digits are scanned up to what follows the number. -/
theorem span_digits {digits rest : List Char} (hdigits : ∀ c ∈ digits, c.isDigit = true)
    (hrest : NoDigit rest) : (digits ++ rest).span Char.isDigit = (digits, rest) := by
  have htake : rest.takeWhile Char.isDigit = [] ∧ rest.dropWhile Char.isDigit = rest := by
    cases rest with
    | nil => simp
    | cons c rest =>
        have hc : c.isDigit = false := hrest c (by simp)
        simp [hc]
  rw [List.span_eq_takeWhile_dropWhile, List.takeWhile_append_of_pos hdigits,
    List.dropWhile_append_of_pos hdigits, htake.1, htake.2, List.append_nil]

/-- Digits, at least one. -/
def IsDigits (digits : List Char) : Prop := digits ≠ [] ∧ ∀ c ∈ digits, c.isDigit = true

/-- The whole part of a number is scanned up to its end. -/
theorem scanWhole_append {whole rest : List Char} (hwhole : IsDigits whole)
    (hzero : whole.head? = some '0' → whole = ['0']) (hrest : NoDigit rest) :
    scanWhole (whole ++ rest) = (whole, rest) := by
  have hspan : (whole ++ rest).span Char.isDigit = (whole, rest) := span_digits hwhole.2 hrest
  cases whole with
  | nil => exact absurd rfl hwhole.1
  | cons c cs =>
      by_cases hc : c = '0'
      · subst hc
        obtain rfl := (List.cons.inj (hzero rfl)).2
        rfl
      · rw [← hspan]
        simp [scanWhole, hc]

theorem isDigit_toDigits {n : ℕ} {c : Char} (hc : c ∈ Nat.toDigits 10 n) : c.isDigit = true :=
  Nat.isDigit_of_mem_toDigits (by decide) (by decide) hc

theorem isDigits_toDigits (n : ℕ) : IsDigits (Nat.toDigits 10 n) :=
  ⟨Nat.toDigits_ne_nil, fun _ => isDigit_toDigits⟩

/-- The numeral of a positive number does not begin with a zero. -/
theorem toDigits_head {n : ℕ} (hn : 0 < n) :
    ∃ c cs, Nat.toDigits 10 n = c :: cs ∧ c ≠ '0' ∧ c.isDigit = true := by
  -- by induction on the number without its last digit
  induction n using Nat.strongRecOn with
  | ind n ih =>
      by_cases hsmall : n < 10
      · rw [Nat.toDigits_of_lt_base hsmall]
        refine ⟨_, [], rfl, ?_⟩
        interval_cases n <;> decide
      · obtain ⟨c, cs, hdigits, hc⟩ := ih (n / 10) (by omega) (by omega)
        rw [Nat.toDigits_of_base_le (by decide) (by omega), hdigits]
        exact ⟨c, cs ++ [(n % 10).digitChar], rfl, hc⟩

theorem scanWhole_toDigits (n : ℕ) {rest : List Char} (hrest : Delimited rest) :
    scanWhole (Nat.toDigits 10 n ++ rest) = (Nat.toDigits 10 n, rest) := by
  refine scanWhole_append (isDigits_toDigits n) (fun hzero => ?_) hrest.noDigit
  by_cases hn : n = 0
  · rw [hn]
    rfl
  · obtain ⟨c, cs, hdigits, hc, -⟩ := toDigits_head (Nat.pos_of_ne_zero hn)
    rw [hdigits] at hzero
    exact absurd (Option.some.inj hzero) hc

theorem scanFraction_delimited {rest : List Char} (h : Delimited rest) :
    scanFraction rest = ([], rest) := by
  cases rest with
  | nil => rfl
  | cons c rest => rcases h c (by simp) with rfl | rfl | rfl <;> rfl

theorem scanExponent_delimited {rest : List Char} (h : Delimited rest) :
    scanExponent rest = ([], rest) := by
  cases rest with
  | nil => rfl
  | cons c rest => rcases h c (by simp) with rfl | rfl | rfl <;> simp [scanExponent]

/-- Digits do not begin with a minus. -/
theorem scanMinus_digits {digits : List Char} (h : IsDigits digits) (rest : List Char) :
    scanMinus (digits ++ rest) = (false, digits ++ rest) := by
  obtain ⟨hne, hdigits⟩ := h
  cases digits with
  | nil => exact absurd rfl hne
  | cons c cs =>
      have hc : c ≠ '-' := by
        rintro rfl
        exact absurd (hdigits '-' List.mem_cons_self) (by decide)
      rw [List.cons_append, scanMinus]
      exact fun _ heq => hc (List.cons.inj heq).1

/-- The sign and the digits of an integer. -/
theorem scanMinus_writeInt (n : ℤ) (rest : List Char) :
    scanMinus (writeInt n ++ rest) = (decide (n < 0), Nat.toDigits 10 n.natAbs ++ rest) := by
  unfold writeInt
  split
  · simp [scanMinus, *]
  · rw [scanMinus_digits (isDigits_toDigits _)]
    simp [*]

/-- A written integer is scanned up to its end. -/
theorem scanNumber_writeInt (n : ℤ) {rest : List Char} (hrest : Delimited rest) :
    scanNumber (writeInt n ++ rest) = some (.int n, rest) := by
  have hvalue : (if n < 0 then -|n| else |n|) = n := by
    split
    · rw [abs_of_neg ‹_›, neg_neg]
    · exact abs_of_nonneg (not_lt.mp ‹_›)
  simp [scanNumber, scanMinus_writeInt, scanWhole_toDigits _ hrest, scanFraction_delimited hrest,
    scanExponent_delimited hrest, Nat.toDigits_ne_nil, Nat.ofDigitChars_ten_toDigits, hvalue]

/-! ## Numbers with a fraction or an exponent -/

/-- A numeral without its sign, by its parts. -/
structure Numeral where
  whole : List Char
  /-- The digits after the point. There is no point without them. -/
  fraction : List Char := []
  exponent : Option ℤ := none

namespace Numeral

/-- The text of a fraction. -/
def fractionText (fraction : List Char) : List Char :=
  if fraction = [] then [] else '.' :: fraction

/-- The text of an exponent, with its sign and at least two digits. -/
def exponentText : Option ℤ → List Char
  | none => []
  | some e => 'e' :: (if e < 0 then '-' else '+') :: (Nat.toDigits 10 e.natAbs).leftpad 2 '0'

/-- The text of a numeral. -/
def text (self : Numeral) : List Char :=
  self.whole ++ (fractionText self.fraction ++ exponentText self.exponent)

/-- JSON has the numeral, and it is not one of an integer. -/
structure Valid (n : Numeral) : Prop where
  whole : IsDigits n.whole
  zero : n.whole.head? = some '0' → n.whole = ['0']
  fraction : ∀ c ∈ n.fraction, c.isDigit = true
  decimal : n.fraction ≠ [] ∨ n.exponent ≠ none

theorem isDigits_exponent (e : ℤ) : IsDigits ((Nat.toDigits 10 e.natAbs).leftpad 2 '0') := by
  rw [List.leftpad]
  refine ⟨by simp [Nat.toDigits_ne_nil], fun c hc => ?_⟩
  rcases List.mem_append.mp hc with hpad | hdigit
  · rw [(List.mem_replicate.mp hpad).2]
    rfl
  · exact isDigit_toDigits hdigit

/-- The fraction of a numeral is scanned up to its end. -/
theorem scanFraction_append {fraction rest : List Char}
    (hfraction : ∀ c ∈ fraction, c.isDigit = true)
    (hrest : ∀ c ∈ rest.head?, c.isDigit = false ∧ c ≠ '.') :
    scanFraction (fractionText fraction ++ rest) = (fractionText fraction, rest) := by
  unfold fractionText
  split
  · cases rest with
    | nil => rfl
    | cons c rest =>
        have hc : c ≠ '.' := (hrest c (by simp)).2
        simp [scanFraction, hc]
  · rename_i hne
    have hspan := @span_digits fraction rest hfraction fun c hc => (hrest c hc).1
    rw [List.cons_append, scanFraction, hspan]
    cases fraction with
    | nil => exact absurd rfl hne
    | cons c cs => rfl

/-- The exponent of a numeral is scanned up to its end. -/
theorem scanExponent_append (exponent : Option ℤ) {rest : List Char} (hrest : Delimited rest) :
    scanExponent (exponentText exponent ++ rest) = (exponentText exponent, rest) := by
  cases exponent with
  | none => exact scanExponent_delimited hrest
  | some e =>
      have hdigits := isDigits_exponent e
      rw [exponentText]
      set digits := (Nat.toDigits 10 e.natAbs).leftpad 2 '0'
      have hspan : (digits ++ rest).span Char.isDigit = (digits, rest) :=
        span_digits hdigits.2 hrest.noDigit
      have hsign : scanSign ((if e < 0 then '-' else '+') :: (digits ++ rest)) =
          ([if e < 0 then '-' else '+'], digits ++ rest) := by
        split <;> rfl
      rw [List.cons_append, List.cons_append, scanExponent]
      simp only [true_or, if_true, hsign, hspan]
      cases hcases : digits with
      | nil => exact absurd hcases hdigits.1
      | cons c cs => rfl

/-- What follows the fraction of a numeral. -/
theorem head_exponentText (exponent : Option ℤ) {rest : List Char} (hrest : Delimited rest) :
    ∀ c ∈ (exponentText exponent ++ rest).head?, c.isDigit = false ∧ c ≠ '.' := by
  intro c hc
  cases exponent with
  | none => rcases hrest c hc with rfl | rfl | rfl <;> decide
  | some e =>
      obtain rfl : 'e' = c := by simpa [exponentText] using hc
      decide

/-- What follows the whole part of a numeral. -/
theorem noDigit_fractionText (fraction : List Char) {rest : List Char}
    (hrest : ∀ c ∈ rest.head?, c.isDigit = false ∧ c ≠ '.') :
    NoDigit (fractionText fraction ++ rest) := by
  intro c hc
  unfold fractionText at hc
  split at hc
  · exact (hrest c hc).1
  · obtain rfl : '.' = c := by simpa using hc
    decide

/-- A numeral with its sign is scanned up to its end. -/
theorem scanNumber_text {n : Numeral} (h : n.Valid) (negative : Bool) {rest : List Char}
    (hrest : Delimited rest) :
    scanNumber ((if negative then ['-'] else []) ++ n.text ++ rest) =
      some (.number ((if negative then ['-'] else []) ++ n.text), rest) := by
  have hexponent := scanExponent_append n.exponent hrest
  have hhead := head_exponentText n.exponent hrest
  have hfraction := scanFraction_append h.fraction hhead
  have hwhole := scanWhole_append h.whole h.zero (noDigit_fractionText n.fraction hhead)
  have htext : n.text ++ rest =
      n.whole ++ (fractionText n.fraction ++ (exponentText n.exponent ++ rest)) := by
    simp [text]
  have hminus : scanMinus ((if negative then ['-'] else []) ++ n.text ++ rest) =
      (negative, n.text ++ rest) := by
    cases negative with
    | true => rfl
    | false =>
        rw [htext, ← scanMinus_digits h.whole, ← htext]
        rfl
  have hparts : ¬ (fractionText n.fraction = [] ∧ exponentText n.exponent = []) := by
    rintro ⟨hnone, hnone'⟩
    rcases h.decimal with hne | hne
    · rw [fractionText, if_neg hne] at hnone
      cases hnone
    · cases hcases : n.exponent with
      | none => exact hne hcases
      | some e =>
          rw [hcases] at hnone'
          cases hnone'
  rw [scanNumber, hminus, htext]
  simp only [hwhole, hfraction, hexponent, h.whole.1, hparts, if_false, text, List.append_assoc]

end Numeral

/-- The text of a number that is not written as an integer. -/
inductive IsNumber : List Char → Prop
  | numeral (negative : Bool) {n : Numeral} (h : n.Valid) :
      IsNumber ((if negative then ['-'] else []) ++ n.text)
  | nan : IsNumber "NaN".toList
  | infinity : IsNumber "Infinity".toList
  | negInfinity : IsNumber "-Infinity".toList

/-- The first character of a number. -/
theorem IsNumber.head {token : List Char} (h : IsNumber token) :
    ∃ c cs, token = c :: cs ∧ (c = '-' ∨ c.isDigit = true ∨ c = 'N' ∨ c = 'I') := by
  cases h with
  | @numeral negative n h =>
      cases negative with
      | true => exact ⟨'-', n.text, rfl, Or.inl rfl⟩
      | false =>
          cases hwhole : n.whole with
          | nil => exact absurd hwhole h.whole.1
          | cons c cs =>
              refine ⟨c, _, by rw [Numeral.text, hwhole]; rfl, Or.inr (Or.inl ?_)⟩
              exact h.whole.2 c (hwhole ▸ List.mem_cons_self)
  | nan => exact ⟨'N', _, rfl, by decide⟩
  | infinity => exact ⟨'I', _, rfl, by decide⟩
  | negInfinity => exact ⟨'-', _, rfl, by decide⟩

/-- The text of a number is scanned up to its end. -/
theorem scanNumber_or_scanWord {token rest : List Char} (h : IsNumber token)
    (hrest : Delimited rest) :
    (scanNumber (token ++ rest)).or (scanWord (token ++ rest)) = some (.number token, rest) := by
  cases h with
  | numeral negative h => rw [Numeral.scanNumber_text h negative hrest, Option.some_or]
  | nan => rfl
  | infinity => rfl
  | negInfinity => rfl

/-! ## Reading a written value -/

/-- Values whose numbers have texts of numbers. -/
inductive Plain : Value → Prop
  | null : Plain .null
  | bool (value : Bool) : Plain (.bool value)
  | int (value : ℤ) : Plain (.int value)
  | number {token : List Char} (h : IsNumber token) : Plain (.number token)
  | string (value : String) : Plain (.string value)
  | array {items : List Value} (h : ∀ v ∈ items, Plain v) : Plain (.array items)
  | object {fields : List (String × Value)} (h : ∀ field ∈ fields, Plain field.2) :
      Plain (.object fields)

/-- The first character of a written integer. -/
theorem writeInt_head (n : ℤ) : ∃ c cs, writeInt n = c :: cs ∧ (c = '-' ∨ c.isDigit = true) := by
  unfold writeInt
  split
  · exact ⟨_, _, rfl, .inl rfl⟩
  · cases hdigits : Nat.toDigits 10 n.natAbs with
    | nil => exact absurd hdigits Nat.toDigits_ne_nil
    | cons c cs =>
        exact ⟨c, cs, rfl, .inr
          (isDigit_toDigits (hdigits ▸ List.mem_cons_self : c ∈ Nat.toDigits 10 n.natAbs))⟩

/-- A character that a value may begin with. -/
def Starts (c : Char) : Prop :=
  c ≠ ' ' ∧ c ≠ '\t' ∧ c ≠ '\n' ∧ c ≠ '\r' ∧ c ≠ ']' ∧ c ≠ '}'

instance (c : Char) : Decidable (Starts c) := inferInstanceAs (Decidable (_ ∧ _))

theorem starts_of_isDigit {c : Char} (h : c.isDigit = true) : Starts c := by
  refine ⟨?_, ?_, ?_, ?_, ?_, ?_⟩ <;> (rintro rfl; exact absurd h (by decide))

/-- The first character of a written value. -/
theorem write_head {v : Value} (h : Plain v) : ∃ c cs, write v = c :: cs ∧ Starts c := by
  cases h with
  | null => exact ⟨_, _, by rw [write], by decide⟩
  | bool value => cases value <;> exact ⟨_, _, by rw [write], by decide⟩
  | int n =>
      obtain ⟨c, cs, hhead, hc⟩ := writeInt_head n
      refine ⟨c, cs, by rw [write, hhead], ?_⟩
      rcases hc with rfl | hdigit
      · decide
      · exact starts_of_isDigit hdigit
  | number h =>
      obtain ⟨c, cs, hhead, hc⟩ := h.head
      refine ⟨c, cs, by rw [write, hhead], ?_⟩
      rcases hc with rfl | hdigit | rfl | rfl
      · decide
      · exact starts_of_isDigit hdigit
      · decide
      · decide
  | string s => exact ⟨_, _, by rw [write, encodeString], by decide⟩
  | array _ => exact ⟨_, _, by rw [write], by decide⟩
  | object _ => exact ⟨_, _, by rw [write], by decide⟩

/-- What starts a value is no white space. -/
theorem skipSpace_starts {c : Char} (h : Starts c) (cs : List Char) :
    skipSpace (c :: cs) = c :: cs := by
  obtain ⟨h₁, h₂, h₃, h₄, -⟩ := h
  simp [skipSpace, h₁, h₂, h₃, h₄]

@[simp]
theorem skipSpace_comma (rest : List Char) : skipSpace (',' :: rest) = ',' :: rest := by
  simp [skipSpace]

theorem scanString_write (s : String) (rest : List Char) :
    scanString (s.toList.flatMap escapeChar ++ '"' :: rest).length
      (s.toList.flatMap escapeChar ++ '"' :: rest) = some (s.toList, rest) :=
  scanString_escaped s.toList rest le_rfl

/-- A value that is scanned up to its end, whatever follows. -/
def Scans (v : Value) : Prop :=
  ∀ fuel rest, (write v).length ≤ fuel → Delimited rest →
    scanValue fuel (write v ++ rest) = some (v, rest)

/-- A blank before the items of an array is skipped. -/
theorem skipSpace_writeItems {items : List Value} (hne : items ≠ [])
    (hplain : ∀ v ∈ items, Plain v) (rest : List Char) :
    skipSpace (' ' :: (writeItems items ++ rest)) = writeItems items ++ rest ∧
      skipSpace (writeItems items ++ rest) = writeItems items ++ rest ∧
      ∀ other, writeItems items ++ rest ≠ ']' :: other := by
  obtain ⟨c, cs, hhead, hc⟩ : ∃ c cs, writeItems items = c :: cs ∧ Starts c := by
    match items with
    | [] => exact absurd rfl hne
    | [v] =>
        rw [writeItems]
        exact write_head (hplain v List.mem_cons_self)
    | v :: v' :: items =>
        obtain ⟨c, cs, hv, hc⟩ := write_head (hplain v List.mem_cons_self)
        exact ⟨c, _, by rw [writeItems, hv]; rfl; simp, hc⟩
  rw [hhead, List.cons_append]
  have hskip := skipSpace_starts hc (cs ++ rest)
  refine ⟨by simpa [skipSpace] using hskip, hskip, fun other heq => ?_⟩
  exact hc.2.2.2.2.1 (List.cons.inj heq).1

/-- The items of an array are scanned, if each of them is. -/
theorem scanElements_writeItems {items : List Value} (hne : items ≠ [])
    (hplain : ∀ v ∈ items, Plain v) (hscans : ∀ v ∈ items, Scans v) (fuel : ℕ) (rest : List Char)
    (hfuel : (writeItems items).length < fuel) :
    scanElements fuel (writeItems items ++ ']' :: rest) = some (items, rest) := by
  induction items generalizing fuel with
  | nil => exact absurd rfl hne
  | cons v items ih =>
      obtain ⟨fuel, rfl⟩ : ∃ n, fuel = n + 1 := ⟨fuel - 1, by omega⟩
      have hv := hscans v List.mem_cons_self
      cases items with
      | nil =>
          rw [writeItems] at hfuel ⊢
          have hscan := hv fuel (']' :: rest) (by omega) (delimited_cons rest (by decide))
          simp [scanElements, hscan, skipSpace]
      | cons v' items =>
          rw [writeItems, List.length_append, List.length_cons, List.length_cons] at hfuel
          · have hscan := hv fuel (',' :: ' ' :: (writeItems (v' :: items) ++ ']' :: rest))
              (by omega) (delimited_cons _ (by decide))
            have hrest := ih (List.cons_ne_nil v' items)
              (fun w hw => hplain w (List.mem_cons_of_mem v hw))
              (fun w hw => hscans w (List.mem_cons_of_mem v hw)) fuel (by omega)
            have hskip := (skipSpace_writeItems (List.cons_ne_nil v' items)
              (fun w hw => hplain w (List.mem_cons_of_mem v hw)) (']' :: rest)).1
            have htext : writeItems (v :: v' :: items) ++ ']' :: rest =
                write v ++ ',' :: ' ' :: (writeItems (v' :: items) ++ ']' :: rest) := by
              rw [writeItems]
              · simp
              · exact List.cons_ne_nil _ _
            rw [htext, scanElements, hscan]
            simp only [Option.bind_eq_bind, Option.bind_some, skipSpace_comma, hskip, hrest]
            rfl
          · exact List.cons_ne_nil _ _

/-- The members of a nonempty object begin with a quote. -/
theorem writeFields_head {fields : List (String × Value)} (hne : fields ≠ []) :
    ∃ body, writeFields fields = '"' :: body := by
  match fields with
  | [] => exact absurd rfl hne
  | [(key, v)] => exact ⟨_, by rw [writeFields, encodeString]; rfl⟩
  | (key, v) :: field :: fields =>
      exact ⟨_, by rw [writeFields, encodeString]; rfl; simp⟩

/-- A member up to its value is scanned. -/
theorem scanMembers_cons {fuel : ℕ} (key : String) {v : Value} (hplain : Plain v) (hv : Scans v)
    (rest : List Char) (hfuel : (write v).length ≤ fuel) (hrest : Delimited rest) :
    scanMembers (fuel + 1) (encodeString key.toList ++ ':' :: ' ' :: (write v ++ rest)) =
      match skipSpace rest with
      | '}' :: rest => some ([(key, v)], rest)
      | ',' :: rest => do
          let (fields, rest) ← scanMembers fuel (skipSpace rest)
          return ((key, v) :: fields, rest)
      | _ => none := by
  obtain ⟨c, cs, hhead, hc⟩ := write_head hplain
  have hskip : skipSpace (' ' :: (write v ++ rest)) = write v ++ rest := by
    have h := skipSpace_starts hc (cs ++ rest)
    rw [hhead, List.cons_append]
    simpa [skipSpace] using h
  have hcolon : skipSpace (':' :: ' ' :: (write v ++ rest)) = ':' :: ' ' :: (write v ++ rest) := by
    simp [skipSpace]
  rw [encodeString_append, scanMembers, scanString_write]
  simp only [Option.bind_eq_bind, Option.bind_some, hcolon, hskip, hv fuel rest hfuel hrest,
    String.ofList_toList]
  rfl

/-- The members of an object are scanned, if the value of each of them is. -/
theorem scanMembers_writeFields {fields : List (String × Value)} (hne : fields ≠ [])
    (hplain : ∀ field ∈ fields, Plain field.2) (hscans : ∀ field ∈ fields, Scans field.2)
    (fuel : ℕ) (rest : List Char) (hfuel : (writeFields fields).length < fuel) :
    scanMembers fuel (writeFields fields ++ '}' :: rest) = some (fields, rest) := by
  induction fields generalizing fuel with
  | nil => exact absurd rfl hne
  | cons field fields ih =>
      obtain ⟨key, v⟩ := field
      obtain ⟨fuel, rfl⟩ : ∃ n, fuel = n + 1 := ⟨fuel - 1, by omega⟩
      have hv : Scans v := hscans (key, v) List.mem_cons_self
      have hp : Plain v := hplain (key, v) List.mem_cons_self
      cases fields with
      | nil =>
          rw [writeFields] at hfuel ⊢
          simp only [List.length_append, List.length_cons] at hfuel
          have hlength : (write v).length ≤ fuel := by omega
          have hmember := scanMembers_cons key hp hv ('}' :: rest) hlength
            (delimited_cons rest (by decide))
          have hbrace : skipSpace ('}' :: rest) = '}' :: rest := by simp [skipSpace]
          rw [hbrace] at hmember
          simpa using hmember
      | cons field' fields =>
          have htext : writeFields ((key, v) :: field' :: fields) = encodeString key.toList ++
              ':' :: ' ' :: (write v ++ ',' :: ' ' :: writeFields (field' :: fields)) := by
            rw [writeFields]
            exact List.cons_ne_nil _ _
          rw [htext] at hfuel ⊢
          simp only [List.length_append, List.length_cons] at hfuel
          have hlength : (write v).length ≤ fuel := by omega
          have hmember := scanMembers_cons key hp hv
            (',' :: ' ' :: (writeFields (field' :: fields) ++ '}' :: rest)) hlength
            (delimited_cons _ (by decide))
          have hrest := ih (List.cons_ne_nil field' fields)
            (fun w hw => hplain w (List.mem_cons_of_mem _ hw))
            (fun w hw => hscans w (List.mem_cons_of_mem _ hw)) fuel (by omega)
          obtain ⟨body, hbody⟩ := writeFields_head (List.cons_ne_nil field' fields)
          have hskip : skipSpace (' ' :: (writeFields (field' :: fields) ++ '}' :: rest)) =
              writeFields (field' :: fields) ++ '}' :: rest := by
            rw [hbody]
            simp [skipSpace]
          rw [List.append_assoc]
          simp only [List.cons_append, List.append_assoc]
          rw [hmember, skipSpace_comma]
          simp only [hskip, hrest, Option.bind_eq_bind, Option.bind_some]
          rfl

/-- A value that starts with none of the three brackets is a number or a word. -/
theorem scanValue_plain (fuel : ℕ) {c : Char} (cs : List Char)
    (hc : c ≠ '"' ∧ c ≠ '[' ∧ c ≠ '{') :
    scanValue (fuel + 1) (c :: cs) = (scanNumber (c :: cs)).or (scanWord (c :: cs)) := by
  obtain ⟨h₁, h₂, h₃⟩ := hc
  rw [scanValue] <;> (intro other heq; simp_all)

/-- A digit opens no string, array or object. -/
theorem plain_of_isDigit {c : Char} (h : c.isDigit = true) : c ≠ '"' ∧ c ≠ '[' ∧ c ≠ '{' := by
  refine ⟨?_, ?_, ?_⟩ <;> (rintro rfl; exact absurd h (by decide))

/-- A value whose text is a number or a word is scanned up to its end. -/
theorem scans_of_plain {v : Value} {c : Char} {cs : List Char} (hhead : write v = c :: cs)
    (hc : c ≠ '"' ∧ c ≠ '[' ∧ c ≠ '{')
    (hscan : ∀ rest, Delimited rest →
      (scanNumber (write v ++ rest)).or (scanWord (write v ++ rest)) = some (v, rest)) :
    Scans v := by
  intro fuel rest hfuel hrest
  have hv := hscan rest hrest
  rw [hhead, List.cons_append] at hv ⊢
  rw [hhead, List.length_cons] at hfuel
  obtain ⟨fuel, rfl⟩ : ∃ n, fuel = n + 1 := ⟨fuel - 1, by omega⟩
  rw [scanValue_plain fuel _ hc, hv]

/-- A written value is scanned up to its end. -/
theorem scanValue_write {v : Value} (h : Plain v) : Scans v := by
  induction h with
  | null =>
      refine scans_of_plain (by rw [write]) (by decide) fun rest _ => ?_
      simp [write, scanNumber, scanMinus, scanWhole, scanWord, words]
  | bool value =>
      cases value <;>
      · refine scans_of_plain (by rw [write]) (by decide) fun rest _ => ?_
        simp [write, scanNumber, scanMinus, scanWhole, scanWord, words]
  | int n =>
      obtain ⟨c, cs, hhead, hc⟩ := writeInt_head n
      have hplain : c ≠ '"' ∧ c ≠ '[' ∧ c ≠ '{' := by
        rcases hc with rfl | hdigit
        · decide
        · exact plain_of_isDigit hdigit
      refine scans_of_plain (by rw [write, hhead]) hplain fun rest hrest => ?_
      rw [write, scanNumber_writeInt n hrest, Option.some_or]
  | @number token h =>
      obtain ⟨c, cs, hhead, hc⟩ := h.head
      have hplain : c ≠ '"' ∧ c ≠ '[' ∧ c ≠ '{' := by
        rcases hc with rfl | hdigit | rfl | rfl
        · decide
        · exact plain_of_isDigit hdigit
        · decide
        · decide
      refine scans_of_plain (by rw [write, hhead]) hplain fun rest hrest => ?_
      rw [write, scanNumber_or_scanWord h hrest]
  | string s =>
      intro fuel rest hfuel _
      rw [write] at hfuel ⊢
      obtain ⟨fuel, rfl⟩ : ∃ n, fuel = n + 1 :=
        ⟨fuel - 1, by simp [encodeString] at hfuel; omega⟩
      rw [encodeString_append, scanValue, scanString_write]
      simp
  | @array items hitems ih =>
      intro fuel rest hfuel _
      rw [write] at hfuel ⊢
      simp only [List.length_cons, List.length_append] at hfuel
      obtain ⟨fuel, rfl⟩ : ∃ n, fuel = n + 1 := ⟨fuel - 1, by omega⟩
      by_cases hne : items = []
      · subst hne
        simp [writeItems, scanValue, skipSpace]
      · obtain ⟨-, hskip, hbracket⟩ := skipSpace_writeItems hne hitems (']' :: rest)
        have hscan := scanElements_writeItems hne hitems ih fuel rest (by omega)
        rw [List.cons_append, List.append_assoc, List.singleton_append, scanValue, hskip]
        simp only [hscan]
        rfl
  | @object fields hfields ih =>
      intro fuel rest hfuel _
      rw [write] at hfuel ⊢
      simp only [List.length_cons, List.length_append] at hfuel
      obtain ⟨fuel, rfl⟩ : ∃ n, fuel = n + 1 := ⟨fuel - 1, by omega⟩
      by_cases hne : fields = []
      · subst hne
        simp [writeFields, scanValue, skipSpace]
      · obtain ⟨body, hbody⟩ := writeFields_head hne
        have hskip : skipSpace (writeFields fields ++ '}' :: rest) =
            writeFields fields ++ '}' :: rest := by
          rw [hbody]
          simp [skipSpace]
        have hscan := scanMembers_writeFields hne hfields ih fuel rest (by omega)
        rw [List.cons_append, List.append_assoc, List.singleton_append, scanValue, hskip]
        rw [hbody, List.cons_append] at hscan ⊢
        split
        · -- the first member does not begin with the closing brace
          rename_i heq
          exact absurd (List.cons.inj heq).1 (by decide)
        · rw [hscan]
          rfl

/-- Reading a written value gives the value back. -/
theorem read_write {v : Value} (h : Plain v) : read (String.ofList (write v)) = some v := by
  obtain ⟨c, cs, hhead, hc⟩ := write_head h
  have hskip : skipSpace (write v) = write v := by
    rw [hhead]
    exact skipSpace_starts hc cs
  have hscan := scanValue_write h (write v).length [] le_rfl delimited_nil
  rw [List.append_nil] at hscan
  simp only [read, String.toList_ofList, hskip, hscan]
  rfl

end JsonText
