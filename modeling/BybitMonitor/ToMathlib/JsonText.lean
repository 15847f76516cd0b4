import Mathlib.Data.Nat.Notation
import Mathlib.Tactic.IntervalCases
import Mathlib.Tactic.NormNum

/-!
# JSON text of arrays of strings

`JsonText.dumps` writes a list of strings as a JSON array with all characters outside printable
ASCII escaped, and `JsonText.loads` reads such a text back. Both work on lists of characters;
astral characters are written as a pair of surrogate escapes.

* `JsonText.loads_dumps`: reading a written text gives back the list.
-/

namespace JsonText

/-! ## Writing -/

/-- The four hexadecimal digits of a number below `2 ^ 16`. -/
def hex4 (n : ℕ) : List Char :=
  [(n / 4096 % 16).digitChar, (n / 256 % 16).digitChar, (n / 16 % 16).digitChar,
    (n % 16).digitChar]

/-- The short escapes, by the letter that follows the backslash. -/
def shortEscapes : List (Char × Char) :=
  [('"', '"'), ('\\', '\\'), ('n', '\n'), ('r', '\r'), ('t', '\t'), ('f', '\x0c'), ('b', '\x08')]

/-- A character as it stands inside a string literal. -/
def escapeChar (c : Char) : List Char :=
  match shortEscapes.find? (fun e => e.2 = c) with
  | some (letter, _) => ['\\', letter]
  | none =>
      if 32 ≤ c.toNat ∧ c.toNat < 127 then [c]
      else if c.toNat < 65536 then '\\' :: 'u' :: hex4 c.toNat
      else '\\' :: 'u' :: hex4 (55296 + (c.toNat - 65536) / 1024) ++
        '\\' :: 'u' :: hex4 (56320 + (c.toNat - 65536) % 1024)

/-- A string literal. -/
def encodeString (s : List Char) : List Char :=
  '"' :: (s.flatMap escapeChar ++ ['"'])

/-- The items of an array, separated by `", "`. -/
def encodeItems : List (List Char) → List Char
  | [] => []
  | [s] => encodeString s
  | s :: rest => encodeString s ++ ',' :: ' ' :: encodeItems rest

/-- The JSON text of a list of strings. -/
def dumps (items : List String) : String :=
  String.ofList ('[' :: (encodeItems (items.map String.toList) ++ [']']))

/-! ## Reading -/

/-- The value of a hexadecimal digit. -/
def hexValue? (c : Char) : Option ℕ :=
  if '0' ≤ c ∧ c ≤ '9' then some (c.toNat - 48)
  else if 'a' ≤ c ∧ c ≤ 'f' then some (c.toNat - 87)
  else if 'A' ≤ c ∧ c ≤ 'F' then some (c.toNat - 55)
  else none

/-- Four hexadecimal digits at the front of the input. -/
def hex4? : List Char → Option (ℕ × List Char)
  | a :: b :: c :: d :: rest => do
      let a ← hexValue? a
      let b ← hexValue? b
      let c ← hexValue? c
      let d ← hexValue? d
      return (4096 * a + 256 * b + 16 * c + d, rest)
  | _ => none

/-- The second half of a surrogate pair whose first half is `55296 + high`. -/
def scanLowSurrogate (high : ℕ) : List Char → Option (Char × List Char)
  | '\\' :: 'u' :: rest => do
      let (low, rest) ← hex4? rest
      if 56320 ≤ low ∧ low < 57344 then
        return (Char.ofNat (65536 + 1024 * high + (low - 56320)), rest)
      else none
  | _ => none

/-- The character after `\u`; an unpaired surrogate is no character. -/
def scanUnicode (input : List Char) : Option (Char × List Char) := do
  let (unit, rest) ← hex4? input
  if 55296 ≤ unit ∧ unit < 56320 then scanLowSurrogate (unit - 55296) rest
  else if 56320 ≤ unit ∧ unit < 57344 then none
  else return (Char.ofNat unit, rest)

/-- One character of a string literal; a control character must be escaped. -/
def scanChar : List Char → Option (Char × List Char)
  | '\\' :: 'u' :: rest => scanUnicode rest
  | '\\' :: '/' :: rest => some ('/', rest)
  | '\\' :: letter :: rest =>
      (shortEscapes.find? (fun e => e.1 = letter)).map fun e => (e.2, rest)
  | c :: rest => if c = '\\' ∨ c.toNat < 32 then none else some (c, rest)
  | [] => none

/-- The rest of a string literal after its opening quote. The fuel bounds its length. -/
def scanString : ℕ → List Char → Option (List Char × List Char)
  | 0, _ => none
  | _ + 1, '"' :: rest => some ([], rest)
  | fuel + 1, input => do
      -- the first clause has taken the closing quote
      let (c, rest) ← scanChar input
      let (s, rest) ← scanString fuel rest
      return (c :: s, rest)

/-- Drop the white space at the front of the input. -/
def skipSpace (input : List Char) : List Char :=
  input.dropWhile fun c => c = ' ' ∨ c = '\t' ∨ c = '\n' ∨ c = '\r'

/-- The items of an array from one that starts here to the closing bracket. -/
def scanItems : ℕ → List Char → Option (List (List Char) × List Char)
  | fuel + 1, '"' :: input => do
      let (s, rest) ← scanString input.length input
      match skipSpace rest with
      | ']' :: rest => return ([s], rest)
      | ',' :: rest =>
          let (items, rest) ← scanItems fuel (skipSpace rest)
          return (s :: items, rest)
      | _ => none
  | _, _ => none

/-- A whole array of strings. -/
def scanArray (input : List Char) : Option (List (List Char) × List Char) :=
  match skipSpace input with
  | '[' :: input =>
      match skipSpace input with
      | ']' :: rest => some ([], rest)
      | input => scanItems input.length input
  | _ => none

/-- Read a JSON array of strings; `none` if the text is anything else. -/
def loads (text : String) : Option (List String) :=
  match scanArray text.toList with
  | some (items, rest) =>
      if skipSpace rest = [] then some (items.map String.ofList) else none
  | none => none

/-! ## Reading a written text -/

theorem hexValue?_digitChar {n : ℕ} (h : n < 16) : hexValue? n.digitChar = some n := by
  interval_cases n <;> decide

theorem hex4?_hex4 {n : ℕ} (h : n < 65536) (rest : List Char) :
    hex4? (hex4 n ++ rest) = some (n, rest) := by
  have hmod (m : ℕ) : m % 16 < 16 := Nat.mod_lt m (by decide)
  have hsum : 4096 * (n / 4096 % 16) + 256 * (n / 256 % 16) + 16 * (n / 16 % 16) + n % 16 = n := by
    omega
  simp [hex4, hex4?, hexValue?_digitChar (hmod _), hsum]

/-- A character is no surrogate. -/
theorem toNat_not_surrogate (c : Char) :
    c.toNat < 55296 ∨ 57343 < c.toNat ∧ c.toNat < 1114112 := by
  simpa [UInt32.isValidChar, Nat.isValidChar] using c.valid

/-- The short escapes are read back. -/
theorem scanChar_shortEscape (e : Char × Char) (he : e ∈ shortEscapes) (rest : List Char) :
    scanChar ('\\' :: e.1 :: rest) = some (e.2, rest) := by
  simp only [shortEscapes, List.mem_cons, List.not_mem_nil, or_false] at he
  rcases he with rfl | rfl | rfl | rfl | rfl | rfl | rfl <;> rfl

/-- A character that is not escaped stands for itself. -/
theorem scanChar_self {c : Char} (hslash : c ≠ '\\') (hctl : 32 ≤ c.toNat) (rest : List Char) :
    scanChar (c :: rest) = some (c, rest) := by
  have hctl' : ¬ c.toNat < 32 := Nat.not_lt.mpr hctl
  simp [scanChar, hslash, hctl']

/-- A character of the basic plane is read back from its code. -/
theorem scanUnicode_hex4 {c : Char} (h : c.toNat < 65536) (rest : List Char) :
    scanUnicode (hex4 c.toNat ++ rest) = some (c, rest) := by
  have hval := toNat_not_surrogate c
  have hhigh : ¬ (55296 ≤ c.toNat ∧ c.toNat < 56320) := by omega
  have hlow : ¬ (56320 ≤ c.toNat ∧ c.toNat < 57344) := by omega
  simp [scanUnicode, hex4?_hex4 h, hhigh, hlow, Char.ofNat_toNat]

/-- A surrogate pair is read as one astral character. -/
theorem scanUnicode_surrogates {high low : ℕ} (hhigh : high < 1024) (hlow : low < 1024)
    (rest : List Char) :
    scanUnicode (hex4 (55296 + high) ++ '\\' :: 'u' :: (hex4 (56320 + low) ++ rest)) =
      some (Char.ofNat (65536 + 1024 * high + low), rest) := by
  have h₁ : 55296 + high < 56320 := by omega
  have h₂ : 56320 + low < 57344 := by omega
  rw [scanUnicode, hex4?_hex4 (by omega)]
  simp only [Option.bind_eq_bind, Option.bind_some, Nat.le_add_right, h₁, and_self, if_true]
  rw [scanLowSurrogate, hex4?_hex4 (by omega)]
  simp only [Option.bind_eq_bind, Option.bind_some, Nat.le_add_right, h₂, and_self, if_true,
    Nat.add_sub_cancel_left, Option.pure_def]

/-- An astral character is the one its surrogate pair stands for. -/
theorem ofNat_surrogates {c : Char} (h : 65536 ≤ c.toNat) :
    Char.ofNat (65536 + 1024 * ((c.toNat - 65536) / 1024) + (c.toNat - 65536) % 1024) = c := by
  have hdiv := Nat.div_add_mod (c.toNat - 65536) 1024
  rw [Nat.add_assoc, hdiv, Nat.add_sub_cancel' h, Char.ofNat_toNat]

/-- Scanning an escaped character gives the character back. -/
theorem scanChar_escapeChar (c : Char) (rest : List Char) :
    scanChar (escapeChar c ++ rest) = some (c, rest) := by
  unfold escapeChar
  cases hfind : shortEscapes.find? (fun e => e.2 = c) with
  | some e =>
      have hc : e.2 = c := by simpa using List.find?_some hfind
      simpa [hc] using scanChar_shortEscape e (List.mem_of_find?_eq_some hfind) rest
  | none =>
      have hslash : c ≠ '\\' := by
        rintro rfl
        exact absurd hfind (by decide)
      simp only
      -- printable ASCII, the basic plane, and pairs of surrogates
      split_ifs with hprint hbmp
      · exact scanChar_self hslash hprint.1 rest
      · exact scanUnicode_hex4 hbmp rest
      · have hval := toNat_not_surrogate c
        have hhigh : (c.toNat - 65536) / 1024 < 1024 := by omega
        have hlow : (c.toNat - 65536) % 1024 < 1024 := by omega
        have hscan := scanUnicode_surrogates hhigh hlow rest
        rw [ofNat_surrogates (Nat.not_lt.mp hbmp)] at hscan
        simpa [scanChar] using hscan

/-- An escaped character is not the closing quote. -/
theorem escapeChar_head (c : Char) : ∃ a as, escapeChar c = a :: as ∧ a ≠ '"' := by
  unfold escapeChar
  cases hfind : shortEscapes.find? (fun e => e.2 = c) with
  | some e => exact ⟨_, _, rfl, by decide⟩
  | none =>
      have hquote : c ≠ '"' := by
        rintro rfl
        exact absurd hfind (by decide)
      simp only
      split_ifs
      · exact ⟨c, [], rfl, hquote⟩
      · exact ⟨_, _, rfl, by decide⟩
      · exact ⟨_, _, rfl, by decide⟩

/-- Scanning the body of a literal gives the string back, if the fuel covers the body. -/
theorem scanString_escaped (s rest : List Char) {fuel : ℕ}
    (h : (s.flatMap escapeChar ++ '"' :: rest).length ≤ fuel) :
    scanString fuel (s.flatMap escapeChar ++ '"' :: rest) = some (s, rest) := by
  induction s generalizing fuel with
  | nil =>
      obtain ⟨fuel, rfl⟩ : ∃ n, fuel = n + 1 := ⟨fuel - 1, by simp at h; omega⟩
      simp [scanString]
  | cons c s ih =>
      -- the next character is not the closing quote, so that one character is scanned
      obtain ⟨a, as, hesc, ha⟩ := escapeChar_head c
      obtain ⟨fuel, rfl⟩ : ∃ n, fuel = n + 1 := ⟨fuel - 1, by simp [hesc] at h; omega⟩
      have hfuel : (s.flatMap escapeChar ++ '"' :: rest).length ≤ fuel := by
        simp [hesc] at h ⊢
        omega
      have hscan := scanChar_escapeChar c (s.flatMap escapeChar ++ '"' :: rest)
      rw [List.flatMap_cons, List.append_assoc, hesc, List.cons_append] at *
      rw [scanString, hscan]
      · simp [ih hfuel]
      · simpa using ha

theorem encodeString_append (s rest : List Char) :
    encodeString s ++ rest = '"' :: (s.flatMap escapeChar ++ '"' :: rest) := by
  simp [encodeString]

/-- A written array item does not start with white space. -/
theorem skipSpace_encodeItems {items : List (List Char)} (hne : items ≠ []) (rest : List Char) :
    skipSpace (encodeItems items ++ rest) = encodeItems items ++ rest := by
  match items with
  | [] => exact absurd rfl hne
  | [s] => simp [skipSpace, encodeItems, encodeString]
  | s :: s' :: items => simp [skipSpace, encodeItems, encodeString]

/-- Scanning the items of an array gives the list back, if the fuel covers the number of items. -/
theorem scanItems_encodeItems (items : List (List Char)) (hne : items ≠ []) (rest : List Char)
    {fuel : ℕ} (h : items.length ≤ fuel) :
    scanItems fuel (encodeItems items ++ ']' :: rest) = some (items, rest) := by
  -- one unit of fuel for each item
  induction items generalizing fuel with
  | nil => exact absurd rfl hne
  | cons s items ih =>
      obtain ⟨fuel, rfl⟩ : ∃ n, fuel = n + 1 := ⟨fuel - 1, by simp at h; omega⟩
      cases items with
      | nil =>
          rw [encodeItems, encodeString_append, scanItems, scanString_escaped s _ le_rfl]
          rfl
      | cons s' items =>
          have hne' : s' :: items ≠ [] := List.cons_ne_nil s' items
          have hitems := ih hne' (show (s' :: items).length ≤ fuel by simpa using h)
          rw [encodeItems, List.append_assoc, encodeString_append, scanItems,
            scanString_escaped s _ le_rfl]
          · -- the comma and the blank before the next item are skipped
            show (do
              let (rest, tail) ← scanItems fuel (skipSpace
                (encodeItems (s' :: items) ++ ']' :: rest))
              return (s :: rest, tail)) = _
            rw [skipSpace_encodeItems hne', hitems]
            rfl
          · exact hne'

/-- An array has at most as many items as its text has characters. -/
theorem length_le_length_encodeItems (items : List (List Char)) :
    items.length ≤ (encodeItems items).length := by
  match items with
  | [] => simp
  | [s] => simp [encodeItems, encodeString]
  | s :: s' :: items =>
      have ih := length_le_length_encodeItems (s' :: items)
      simp [encodeItems, encodeString] at ih ⊢
      omega

/-- The items of a nonempty array start with a quote. -/
theorem encodeItems_head {items : List (List Char)} (hne : items ≠ []) :
    ∃ body, encodeItems items = '"' :: body := by
  match items with
  | [] => exact absurd rfl hne
  | [s] => exact ⟨_, rfl⟩
  | s :: s' :: items => exact ⟨_, rfl⟩

theorem scanArray_encodeItems (items : List (List Char)) :
    scanArray ('[' :: (encodeItems items ++ [']'])) = some (items, []) := by
  by_cases hne : items = []
  · subst hne
    rfl
  · have hfuel : items.length ≤ (encodeItems items ++ [']']).length :=
      (length_le_length_encodeItems items).trans (by simp)
    have hitems := scanItems_encodeItems items hne [] hfuel
    obtain ⟨body, hbody⟩ := encodeItems_head hne
    have hskip : skipSpace ('[' :: (encodeItems items ++ [']'])) =
        '[' :: (encodeItems items ++ [']']) := rfl
    rw [scanArray, hskip]
    simp only [skipSpace_encodeItems hne]
    rw [hbody] at hitems ⊢
    exact hitems

/-- Reading a written text gives back the list. -/
@[simp]
theorem loads_dumps (items : List String) : loads (dumps items) = some items := by
  have hmap : (items.map String.toList).map String.ofList = items := by
    simp [Function.comp_def]
  rw [loads, dumps, String.toList_ofList, scanArray_encodeItems]
  simp only [hmap]
  rfl

/-- Distinct lists have distinct texts. -/
theorem dumps_injective : Function.Injective dumps := by
  intro items items' h
  have hloads := loads_dumps items
  rw [h, loads_dumps] at hloads
  exact (Option.some.inj hloads).symm

/-- Escapes, a surrogate pair and a control character survive the round trip. -/
example : loads (dumps ["A\"\\B", "é😀", "\x7f"]) = some ["A\"\\B", "é😀", "\x7f"] := by decide

end JsonText
