import Mathlib

/-!
# Python strings

The methods of `str` that the modelled code uses, where Lean's own differ: white space and upper
case are Unicode notions in Python. Surrogates, which a Python string may contain and a Lean string
may not, do not occur.

* `PyText.mem_sorted`, `PyText.nodup_sorted`: sorting a set lists its elements, each once.
* `PyText.pairwise_sorted`: and upwards.
-/

namespace BybitMonitor

namespace PyText

/-- `c.isspace()`. -/
def isSpace (c : Char) : Bool :=
  let n := c.toNat
  (9 ≤ n && n ≤ 13) || (28 ≤ n && n ≤ 32) || n = 0x85 || n = 0xa0 || n = 0x1680 ||
    (0x2000 ≤ n && n ≤ 0x200a) || n = 0x2028 || n = 0x2029 || n = 0x202f || n = 0x205f ||
    n = 0x3000

/-- `s.lstrip()`. -/
def lstrip (s : String) : String := String.ofList (s.toList.dropWhile isSpace)

/-- `s.rstrip()`. -/
def rstrip (s : String) : String :=
  String.ofList (s.toList.reverse.dropWhile isSpace).reverse

/-- `s.strip()`. -/
def strip (s : String) : String := rstrip (lstrip s)

/-- The letters outside ASCII whose upper case is in ASCII. -/
def upperToAscii : List (Char × List Char) :=
  [('ß', ['S', 'S']), ('ı', ['I']), ('ſ', ['S']), ('ﬀ', ['F', 'F']), ('ﬁ', ['F', 'I']),
    ('ﬂ', ['F', 'L']), ('ﬃ', ['F', 'F', 'I']), ('ﬄ', ['F', 'F', 'L']), ('ﬅ', ['S', 'T']),
    ('ﬆ', ['S', 'T'])]

/-- `s.upper()`, as far as the result is in ASCII: other letters outside ASCII stay as they are,
which no comparison with a text in ASCII can tell. -/
def upper (s : String) : String :=
  String.ofList (s.toList.flatMap fun c =>
    match upperToAscii.find? (fun u => u.1 = c) with
    | some u => u.2
    | none => [c.toUpper])

/-- `s or default`: the default stands for `None` and for the empty string. -/
def orElse (s : Option String) (default : String) : String :=
  match s with
  | none => default
  | some text => if text = "" then default else text

/-- `s.startswith(front)`. -/
def startsWith (front s : String) : Bool := front.toList.isPrefixOf s.toList

/-- `s[len(front):]`. -/
def dropFront (front s : String) : String := String.ofList (s.toList.drop front.length)

/-- A character inside of the quotes of `repr(s)`. Of the characters beyond Latin-1 all count as
printable here. -/
def reprChar (quote c : Char) : List Char :=
  let n := c.toNat
  if c = quote || c = '\\' then ['\\', c]
  else if c = '\t' then ['\\', 't']
  else if c = '\n' then ['\\', 'n']
  else if c = '\r' then ['\\', 'r']
  else if n < 32 || (127 ≤ n && n ≤ 160) || n = 173 then
    ['\\', 'x', (n / 16).digitChar, (n % 16).digitChar]
  else [c]

/-- `repr(s)`, with double quotes only around single ones. -/
def repr (s : String) : String :=
  let quote := if s.toList.contains '\'' && !s.toList.contains '"' then '"' else '\''
  String.ofList (quote :: (s.toList.flatMap (reprChar quote) ++ [quote]))

example : repr "it's\n" = "\"it's\\n\"" := by decide

/-- `sorted(s)` for a set of strings. -/
def sorted (s : Finset String) : List String :=
  s.val.lift (List.insertionSort (· ≤ ·)) fun l l' (h : l.Perm l') =>
    List.Perm.eq_of_pairwise' (List.pairwise_insertionSort _ l) (List.pairwise_insertionSort _ l')
      (((List.perm_insertionSort _ l).trans h).trans (List.perm_insertionSort _ l').symm)

/-- Sorting lists the elements of the set, each once. -/
theorem coe_sorted (s : Finset String) : (sorted s : Multiset String) = s.val := by
  obtain ⟨m, hm⟩ := s
  induction m using Quotient.inductionOn with
  | h l => exact Multiset.coe_eq_coe.mpr (List.perm_insertionSort _ l)

@[simp]
theorem mem_sorted {s : Finset String} {x : String} : x ∈ sorted s ↔ x ∈ s := by
  rw [← Multiset.mem_coe, coe_sorted, Finset.mem_val]

theorem nodup_sorted (s : Finset String) : (sorted s).Nodup := by
  rw [← Multiset.coe_nodup, coe_sorted]
  exact s.nodup

/-- Sorting lists the elements upwards. -/
theorem pairwise_sorted (s : Finset String) : (sorted s).Pairwise (· < ·) := by
  have hle : (sorted s).Pairwise (· ≤ ·) := by
    obtain ⟨m, hm⟩ := s
    induction m using Quotient.inductionOn with
    | h l => exact List.pairwise_insertionSort _ l
  exact (hle.and (nodup_sorted s)).imp fun h => lt_of_le_of_ne h.1 h.2

end PyText

end BybitMonitor
