import Mathlib

/-!
# Texts of fields joined by a separator

A text that joins fields by a separator determines the fields before or after a separator that
do not contain it. The numerals of this file contain decimal digits and a sign only, so they are
such fields for every other separator.

* `FieldText.prefix_inj`, `FieldText.suffix_inj`: cutting a text at its first or last separator.
* `FieldText.not_mem_int`, `FieldText.not_mem_pad2`: numerals contain no other character.
* `FieldText.pad2_injective`: two-digit numerals determine their number.
-/

namespace FieldText

/-- A decimal numeral of at least two digits, padded with a zero. -/
def pad2 (n : ℕ) : String :=
  if n < 10 then "0" ++ n.repr else n.repr

variable {a b x y : String} {sep : Char}

/-- Two texts that agree up to and including a separator agree in the field before it. -/
theorem prefix_inj (ha : sep ∉ a.toList) (hb : sep ∉ b.toList)
    (h : a ++ String.singleton sep ++ x = b ++ String.singleton sep ++ y) : a = b ∧ x = y := by
  have hchars : a.toList ++ sep :: x.toList = b.toList ++ sep :: y.toList := by
    simpa using congrArg String.toList h
  have htake : a.toList = b.toList := by
    have hleft := congrArg (List.takeWhile fun c => decide (c ≠ sep)) hchars
    have hcut (l r : List Char) (hl : sep ∉ l) :
        (l ++ sep :: r).takeWhile (fun c => decide (c ≠ sep)) = l := by
      rw [List.takeWhile_append_of_pos]
      · simp
      · intro c hc
        simpa using ne_of_mem_of_not_mem hc hl
    rwa [hcut _ _ ha, hcut _ _ hb] at hleft
  rw [htake] at hchars
  have hrest := List.append_cancel_left hchars
  exact ⟨String.toList_inj.mp htake, String.toList_inj.mp (List.cons.inj hrest).2⟩

/-- Two texts that agree from a separator on agree in the field after it. -/
theorem suffix_inj (hx : sep ∉ x.toList) (hy : sep ∉ y.toList)
    (h : a ++ String.singleton sep ++ x = b ++ String.singleton sep ++ y) : a = b ∧ x = y := by
  have hrev : x.toList.reverse ++ sep :: a.toList.reverse =
      y.toList.reverse ++ sep :: b.toList.reverse := by
    simpa using congrArg (fun s => s.toList.reverse) h
  have hrevText : String.ofList x.toList.reverse ++ String.singleton sep ++
      String.ofList a.toList.reverse = String.ofList y.toList.reverse ++
        String.singleton sep ++ String.ofList b.toList.reverse := by
    apply String.toList_inj.mp
    simpa using hrev
  obtain ⟨hxy, hab⟩ := prefix_inj (by simpa using hx) (by simpa using hy) hrevText
  have hxy' : x.toList = y.toList := by simpa using congrArg String.toList hxy
  have hab' : a.toList = b.toList := by simpa using congrArg String.toList hab
  exact ⟨String.toList_inj.mp hab', String.toList_inj.mp hxy'⟩

/-- A decimal numeral contains digits only. -/
theorem not_mem_nat {c : Char} (hc : c.isDigit = false) (n : ℕ) : c ∉ n.repr.toList := by
  rw [Nat.toList_repr]
  intro hmem
  exact absurd (Nat.isDigit_of_mem_toDigits (by decide) (by decide) hmem) (by simp [hc])

/-- The numeral of an integer contains digits and a sign only. -/
theorem not_mem_int {c : Char} (hc : c.isDigit = false) (hsign : c ≠ '-') (n : ℤ) :
    c ∉ (toString n).toList := by
  cases n with
  | ofNat m => exact not_mem_nat hc m
  | negSucc m =>
      have hrepr : (toString (Int.negSucc m)).toList = '-' :: (m + 1).repr.toList := by
        show ("-" ++ (m + 1).repr).toList = _
        simp
      rw [hrepr, List.mem_cons, not_or]
      exact ⟨hsign, not_mem_nat hc (m + 1)⟩

/-- A padded numeral contains digits only. -/
theorem not_mem_pad2 {c : Char} (hc : c.isDigit = false) (n : ℕ) : c ∉ (pad2 n).toList := by
  have hzero : c ≠ '0' := by
    rintro rfl
    exact absurd hc (by decide)
  unfold pad2
  split_ifs
  · simpa [hzero] using not_mem_nat hc n
  · exact not_mem_nat hc n

/-- Reading the digits of a padded numeral gives its number. -/
theorem ofDigitChars_pad2 (n : ℕ) : Nat.ofDigitChars 10 (pad2 n).toList 0 = n := by
  have hn : Nat.ofDigitChars 10 n.repr.toList 0 = n := by
    rw [Nat.toList_repr, Nat.ofDigitChars_ten_toDigits]
  unfold pad2
  split_ifs
  · rw [String.toList_append]
    exact hn
  · exact hn

/-- Distinct numbers have distinct padded numerals. -/
theorem pad2_injective : Function.Injective pad2 := by
  intro n m h
  rw [← ofDigitChars_pad2 n, h, ofDigitChars_pad2 m]

/-- Distinct integers have distinct numerals. -/
theorem toString_int_injective : Function.Injective (toString : ℤ → String) :=
  fun _ _ h => Int.repr_injective h

end FieldText
