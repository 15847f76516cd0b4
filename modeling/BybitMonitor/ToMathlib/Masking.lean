import Mathlib.Data.List.Infix
import Mathlib.Tactic.Common

/-!
# Masked texts

Parts of a text are replaced by a mask. A word that shares no symbol with the mask occurs in the
masked text only where it occurs in the text already.

* `Masked.infix_unmasked`: such a word is not created.
* `List.not_infix_replaceWord`: and a word that is replaced everywhere does not occur any more.
* `List.infix_flatten_iff`: where a word occurs in a text that is made of parts.
-/

variable {α : Type*}

/-- The second text is the first one with the mask in place of some of its parts. -/
inductive Masked (mask : List α) : List α → List α → Prop
  | nil : Masked mask [] []
  | keep (a : α) {text masked : List α} (h : Masked mask text masked) :
      Masked mask (a :: text) (a :: masked)
  | mask (part : List α) {text masked : List α} (h : Masked mask text masked) :
      Masked mask (part ++ text) (mask ++ masked)

namespace Masked

variable {mask text masked word : List α}

/-- A word that begins with no symbol of the mask is a prefix of what it is masked from. -/
theorem prefix_unmasked (h : Masked mask text masked) (hmask : mask ≠ [])
    (hword : ∀ a ∈ word, a ∉ mask) (hstart : word <+: masked) : word <+: text := by
  induction h generalizing word with
  | nil => exact hstart
  | keep a h ih =>
      cases word with
      | nil => exact List.nil_prefix
      | cons b word =>
          obtain ⟨rfl, hrest⟩ := List.cons_prefix_cons.mp hstart
          have htail := ih (fun c hc => hword c (List.mem_cons_of_mem _ hc)) hrest
          exact List.cons_prefix_cons.mpr ⟨rfl, htail⟩
  | mask part h ih =>
      cases word with
      | nil => exact List.nil_prefix
      | cons b word =>
          -- the first symbol would be the one of the mask
          obtain ⟨a, rest, rfl⟩ := List.exists_cons_of_ne_nil hmask
          obtain ⟨rfl, -⟩ := List.cons_prefix_cons.mp hstart
          exact absurd List.mem_cons_self (hword b List.mem_cons_self)

/-- A word without the symbols of a prefix occurs after it. -/
theorem infix_of_infix_append {front back : List α} (hne : word ≠ [])
    (hword : ∀ a ∈ word, a ∉ front) (h : word <:+: front ++ back) : word <:+: back := by
  induction front with
  | nil => exact h
  | cons a front ih =>
      rcases List.infix_cons_iff.mp h with hstart | hinside
      · obtain ⟨b, rest, rfl⟩ := List.exists_cons_of_ne_nil hne
        obtain ⟨rfl, -⟩ := List.cons_prefix_cons.mp hstart
        exact absurd List.mem_cons_self (hword b List.mem_cons_self)
      · exact ih (fun b hb hmem => hword b hb (List.mem_cons_of_mem _ hmem)) hinside

/-- A word without the symbols of the mask is not created. -/
theorem infix_unmasked (h : Masked mask text masked) (hmask : mask ≠ []) (hne : word ≠ [])
    (hword : ∀ a ∈ word, a ∉ mask) (hinside : word <:+: masked) : word <:+: text := by
  induction h with
  | nil => exact hinside
  | keep a h ih =>
      rcases List.infix_cons_iff.mp hinside with hstart | hrest
      · exact ((h.keep a).prefix_unmasked hmask hword hstart).isInfix
      · exact (ih hrest).trans (List.infix_cons (List.infix_refl _))
  | mask part h ih =>
      exact (ih (infix_of_infix_append hne hword hinside)).trans (List.suffix_append _ _).isInfix

end Masked

namespace List

/-- From left to right, replace every part that `find` measures, and go on behind it. -/
def substitute (find : List α → Option ℕ) (mask : List α) : ℕ → List α → List α
  | _, [] => []
  | skip + 1, _ :: rest => substitute find mask skip rest
  | 0, a :: rest =>
      match find (a :: rest) with
      | some n => mask ++ substitute find mask (n - 1) rest
      | none => a :: substitute find mask 0 rest

variable {find : List α → Option ℕ} {mask text : List α}

/-- What is substituted is masked. -/
theorem masked_substitute (skip : ℕ) :
    Masked mask (text.drop skip) (substitute find mask skip text) := by
  induction text generalizing skip with
  | nil =>
      rw [List.drop_nil, substitute]
      exact Masked.nil
  | cons a rest ih =>
      cases skip with
      | succ skip => exact ih skip
      | zero =>
          rw [List.drop_zero, substitute]
          cases find (a :: rest) with
          | none => exact (ih 0).keep a
          | some n =>
              have hsplit : a :: rest = (a :: rest.take (n - 1)) ++ rest.drop (n - 1) := by
                rw [List.cons_append, List.take_append_drop]
              rw [hsplit]
              exact (ih (n - 1)).mask _

/-- Replace a word from left to right. -/
def replaceWord [DecidableEq α] (word mask text : List α) : List α :=
  substitute (fun text => if word <+: text then some word.length else none) mask 0 text

/-- A word that is replaced does not occur any more, if it shares no symbol with the mask. -/
theorem not_infix_replaceWord [DecidableEq α] {word : List α} (hmask : mask ≠ []) (hne : word ≠ [])
    (hword : ∀ a ∈ word, a ∉ mask) : ¬ word <:+: replaceWord word mask text := by
  rw [replaceWord]
  generalize 0 = skip
  induction text generalizing skip with
  | nil =>
      rw [substitute]
      exact fun hinside => hne (List.infix_nil.mp hinside)
  | cons a rest ih =>
      cases skip with
      | succ skip => exact ih skip
      | zero =>
          intro hinside
          rw [substitute] at hinside
          by_cases hfound : word <+: a :: rest
          · rw [if_pos hfound] at hinside
            exact ih _ (Masked.infix_of_infix_append hne hword hinside)
          · -- what is kept here does not begin with the word
            rw [if_neg hfound] at hinside
            rcases List.infix_cons_iff.mp hinside with hstart | hrest
            · exact hfound (((masked_substitute 0).keep a).prefix_unmasked hmask hword hstart)
            · exact ih 0 hrest

/-! ## Parts -/

/-- The word begins in the first text and ends in the second one. -/
def Straddles (word before after : List α) : Prop :=
  ∃ a b, a ≠ [] ∧ b ≠ [] ∧ word = a ++ b ∧ a <:+ before ∧ b <+: after

/-- Where a word occurs in a text that is made of parts: in one of them, or from one of them on
across its end. -/
theorem infix_flatten_iff {word : List α} (hne : word ≠ []) {parts : List (List α)} :
    word <:+: parts.flatten ↔
      (∃ part ∈ parts, word <:+: part) ∨
        ∃ before part after, parts = before ++ part :: after ∧
          Straddles word part after.flatten := by
  induction parts with
  | nil => simp [hne]
  | cons part parts ih =>
      rw [List.flatten_cons, List.infix_append_iff_ne_nil, ih]
      constructor
      · rintro (hpart | (⟨other, hmem, hother⟩ | ⟨before, other, after, rfl, h⟩) | h)
        · exact Or.inl ⟨part, List.mem_cons_self, hpart⟩
        · exact Or.inl ⟨other, List.mem_cons_of_mem _ hmem, hother⟩
        · exact Or.inr ⟨part :: before, other, after, rfl, h⟩
        · exact Or.inr ⟨[], part, parts, rfl, h⟩
      · rintro (⟨other, hmem, hother⟩ | ⟨before, other, after, hparts, h⟩)
        · rcases List.mem_cons.mp hmem with rfl | hmem
          · exact Or.inl hother
          · exact Or.inr (Or.inl (Or.inl ⟨other, hmem, hother⟩))
        · -- the part in question is the first one or a later one
          cases before with
          | nil =>
              obtain ⟨rfl, rfl⟩ := List.cons.inj hparts
              exact Or.inr (Or.inr h)
          | cons first before =>
              obtain ⟨rfl, rfl⟩ := List.cons.inj hparts
              exact Or.inr (Or.inl (Or.inr ⟨before, other, after, rfl, h⟩))

end List
