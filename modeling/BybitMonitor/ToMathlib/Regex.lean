import Mathlib

/-!
# Regular expressions with backtracking

A matcher that tries the alternatives in their order, with assertions about the letters next to a
place and with a group, and the search for all matches of a text from left to right.

* `Regex.mem_run_iff`: what a plain expression matches is its language.
* `Regex.mem_findAll_iff`: a search finds every match if matches neither overlap nor compete.
* `Regex.mem_findAll_word`: an expression between word boundaries finds words.
* `Regex.mem_findAll_delimited`: an expression between two delimiters finds what they delimit.
-/

/-- A regular expression. -/
inductive Regex (α : Type*)
  | empty
  | one (accepts : α → Bool)
  /-- An assertion about the letter before a place and the letter behind it. -/
  | look (test : Option α → Option α → Bool)
  | group (body : Regex α)
  | seq (first second : Regex α)
  | alt (first second : Regex α)

namespace Regex

variable {α : Type*}

/-! ## Derived expressions -/

/-- The given letters. -/
def literal [DecidableEq α] : List α → Regex α
  | [] => empty
  | a :: text => seq (one (· = a)) (literal text)

/-- Up to `n` times, as few as possible first. -/
def lazyUpTo (r : Regex α) : ℕ → Regex α
  | 0 => empty
  | n + 1 => alt empty (seq r (lazyUpTo r n))

/-- Up to `n` times, as many as possible first. -/
def greedyUpTo (r : Regex α) : ℕ → Regex α
  | 0 => empty
  | n + 1 => alt (seq r (greedyUpTo r n)) empty

/-- Exactly `n` times. -/
def times (r : Regex α) : ℕ → Regex α
  | 0 => empty
  | n + 1 => seq r (times r n)

/-- `r{m,n}?`. -/
def lazyRepeat (r : Regex α) (m n : ℕ) : Regex α := seq (times r m) (lazyUpTo r (n - m))

/-- `r{m,n}`. -/
def greedyRepeat (r : Regex α) (m n : ℕ) : Regex α := seq (times r m) (greedyUpTo r (n - m))

/-- `\b`: exactly one of the two letters next to the place is in a word. -/
def boundary (isWord : α → Bool) : Regex α := look fun before after =>
  before.any isWord != after.any isWord

/-- `\b(r)\b`. -/
def word (isWord : α → Bool) (r : Regex α) : Regex α :=
  seq (boundary isWord) (seq (group r) (boundary isWord))

/-- The group `r` between two delimiters. -/
def delimited [DecidableEq α] (opening closing : α) (r : Regex α) : Regex α :=
  seq (one (· = opening)) (seq (group r) (one (· = closing)))

/-! ## Matching -/

/-- A place in a text: the letters before it, the last one first, the letters behind it, and what
the group has read. -/
structure Place (α : Type*) where
  past : List α
  ahead : List α
  captured : List α := []

/-- The place behind a text that is read. -/
def Place.after (self : Place α) (text rest : List α) : Place α :=
  { self with past := text.reverse ++ self.past, ahead := rest }

/-- The places where a match that begins at a place may end, the preferred one first. -/
def run : Regex α → Place α → List (Place α)
  | empty, place => [place]
  | one accepts, place =>
      match place.ahead with
      | [] => []
      | a :: rest => if accepts a then [place.after [a] rest] else []
  | look test, place => if test place.past.head? place.ahead.head? then [place] else []
  | group body, place => (run body place).map fun last =>
      { last with
        captured := (last.past.take (last.past.length - place.past.length)).reverse }
  | seq first second, place => (run first place).flatMap (run second)
  | alt first second, place => run first place ++ run second place

/-- The groups of the matches from a place on. After an empty match the next one at its place has
to read something. -/
def findFrom (r : Regex α) : ℕ → Bool → List α → List α → List (List α)
  | 0, _, _, _ => []
  | fuel + 1, advance, past, ahead =>
      match (r.run ⟨past, ahead, []⟩).find? fun last =>
        !advance || last.ahead.length < ahead.length with
      | some last =>
          last.captured ::
            findFrom r fuel (last.ahead.length = ahead.length) last.past last.ahead
      | none =>
          match ahead with
          | [] => []
          | a :: rest => findFrom r fuel false (a :: past) rest

/-- The groups of the matches of a text, from left to right. -/
def findAll (r : Regex α) (text : List α) : List (List α) :=
  findFrom r (2 * text.length + 2) false [] text

/-! ## The language of a plain expression -/

/-- An expression without assertions and groups. -/
def IsPlain : Regex α → Prop
  | empty => True
  | one _ => True
  | look _ => False
  | group _ => False
  | seq first second => IsPlain first ∧ IsPlain second
  | alt first second => IsPlain first ∧ IsPlain second

/-- The texts that an expression accepts, whatever is next to them. -/
def Accepts : Regex α → List α → Prop
  | empty, text => text = []
  | one accepts, text => ∃ a, text = [a] ∧ accepts a = true
  | look _, _ => False
  | group body, text => Accepts body text
  | seq first second, text => ∃ u v, text = u ++ v ∧ Accepts first u ∧ Accepts second v
  | alt first second, text => Accepts first text ∨ Accepts second text

section Run

variable {r first second body : Regex α} {accepts : α → Bool} {place last : Place α}
  {text : List α}

@[simp]
theorem mem_run_empty : last ∈ empty.run place ↔ last = place := List.mem_singleton

theorem mem_run_one : last ∈ (one accepts).run place ↔
    ∃ a rest, accepts a = true ∧ place.ahead = a :: rest ∧ last = place.after [a] rest := by
  rw [run]
  split
  · rename_i hahead
    simp [hahead]
  · rename_i a rest hahead
    by_cases haccepts : accepts a = true <;> simp [hahead, haccepts]

theorem mem_run_look {test : Option α → Option α → Bool} : last ∈ (look test).run place ↔
    test place.past.head? place.ahead.head? = true ∧ last = place := by
  rw [run]
  split <;> simp_all

theorem mem_run_seq : last ∈ (seq first second).run place ↔
    ∃ middle ∈ first.run place, last ∈ second.run middle := List.mem_flatMap

theorem mem_run_alt : last ∈ (alt first second).run place ↔
    last ∈ first.run place ∨ last ∈ second.run place := List.mem_append

/-- A match reads a text. -/
theorem exists_text_of_mem_run (h : last ∈ r.run place) :
    ∃ text, place.ahead = text ++ last.ahead ∧ last.past = text.reverse ++ place.past := by
  induction r generalizing place last with
  | empty =>
      obtain rfl := mem_run_empty.mp h
      exact ⟨[], rfl, rfl⟩
  | one accepts =>
      obtain ⟨a, rest, -, hahead, rfl⟩ := mem_run_one.mp h
      exact ⟨[a], hahead, rfl⟩
  | look test =>
      obtain ⟨-, rfl⟩ := mem_run_look.mp h
      exact ⟨[], rfl, rfl⟩
  | group body ih =>
      obtain ⟨inner, hinner, rfl⟩ := List.mem_map.mp h
      obtain ⟨text, hahead, hpast⟩ := ih hinner
      exact ⟨text, hahead, hpast⟩
  | seq first second ihfirst ihsecond =>
      obtain ⟨middle, hmiddle, hlast⟩ := mem_run_seq.mp h
      obtain ⟨u, hu, hpastu⟩ := ihfirst hmiddle
      obtain ⟨v, hv, hpastv⟩ := ihsecond hlast
      refine ⟨u ++ v, ?_, ?_⟩
      · rw [hu, hv, List.append_assoc]
      · rw [hpastv, hpastu, List.reverse_append, List.append_assoc]
  | alt first second ihfirst ihsecond =>
      rcases mem_run_alt.mp h with h | h
      · exact ihfirst h
      · exact ihsecond h

/-- What a plain expression matches at a place is what it accepts of the text ahead. -/
theorem mem_run_iff (hplain : r.IsPlain) : last ∈ r.run place ↔
    ∃ text rest, r.Accepts text ∧ place.ahead = text ++ rest ∧ last = place.after text rest := by
  induction r generalizing place last with
  | empty =>
      rw [mem_run_empty]
      constructor
      · rintro rfl
        exact ⟨[], last.ahead, rfl, rfl, rfl⟩
      · rintro ⟨text, rest, rfl, hahead, rfl⟩
        cases place
        cases hahead
        rfl
  | one accepts =>
      rw [mem_run_one]
      constructor
      · rintro ⟨a, rest, haccepts, hahead, rfl⟩
        exact ⟨[a], rest, ⟨a, rfl, haccepts⟩, hahead, rfl⟩
      · rintro ⟨text, rest, ⟨a, rfl, haccepts⟩, hahead, rfl⟩
        exact ⟨a, rest, haccepts, hahead, rfl⟩
  | look test => exact hplain.elim
  | group body => exact hplain.elim
  | seq first second ihfirst ihsecond =>
      simp only [mem_run_seq, ihfirst hplain.1, ihsecond hplain.2]
      constructor
      · rintro ⟨middle, ⟨u, rest, hu, hahead, rfl⟩, v, rest', hv, hahead', rfl⟩
        have hrest : rest = v ++ rest' := hahead'
        refine ⟨u ++ v, rest', ⟨u, v, rfl, hu, hv⟩, ?_, ?_⟩
        · rw [hahead, hrest, List.append_assoc]
        · simp [Place.after]
      · rintro ⟨text, rest, ⟨u, v, rfl, hu, hv⟩, hahead, rfl⟩
        refine ⟨place.after u (v ++ rest), ⟨u, v ++ rest, hu, ?_, rfl⟩, v, rest, hv, rfl, ?_⟩
        · rw [hahead, List.append_assoc]
        · simp [Place.after]
  | alt first second ihfirst ihsecond =>
      simp only [mem_run_alt, ihfirst hplain.1, ihsecond hplain.2, Accepts, or_and_right,
        exists_or]

/-- A group keeps what its body has read. -/
theorem mem_run_group (hplain : body.IsPlain) : last ∈ (group body).run place ↔
    ∃ text rest, body.Accepts text ∧ place.ahead = text ++ rest ∧
      last = { place.after text rest with captured := text } := by
  simp only [run, List.mem_map, mem_run_iff hplain]
  constructor
  · rintro ⟨inner, ⟨text, rest, htext, hahead, rfl⟩, rfl⟩
    refine ⟨text, rest, htext, hahead, ?_⟩
    simp [Place.after]
  · rintro ⟨text, rest, htext, hahead, rfl⟩
    refine ⟨_, ⟨text, rest, htext, hahead, rfl⟩, ?_⟩
    simp [Place.after]

end Run

/-! ## The languages of the derived expressions -/

section Languages

variable {accepts : α → Bool} {text : List α} {m n : ℕ}

theorem accepts_literal [DecidableEq α] {letters : List α} :
    (literal letters).Accepts text ↔ text = letters := by
  induction letters generalizing text with
  | nil => exact Iff.rfl
  | cons a letters ih => simp [literal, Accepts, ih]

theorem accepts_times : (times (one accepts) n).Accepts text ↔
    text.length = n ∧ ∀ a ∈ text, accepts a = true := by
  induction n generalizing text with
  | zero => cases text <;> simp [times, Accepts]
  | succ n ih => cases text <;> simp [times, Accepts, ih, and_left_comm]

theorem accepts_lazyUpTo : (lazyUpTo (one accepts) n).Accepts text ↔
    text.length ≤ n ∧ ∀ a ∈ text, accepts a = true := by
  induction n generalizing text with
  | zero => cases text <;> simp [lazyUpTo, Accepts]
  | succ n ih => cases text <;> simp [lazyUpTo, Accepts, ih, and_left_comm]

theorem accepts_greedyUpTo : (greedyUpTo (one accepts) n).Accepts text ↔
    text.length ≤ n ∧ ∀ a ∈ text, accepts a = true := by
  induction n generalizing text with
  | zero => cases text <;> simp [greedyUpTo, Accepts]
  | succ n ih => cases text <;> simp [greedyUpTo, Accepts, ih, and_left_comm]

/-- A repetition is as often as its bounds say. -/
theorem accepts_repeat {rest : Regex α} (hmn : m ≤ n)
    (hrest : ∀ text, rest.Accepts text ↔ text.length ≤ n - m ∧ ∀ a ∈ text, accepts a = true) :
    (seq (times (one accepts) m) rest).Accepts text ↔
      m ≤ text.length ∧ text.length ≤ n ∧ ∀ a ∈ text, accepts a = true := by
  simp only [Accepts, accepts_times, hrest]
  constructor
  · rintro ⟨u, v, rfl, ⟨rfl, hu⟩, hv, hall⟩
    rw [List.length_append]
    exact ⟨by omega, by omega, fun a ha => (List.mem_append.mp ha).elim (hu a) (hall a)⟩
  · rintro ⟨hm, hn, hall⟩
    refine ⟨text.take m, text.drop m, (List.take_append_drop m text).symm, ⟨by simpa, ?_⟩, ?_, ?_⟩
    · exact fun a ha => hall a (List.mem_of_mem_take ha)
    · rw [List.length_drop]
      omega
    · exact fun a ha => hall a (List.mem_of_mem_drop ha)

theorem accepts_lazyRepeat (hmn : m ≤ n) : (lazyRepeat (one accepts) m n).Accepts text ↔
    m ≤ text.length ∧ text.length ≤ n ∧ ∀ a ∈ text, accepts a = true :=
  accepts_repeat hmn fun _ => accepts_lazyUpTo

theorem accepts_greedyRepeat (hmn : m ≤ n) : (greedyRepeat (one accepts) m n).Accepts text ↔
    m ≤ text.length ∧ text.length ≤ n ∧ ∀ a ∈ text, accepts a = true :=
  accepts_repeat hmn fun _ => accepts_greedyUpTo

theorem isPlain_one (accepts : α → Bool) : (one accepts).IsPlain := trivial

theorem isPlain_literal [DecidableEq α] (letters : List α) : (literal letters).IsPlain := by
  induction letters with
  | nil => trivial
  | cons a letters ih => exact ⟨trivial, ih⟩

theorem isPlain_times {r : Regex α} (h : r.IsPlain) (n : ℕ) : (times r n).IsPlain := by
  induction n with
  | zero => trivial
  | succ n ih => exact ⟨h, ih⟩

theorem isPlain_lazyRepeat {r : Regex α} (h : r.IsPlain) (m n : ℕ) :
    (lazyRepeat r m n).IsPlain := by
  refine ⟨isPlain_times h m, ?_⟩
  generalize n - m = k
  induction k with
  | zero => trivial
  | succ k ih => exact ⟨trivial, h, ih⟩

theorem isPlain_greedyRepeat {r : Regex α} (h : r.IsPlain) (m n : ℕ) :
    (greedyRepeat r m n).IsPlain := by
  refine ⟨isPlain_times h m, ?_⟩
  generalize n - m = k
  induction k with
  | zero => trivial
  | succ k ih => exact ⟨⟨h, ih⟩, trivial⟩

end Languages

/-! ## The search -/

/-- The expression matches at a place, and its group is the item. -/
def Hits (r : Regex α) (past ahead item : List α) : Prop :=
  ∃ last ∈ r.run ⟨past, ahead, []⟩, last.captured = item

/-- Every match reads something, and matches neither compete for a place nor overlap. -/
structure IsApart (r : Regex α) : Prop where
  reads : ∀ past ahead, ∀ last ∈ r.run ⟨past, ahead, []⟩, last.ahead.length < ahead.length
  unique : ∀ past ahead, ∀ last ∈ r.run ⟨past, ahead, []⟩, ∀ other ∈ r.run ⟨past, ahead, []⟩,
    other = last
  disjoint : ∀ past u v, u ≠ [] → ∀ last ∈ r.run ⟨past, u ++ v, []⟩,
    last.ahead.length < v.length → r.run ⟨u.reverse ++ past, v, []⟩ = []

section Search

variable {r : Regex α} {past ahead text item : List α}

/-- The first match from a place on is at the place, or one letter is passed. -/
theorem findFrom_succ (h : r.IsApart) (fuel : ℕ) (advance : Bool) :
    r.findFrom (fuel + 1) advance past ahead =
      match r.run ⟨past, ahead, []⟩, ahead with
      | last :: _, _ => last.captured :: r.findFrom fuel false last.past last.ahead
      | [], [] => []
      | [], a :: rest => r.findFrom fuel false (a :: past) rest := by
  rw [findFrom.eq_def]
  dsimp only
  cases hrun : r.run ⟨past, ahead, []⟩ with
  | nil => cases ahead <;> rfl
  | cons last others =>
      have hreads := h.reads past ahead last (by simp [hrun])
      simp [hreads, hreads.ne]

/-- The search from a place on finds all that the expression hits. -/
theorem mem_findFrom_iff (h : r.IsApart) {fuel : ℕ} {advance : Bool}
    (hfuel : ahead.length < fuel) : item ∈ r.findFrom fuel advance past ahead ↔
      ∃ u v, ahead = u ++ v ∧ r.Hits (u.reverse ++ past) v item := by
  induction fuel generalizing advance past ahead with
  | zero => exact absurd hfuel (Nat.not_lt_zero _)
  | succ fuel ih =>
      rw [findFrom_succ h]
      cases hrun : r.run ⟨past, ahead, []⟩ with
      | nil =>
          have hmiss : ¬ r.Hits past ahead item := by simp [Hits, hrun]
          cases ahead with
          | nil =>
              refine iff_of_false List.not_mem_nil ?_
              rintro ⟨u, v, hnil, hhits⟩
              obtain ⟨rfl, rfl⟩ := List.append_eq_nil_iff.mp hnil.symm
              exact hmiss hhits
          | cons a rest =>
              refine (ih (Nat.lt_of_succ_lt_succ hfuel)).trans ?_
              constructor
              · rintro ⟨u, v, rfl, hhits⟩
                exact ⟨a :: u, v, rfl, by simpa using hhits⟩
              · rintro ⟨u, v, happend, hhits⟩
                cases u with
                | nil => exact absurd (happend ▸ hhits) hmiss
                | cons b u =>
                    obtain ⟨rfl, rfl⟩ := List.cons.inj happend
                    exact ⟨u, v, rfl, by simpa using hhits⟩
      | cons last others =>
          have hmem : last ∈ r.run ⟨past, ahead, []⟩ := by simp [hrun]
          have hreads := h.reads past ahead last hmem
          obtain ⟨text, hahead, hpast⟩ := exists_text_of_mem_run hmem
          have hahead : ahead = text ++ last.ahead := hahead
          rw [List.mem_cons, ih (hreads.trans_le (Nat.lt_succ_iff.mp hfuel)), hpast]
          constructor
          · rintro (rfl | ⟨u, v, hrest, hhits⟩)
            · exact ⟨[], ahead, rfl, last, hmem, rfl⟩
            · exact ⟨text ++ u, v, by rw [hahead, hrest, List.append_assoc],
                by simpa using hhits⟩
          · rintro ⟨u, v, happend, other, hother, rfl⟩
            by_cases hu : u = []
            · -- the match is the one at the place
              subst hu
              obtain rfl : ahead = v := happend
              exact Or.inl (congrArg Place.captured (h.unique past ahead last hmem other hother))
            · by_cases hinside : last.ahead.length < v.length
              · rw [h.disjoint past u v hu last (happend ▸ hmem) hinside] at hother
                cases hother
              · -- the match begins behind the one at the place
                obtain ⟨w, rfl, hrest⟩ : ∃ w, u = text ++ w ∧ last.ahead = w ++ v := by
                  refine (List.append_eq_append_iff.mp (hahead.symm.trans happend)).elim id ?_
                  rintro ⟨w, rfl, rfl⟩
                  have hw : w = [] := List.length_eq_zero_iff.mp (by
                    rw [List.length_append] at hinside
                    omega)
                  exact ⟨[], by simp [hw], by simp [hw]⟩
                exact Or.inr ⟨w, v, hrest, other, by simpa using hother, rfl⟩

/-- A search finds all that the expression hits. -/
theorem mem_findAll_iff (h : r.IsApart) : item ∈ r.findAll text ↔
    ∃ u v, text = u ++ v ∧ r.Hits u.reverse v item := by
  have hfuel : text.length < 2 * text.length + 2 := by omega
  rw [findAll]
  simpa using @mem_findFrom_iff _ r [] text item h _ false hfuel

/-- A text is split in one way into letters that have a property and a rest that begins with
another one. -/
theorem span_unique {p : α → Bool} {u v u' v' : List α} (h : u ++ v = u' ++ v')
    (hu : ∀ a ∈ u, p a = true) (hv : v.head?.any p = false) (hu' : ∀ a ∈ u', p a = true)
    (hv' : v'.head?.any p = false) : u = u' ∧ v = v' := by
  have htake {u v : List α} (hu : ∀ a ∈ u, p a = true) (hv : v.head?.any p = false) :
      (u ++ v).takeWhile p = u := by
    rw [List.takeWhile_append_of_pos hu]
    cases v with
    | nil => simp
    | cons a v => simpa using hv
  obtain rfl : u = u' := (htake hu hv).symm.trans ((congrArg _ h).trans (htake hu' hv'))
  exact ⟨rfl, List.append_cancel_left h⟩

end Search

/-! ## Words -/

/-- The item is a whole word of the text. -/
def IsWordOf (isWord : α → Bool) (item text : List α) : Prop :=
  item ≠ [] ∧ (∀ a ∈ item, isWord a = true) ∧
    ∃ u v, text = u ++ item ++ v ∧ u.getLast?.any isWord = false ∧ v.head?.any isWord = false

section Words

variable {isWord : α → Bool} {r : Regex α} {past ahead captured text item : List α}
  {last : Place α}

/-- An expression between word boundaries matches whole words. -/
theorem mem_run_word (hplain : r.IsPlain)
    (hword : ∀ text, r.Accepts text → text ≠ [] ∧ ∀ a ∈ text, isWord a = true) :
    last ∈ (word isWord r).run ⟨past, ahead, captured⟩ ↔
      ∃ text rest, r.Accepts text ∧ ahead = text ++ rest ∧ past.head?.any isWord = false ∧
        rest.head?.any isWord = false ∧ last = ⟨text.reverse ++ past, rest, text⟩ := by
  simp only [word, boundary, mem_run_seq, mem_run_look, mem_run_group hplain]
  -- the letters of a match next to its ends are in a word
  have hfirst {text : List α} (htext : r.Accepts text) (rest : List α) :
      (text ++ rest).head?.any isWord = true := by
    obtain ⟨hne, hall⟩ := hword text htext
    obtain ⟨a, text, rfl⟩ := List.exists_cons_of_ne_nil hne
    simpa using hall a List.mem_cons_self
  have hlast {text : List α} (htext : r.Accepts text) :
      (text.reverse ++ past).head?.any isWord = true := by
    obtain ⟨hne, hall⟩ := hword text htext
    obtain ⟨a, u, hu⟩ := List.exists_cons_of_ne_nil (List.reverse_ne_nil_iff.mpr hne)
    rw [hu]
    exact hall a (List.mem_reverse.mp (hu ▸ List.mem_cons_self))
  constructor
  · rintro ⟨_, ⟨hbegin, rfl⟩, _, ⟨text, rest, htext, rfl, rfl⟩, hend, rfl⟩
    change (past.head?.any isWord != (text ++ rest).head?.any isWord) = true at hbegin
    change ((text.reverse ++ past).head?.any isWord != rest.head?.any isWord) = true at hend
    rw [hfirst htext rest] at hbegin
    rw [hlast htext] at hend
    exact ⟨text, rest, htext, rfl, by simpa using hbegin, by simpa using hend, rfl⟩
  · rintro ⟨text, rest, htext, rfl, hbegin, hend, rfl⟩
    refine ⟨_, ⟨?_, rfl⟩, _, ⟨text, rest, htext, rfl, rfl⟩, ?_, rfl⟩
    · show (past.head?.any isWord != (text ++ rest).head?.any isWord) = true
      rw [hfirst htext rest, hbegin]
      rfl
    · show ((text.reverse ++ past).head?.any isWord != rest.head?.any isWord) = true
      rw [hlast htext, hend]
      rfl

/-- Words do not overlap. -/
theorem isApart_word (hplain : r.IsPlain)
    (hword : ∀ text, r.Accepts text → text ≠ [] ∧ ∀ a ∈ text, isWord a = true) :
    (word isWord r).IsApart where
  reads past ahead last hlast := by
    obtain ⟨text, rest, htext, rfl, -, -, rfl⟩ := (mem_run_word hplain hword).mp hlast
    simpa [List.length_pos_iff] using (hword text htext).1
  unique past ahead last hlast other hother := by
    obtain ⟨text, rest, htext, happend, -, hend, rfl⟩ := (mem_run_word hplain hword).mp hlast
    obtain ⟨text', rest', htext', happend', -, hend', rfl⟩ :=
      (mem_run_word hplain hword).mp hother
    obtain ⟨rfl, rfl⟩ := span_unique (happend'.symm.trans happend) (hword text' htext').2 hend'
      (hword text htext).2 hend
    rfl
  disjoint past u v hu last hlast hlength := by
    obtain ⟨text, rest, htext, happend, -, -, rfl⟩ := (mem_run_word hplain hword).mp hlast
    refine List.eq_nil_iff_forall_not_mem.mpr fun other hother => ?_
    obtain ⟨-, -, -, -, hbegin, -⟩ := (mem_run_word hplain hword).mp hother
    -- the letter before the other match is in the first one
    obtain ⟨w, rfl⟩ : ∃ w, text = u ++ w := by
      rcases List.append_eq_append_iff.mp happend with ⟨w, rfl, -⟩ | ⟨w, rfl, rfl⟩
      · exact ⟨w, rfl⟩
      · simp at hlength
    obtain ⟨a, u', hu'⟩ := List.exists_cons_of_ne_nil (List.reverse_ne_nil_iff.mpr hu)
    have ha : isWord a = true := (hword _ htext).2 a
      (List.mem_append_left _ (List.mem_reverse.mp (hu' ▸ List.mem_cons_self)))
    rw [hu', List.cons_append, List.head?_cons, Option.any_some, ha] at hbegin
    cases hbegin

/-- An expression between word boundaries, which accepts letters of words only, finds the words
that it accepts. -/
theorem mem_findAll_word (hplain : r.IsPlain)
    (hword : ∀ text, r.Accepts text → text ≠ [] ∧ ∀ a ∈ text, isWord a = true) :
    item ∈ (word isWord r).findAll text ↔ r.Accepts item ∧ IsWordOf isWord item text := by
  rw [mem_findAll_iff (isApart_word hplain hword)]
  simp only [Hits, mem_run_word hplain hword]
  constructor
  · rintro ⟨u, v, rfl, last, ⟨item, rest, hitem, rfl, hbegin, hend, rfl⟩, rfl⟩
    obtain ⟨hne, hall⟩ := hword item hitem
    refine ⟨hitem, hne, hall, u, rest, by simp, ?_, hend⟩
    rwa [List.head?_reverse] at hbegin
  · rintro ⟨hitem, -, -, u, v, rfl, hbegin, hend⟩
    refine ⟨u, item ++ v, by simp, _, ⟨item, v, hitem, rfl, ?_, hend, rfl⟩, rfl⟩
    rwa [List.head?_reverse]

end Words

/-! ## Delimited texts -/

section Delimited

variable [DecidableEq α] {opening closing : α} {r : Regex α}
  {past ahead captured text item : List α} {last : Place α}

theorem mem_run_delimited (hplain : r.IsPlain) :
    last ∈ (delimited opening closing r).run ⟨past, ahead, captured⟩ ↔
      ∃ text rest, r.Accepts text ∧ ahead = opening :: (text ++ closing :: rest) ∧
        last = ⟨closing :: (text.reverse ++ opening :: past), rest, text⟩ := by
  simp only [delimited, mem_run_seq, mem_run_one, mem_run_group hplain, decide_eq_true_eq]
  constructor
  · rintro ⟨_, ⟨_, _, rfl, rfl, rfl⟩, _, ⟨text, _, htext, hahead, rfl⟩, c, rest, rfl, hrest, rfl⟩
    have hrest : _ = c :: rest := hrest
    exact ⟨text, rest, htext, congrArg _ (hahead.trans (congrArg _ hrest)), rfl⟩
  · rintro ⟨text, rest, htext, rfl, rfl⟩
    exact ⟨_, ⟨_, _, rfl, rfl, rfl⟩, _, ⟨text, _, htext, rfl, rfl⟩, _, rest, rfl, rfl, rfl⟩

/-- Delimited texts without delimiters do not overlap. -/
theorem isApart_delimited (hplain : r.IsPlain) (hne : opening ≠ closing)
    (hinner : ∀ text, r.Accepts text → opening ∉ text ∧ closing ∉ text) :
    (delimited opening closing r).IsApart where
  reads past ahead last hlast := by
    obtain ⟨text, rest, -, rfl, rfl⟩ := (mem_run_delimited hplain).mp hlast
    simp only [List.length_cons, List.length_append]
    omega
  unique past ahead last hlast other hother := by
    obtain ⟨text, rest, htext, happend, rfl⟩ := (mem_run_delimited hplain).mp hlast
    obtain ⟨text', rest', htext', happend', rfl⟩ := (mem_run_delimited hplain).mp hother
    have hother {text : List α} (htext : r.Accepts text) :
        ∀ a ∈ text, decide (a ≠ closing) = true := fun a ha =>
      decide_eq_true fun heq => (hinner text htext).2 (heq ▸ ha)
    obtain ⟨rfl, hrest⟩ := span_unique (List.cons.inj (happend'.symm.trans happend)).2
      (hother htext') (by simp) (hother htext) (by simp)
    rw [(List.cons.inj hrest).2]
  disjoint past u v hu last hlast hlength := by
    obtain ⟨text, rest, htext, happend, rfl⟩ := (mem_run_delimited hplain).mp hlast
    refine List.eq_nil_iff_forall_not_mem.mpr fun other hother => ?_
    obtain ⟨text', rest', -, rfl, -⟩ := (mem_run_delimited hplain).mp hother
    -- the other match would begin in the first one
    obtain ⟨b, u, rfl⟩ := List.exists_cons_of_ne_nil hu
    have htail : u ++ (opening :: (text' ++ closing :: rest')) = (text ++ [closing]) ++ rest := by
      simpa using (List.cons.inj happend).2
    have hmem : opening ∈ text ++ [closing] := by
      rcases List.append_eq_append_iff.mp htail with ⟨w, hw, hrest⟩ | ⟨w, rfl, hrest⟩
      · cases w with
        | nil =>
            have hrest : opening :: (text' ++ closing :: rest') = rest := hrest
            simp [← hrest] at hlength
        | cons c w =>
            obtain ⟨rfl, -⟩ := List.cons.inj hrest
            rw [hw]
            exact List.mem_append_right _ List.mem_cons_self
      · simp only at hlength
        rw [hrest, List.length_append] at hlength
        omega
    rcases List.mem_append.mp hmem with hmem | hmem
    · exact (hinner text htext).1 hmem
    · exact hne (List.mem_singleton.mp hmem)

/-- An expression between two delimiters, which accepts neither of them, finds what it accepts
between the delimiters. -/
theorem mem_findAll_delimited (hplain : r.IsPlain) (hne : opening ≠ closing)
    (hinner : ∀ text, r.Accepts text → opening ∉ text ∧ closing ∉ text) :
    item ∈ (delimited opening closing r).findAll text ↔
      r.Accepts item ∧ opening :: (item ++ [closing]) <:+: text := by
  rw [mem_findAll_iff (isApart_delimited hplain hne hinner)]
  simp only [Hits, mem_run_delimited hplain]
  constructor
  · rintro ⟨u, v, rfl, last, ⟨item, rest, hitem, rfl, rfl⟩, rfl⟩
    exact ⟨hitem, u, rest, by simp⟩
  · rintro ⟨hitem, u, v, rfl⟩
    exact ⟨u, opening :: (item ++ closing :: v), by simp, _, ⟨item, v, hitem, rfl, rfl⟩, rfl⟩

end Delimited

end Regex
