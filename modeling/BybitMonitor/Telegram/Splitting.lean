import Mathlib.Data.List.DropRight
import BybitMonitor.Telegram.Client

/-!
# Splitting a message

What `split_message` makes of a text that does not begin with white space, for any limit: a chunk
and the white space that is dropped after it, again and again until the text is used up.

* `Piece.CutFrom`: what the loop does in one round.
* `splitMessageWithin_pieces`: the chunks with the white space between them are the text.
-/

namespace BybitMonitor

/-- `split_message` with any limit. -/
def splitMessageWithin (limit : ℕ) (hlimit : 0 < limit) (text : String) : List String :=
  if text.length ≤ limit then [text]
  else (splitRemaining limit hlimit text.toList).map String.ofList

theorem splitMessage_eq (text : String) :
    splitMessage text = splitMessageWithin messageChunkLimit (by decide) text := rfl

/-- The text does not begin with white space. -/
def BeginsVisible (text : List Char) : Prop := ∃ c ∈ text.head?, PyText.isSpace c = false

/-- A chunk and the white space after it. -/
structure Piece where
  chunk : List Char
  gap : List Char

/-- The part of the text that the piece is made of. -/
def Piece.text (piece : Piece) : List Char := piece.chunk ++ piece.gap

/-- The text has its last newline within the limit at this position, which is not its first. -/
structure LastNewline (limit : ℕ) (remaining : List Char) (k : ℕ) : Prop where
  pos : 0 < k
  lt : k < limit
  newline : remaining[k]? = some '\n'
  last : ∀ j, k < j → j < limit → remaining[j]? ≠ some '\n'

/-- The piece that one round of the loop takes off the remaining text. -/
structure Piece.CutFrom (limit : ℕ) (remaining : List Char) (piece : Piece) : Prop where
  length_pos : 0 < piece.chunk.length
  length_le : piece.chunk.length ≤ limit
  visible : BeginsVisible piece.chunk
  gap : ∀ c ∈ piece.gap, PyText.isSpace c = true
  /-- The end of the text loses nothing. -/
  whole : remaining.length ≤ limit → piece.chunk = remaining ∧ piece.gap = []
  /-- A newline that is not the first character ends the chunk. -/
  newline : limit < remaining.length →
    (∃ j, 0 < j ∧ j < limit ∧ remaining[j]? = some '\n') →
      ∃ k, LastNewline limit remaining k ∧
        piece.chunk = (remaining.take k).rdropWhile PyText.isSpace

/-! ## The cut -/

theorem exists_lastNewline {limit : ℕ} {remaining : List Char}
    (h : ∃ j, 0 < j ∧ j < limit ∧ remaining[j]? = some '\n') :
    ∃ k, LastNewline limit remaining k := by
  obtain ⟨j, hpos, hlt, hj⟩ := h
  -- the greatest index below the limit that has a newline
  let P : ℕ → Prop := fun k => remaining[k]? = some '\n'
  have hle : j ≤ limit - 1 := by omega
  have hgreatest : Nat.findGreatest P (limit - 1) ≤ limit - 1 := Nat.findGreatest_le _
  exact ⟨Nat.findGreatest P (limit - 1),
    { pos := hpos.trans_le (Nat.le_findGreatest hle hj)
      lt := by omega
      newline := @Nat.findGreatest_spec j P _ (limit - 1) hle hj
      last := fun k hk hklt => @Nat.findGreatest_is_greatest k P _ (limit - 1) hk (by omega) }⟩

theorem chunkEnd_le (limit : ℕ) (remaining : List Char) : chunkEnd limit remaining ≤ limit := by
  simp only [chunkEnd]
  split
  · have := List.length_take_le limit remaining
    omega
  · exact le_rfl

/-- The cut is at the last newline within the limit. -/
theorem chunkEnd_eq {limit k : ℕ} {remaining : List Char} (h : LastNewline limit remaining k) :
    chunkEnd limit remaining = k := by
  obtain ⟨hk, hnewline⟩ := List.getElem?_eq_some_iff.mp h.newline
  have hlen : k < (remaining.take limit).length := by
    rw [List.length_take]
    exact lt_min h.lt hk
  -- the window is the text before the newline, the newline, and a text without one
  set after := (remaining.take limit).drop (k + 1) with hafter
  have hwindow : remaining.take limit = remaining.take k ++ '\n' :: after := by
    rw [← List.take_append_drop k (remaining.take limit), List.take_take, min_eq_left h.lt.le,
      List.drop_eq_getElem_cons hlen, List.getElem_take, hnewline]
  have hnone : '\n' ∉ after := by
    intro hmem
    obtain ⟨i, hi⟩ := List.mem_iff_getElem?.mp hmem
    rw [hafter, List.getElem?_drop, List.getElem?_take] at hi
    split at hi
    · exact h.last _ (by omega) ‹_› hi
    · simp at hi
  have hindex : (remaining.take limit).reverse.idxOf '\n' = after.length := by
    rw [hwindow, List.reverse_append, List.reverse_cons, List.append_assoc,
      List.idxOf_append_of_notMem (by simpa using hnone)]
    simp
  have hlength : (remaining.take limit).length = k + (after.length + 1) := by
    rw [hwindow, List.length_append, List.length_take, min_eq_left hk.le, List.length_cons]
  have hpos := h.pos
  simp only [chunkEnd, hindex, hlength]
  rw [if_pos (by omega)]
  omega

/-! ## One round -/

/-- What the first characters leave of a text without white space before it. -/
theorem BeginsVisible.rdropWhile_take {remaining : List Char} {k : ℕ}
    (h : BeginsVisible remaining) (hk : 0 < k) :
    BeginsVisible ((remaining.take k).rdropWhile PyText.isSpace) := by
  obtain ⟨c, hc, hvisible⟩ := h
  -- the first character is visible and stays, so the chunk begins with it
  obtain ⟨rest, rfl⟩ := List.head?_eq_some_iff.mp hc
  obtain ⟨n, rfl⟩ := Nat.exists_eq_succ_of_ne_zero hk.ne'
  obtain ⟨stripped, hstripped⟩ := List.rdropWhile_prefix PyText.isSpace ((c :: rest).take (n + 1))
  cases hchunk : ((c :: rest).take (n + 1)).rdropWhile PyText.isSpace with
  | nil =>
      -- the visible character is not stripped
      have hall := List.rdropWhile_eq_nil_iff.mp hchunk c (by simp)
      rw [hvisible] at hall
      exact Bool.noConfusion hall
  | cons first chunk =>
      rw [hchunk, List.take_succ_cons, List.cons_append, List.cons.injEq] at hstripped
      exact ⟨c, by rw [hstripped.1]; rfl, hvisible⟩

/-- What the stripping of the rest leaves does not begin with white space. -/
theorem beginsVisible_dropWhile {rest : List Char}
    (h : rest.dropWhile PyText.isSpace ≠ []) :
    BeginsVisible (rest.dropWhile PyText.isSpace) :=
  ⟨_, List.head?_eq_some_head h, Bool.eq_false_iff.mpr (by
    simpa using List.head_dropWhile_not PyText.isSpace h)⟩

theorem BeginsVisible.ne_nil {text : List Char} (h : BeginsVisible text) : text ≠ [] := by
  obtain ⟨c, hc, -⟩ := h
  rintro rfl
  cases hc

/-- The piece that a cut at `k` takes off. -/
def cutPiece (remaining : List Char) (k : ℕ) : Piece where
  chunk := (remaining.take k).rdropWhile PyText.isSpace
  gap := (remaining.take k).rtakeWhile PyText.isSpace ++
    (remaining.drop k).takeWhile PyText.isSpace

/-- The piece and what the loop goes on with are the text. -/
theorem cutPiece_text (remaining : List Char) (k : ℕ) :
    (cutPiece remaining k).text ++ (remaining.drop k).dropWhile PyText.isSpace = remaining := by
  rw [Piece.text, cutPiece, List.append_assoc, List.append_assoc, List.takeWhile_append_dropWhile,
    ← List.append_assoc, List.rdropWhile_append_rtakeWhile, List.take_append_drop]

/-- A round with a text over the limit. -/
theorem cutPiece_cutFrom {limit : ℕ} (hlimit : 0 < limit) {remaining : List Char}
    (hvisible : BeginsVisible remaining) (hover : limit < remaining.length) :
    (cutPiece remaining (chunkEnd limit remaining)).CutFrom limit remaining where
  length_pos :=
    List.length_pos_iff.mpr (hvisible.rdropWhile_take (chunkEnd_pos hlimit remaining)).ne_nil
  length_le := by
    have hprefix := (List.rdropWhile_prefix PyText.isSpace
      (remaining.take (chunkEnd limit remaining))).length_le
    have htake := List.length_take_le (chunkEnd limit remaining) remaining
    have hend := chunkEnd_le limit remaining
    exact hprefix.trans (htake.trans hend)
  visible := hvisible.rdropWhile_take (chunkEnd_pos hlimit remaining)
  gap := by
    intro c hc
    rcases List.mem_append.mp hc with hc | hc
    · exact List.mem_rtakeWhile_imp hc
    · exact List.mem_takeWhile_imp hc
  whole hle := absurd hover (not_lt.mpr hle)
  newline _ hnewline := by
    obtain ⟨k, hk⟩ := exists_lastNewline hnewline
    exact ⟨k, hk, by rw [cutPiece, chunkEnd_eq hk]⟩

/-- The last round takes what is left. -/
theorem whole_cutFrom {limit : ℕ} {remaining : List Char} (hvisible : BeginsVisible remaining)
    (hle : remaining.length ≤ limit) : (Piece.mk remaining []).CutFrom limit remaining where
  length_pos := List.length_pos_iff.mpr hvisible.ne_nil
  length_le := hle
  visible := hvisible
  gap := by simp
  whole _ := ⟨rfl, rfl⟩
  newline hover := absurd hover (not_lt.mpr hle)

/-! ## The loop -/

/-- The text that is made of pieces. -/
def piecesText (pieces : List Piece) : List Char := pieces.flatMap Piece.text

/-- The rounds take the pieces off the text, one after the other. -/
def CutInto (limit : ℕ) (remaining : List Char) (pieces : List Piece) : Prop :=
  piecesText pieces = remaining ∧
    ∀ i (piece : Piece), pieces[i]? = some piece → piece.CutFrom limit (piecesText (pieces.drop i))

/-- A round, and those after it. -/
theorem CutInto.cons {limit : ℕ} {remaining rest : List Char} {piece : Piece} {pieces : List Piece}
    (hpiece : piece.CutFrom limit remaining) (htext : piece.text ++ rest = remaining)
    (h : CutInto limit rest pieces) : CutInto limit remaining (piece :: pieces) := by
  -- the pieces after this one are cut from what it leaves
  have hremaining : piecesText (piece :: pieces) = remaining := by
    rw [piecesText, List.flatMap_cons, ← htext, ← h.1, piecesText]
  refine ⟨hremaining, fun i other hi => ?_⟩
  cases i with
  | zero =>
      obtain rfl : piece = other := by simpa using hi
      rwa [List.drop_zero, hremaining]
  | succ i => exact h.2 i other hi

/-- Nothing is left. -/
theorem CutInto.nil {limit : ℕ} : CutInto limit [] [] := ⟨rfl, by simp⟩

/-- A text within the limit is one piece. -/
theorem CutInto.whole {limit : ℕ} {remaining : List Char} (hvisible : BeginsVisible remaining)
    (hle : remaining.length ≤ limit) : CutInto limit remaining [⟨remaining, []⟩] := by
  apply CutInto.cons (whole_cutFrom hvisible hle) _ CutInto.nil
  simp only [Piece.text, List.append_nil]

/-- The chunks of a text that is empty or does not begin with white space. -/
theorem splitRemaining_pieces {limit : ℕ} (hlimit : 0 < limit) (remaining : List Char)
    (hvisible : remaining ≠ [] → BeginsVisible remaining) :
    ∃ pieces, splitRemaining limit hlimit remaining = pieces.map Piece.chunk ∧
      CutInto limit remaining pieces := by
  -- the cases are those of the loop: over the limit, nothing left, the last chunk
  induction remaining using splitRemaining.induct limit hlimit with
  | case1 remaining hover cut ih =>
      have hne : remaining ≠ [] := List.ne_nil_of_length_pos (hlimit.trans hover)
      obtain ⟨pieces, hpieces, hcut⟩ := ih beginsVisible_dropWhile
      refine ⟨cutPiece remaining cut :: pieces, ?_,
        hcut.cons (cutPiece_cutFrom hlimit (hvisible hne) hover) (cutPiece_text remaining cut)⟩
      rw [splitRemaining, if_pos hover, List.map_cons, ← hpieces]
      rfl
  | case2 remaining hle hempty =>
      obtain rfl := List.isEmpty_iff.mp hempty
      refine ⟨[], ?_, CutInto.nil⟩
      rw [splitRemaining, if_neg hle]
      rfl
  | case3 remaining hle hne =>
      refine ⟨[⟨remaining, []⟩], ?_,
        CutInto.whole (hvisible (by simpa using hne)) (not_lt.mp hle)⟩
      rw [splitRemaining, if_neg hle, if_neg hne]
      rfl

/-- `split_message` drops white space between the chunks of a text that does not begin with any,
and nothing else. Each chunk has at least one character and at most `limit`, does not begin with
white space, and ends at the last newline within the limit, if there is one. -/
theorem splitMessageWithin_pieces {limit : ℕ} (hlimit : 0 < limit) {text : String}
    (hvisible : BeginsVisible text.toList) :
    ∃ pieces : List Piece,
      splitMessageWithin limit hlimit text = pieces.map (String.ofList ∘ Piece.chunk) ∧
        CutInto limit text.toList pieces := by
  rw [splitMessageWithin]
  split
  · rename_i hle
    refine ⟨[⟨text.toList, []⟩], by simp, CutInto.whole hvisible ?_⟩
    rwa [String.length_toList]
  · obtain ⟨pieces, hpieces, hcut⟩ :=
      splitRemaining_pieces hlimit text.toList fun _ => hvisible
    refine ⟨pieces, ?_, hcut⟩
    rw [hpieces, List.map_map]

/-- Two lines that do not fit together, and white space at the end. -/
theorem splitMessageWithin_pieces_lines :
    ∃ pieces : List Piece,
      splitMessageWithin 4 (by decide) "ab\ncd   " = pieces.map (String.ofList ∘ Piece.chunk) ∧
        CutInto 4 "ab\ncd   ".toList pieces :=
  splitMessageWithin_pieces (by decide) ⟨'a', by decide, by decide⟩

end BybitMonitor
