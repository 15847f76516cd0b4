import Mathlib
import BybitMonitor.Bybit.Parsing
import BybitMonitor.ToMathlib.Regex

/-!
# Announcements

The symbols that the announcement of a listing names: the market pairs in its text or, if there is
none, the base coins in parentheses.

* `mem_symbolsFromAnnouncement`: what an announcement names.
-/

namespace BybitMonitor

namespace PyText

/-- The letters outside ASCII whose lower case has letters in ASCII. -/
def lowerToAscii : List (Char × List Char) :=
  [('\u0130', ['i', '\u0307']), ('\u212a', ['k'])]

/-- `s.lower()`, as far as letters in ASCII and letters without cases are concerned: the others
stay as they are. -/
def lower (s : String) : String :=
  String.ofList (s.toList.flatMap fun c =>
    match lowerToAscii.find? (fun u => u.1 = c) with
    | some u => u.2
    | none => [c.toLower])

/-- `word in s`. -/
def contains (word s : String) : Bool := decide (word.toList <:+: s.toList)

/-- `\w`, where `isAlnum` is `c.isalnum()` outside ASCII. -/
def isWord (isAlnum : Char → Bool) (c : Char) : Bool :=
  if c.toNat < 128 then c.isAlphanum || c = '_' else isAlnum c

end PyText

/-- `_LISTING_KEYWORDS`. -/
def listingKeywords : List String :=
  ["list", "listing", "listed", "上线", "上架", "perpetual", "spot trading"]

/-- The text that is searched. -/
def Announcement.text (self : Announcement) : String := self.title ++ " " ++ self.description

/-- `_is_listing_announcement`. -/
def isListingAnnouncement (announcement : Announcement) : Bool :=
  if announcement.typeKey.isString "new_crypto" then true
  else if announcement.tags.any fun tag => PyText.contains "listing" (PyText.lower tag) then true
  else
    let text := PyText.lower announcement.text
    listingKeywords.any fun keyword => PyText.contains keyword text

/-- `[A-Z0-9]`. -/
def isBaseChar (c : Char) : Bool := c.isUpper || c.isDigit

/-- `[A-Z0-9]{2,12}?(?:USDT|USDC)`. -/
def pairRegex : Regex Char :=
  .seq (.lazyRepeat (.one isBaseChar) 2 12)
    (.alt (.literal "USDT".toList) (.literal "USDC".toList))

/-- `_SYMBOL_RE`. -/
def symbolRegex (isAlnum : Char → Bool) : Regex Char := .word (PyText.isWord isAlnum) pairRegex

/-- `_BASE_TICKER_RE`. -/
def baseTickerRegex : Regex Char := .delimited '(' ')' (.greedyRepeat (.one isBaseChar) 2 10)

/-- `set(regex.findall(text))`. -/
def foundIn (regex : Regex Char) (text : String) : Finset String :=
  ((regex.findAll text.toList).map String.ofList).toFinset

/-- `_symbols_from_announcement`. -/
def symbolsFromAnnouncement (isAlnum : Char → Bool) (announcement : Announcement) :
    Finset String :=
  if isListingAnnouncement announcement then
    let symbols := foundIn (symbolRegex isAlnum) announcement.text
    -- only the base ticker is available: never fabricate a market pair
    if symbols = ∅ then foundIn baseTickerRegex announcement.text else symbols
  else ∅

/-! ## What the expressions accept -/

/-- A market pair: a base of 2 to 12 characters and a quote. -/
def IsPair (symbol : List Char) : Prop :=
  ∃ base quote, symbol = base ++ quote ∧ 2 ≤ base.length ∧ base.length ≤ 12 ∧
    (∀ c ∈ base, isBaseChar c = true) ∧ (quote = "USDT".toList ∨ quote = "USDC".toList)

/-- A ticker of a base coin. -/
def IsTicker (symbol : List Char) : Prop :=
  2 ≤ symbol.length ∧ symbol.length ≤ 10 ∧ ∀ c ∈ symbol, isBaseChar c = true

theorem accepts_pairRegex {text : List Char} : pairRegex.Accepts text ↔ IsPair text := by
  simp only [pairRegex, Regex.Accepts, Regex.accepts_literal,
    Regex.accepts_lazyRepeat (show 2 ≤ 12 by decide), and_assoc]
  exact Iff.rfl

theorem accepts_tickerRegex {text : List Char} :
    (Regex.greedyRepeat (.one isBaseChar) 2 10).Accepts text ↔ IsTicker text :=
  Regex.accepts_greedyRepeat (by decide)

theorem isPlain_pairRegex : pairRegex.IsPlain :=
  ⟨Regex.isPlain_lazyRepeat (Regex.isPlain_one _) 2 12, Regex.isPlain_literal _,
    Regex.isPlain_literal _⟩

theorem isWord_of_isBaseChar {isAlnum : Char → Bool} {c : Char} (h : isBaseChar c = true) :
    PyText.isWord isAlnum c = true := by
  have hascii : c.toNat < 128 ∧ c.isAlphanum = true := by
    simp only [isBaseChar, Bool.or_eq_true, Char.isUpper, Char.isDigit, decide_eq_true_eq,
      Bool.and_eq_true, UInt32.le_iff_toNat_le] at h
    refine ⟨?_, ?_⟩
    · rcases h with h | h <;> simp at h <;> omega
    · simp only [Char.isAlphanum, Char.isAlpha, Char.isUpper, Char.isDigit, Bool.or_eq_true,
        Bool.and_eq_true, decide_eq_true_eq, UInt32.le_iff_toNat_le]
      tauto
  rw [PyText.isWord, if_pos hascii.1, hascii.2, Bool.true_or]

/-- A pair is written in letters of words. -/
theorem IsPair.isWord {isAlnum : Char → Bool} {symbol : List Char} (h : IsPair symbol) :
    symbol ≠ [] ∧ ∀ c ∈ symbol, PyText.isWord isAlnum c = true := by
  obtain ⟨base, quote, rfl, hlong, -, hbase, hquote⟩ := h
  refine ⟨fun hnil => ?_, fun c hc => isWord_of_isBaseChar ?_⟩
  · rw [List.append_eq_nil_iff.mp hnil |>.1] at hlong
    cases hlong
  · rcases List.mem_append.mp hc with hc | hc
    · exact hbase c hc
    · rcases hquote with rfl | rfl
      · have hquote : "USDT".toList.all isBaseChar = true := by decide
        exact List.all_eq_true.mp hquote c hc
      · have hquote : "USDC".toList.all isBaseChar = true := by decide
        exact List.all_eq_true.mp hquote c hc

/-! ## What an announcement names -/

theorem mem_foundIn {regex : Regex Char} {text symbol : String} :
    symbol ∈ foundIn regex text ↔ symbol.toList ∈ regex.findAll text.toList := by
  simp only [foundIn, List.mem_toFinset, List.mem_map]
  constructor
  · rintro ⟨item, hitem, rfl⟩
    rwa [String.toList_ofList]
  · exact fun h => ⟨_, h, String.ofList_toList⟩

/-- A market pair that is a whole word of the text. -/
def HasPair (isAlnum : Char → Bool) (text symbol : String) : Prop :=
  IsPair symbol.toList ∧ Regex.IsWordOf (PyText.isWord isAlnum) symbol.toList text.toList

/-- A ticker in parentheses. -/
def HasTicker (text symbol : String) : Prop :=
  IsTicker symbol.toList ∧ '(' :: (symbol.toList ++ [')']) <:+: text.toList

theorem mem_foundIn_symbolRegex {isAlnum : Char → Bool} {text symbol : String} :
    symbol ∈ foundIn (symbolRegex isAlnum) text ↔ HasPair isAlnum text symbol := by
  rw [mem_foundIn, symbolRegex, Regex.mem_findAll_word isPlain_pairRegex
    fun text htext => (accepts_pairRegex.mp htext).isWord, accepts_pairRegex]
  exact Iff.rfl

theorem mem_foundIn_baseTickerRegex {text symbol : String} :
    symbol ∈ foundIn baseTickerRegex text ↔ HasTicker text symbol := by
  have hinner (text : List Char)
      (htext : (Regex.greedyRepeat (.one isBaseChar) 2 10).Accepts text) :
      '(' ∉ text ∧ ')' ∉ text := by
    obtain ⟨-, -, hall⟩ := accepts_tickerRegex.mp htext
    exact ⟨fun h => absurd (hall _ h) (by decide), fun h => absurd (hall _ h) (by decide)⟩
  rw [mem_foundIn, baseTickerRegex, Regex.mem_findAll_delimited
    (Regex.isPlain_greedyRepeat (Regex.isPlain_one _) 2 10) (by decide) hinner, accepts_tickerRegex]
  exact Iff.rfl

/-- What the announcement of a listing names: the market pairs that are words of its text or, in a
text without one, the tickers in parentheses. -/
def Announcement.Names (isAlnum : Char → Bool) (self : Announcement) (symbol : String) : Prop :=
  HasPair isAlnum self.text symbol ∨
    (∀ pair, ¬ HasPair isAlnum self.text pair) ∧ HasTicker self.text symbol

/-- **The symbols of an announcement.** They are exactly those that it names, if it announces a
listing, and none otherwise. -/
theorem mem_symbolsFromAnnouncement (isAlnum : Char → Bool) (announcement : Announcement)
    (symbol : String) : symbol ∈ symbolsFromAnnouncement isAlnum announcement ↔
      isListingAnnouncement announcement = true ∧ announcement.Names isAlnum symbol := by
  rw [symbolsFromAnnouncement, Announcement.Names]
  cases isListingAnnouncement announcement with
  | false => simp
  | true =>
      have hempty : foundIn (symbolRegex isAlnum) announcement.text = ∅ ↔
          ∀ pair, ¬ HasPair isAlnum announcement.text pair := by
        simp only [Finset.eq_empty_iff_forall_notMem, mem_foundIn_symbolRegex]
      simp only [if_true, true_and]
      split
      · rename_i hnone
        have hpairs := hempty.mp hnone
        rw [mem_foundIn_baseTickerRegex]
        exact ⟨fun h => Or.inr ⟨hpairs, h⟩, fun h => h.elim (absurd · (hpairs symbol)) And.right⟩
      · rename_i hsome
        rw [mem_foundIn_symbolRegex]
        exact ⟨Or.inl, fun h => h.elim id fun h => absurd (hempty.mpr h.1) hsome⟩

/-- A word with an underscore is one word, and parentheses count only if there is no pair. -/
example :
    let announcement : Announcement :=
      { id := "", title := "New Listing: ABCUSDT, X_DEFUSDC (GHI)", description := "1000PEPEUSDT",
        typeKey := .null, typeTitle := .null, tags := [], timestamp := 0,
        announcementType := .null, metadata := [] }
    symbolsFromAnnouncement (fun _ => true) announcement = {"ABCUSDT", "1000PEPEUSDT"} := by
  decide +kernel

end BybitMonitor
