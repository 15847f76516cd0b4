import Mathlib
import BybitMonitor.ToMathlib.Dict
import BybitMonitor.ToMathlib.Sorting
import BybitMonitor.Market.Deduplication

/-!
# Aggregation is exact

The aggregation groups the qualifying markets in the order of the rows, then sorts each group and
the coins. Its result depends on the markets only: which coins qualify, which market of a coin is
preferred, and which markets are the others.

* `Outranks`: the preference between two markets, by increase, kind and symbol.
* `aggregate_qualifying_exact`: what the aggregation returns for markets in any order.
-/

namespace BybitMonitor

/-! ## The preference between markets -/

/-- The kinds of markets, the preferred ones first. -/
inductive MarketKind
  | usdtLinear
  | usdcLinear
  | otherLinear
  | stablecoinSpot
  | otherSpot
  deriving DecidableEq, Repr

namespace MarketKind

/-- The place among the kinds. -/
def rank : MarketKind → ℕ
  | usdtLinear => 0
  | usdcLinear => 1
  | otherLinear => 2
  | stablecoinSpot => 3
  | otherSpot => 4

/-- Which markets are of a kind. -/
def Holds : MarketKind → MomentumValue → Prop
  | usdtLinear, value => value.category = "linear" ∧ value.settleCoin = some "USDT"
  | usdcLinear, value => value.category = "linear" ∧ value.settleCoin = some "USDC"
  | otherLinear, value =>
      value.category = "linear" ∧ value.settleCoin ≠ some "USDT" ∧ value.settleCoin ≠ some "USDC"
  | stablecoinSpot, value =>
      value.category = "spot" ∧
        PyText.upper (PyText.orElse value.quoteCoin "") ∈ stablecoinQuotes
  | otherSpot, value =>
      value.category = "spot" ∧
        PyText.upper (PyText.orElse value.quoteCoin "") ∉ stablecoinQuotes

end MarketKind

/-- `value` is preferred to `other`: the larger increase, then the better kind, then the symbol. -/
def Outranks (value other : MomentumValue) : Prop :=
  ∃ x y : ℚ, value.change1h = some (.finite x) ∧ other.change1h = some (.finite y) ∧
    (y < x ∨ y = x ∧ ∃ kind otherKind : MarketKind,
      kind.Holds value ∧ otherKind.Holds other ∧
        (kind.rank < otherKind.rank ∨ kind = otherKind ∧ value.symbol < other.symbol))

/-- The markets of `coin` whose increase is over the threshold, in the order of the rows. -/
def qualifyingMarkets (values : List MomentumValue) (threshold : PyFloat) (coin : String) :
    List MomentumValue :=
  values.filter fun value =>
    MomentumEngine.qualifies value.change1h threshold ∧ value.baseCoin = coin

/-! ## The key of a market -/

/-- `(-change, rank, symbol)`, the key that the markets of a coin are sorted by. -/
def marketKey (value : MomentumValue) : ℚ ×ₗ ℕ ×ₗ String :=
  toLex (-(rankedChange value).value, toLex (tieBreakRank value, value.symbol))

/-- Every market of the two categories has a kind, and the kind decides the rank. -/
theorem exists_kind {value : MomentumValue}
    (hcategory : value.category = "spot" ∨ value.category = "linear") :
    ∃ kind : MarketKind, kind.Holds value ∧ tieBreakRank value = kind.rank := by
  rcases hcategory with hspot | hlinear
  · have hne : value.category ≠ "linear" := by rw [hspot]; decide
    rw [tieBreakRank, if_neg hne, if_pos hspot]
    split
    · exact ⟨.stablecoinSpot, ⟨hspot, ‹_›⟩, rfl⟩
    · exact ⟨.otherSpot, ⟨hspot, ‹_›⟩, rfl⟩
  · rw [tieBreakRank, if_pos hlinear]
    split
    · exact ⟨.usdtLinear, ⟨hlinear, ‹_›⟩, rfl⟩
    · split
      · exact ⟨.usdcLinear, ⟨hlinear, ‹_›⟩, rfl⟩
      · exact ⟨.otherLinear, ⟨hlinear, ‹_›, ‹_›⟩, rfl⟩

/-- The kinds have different ranks. -/
theorem MarketKind.rank_injective : Function.Injective MarketKind.rank := by
  intro kind other h
  cases kind <;> cases other <;> first | rfl | cases h

/-- Markets of different categories are of different kinds. -/
theorem MarketKind.Holds.category_eq {kind : MarketKind} {value other : MomentumValue}
    (h : kind.Holds value) (hother : kind.Holds other) : value.category = other.category := by
  cases kind <;> exact h.1.trans hother.1.symm

/-- Markets of the two categories that have the same rank are of the same category. -/
theorem category_eq_of_tieBreakRank {value other : MomentumValue}
    (hvalue : value.category = "spot" ∨ value.category = "linear")
    (hother : other.category = "spot" ∨ other.category = "linear")
    (hrank : tieBreakRank value = tieBreakRank other) : value.category = other.category := by
  -- the rank tells the kind, and the kind the category
  obtain ⟨kind, hkind, hrankValue⟩ := exists_kind hvalue
  obtain ⟨otherKind, hotherKind, hrankOther⟩ := exists_kind hother
  have hsame : kind = otherKind :=
    MarketKind.rank_injective (hrankValue.symm.trans (hrank.trans hrankOther))
  subst hsame
  exact hkind.category_eq hotherKind

/-- The markets that an aggregation is about: two categories, and no increase or a number. -/
structure Aggregable (value : MomentumValue) : Prop where
  category : value.category = "spot" ∨ value.category = "linear"
  change : value.change1h = none ∨ ∃ x, value.change1h = some (.finite x)

namespace Aggregable

variable {value other : MomentumValue}

/-- A market is ranked by a number. -/
theorem exists_rankedChange (h : Aggregable value) : ∃ x, rankedChange value = .finite x := by
  rw [rankedChange]
  rcases h.change with hnone | ⟨x, hsome⟩
  · exact ⟨0, by rw [hnone]; rfl⟩
  · exact ⟨x, by rw [hsome]; rfl⟩

/-- The comparison of the sort is the comparison of the keys. -/
theorem rankedBefore_iff (h : Aggregable value) (hother : Aggregable other) :
    rankedBefore value other = true ↔ marketKey value ≤ marketKey other := by
  obtain ⟨x, hx⟩ := h.exists_rankedChange
  obtain ⟨y, hy⟩ := hother.exists_rankedChange
  have hkey : marketKey value ≤ marketKey other ↔
      -x < -y ∨ -x = -y ∧ (tieBreakRank value < tieBreakRank other ∨
        tieBreakRank value = tieBreakRank other ∧ value.symbol ≤ other.symbol) := by
    rw [marketKey, marketKey, hx, hy, Prod.Lex.toLex_le_toLex, Prod.Lex.toLex_le_toLex]
    rfl
  rw [hkey, rankedBefore, hx, hy]
  simp only [PyFloat.lt, Bool.or_eq_true, Bool.and_eq_true, Bool.not_eq_true', decide_eq_true_eq,
    decide_eq_false_iff_not, neg_lt_neg_iff, neg_inj]
  -- the source compares the increases once more for the tie, which is then an equality
  constructor
  · rintro (hlt | ⟨hle, htie⟩)
    · exact Or.inl hlt
    · rcases (not_lt.mp hle).lt_or_eq with hlt | heq
      · exact Or.inl hlt
      · exact Or.inr ⟨heq.symm, htie⟩
  · rintro (hlt | ⟨heq, htie⟩)
    · exact Or.inl hlt
    · exact Or.inr ⟨heq.not_lt, htie⟩

end Aggregable

/-! ## The groups and their representatives -/

/-- No two rows are the same market. -/
def DistinctMarkets (values : List MomentumValue) : Prop :=
  (values.map fun value => (value.category, value.symbol)).Nodup

section Representatives

variable {values values' : List MomentumValue} {threshold : PyFloat}

theorem mem_qualifyingMarkets {coin : String} {value : MomentumValue} :
    value ∈ qualifyingMarkets values threshold coin ↔
      value ∈ values ∧ MomentumEngine.qualifies value.change1h threshold = true ∧
        value.baseCoin = coin := by
  rw [qualifyingMarkets, List.mem_filter, decide_eq_true_eq]

/-- A market that qualifies has a number as its increase. -/
theorem Aggregable.exists_change {value : MomentumValue} (h : Aggregable value)
    (hqualifies : MomentumEngine.qualifies value.change1h threshold = true) :
    ∃ x, value.change1h = some (.finite x) ∧ rankedChange value = .finite x := by
  rcases h.change with hnone | ⟨x, hsome⟩
  · rw [hnone] at hqualifies
    cases hqualifies
  · exact ⟨x, hsome, by rw [rankedChange, hsome]; rfl⟩

/-- The key of a qualifying market tells it from the other rows: the rank gives the category. -/
theorem sortsBy_marketKey (hdistinct : DistinctMarkets values)
    (haggregable : ∀ value ∈ values, Aggregable value) (coin : String) :
    List.SortsBy (fun value other => rankedBefore value other = true) marketKey
      (qualifyingMarkets values threshold coin) where
  le_iff value hvalue other hother :=
    (haggregable value (mem_qualifyingMarkets.mp hvalue).1).rankedBefore_iff
      (haggregable other (mem_qualifyingMarkets.mp hother).1)
  eq_of_key value hvalue other hother heq := by
    have hmem := (mem_qualifyingMarkets.mp hvalue).1
    have hmemOther := (mem_qualifyingMarkets.mp hother).1
    -- of the key only the rank and the symbol are needed
    have htie := (Prod.mk.inj (toLex.injective heq)).2
    obtain ⟨hrank, hsymbol⟩ := Prod.mk.inj (toLex.injective htie)
    have hcategory := category_eq_of_tieBreakRank (haggregable value hmem).category
      (haggregable other hmemOther).category hrank
    exact List.inj_on_of_nodup_map hdistinct hmem hmemOther (Prod.ext hcategory hsymbol)

/-- The rows of one coin are distinct. -/
theorem nodup_qualifyingMarkets (hdistinct : DistinctMarkets values) (coin : String) :
    (qualifyingMarkets values threshold coin).Nodup :=
  (List.Nodup.of_map _ hdistinct).filter _

/-- A group is represented by its first market in the order of the keys. -/
theorem representCoin_eq_some_iff {group : String × List MomentumValue}
    {r : RepresentativeMarket} :
    representCoin group = some r ↔
      r.baseCoin = group.1 ∧
        r.representative :: r.others =
          group.2.insertionSort fun value other => rankedBefore value other = true := by
  rw [representCoin]
  cases hsorted : group.2.insertionSort fun value other => rankedBefore value other = true with
  | nil => exact iff_of_false (by simp) (by simp)
  | cons representative others =>
      rw [Option.some.injEq, List.cons.injEq]
      constructor
      · rintro rfl
        exact ⟨rfl, rfl, rfl⟩
      · rintro ⟨hcoin, hrepresentative, hothers⟩
        cases r
        cases hcoin
        cases hrepresentative
        cases hothers
        rfl

/-- The representatives before they are sorted. -/
def unsortedRepresentatives (values : List MomentumValue) (threshold : PyFloat) :
    List RepresentativeMarket :=
  ((values.filter fun value => MomentumEngine.qualifies value.change1h threshold).foldl
    appendToCoin []).filterMap representCoin

/-- The qualifying markets are grouped by base coin. -/
theorem groups_appendToCoin (l : List MomentumValue) :
    Dict.Groups MomentumValue.baseCoin l (l.foldl appendToCoin []) :=
  Dict.groups_foldl MomentumValue.baseCoin l

/-- A coin is represented by its qualifying markets in the order of their keys. -/
theorem mem_unsortedRepresentatives {r : RepresentativeMarket} :
    r ∈ unsortedRepresentatives values threshold ↔
      r.representative :: r.others =
        (qualifyingMarkets values threshold r.baseCoin).insertionSort
          fun value other => rankedBefore value other = true := by
  have hmarkets (coin : String) :
      (values.filter fun value => MomentumEngine.qualifies value.change1h threshold).filter
        (fun value => value.baseCoin = coin) = qualifyingMarkets values threshold coin := by
    rw [List.filter_filter, qualifyingMarkets]
    refine List.filter_congr fun value _ => ?_
    rw [Bool.and_comm, Bool.decide_and, Bool.decide_eq_true]
  rw [unsortedRepresentatives, List.mem_filterMap]
  constructor
  · rintro ⟨group, hgroup, hrepresent⟩
    obtain ⟨hcoin, hsorted⟩ := representCoin_eq_some_iff.mp hrepresent
    obtain ⟨hmembers, -⟩ := ((groups_appendToCoin _).mem_iff group).mp hgroup
    rw [hsorted, hmembers, hmarkets, hcoin]
  · intro hsorted
    refine ⟨(r.baseCoin, qualifyingMarkets values threshold r.baseCoin),
      ((groups_appendToCoin _).mem_iff _).mpr ⟨(hmarkets r.baseCoin).symm, ?_⟩,
      representCoin_eq_some_iff.mpr ⟨rfl, hsorted⟩⟩
    -- The group is not empty because its best market is in it.
    have hmem : r.representative ∈ qualifyingMarkets values threshold r.baseCoin := by
      rw [← List.mem_insertionSort fun value other => rankedBefore value other = true, ← hsorted]
      exact List.mem_cons_self
    obtain ⟨hvalue, hqualifies, hcoin⟩ := mem_qualifyingMarkets.mp hmem
    exact ⟨r.representative, List.mem_filter.mpr ⟨hvalue, hqualifies⟩, hcoin⟩

/-- No coin is represented twice. -/
theorem nodup_unsortedRepresentatives :
    (unsortedRepresentatives values threshold).Nodup := by
  have hkeys := (groups_appendToCoin
    (values.filter fun value => MomentumEngine.qualifies value.change1h threshold)).nodup
  rw [unsortedRepresentatives]
  -- the groups have different coins, and so have their representatives
  refine List.Pairwise.filterMap representCoin (fun group other hne r hr s hs heq => ?_)
    (List.pairwise_map.mp hkeys)
  apply hne
  rw [← (representCoin_eq_some_iff.mp hr).1, ← (representCoin_eq_some_iff.mp hs).1, heq]

/-- The coin tells the representatives apart. -/
theorem sortsBy_baseCoin :
    List.SortsBy (fun r other : RepresentativeMarket => r.baseCoin ≤ other.baseCoin)
      RepresentativeMarket.baseCoin (unsortedRepresentatives values threshold) where
  le_iff _ _ _ _ := Iff.rfl
  eq_of_key r hr other hother hcoin := by
    -- the coin fixes the sorted list of its markets
    have hsorted := mem_unsortedRepresentatives.mp hr
    rw [hcoin, ← mem_unsortedRepresentatives.mp hother] at hsorted
    obtain ⟨hrepresentative, hothers⟩ := List.cons.inj hsorted
    cases r
    cases other
    cases hcoin
    cases hrepresentative
    cases hothers
    rfl

theorem aggregateQualifying_representatives :
    (aggregateQualifying values threshold).representatives =
      (unsortedRepresentatives values threshold).insertionSort
        fun r other => r.baseCoin ≤ other.baseCoin := rfl

theorem mem_representatives {r : RepresentativeMarket} :
    r ∈ (aggregateQualifying values threshold).representatives ↔
      r.representative :: r.others =
        (qualifyingMarkets values threshold r.baseCoin).insertionSort
          fun value other => rankedBefore value other = true := by
  rw [aggregateQualifying_representatives, List.mem_insertionSort, mem_unsortedRepresentatives]

end Representatives

/-! ## The result -/

section Result

variable {values values' : List MomentumValue} {threshold : PyFloat}

/-- The smaller key belongs to the preferred market. -/
theorem outranks_of_marketKey_lt {value other : MomentumValue} (hvalue : Aggregable value)
    (hother : Aggregable other)
    (hqualifies : MomentumEngine.qualifies value.change1h threshold = true)
    (hqualifiesOther : MomentumEngine.qualifies other.change1h threshold = true)
    (hlt : marketKey value < marketKey other) : Outranks value other := by
  obtain ⟨x, hx, hrankedX⟩ := hvalue.exists_change hqualifies
  obtain ⟨y, hy, hrankedY⟩ := hother.exists_change hqualifiesOther
  obtain ⟨kind, hkind, hrank⟩ := exists_kind hvalue.category
  obtain ⟨otherKind, hotherKind, hrankOther⟩ := exists_kind hother.category
  rw [marketKey, marketKey, hrankedX, hrankedY, hrank, hrankOther, Prod.Lex.toLex_lt_toLex,
    Prod.Lex.toLex_lt_toLex] at hlt
  refine ⟨x, y, hx, hy, ?_⟩
  rcases hlt with hlt | ⟨heq, htie⟩
  · exact Or.inl (neg_lt_neg_iff.mp hlt)
  · refine Or.inr ⟨(neg_inj.mp heq).symm, kind, otherKind, hkind, hotherKind, ?_⟩
    rcases htie with hlt | ⟨hsame, hsymbol⟩
    · exact Or.inl hlt
    · exact Or.inr ⟨MarketKind.rank_injective hsame, hsymbol⟩

/-- The representatives of the same rows in another order are the same ones. -/
theorem perm_unsortedRepresentatives (hdistinct : DistinctMarkets values)
    (haggregable : ∀ value ∈ values, Aggregable value) (hperm : values'.Perm values) :
    (unsortedRepresentatives values' threshold).Perm
      (unsortedRepresentatives values threshold) := by
  rw [List.perm_ext_iff_of_nodup nodup_unsortedRepresentatives nodup_unsortedRepresentatives]
  intro r
  have hmarkets : (qualifyingMarkets values' threshold r.baseCoin).Perm
      (qualifyingMarkets values threshold r.baseCoin) := hperm.filter _
  rw [mem_unsortedRepresentatives, mem_unsortedRepresentatives,
    (sortsBy_marketKey hdistinct haggregable r.baseCoin).eq_of_perm hmarkets]

/-- The order of the rows does not matter. -/
theorem aggregateQualifying_perm (hdistinct : DistinctMarkets values)
    (haggregable : ∀ value ∈ values, Aggregable value) (hperm : values'.Perm values) :
    aggregateQualifying values' threshold = aggregateQualifying values threshold := by
  have hsorted := (@sortsBy_baseCoin values threshold).eq_of_perm
    (perm_unsortedRepresentatives hdistinct haggregable hperm)
  exact congrArg QualifyingSet.mk hsorted

/-- The markets of a representative are the qualifying markets of its coin, the best one first. -/
theorem representative_best (hdistinct : DistinctMarkets values)
    (haggregable : ∀ value ∈ values, Aggregable value) {r : RepresentativeMarket}
    (hr : r ∈ (aggregateQualifying values threshold).representatives) :
    (r.representative :: r.others).Perm (qualifyingMarkets values threshold r.baseCoin) ∧
      ∀ other ∈ r.others, Outranks r.representative other := by
  have hsorted := mem_representatives.mp hr
  have hperm : (r.representative :: r.others).Perm
      (qualifyingMarkets values threshold r.baseCoin) := by
    rw [hsorted]
    exact List.perm_insertionSort _ _
  refine ⟨hperm, fun other hother => ?_⟩
  -- the keys increase strictly along the sorted markets
  have hincreasing := (sortsBy_marketKey hdistinct haggregable r.baseCoin).pairwise
    (@nodup_qualifyingMarkets values threshold hdistinct r.baseCoin)
  rw [← hsorted] at hincreasing
  have hlt := (List.pairwise_cons.mp hincreasing).1 other hother
  obtain ⟨hvalue, hqualifies, -⟩ :=
    mem_qualifyingMarkets.mp (hperm.subset (List.mem_cons_self (a := r.representative)))
  obtain ⟨hvalueOther, hqualifiesOther, -⟩ :=
    mem_qualifyingMarkets.mp (hperm.subset (List.mem_cons_of_mem r.representative hother))
  exact outranks_of_marketKey_lt (haggregable _ hvalue) (haggregable _ hvalueOther) hqualifies
    hqualifiesOther hlt

/-- The coins of the result are the coins of the qualifying markets. -/
theorem mem_baseCoins {coin : String} :
    coin ∈ (aggregateQualifying values threshold).baseCoins ↔
      ∃ value ∈ values, MomentumEngine.qualifies value.change1h threshold = true ∧
        value.baseCoin = coin := by
  rw [QualifyingSet.baseCoins, List.mem_map]
  constructor
  · rintro ⟨r, hr, rfl⟩
    have hmem : r.representative ∈ qualifyingMarkets values threshold r.baseCoin := by
      rw [← List.mem_insertionSort fun value other => rankedBefore value other = true,
        ← mem_representatives.mp hr]
      exact List.mem_cons_self
    exact ⟨r.representative, mem_qualifyingMarkets.mp hmem⟩
  · rintro ⟨value, hmem⟩
    have hmem : value ∈ (qualifyingMarkets values threshold coin).insertionSort
        fun value other => rankedBefore value other = true :=
      (List.mem_insertionSort _).mpr (mem_qualifyingMarkets.mpr hmem)
    -- the coin has a qualifying market, so its sorted list has a first one
    obtain ⟨representative, others, hsorted⟩ := List.exists_cons_of_ne_nil (List.ne_nil_of_mem hmem)
    exact ⟨⟨coin, representative, others⟩, mem_representatives.mpr hsorted.symm, rfl⟩

/-- The coins of the result are strictly increasing. -/
theorem pairwise_baseCoin :
    (aggregateQualifying values threshold).representatives.Pairwise
      fun r other => r.baseCoin < other.baseCoin := by
  rw [aggregateQualifying_representatives]
  exact sortsBy_baseCoin.pairwise nodup_unsortedRepresentatives

/-- **Aggregation is exact and does not depend on the order of the rows.** For distinct spot and
linear markets whose increase is absent or a number: the coins are those with a qualifying market,
once and in increasing order; the representative of a coin outranks the others, and together they
are the qualifying markets of the coin; and the same rows in any order give the same result. -/
theorem aggregate_qualifying_exact (values : List MomentumValue) (threshold : PyFloat)
    (hdistinct : DistinctMarkets values) (haggregable : ∀ value ∈ values, Aggregable value) :
    (∀ coin, coin ∈ (aggregateQualifying values threshold).baseCoins ↔
      ∃ value ∈ values, MomentumEngine.qualifies value.change1h threshold = true ∧
        value.baseCoin = coin) ∧
    (aggregateQualifying values threshold).representatives.Pairwise
      (fun r other => r.baseCoin < other.baseCoin) ∧
    (∀ r ∈ (aggregateQualifying values threshold).representatives,
      (r.representative :: r.others).Perm (qualifyingMarkets values threshold r.baseCoin) ∧
        ∀ other ∈ r.others, Outranks r.representative other) ∧
    ∀ values', values'.Perm values →
      aggregateQualifying values' threshold = aggregateQualifying values threshold ∧
      (aggregateQualifying values' threshold).count =
        (aggregateQualifying values threshold).count ∧
      (aggregateQualifying values' threshold).fingerprint =
        (aggregateQualifying values threshold).fingerprint := by
  refine ⟨fun _ => mem_baseCoins, pairwise_baseCoin,
    fun _ hr => representative_best hdistinct haggregable hr, fun values' hperm => ?_⟩
  have hsame := @aggregateQualifying_perm values values' threshold hdistinct haggregable hperm
  exact ⟨hsame, congrArg QualifyingSet.count hsame, congrArg QualifyingSet.fingerprint hsame⟩

/-- Three markets of one coin with the same increase, and a market below the threshold. -/
def tiedMarkets : List MomentumValue :=
  [{ category := "spot", symbol := "BTCUSDT", baseCoin := "BTC", change1h := some 6,
     status := .ok, quoteCoin := some "USDT" },
   { category := "linear", symbol := "BTCPERP", baseCoin := "BTC", change1h := some 6,
     status := .ok, settleCoin := some "USDC" },
   { category := "linear", symbol := "BTCUSDT", baseCoin := "BTC", change1h := some 6,
     status := .ok, settleCoin := some "USDT" },
   { category := "linear", symbol := "ETHUSDT", baseCoin := "ETH", change1h := some 5,
     status := .ok, settleCoin := some "USDT" }]

theorem aggregable_tiedMarkets : ∀ value ∈ tiedMarkets, Aggregable value := by
  intro value hvalue
  simp only [tiedMarkets, List.mem_cons, List.not_mem_nil, or_false] at hvalue
  rcases hvalue with rfl | rfl | rfl | rfl
  · exact ⟨Or.inl rfl, Or.inr ⟨_, rfl⟩⟩
  · exact ⟨Or.inr rfl, Or.inr ⟨_, rfl⟩⟩
  · exact ⟨Or.inr rfl, Or.inr ⟨_, rfl⟩⟩
  · exact ⟨Or.inr rfl, Or.inr ⟨_, rfl⟩⟩

/-- The one coin that qualifies is represented alike when the rows come in reverse. -/
theorem aggregate_qualifying_exact_tied :
    (aggregateQualifying tiedMarkets 5).baseCoins = ["BTC"] ∧
      aggregateQualifying tiedMarkets.reverse 5 = aggregateQualifying tiedMarkets 5 := by
  have hdistinct : DistinctMarkets tiedMarkets := by
    rw [DistinctMarkets]
    decide
  obtain ⟨-, -, -, hperm⟩ :=
    aggregate_qualifying_exact tiedMarkets 5 hdistinct aggregable_tiedMarkets
  exact ⟨by decide +kernel, (hperm tiedMarkets.reverse (List.reverse_perm _)).1⟩

end Result

end BybitMonitor
