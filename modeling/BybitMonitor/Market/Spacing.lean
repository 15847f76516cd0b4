import Mathlib
import BybitMonitor.Market.SpotHistory
import BybitMonitor.ToMathlib.Sampling

/-!
# The spacing of the spot history

The samples that one `SpotHistory` object inserts, over any sequence of its calls. Whatever else
happens to the table, the object only remembers what it has inserted.

* `insertedTimes`: the inserts of a market, as the calls have reported them.
* `Spaced.step`: a call keeps the inserts of every market apart.
* `length_le_of_apart`: how many times that are apart lie between two bounds.
* `history_spaced`: the spacing, and what a prune leaves of the inserts.
-/

namespace BybitMonitor

/-- An event of a table that a history object writes. -/
inductive HistoryEvent
  | recorded (category symbol : String) (timestamp : ℤ) (price : Option PyFloat) (inserted : Bool)
  | pruned (now : ℤ) (retentionSeconds : PyNumber) (deleted : ℕ)
  /-- Anything else that happens to the table. -/
  | changed

/-- A call of the object, or a change of the table by others. -/
inductive HistoryStep (s : SpotState) : HistoryEvent → SpotState → Prop
  | recorded {category symbol : String} {timestamp : ℤ} {price : Option PyFloat} {inserted : Bool}
      {history : SpotHistory} {samples : List PriceSample}
      (h : s.history.record s.samples category symbol timestamp price =
        (inserted, history, samples)) :
      HistoryStep s (.recorded category symbol timestamp price inserted) ⟨history, samples⟩
  | pruned {now : ℤ} {retentionSeconds : PyNumber} {deleted : ℕ} {samples : List PriceSample}
      (h : SpotHistory.prune s.samples now retentionSeconds = .ok (deleted, samples)) :
      HistoryStep s (.pruned now retentionSeconds deleted) { s with samples }
  | changed (samples : List PriceSample) : HistoryStep s .changed { s with samples }

/-- The time of an insert into a market, if the event is one. -/
def HistoryEvent.insertedAt (market : String × String) : HistoryEvent → Option ℤ
  | recorded category symbol timestamp _ inserted =>
      if inserted && decide ((category, symbol) = market) then some timestamp else none
  | _ => none

/-- The times of the inserts into a market, in their order. -/
def insertedTimes (market : String × String) (events : List HistoryEvent) : List ℤ :=
  events.filterMap (HistoryEvent.insertedAt market)

/-- Two times are in their order and at least the sampling interval apart. -/
def Apart (sampleSeconds : PyNumber) (t later : ℤ) : Prop :=
  t < later ∧ sampleSeconds.gtInt (later - t) = false

/-- The inserts of every market are apart, and the object remembers the last one. -/
structure Spaced (sampleSeconds : PyNumber) (events : List HistoryEvent) (s : SpotState) :
    Prop where
  sampleSeconds_eq : s.history.sampleSeconds = sampleSeconds
  last : ∀ market,
    s.history.lastSampleAt.lookup market = (insertedTimes market events).getLast?
  apart : ∀ market, (insertedTimes market events).Pairwise (Apart sampleSeconds)

/-- A longer distance is not shorter than the sampling interval either. -/
theorem gtInt_eq_false_of_le {x : PyNumber} {n m : ℤ} (h : x.gtInt n = false) (hle : n ≤ m) :
    x.gtInt m = false := by
  cases x with
  | int k =>
      simp only [PyNumber.gtInt, decide_eq_false_iff_not] at h ⊢
      omega
  | float x =>
      cases x with
      | nan => rfl
      | inf negative => exact h
      | finite q =>
          simp only [PyNumber.gtInt, PyFloat.lt, decide_eq_false_iff_not, not_lt] at h ⊢
          exact h.trans (Int.cast_le.mpr hle)

/-- What a record that inserts has checked and remembered, and that others change nothing. -/
theorem SpotHistory.record_inserts {self history : SpotHistory}
    {samples samples' : List PriceSample} {category symbol : String} {timestamp : ℤ}
    {price : Option PyFloat} {inserted : Bool}
    (h : self.record samples category symbol timestamp price = (inserted, history, samples')) :
    inserted = false ∧ history = self ∨
      inserted = true ∧ self.recentlySampled (category, symbol) timestamp = false ∧
        history = self.setLast (category, symbol) timestamp := by
  rw [record.eq_def] at h
  cases price with
  | none =>
      cases h
      exact Or.inl ⟨rfl, rfl⟩
  | some price =>
      dsimp only at h
      split at h
      · cases h
        exact Or.inl ⟨rfl, rfl⟩
      · split at h
        · cases h
          exact Or.inl ⟨rfl, rfl⟩
        · rename_i hrecent
          split at h
          · cases h
            exact Or.inr ⟨rfl, Bool.eq_false_iff.mpr hrecent, rfl⟩
          · cases h
            exact Or.inl ⟨rfl, rfl⟩

theorem insertedTimes_append (market : String × String) (events : List HistoryEvent)
    (event : HistoryEvent) :
    insertedTimes market (events ++ [event]) =
      insertedTimes market events ++ (event.insertedAt market).toList := by
  rw [insertedTimes, List.filterMap_append]
  cases h : event.insertedAt market <;> simp [insertedTimes, h]

namespace Spaced

variable {sampleSeconds : PyNumber} {events : List HistoryEvent} {s s' : SpotState}
  {event : HistoryEvent}

/-- A step that inserts nothing keeps the inserts apart. -/
theorem of_none (h : Spaced sampleSeconds events s) (hhistory : s'.history = s.history)
    (hevent : ∀ market, event.insertedAt market = none) :
    Spaced sampleSeconds (events ++ [event]) s' := by
  have htimes (market : String × String) :
      insertedTimes market (events ++ [event]) = insertedTimes market events := by
    rw [insertedTimes_append, hevent]
    exact List.append_nil _
  refine ⟨hhistory ▸ h.sampleSeconds_eq, fun market => ?_, fun market => ?_⟩
  · rw [htimes, hhistory]
    exact h.last market
  · rw [htimes]
    exact h.apart market

/-- A timestamp that `record` does not find recent is apart from all inserts of the market. -/
theorem apart_of_fresh {market : String × String} {timestamp t : ℤ}
    (hpositive : sampleSeconds.gtInt 0 = true) (h : Spaced sampleSeconds events s)
    (hfresh : s.history.recentlySampled market timestamp = false)
    (ht : t ∈ insertedTimes market events) : Apart sampleSeconds t timestamp := by
  obtain ⟨earlier, last, htimes⟩ :=
    (List.eq_nil_or_concat' (insertedTimes market events)).resolve_left (List.ne_nil_of_mem ht)
  -- the object compares with the last insert only
  have hlast : sampleSeconds.gtInt (timestamp - last) = false := by
    rw [SpotHistory.recentlySampled, h.last market, htimes, h.sampleSeconds_eq] at hfresh
    simpa using hfresh
  have hafter : last < timestamp := by
    by_contra hbefore
    have hzero := gtInt_eq_false_of_le hlast (sub_nonpos.mpr (not_lt.mp hbefore))
    rw [hpositive] at hzero
    exact Bool.noConfusion hzero
  -- the other inserts are before the last one
  have hle : t ≤ last := by
    have hapart := h.apart market
    rw [htimes] at ht hapart
    rcases List.mem_append.mp ht with hearlier | heq
    · exact ((List.pairwise_append.mp hapart).2.2 t hearlier last (by simp)).1.le
    · exact (List.mem_singleton.mp heq).le
  exact ⟨hle.trans_lt hafter, gtInt_eq_false_of_le hlast (by omega)⟩

/-- A step keeps the inserts of every market apart. -/
theorem step (hpositive : sampleSeconds.gtInt 0 = true) (h : Spaced sampleSeconds events s)
    (hstep : HistoryStep s event s') : Spaced sampleSeconds (events ++ [event]) s' := by
  cases hstep with
  | changed samples => exact h.of_none rfl fun _ => rfl
  | pruned _ => exact h.of_none rfl fun _ => rfl
  | @recorded category symbol timestamp price inserted history samples hrecord =>
      rcases SpotHistory.record_inserts hrecord with ⟨rfl, rfl⟩ | ⟨rfl, hfresh, rfl⟩
      · exact h.of_none rfl fun _ => rfl
      · refine ⟨h.sampleSeconds_eq, fun market => ?_, fun market => ?_⟩
        · rw [insertedTimes_append, HistoryEvent.insertedAt]
          by_cases hmarket : (category, symbol) = market
          · subst hmarket
            simp
          · rw [SpotHistory.lookup_setLast_of_ne (Ne.symm hmarket), h.last market]
            simp [hmarket]
        · rw [insertedTimes_append, HistoryEvent.insertedAt]
          by_cases hmarket : (category, symbol) = market
          · subst hmarket
            simp only [decide_true, Bool.and_self, if_true, Option.toList_some]
            refine List.pairwise_append.mpr ⟨h.apart _, List.pairwise_singleton _ _, ?_⟩
            intro t ht later hlater
            rw [List.mem_singleton.mp hlater]
            exact h.apart_of_fresh hpositive hfresh ht
          · simpa [hmarket] using h.apart market

end Spaced

/-! ## What a prune leaves -/

/-- How many whole intervals a duration has. -/
def wholeIntervals (duration : ℤ) : PyNumber → ℤ
  | .int n => duration / n
  | .float (.finite x) => ⌊(duration : ℚ) / x⌋
  | .float _ => 0

/-- Times between two bounds that are apart are one more than the whole intervals between these. -/
theorem length_le_of_apart {sampleSeconds : PyNumber} {lower upper : ℤ} {times : List ℤ}
    (hpositive : sampleSeconds.gtInt 0 = true) (hapart : times.Pairwise (Apart sampleSeconds))
    (hbounds : ∀ t ∈ times, lower ≤ t ∧ t ≤ upper) :
    times.length ≤ (wholeIntervals (upper - lower) sampleSeconds + 1).toNat := by
  by_cases hne : times = []
  · simp [hne]
  -- a finite interval is a number, and an infinite one leaves one time only
  have hfinite {x : ℚ} (hx : 0 < x)
      (hspaced : times.Pairwise fun t later : ℤ => x ≤ (later : ℚ) - t) :
      (times.length : ℤ) - 1 ≤ ⌊((upper - lower : ℤ) : ℚ) / x⌋ := by
    have hlength := @Sampling.length_le_of_spaced x lower upper times hspaced
      (fun t ht => Int.cast_le.mpr (hbounds t ht).1)
      (fun t ht => Int.cast_le.mpr (hbounds t ht).2) hne
    rw [Int.le_floor, le_div_iff₀ hx]
    push_cast
    exact hlength
  cases sampleSeconds with
  | int n =>
      have hn : 0 < n := of_decide_eq_true hpositive
      have hlength := hfinite (Int.cast_pos.mpr hn) (hapart.imp fun hpair => by
        exact_mod_cast not_lt.mp (of_decide_eq_false hpair.2))
      obtain ⟨m, rfl⟩ := Int.eq_ofNat_of_zero_le hn.le
      rw [Int.cast_natCast, Rat.floor_intCast_div_natCast] at hlength
      rw [wholeIntervals]
      omega
  | float x =>
      cases x with
      | nan => exact absurd hpositive (by decide)
      | inf negative =>
          -- no two times are an infinite interval apart
          have hlength : times.length ≤ 1 := by
            match times, hapart with
            | [], _ => simp
            | [_], _ => simp
            | t :: later :: _, hapart =>
                have hpair := (List.pairwise_cons.mp hapart).1 later (by simp)
                have hzero : (PyNumber.float (.inf negative)).gtInt 0 = false := hpair.2
                rw [hpositive] at hzero
                exact Bool.noConfusion hzero
          simpa [wholeIntervals] using hlength
      | finite x =>
          have hx : 0 < x := by simpa [PyNumber.gtInt, PyFloat.lt] using hpositive
          have hlength := hfinite hx (hapart.imp fun hpair => by
            simpa [PyNumber.gtInt, PyFloat.lt] using hpair.2)
          rw [wholeIntervals]
          omega

/-- The times of a market that the table still has rows of. -/
def remaining (samples : List PriceSample) (market : String × String) (times : List ℤ) : List ℤ :=
  times.filter fun t => samples.any fun row => row.market = market && row.timestamp = t

/-- After a prune, the table has no rows before the cutoff. -/
theorem remaining_prune {samples samples' : List PriceSample} {now retention : ℤ}
    {retentionSeconds : PyNumber} {deleted : ℕ} {market : String × String} {times : List ℤ} {t : ℤ}
    (hretention : retentionSeconds.toInt = .ok retention)
    (h : SpotHistory.prune samples now retentionSeconds = .ok (deleted, samples'))
    (ht : t ∈ remaining samples' market times) : now - retention ≤ t ∧ t ∈ times := by
  rw [SpotHistory.prune, hretention] at h
  obtain ⟨htimes, hrow⟩ := List.mem_filter.mp ht
  obtain ⟨row, hmem, hmarket⟩ := List.any_eq_true.mp hrow
  cases h
  have hkept : now - retention ≤ row.timestamp := by
    simpa using (List.mem_filter.mp hmem).2
  have htime : row.timestamp = t := by
    simp only [Bool.and_eq_true, decide_eq_true_eq] at hmarket
    exact hmarket.2
  exact ⟨htime ▸ hkept, htimes⟩

/-- A history object with a positive interval inserts the samples of a market in the order of their
times and at least that interval apart, whatever the calls and the clock. If none of them is in the
future, a prune leaves one more than the whole intervals of the retention. -/
theorem history_spaced {s₀ s : SpotState} {events : List HistoryEvent}
    (hpositive : s₀.history.sampleSeconds.gtInt 0 = true) (hnew : s₀.history.lastSampleAt = [])
    (hrun : Trace HistoryStep s₀ events s) (market : String × String) :
    (insertedTimes market events).Pairwise (Apart s₀.history.sampleSeconds) ∧
      ∀ now retention retentionSeconds deleted s',
        HistoryStep s (.pruned now retentionSeconds deleted) s' →
        retentionSeconds.toInt = .ok retention → (∀ t ∈ insertedTimes market events, t ≤ now) →
        (remaining s'.samples market (insertedTimes market events)).length ≤
          (wholeIntervals retention s₀.history.sampleSeconds + 1).toNat := by
  have hspaced : Spaced s₀.history.sampleSeconds events s := by
    refine Trace.invariant ⟨rfl, fun market => ?_, fun market => List.Pairwise.nil⟩
      (fun _ _ _ _ _ h hstep => h.step hpositive hstep) hrun
    rw [hnew]
    rfl
  refine ⟨hspaced.apart market, ?_⟩
  intro now retention retentionSeconds deleted s' hprune hretention hpast
  cases hprune with
  | @pruned _ _ _ samples hprune =>
      have hbounds (t : ℤ) (ht : t ∈ remaining samples market (insertedTimes market events)) :
          now - retention ≤ t ∧ t ≤ now := by
        obtain ⟨hkept, hmem⟩ := remaining_prune hretention hprune ht
        exact ⟨hkept, hpast t hmem⟩
      have hlength := length_le_of_apart hpositive ((hspaced.apart market).filter _) hbounds
      rwa [sub_sub_cancel] at hlength

/-- A record too soon and one after the clock has gone back insert nothing; the first sample does
not survive the prune. -/
theorem history_spaced_pruned :
    [100, 160].Pairwise (Apart (.float 60)) ∧
      (remaining [⟨"spot", "BTCUSDT", 160, 7⟩] ("spot", "BTCUSDT") [100, 160]).length ≤
        (wholeIntervals 50 (.float 60) + 1).toNat := by
  have hrun : Trace HistoryStep {}
      [.recorded "spot" "BTCUSDT" 100 (some (.finite 5)) true,
        .recorded "spot" "BTCUSDT" 130 (some (.finite 6)) false,
        .recorded "spot" "BTCUSDT" 160 (some (.finite 7)) true,
        .recorded "spot" "BTCUSDT" 110 (some (.finite 8)) false]
      ⟨⟨.float 60, .float 90, [(("spot", "BTCUSDT"), 160)]⟩,
        [⟨"spot", "BTCUSDT", 100, .finite 5⟩, ⟨"spot", "BTCUSDT", 160, .finite 7⟩]⟩ :=
    (((Trace.nil.snoc (.recorded rfl)).snoc (.recorded rfl)).snoc (.recorded rfl)).snoc
      (.recorded rfl)
  obtain ⟨hapart, hbound⟩ := history_spaced rfl rfl hrun ("spot", "BTCUSDT")
  exact ⟨hapart, hbound 170 50 (.int 50) 1 _ (.pruned rfl) rfl (by decide)⟩

end BybitMonitor
