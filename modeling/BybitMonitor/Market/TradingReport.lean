import Mathlib
import BybitMonitor.Market.ListingRun
import BybitMonitor.Market.Registry

/-!
# Reports of trading markets

Discovery cycles in a row, from an empty registry: each fetch is reconciled, and the tracker handles
the events of the reconciliation. What the tracker records depends on the status that the registry
holds of a market, and that status is a function of the fetches alone.

* `registryStatus`: the status of a market after some fetches.
* `discoverOnce_cycled`: what a cycle that returns has done.
* `trading_reported_iff`: which markets that start trading are recorded.
-/

namespace BybitMonitor

/-! ## The registry as a function of the fetches -/

/-- The status of a market after a fetch: that of its last entry; a known market without an entry is
removed. -/
def statusAfter (identity : String × String) (stored : Option String)
    (fetched : List Instrument) : Option String :=
  match lastEntry fetched identity with
  | some entry => some entry.status
  | none => stored.map fun _ => statusRemoved

/-- The status of a market after some fetches, if one of them had it. -/
def registryStatus (fetches : List (List Instrument)) (identity : String × String) :
    Option String :=
  fetches.foldl (statusAfter identity) none

/-- The status that the registry holds of a market. -/
def Store.statusOf (self : Store) (identity : String × String) : Option String :=
  (self.rowOf identity).map fun row => row.status

/-- A reconciliation takes the status of a market to its next one. -/
theorem Store.statusOf_reconciled {store : Store} (hkeyed : store.RegistryKeyed)
    (fetched : List Instrument) (now : ℤ) (identity : String × String) :
    (store.reconciled fetched now).statusOf identity =
      statusAfter identity (store.statusOf identity) fetched := by
  rw [statusOf, rowOf_reconciled hkeyed, rowAfter, statusAfter, statusOf]
  cases lastEntry fetched identity with
  | some entry => rfl
  | none =>
      cases store.rowOf identity with
      | none => rfl
      | some row =>
          -- a market that is removed already stays removed
          simp only [Option.map_some]
          split
          · rename_i hremoved
            rw [hremoved]
          · rfl

/-! ## What a cycle records -/

/-- The key of the event that a market trades. -/
def Instrument.tradingKey (self : Instrument) : String :=
  eventKeyFor (some self.category) self.symbol .trading

/-- The key under which the tracker records a registry event, if it does. -/
def RegistryEvent.recordedKey (self : RegistryEvent) : Option String :=
  (ListingTracker.eventTypeFor self).map (eventKeyFor (some self.category) self.symbol)

/-- A key tells the events of trading markets from all others. -/
theorem eventType_eq_trading {category category' : Option String} {symbol symbol' : String}
    {eventType : ListingEventType}
    (h : eventKeyFor category symbol eventType = eventKeyFor category' symbol' .trading) :
    eventType = .trading := by
  have hcolon (eventType : ListingEventType) : ':' ∉ eventType.text.toList := by
    cases eventType <;> decide
  obtain ⟨-, htext⟩ := FieldText.suffix_inj (hcolon eventType) (hcolon .trading) h
  cases eventType with
  | trading => rfl
  | prelaunch => exact absurd htext (by decide)
  | announced => exact absurd htext (by decide)
  | delisted => exact absurd htext (by decide)

/-- A market is reported when it trades, if the registry has no row for it, or one that is not
launched yet. -/
def Reportable (status : Option String) : Prop :=
  ∀ stored ∈ status, stored = statusPrelaunch

instance (status : Option String) : Decidable (Reportable status) := by
  unfold Reportable
  infer_instance

/-- The tracker takes an event for a market that trades. -/
theorem eventTypeFor_trading {event : RegistryEvent} :
    ListingTracker.eventTypeFor event = some .trading ↔ event.newStatus = some statusTrading ∧
      (event.event = .new ∨
        event.event = .statusTransition ∧ event.oldStatus = some statusPrelaunch) := by
  rw [ListingTracker.eventTypeFor.eq_def]
  cases event.event with
  | removed => simp
  | new =>
      dsimp only
      split
      · rename_i hprelaunch
        rw [hprelaunch]
        simp [statusPrelaunch, statusTrading]
      · simp
  | statusTransition => simp [and_comm]

/-- An event is recorded under the key of a trading market only if the tracker takes it for one. -/
theorem RegistryEvent.recordedKey_trading {event : RegistryEvent} {instrument : Instrument} :
    event.recordedKey = some instrument.tradingKey ↔
      ListingTracker.eventTypeFor event = some .trading ∧
        eventKeyFor (some event.category) event.symbol .trading = instrument.tradingKey := by
  rw [recordedKey, Option.map_eq_some_iff]
  constructor
  · rintro ⟨eventType, htype, hkey⟩
    obtain rfl := eventType_eq_trading hkey
    exact ⟨htype, hkey⟩
  · rintro ⟨htype, hkey⟩
    exact ⟨.trading, htype, hkey⟩

namespace InstrumentRegistry

variable {store : Store} {fetched : List Instrument} {instrument : Instrument}

/-- The event of a fetched instrument says that it trades, if it does and the registry has no row
for it, or one that is not launched yet. -/
theorem fetchedEvent_trading (hseeded : store.instruments ≠ []) :
    (∃ event ∈ fetchedEvent store.loadAll instrument,
      ListingTracker.eventTypeFor event = some .trading) ↔
        instrument.status = statusTrading ∧ Reportable (store.statusOf instrument.identity) := by
  rw [fetchedEvent_eq, Store.statusOf]
  cases store.rowOf instrument.identity with
  | none =>
      -- an instrument that is new
      simp [hseeded, eventTypeFor_trading, newEvent, Reportable]
  | some row =>
      dsimp only
      split
      · -- the status is the stored one, which is not that of a market to be launched
        rename_i hsame
        have hdistinct : statusTrading ≠ statusPrelaunch := by decide
        refine iff_of_false (fun h => ?_) fun h => hdistinct ?_
        · obtain ⟨event, hevent, -⟩ := h
          cases hevent
        · exact h.1.symm.trans (hsame.symm.trans (h.2 row.status rfl))
      · simp [eventTypeFor_trading, transitionEvent, newEvent, Reportable]

/-- The events of a fetched instrument keep its market. -/
theorem fetchedEvent_market {event : RegistryEvent}
    (h : event ∈ fetchedEvent store.loadAll instrument) :
    event.category = instrument.category ∧ event.symbol = instrument.symbol :=
  Prod.mk.inj (fetchedEvent_identity h)

/-- A reconciliation reports a market as trading for the fetched instruments that trade and are
reportable. -/
theorem result_trading (hseeded : store.instruments ≠ []) :
    (∃ event ∈ (result store.loadAll fetched).events,
      event.recordedKey = some instrument.tradingKey) ↔
        ∃ other ∈ fetched, other.tradingKey = instrument.tradingKey ∧
          other.status = statusTrading ∧ Reportable (store.statusOf other.identity) := by
  constructor
  · rintro ⟨event, hevent, hkey⟩
    obtain ⟨htype, hkey⟩ := RegistryEvent.recordedKey_trading.mp hkey
    rcases List.mem_append.mp hevent with hfetched | hremoved
    · obtain ⟨other, hother, hevent⟩ := List.mem_filterMap.mp hfetched
      obtain ⟨hcategory, hsymbol⟩ := fetchedEvent_market hevent
      rw [hcategory, hsymbol] at hkey
      exact ⟨other, hother, hkey, (fetchedEvent_trading hseeded).mp ⟨event, hevent, htype⟩⟩
    · -- a market that is gone is delisted
      obtain ⟨existing, -, rfl⟩ := List.mem_map.mp hremoved
      cases htype
  · rintro ⟨other, hother, hkey, hreports⟩
    obtain ⟨event, hevent, htype⟩ := (fetchedEvent_trading hseeded).mpr hreports
    obtain ⟨hcategory, hsymbol⟩ := fetchedEvent_market hevent
    refine ⟨event, List.mem_append_left _ (List.mem_filterMap.mpr ⟨other, hother, hevent⟩), ?_⟩
    apply RegistryEvent.recordedKey_trading.mpr
    rw [hcategory, hsymbol]
    exact ⟨htype, hkey⟩

end InstrumentRegistry

/-! ## A cycle -/

/-- What a notification asks. -/
def Await.enqueues : Await → Prop
  | .clock | .store (.insertOutgoingNotification _) => True
  | _ => False

/-- The tables hold the same markets and listing events. -/
structure Store.SameListings (store store' : Store) : Prop where
  instruments : store'.instruments = store.instruments
  listingEvents : store'.listingEvents = store.listingEvents

section Cycle

open Program

variable {world : World} {tracker : ListingTracker}

theorem World.Serves.enqueues {world' : World} {question : Await} {reply : question.Reply}
    (h : world.Serves question reply world') (hquestion : question.enqueues) :
    world.store.SameListings world'.store := by
  cases question with
  | clock =>
      rw [h.store_eq fun op => nofun]
      exact ⟨rfl, rfl⟩
  | store op =>
      cases op with
      | insertOutgoingNotification draft =>
          rcases h.does with ⟨exc, -, rfl⟩ | ⟨id, -, ⟨-, -, hstore⟩, -⟩
          · exact ⟨rfl, rfl⟩
          · rw [hstore]
            exact ⟨rfl, rfl⟩
      | _ => cases hquestion
  | _ => cases hquestion

/-- A notification touches neither the registry nor the listing events. -/
theorem notify_sameListings (event : ListingEvent) :
    (tracker.notify event).Meets servedProtocol world fun _ world' =>
      world.store.SameListings world'.store := by
  have hasks : (tracker.notify event).Asks Await.enqueues :=
    asks_notify trivial (fun _ => trivial) tracker event
  refine hasks.meets ⟨rfl, rfl⟩ (fun _ _ _ => trivial) ?_
  intro g question reply g' hquestion hserves hsame
  have hkept := World.Serves.enqueues hserves hquestion
  exact ⟨hkept.instruments.trans hsame.instruments, hkept.listingEvents.trans hsame.listingEvents⟩

/-- The keys of the recorded events are those before and those of the list. -/
def Records (world : World) (events : List RegistryEvent) (world' : World) : Prop :=
  world'.store.instruments = world.store.instruments ∧
    ∀ key, world'.store.hasListing key = true ↔ world.store.hasListing key = true ∨
      ∃ event ∈ events, event.recordedKey = some key

theorem Records.of_same {world' : World} (h : world.store.SameListings world'.store) :
    Records world [] world' :=
  ⟨h.instruments, fun key => by simp [Store.hasListing, h.listingEvents]⟩

theorem Records.trans {world₁ world₂ : World} {events later : List RegistryEvent}
    (h : Records world events world₁) (h' : Records world₁ later world₂) :
    Records world (events ++ later) world₂ := by
  refine ⟨h'.1.trans h.1, fun key => ?_⟩
  rw [h'.2, h.2, or_assoc]
  simp only [List.mem_append, or_and_right, exists_or]

/-- The body of the loop records the event of its market, unless it raises. -/
theorem handleEvent_records (now : ℤ) (event : RegistryEvent) :
    (tracker.handleEvent now event).Meets servedProtocol world fun outcome world' =>
      outcome.isOk = true → Records world [event] world' := by
  rw [ListingTracker.handleEvent]
  cases htype : ListingTracker.eventTypeFor event with
  | none =>
      refine fun _ => ⟨rfl, fun key => ?_⟩
      simp [RegistryEvent.recordedKey, htype]
  | some eventType =>
      have hkey : event.recordedKey =
          some (eventKeyFor (some event.category) event.symbol eventType) := by
        rw [RegistryEvent.recordedKey, htype]
        rfl
      refine meets_bind.mpr (served_store (fun exc h => by cases h) fun recorded world₁ hdoes => ?_)
      have hdoes : ite _ _ _ := hdoes
      split at hdoes
      · -- the event is recorded already
        rename_i hknown
        obtain ⟨rfl, hstore⟩ := hdoes
        refine fun _ => ⟨congrArg Store.instruments hstore, fun key => ?_⟩
        rw [hstore]
        simp only [List.mem_singleton, exists_eq_left, hkey, Option.some.injEq]
        refine ⟨Or.inl, fun h => h.elim id fun heq => ?_⟩
        rw [← heq]
        exact hknown
      · obtain ⟨rfl, hstore⟩ := hdoes
        have hrecords : Records world [event] world₁ := by
          rw [Records, hstore]
          refine ⟨rfl, fun key => ?_⟩
          simp [Store.hasListing, Store.addListing, hkey]
        refine meets_bind.mpr ((notify_sameListings _).mono fun outcome world₂ hsame => ?_)
        cases outcome with
        | error e => exact fun h => by cases h
        | ok _ => exact fun _ => hrecords.trans (.of_same hsame)

/-- `handle_registry` records the events of a result, unless it raises or the result is that of the
first run. -/
theorem handleRegistry_records (result : DiscoveryResult) :
    (tracker.handleRegistry result).Meets servedProtocol world fun outcome world' =>
      outcome.isOk = true →
        Records world (if result.firstRun then [] else result.events) world' := by
  refine meets_bind.mpr ⟨trivial, fun now world₁ hserves => ?_⟩
  obtain rfl : world₁ = world := hserves
  show (ite _ _ _ : Coroutine _).Meets _ _ _
  split
  · exact fun _ => Records.of_same ⟨rfl, rfl⟩
  · -- what is recorded so far, with what is left of the list
    refine meets_gather (fun rest world' => ∃ before, before ++ rest = result.events ∧
      Records world₁ before world') ?_ ?_ ⟨[], rfl, Records.of_same ⟨rfl, rfl⟩⟩
    · rintro event rest world₂ ⟨before, hevents, hrecords⟩
      refine (handleEvent_records now event).mono fun outcome world₃ hevent => ?_
      cases outcome with
      | error e => exact fun h => by cases h
      | ok _ => exact ⟨before ++ [event], by simpa using hevents, hrecords.trans (hevent rfl)⟩
    · rintro results world₂ ⟨before, hevents, hrecords⟩ -
      rw [List.append_nil] at hevents
      exact hevents ▸ hrecords

/-- What a cycle that returns has done to the registry and the listing events. -/
structure Cycled (fetched : List Instrument) (before after : Store) : Prop where
  keyed : before.RegistryKeyed → after.RegistryKeyed
  status : before.RegistryKeyed → ∀ identity,
    after.statusOf identity = statusAfter identity (before.statusOf identity) fetched
  listings : ∀ key, after.hasListing key = true ↔ before.hasListing key = true ∨
    before.instruments ≠ [] ∧
      ∃ event ∈ (InstrumentRegistry.result before.loadAll fetched).events,
        event.recordedKey = some key

/-- A cycle brings the registry up to date and records the events of its reconciliation, unless it
raises. -/
theorem discoverOnce_cycled (fetched : List Instrument) :
    (discoverOnce tracker (.ok fetched)).Meets servedProtocol world fun outcome world' =>
      outcome.isOk = true → Cycled fetched world.store world'.store := by
  refine Coroutine.meets_ask_bind.mpr ⟨trivial, fun now world₀ hserves => ?_⟩
  obtain rfl : world₀ = world := hserves
  refine Coroutine.meets_ok_bind.mpr (meets_bind.mpr ?_)
  refine (reconcile_writes fetched now).mono fun outcome world₁ hwrites => ?_
  cases outcome with
  | error e => exact fun h => by cases h
  | ok result =>
      obtain ⟨rfl, hstore⟩ := hwrites result rfl
      refine meets_bind.mpr ((handleRegistry_records _).mono fun outcome world₂ hrecords => ?_)
      cases outcome with
      | error e => exact fun h => by cases h
      | ok _ =>
          obtain ⟨hinstruments, hkeys⟩ := hrecords rfl
          rw [hstore] at hinstruments
          refine fun _ => ⟨fun hkeyed => ?_, fun hkeyed identity => ?_, fun key => ?_⟩
          · rw [Store.RegistryKeyed, hinstruments]
            exact hkeyed.reconciled fetched now
          · rw [Store.statusOf, Store.rowOf, hinstruments]
            exact Store.statusOf_reconciled hkeyed fetched now identity
          · -- the two transactions leave the listing events alone
            have hbefore : world₁.store.hasListing key = world₀.store.hasListing key := by
              rw [Store.hasListing, hstore, Store.reconciled, Store.markRemoved_listingEvents,
                Store.upsertMany_listingEvents]
              rfl
            rw [hkeys, hbefore]
            show _ ∨ (∃ event ∈ (if world₀.store.loadAll.isEmpty then [] else _), _) ↔ _
            by_cases hempty : world₀.store.instruments = []
            · simp [Store.loadAll, hempty]
            · rw [if_neg (by simpa [Store.loadAll] using hempty)]
              simp only [ne_eq, hempty, not_false_eq_true, true_and]

end Cycle

/-! ## Runs -/

/-- A discovery cycle that returns, under some configuration of the tracker. -/
def DiscoveryStep (world : World) (fetched : List Instrument) (world' : World) : Prop :=
  ∃ tracker result, Program.Reaches World.Serves (discoverOnce tracker (.ok fetched)) world
    (.done (.ok result)) world'

theorem DiscoveryStep.cycled {world world' : World} {fetched : List Instrument}
    (h : DiscoveryStep world fetched world') : Cycled fetched world.store world'.store := by
  obtain ⟨tracker, result, hrun⟩ := h
  exact Program.Meets.done (P := servedProtocol) (discoverOnce_cycled fetched) hrun rfl

/-- A market starts trading with a fetch: the fetch is not the one that seeds the registry, and no
fetch before had the market trading. -/
structure StartsTrading (before : List (List Instrument)) (fetched : List Instrument)
    (instrument : Instrument) : Prop where
  mem : instrument ∈ fetched
  trading : instrument.status = statusTrading
  seeded : ∃ earlier ∈ before, earlier ≠ []
  first : ∀ earlier ∈ before, ∀ other ∈ earlier, other.identity = instrument.identity →
    other.status ≠ statusTrading

/-- After a cycle, every market that has started trading is recorded. -/
def ReportsTrading (before : List (List Instrument)) (_world : World) (fetched : List Instrument)
    (world' : World) : Prop :=
  ∀ instrument, StartsTrading before fetched instrument →
    world'.store.hasListing instrument.tradingKey = true

/-- Every market that starts trading is recorded already, or it is fetched for the first time or was
`PreLaunch` in the fetch before. -/
def StartsReportable (before : List (List Instrument)) (world : World) (fetched : List Instrument)
    (_world' : World) : Prop :=
  ∀ instrument, StartsTrading before fetched instrument →
    world.store.hasListing instrument.tradingKey = true ∨
      ∃ other ∈ fetched, other.tradingKey = instrument.tradingKey ∧
        other.status = statusTrading ∧ Reportable (registryStatus before other.identity)

section Runs

variable {start world : World} {fetches : List (List Instrument)}

/-- The registry follows the fetches. -/
theorem statusOf_run (hempty : start.store.instruments = [])
    (h : Trace DiscoveryStep start fetches world) (identity : String × String) :
    world.store.RegistryKeyed ∧
      world.store.statusOf identity = registryStatus fetches identity := by
  induction h with
  | nil =>
      rw [Store.RegistryKeyed, Store.statusOf, Store.rowOf, hempty]
      exact ⟨List.nodup_nil, rfl⟩
  | snoc prior last ih =>
      obtain ⟨hkeyed, hstatus⟩ := ih
      refine ⟨last.cycled.keyed hkeyed, ?_⟩
      rw [last.cycled.status hkeyed, hstatus, registryStatus, registryStatus, List.foldl_append]
      rfl

/-- A market that was fetched once has a status. -/
theorem registryStatus_isSome {earlier : List Instrument} {instrument : Instrument}
    (hearlier : earlier ∈ fetches) (hmem : instrument ∈ earlier) :
    (registryStatus fetches instrument.identity).isSome := by
  induction fetches using List.reverseRecOn with
  | nil => cases hearlier
  | append_singleton fetches last ih =>
      rw [registryStatus, List.foldl_append, List.foldl_cons, List.foldl_nil, statusAfter]
      split
      · rfl
      · -- the last fetch does not have the market
        rename_i hnone
        rw [Option.isSome_map]
        rcases List.mem_append.mp hearlier with hbefore | hlast
        · exact ih hbefore
        · obtain rfl := List.mem_singleton.mp hlast
          have hfiltered := List.getLast?_eq_none_iff.mp hnone
          have hgone := List.filter_eq_nil_iff.mp hfiltered instrument hmem
          simp at hgone

/-- After a fetch that is not empty, the registry is not empty. -/
theorem instruments_ne_nil (hempty : start.store.instruments = [])
    (h : Trace DiscoveryStep start fetches world) (hseeded : ∃ earlier ∈ fetches, earlier ≠ []) :
    world.store.instruments ≠ [] := by
  obtain ⟨earlier, hearlier, hne⟩ := hseeded
  obtain ⟨instrument, hmem⟩ := List.exists_mem_of_ne_nil _ hne
  have hstatus := registryStatus_isSome hearlier hmem
  rw [← (statusOf_run hempty h _).2] at hstatus
  intro hnil
  rw [Store.statusOf, Store.rowOf, hnil] at hstatus
  cases hstatus

/-- In every sequence of cycles from an empty registry, all markets that start trading are recorded
if and only if each of them is recorded already, is fetched for the first time, or was `PreLaunch`
in the fetch before. -/
theorem trading_reported_iff (hempty : start.store.instruments = []) :
    Trace.EveryStepAfter DiscoveryStep start fetches ReportsTrading ↔
      Trace.EveryStepAfter DiscoveryStep start fetches StartsReportable := by
  have hstep {before : List (List Instrument)} {s s' : World} {fetched : List Instrument}
      (hs : Trace DiscoveryStep start before s) (hcycle : DiscoveryStep s fetched s') :
      ReportsTrading before s fetched s' ↔ StartsReportable before s fetched s' := by
    refine forall_congr' fun instrument => forall_congr' fun hstarts => ?_
    have hseeded := instruments_ne_nil hempty hs hstarts.seeded
    rw [hcycle.cycled.listings, InstrumentRegistry.result_trading hseeded]
    simp only [(statusOf_run hempty hs _).2, ne_eq, hseeded, not_false_eq_true, true_and]
  constructor
  · exact fun hall k e s s' hk hs hcycle => (hstep hs hcycle).mp (hall k e s s' hk hs hcycle)
  · exact fun hall k e s s' hk hs hcycle => (hstep hs hcycle).mpr (hall k e s s' hk hs hcycle)

end Runs

/-- One cycle at a fixed time, without faults. -/
def cycleOnce (world : World) (fetched : List Instrument) : Option (List Instrument × World) :=
  let tracker : ListingTracker := { config := AdmittedSettings.default.toSettings }
  match (discoverOnce tracker (.ok fetched)).drive (fun world question =>
    world.answer { now := 100 } question) world with
  | (.ok _, world') => some (fetched, world')
  | (.error _, _) => none

theorem cycleOnce_step {world world' : World} {fetched label : List Instrument}
    (h : cycleOnce world fetched = some (label, world')) :
    label = fetched ∧ DiscoveryStep world label world' := by
  rw [cycleOnce] at h
  split at h
  · rename_i result world'' hdrive
    cases h
    have hserves (world : World) (question : Await) := world.answer_serves { now := 100 } question
    have hrun := Program.drive_reaches hserves
      (discoverOnce { config := AdmittedSettings.default.toSettings } (.ok fetched)) world
    rw [hdrive] at hrun
    exact ⟨rfl, _, result, hrun⟩
  · cases h

/-- The cycles of some fetches, from an empty database. -/
def cycles (fetches : List (List Instrument)) : List (List Instrument) × World :=
  Trace.exec cycleOnce {} [] fetches

theorem run_cycles (fetches : List (List Instrument)) :
    Trace DiscoveryStep {} (cycles fetches).1 (cycles fetches).2 :=
  @Trace.exec_trace _ _ DiscoveryStep _ _ _ _ cycleOnce
    (fun _ _ _ _ h => (cycleOnce_step h).2) fetches Trace.nil

/-- A linear market. -/
def linearMarket (symbol baseCoin status : String) : Instrument :=
  { category := "linear", symbol, baseCoin, status }

/-- A market is launched between two fetches. -/
def launchedFetches : List (List Instrument) :=
  let listed := linearMarket "BTCUSDT" "BTC" statusTrading
  [[listed], [listed, linearMarket "XYZUSDT" "XYZ" statusPrelaunch],
    [listed, linearMarket "XYZUSDT" "XYZ" statusTrading]]

/-- A market that is launched between two fetches starts trading, and is recorded. -/
theorem trading_reported_launched :
    (cycles launchedFetches).1 = launchedFetches ∧
      (cycles launchedFetches).2.store.hasListing "linear:XYZUSDT:trading" = true ∧
      (Trace.EveryStepAfter DiscoveryStep {} launchedFetches ReportsTrading ↔
        Trace.EveryStepAfter DiscoveryStep {} launchedFetches StartsReportable) :=
  ⟨by decide +kernel, by decide +kernel, trading_reported_iff rfl⟩

/-- A market moves from one request of a fetch to the other between the two, so that one fetch
misses it. -/
def missedFetches : List (List Instrument) :=
  let listed := linearMarket "BTCUSDT" "BTC" statusTrading
  let launched := linearMarket "XYZUSDT" "XYZ"
  [[listed], [listed, launched statusPrelaunch], [listed], [listed, launched statusTrading]]

/-- A market that one fetch misses between its announcement and its launch is not recorded as
trading. -/
theorem trading_reported_missed :
    ¬ ∀ (start : World) (fetches : List (List Instrument)), start.store.instruments = [] →
      Trace.EveryStepAfter DiscoveryStep start fetches ReportsTrading := by
  intro h
  have hbefore := run_cycles (missedFetches.take 3)
  have hlabels : (cycles (missedFetches.take 3)).1 = missedFetches.take 3 := by decide +kernel
  rw [hlabels] at hbefore
  let launched : List Instrument :=
    [linearMarket "BTCUSDT" "BTC" statusTrading, linearMarket "XYZUSDT" "XYZ" statusTrading]
  -- the last cycle returns, and does not record the market
  have hcycle : (cycleOnce (cycles (missedFetches.take 3)).2 launched).isSome = true := by
    decide +kernel
  have hmissed : (cycleOnce (cycles (missedFetches.take 3)).2 launched).all
      (fun cycle => !cycle.2.store.hasListing "linear:XYZUSDT:trading") = true := by
    decide +kernel
  obtain ⟨⟨label, world⟩, hlast⟩ := Option.isSome_iff_exists.mp hcycle
  obtain ⟨rfl, hstep⟩ := cycleOnce_step hlast
  rw [hlast, Option.all_some] at hmissed
  have hrecorded := (h {} (missedFetches.take 3 ++ [launched]) rfl).last hbefore hstep
    (linearMarket "XYZUSDT" "XYZ" statusTrading)
    ⟨by decide, rfl, ⟨_, List.mem_cons_self, by decide⟩, by decide⟩
  rw [show (linearMarket "XYZUSDT" "XYZ" statusTrading).tradingKey = "linear:XYZUSDT:trading" from
    by decide] at hrecorded
  rw [hrecorded] at hmissed
  cases hmissed

end BybitMonitor
