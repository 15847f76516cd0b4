import Mathlib
import BybitMonitor.Alerts.OutboxRun
import BybitMonitor.Bybit.Endpoints

/-!
# Discovery over an unreliable transport

`InstrumentDiscovery.discover_once` with its fetches: the spot instruments, and the linear ones by
their two statuses. What the exchange lists is fetched as a whole or not at all.

* `fetchAll_complete`: a fetch that returns has all instruments of the exchange.
* `discovery_keeps_listed`: no failure of the transport makes a discovery remove a listed market.
-/

namespace BybitMonitor

open RestClient (Serves parsed linearQuery spotQuery)

variable (str : Json → String)

namespace InstrumentDiscovery

/-- `enable_linear_usdt or enable_linear_usdc`. -/
def linearEnabled (config : Settings) : Bool := config.enableLinearUsdt || config.enableLinearUsdc

/-- The fetch of the spot instruments. -/
def fetchSpot (config : Settings) (client : RestClient) : RestCall (List ParsedInstrument) :=
  if config.enableSpot then client.getSpotInstruments str else return []

/-- The fetches of the linear instruments; `none` if the fuel does not cover the pages. -/
def fetchLinear (config : Settings) (client : RestClient) (fuel : ℕ) :
    RestCall (Option (List ParsedInstrument)) :=
  if linearEnabled config then do
    match ← client.getLinearInstruments str fuel statusTrading with
    | none => return none
    | some trading =>
        match ← client.getLinearInstruments str fuel statusPrelaunch with
        | none => return none
        | some prelaunch => return some (trading ++ prelaunch)
  else return some []

/-- The fetches of `discover_once`. -/
def fetchAll (config : Settings) (client : RestClient) (fuel : ℕ) :
    RestCall (Option (List ParsedInstrument)) := do
  let spot ← fetchSpot str config client
  let linear ← fetchLinear str config client fuel
  return linear.map (spot ++ ·)

end InstrumentDiscovery

open InstrumentDiscovery

/-- What a faultless transport delivers of the linear instruments with a status. -/
def ListsLinear (server : RestQuery → Json) (status : String) (list : List ParsedInstrument) :
    Prop :=
  ∃ fuel, (fetchInstruments str (fun query => .ok (server query.rest)) fuel (linearQuery status)
    []).outcome = some (.ok list)

/-- The spot instruments of the exchange, if they are monitored. -/
def ListsSpot (config : Settings) (server : RestQuery → Json) (list : List ParsedInstrument) :
    Prop :=
  if config.enableSpot then
    readRows (Normalizer.parseInstrument str "spot") (server spotQuery) = .ok list
  else list = []

/-- The linear instruments of the exchange, if they are monitored. -/
def ListsDerivatives (config : Settings) (server : RestQuery → Json)
    (list : List ParsedInstrument) : Prop :=
  if linearEnabled config then
    ∃ trading prelaunch, ListsLinear str server statusTrading trading ∧
      ListsLinear str server statusPrelaunch prelaunch ∧ list = trading ++ prelaunch
  else list = []

/-- The instruments that the exchange lists in the monitored categories. -/
structure Catalogue (config : Settings) (server : RestQuery → Json) where
  spot : List ParsedInstrument
  linear : List ParsedInstrument
  lists_spot : ListsSpot str config server spot
  lists_linear : ListsDerivatives str config server linear

/-- All instruments, in the order of the fetches. -/
def Catalogue.all {config : Settings} {server : RestQuery → Json}
    (self : Catalogue str config server) : List ParsedInstrument := self.spot ++ self.linear

variable {str} {config : Settings} {client : RestClient} {server : RestQuery → Json}

/-- The linear fetches, over any transport. -/
theorem getLinearInstruments_complete (fuel : ℕ) (status : String) :
    (client.getLinearInstruments str fuel status).Meets (.replying (Serves str server)) ()
      fun outcome _ => ∀ list, outcome = .ok (some list) → ListsLinear str server status list :=
  (RestClient.fetchInstruments_complete fuel (linearQuery status) []).mono
    fun _ _ hfetch list hlist => ⟨fuel, hfetch list hlist⟩

theorem fetchSpot_complete :
    (fetchSpot str config client).Meets (.replying (Serves str server)) () fun outcome _ =>
      ∀ list, outcome = .ok list → ListsSpot str config server list := by
  unfold fetchSpot ListsSpot
  split
  · exact RestClient.getSpotInstruments_complete
  · intro list hlist
    exact (Except.ok.inj hlist).symm

theorem fetchLinear_complete (fuel : ℕ) :
    (fetchLinear str config client fuel).Meets (.replying (Serves str server)) ()
      fun outcome _ => ∀ list, outcome = .ok (some list) →
        ListsDerivatives str config server list := by
  unfold fetchLinear ListsDerivatives
  split
  · -- the statuses are fetched one after the other, and each fetch is complete
    refine Program.meets_bind.mpr ((getLinearInstruments_complete fuel _).mono
      fun outcome _ htrading => ?_)
    rcases outcome with error | trading
    · exact fun list hlist => (nomatch hlist)
    rcases trading with _ | trading
    · exact fun list hlist => (nomatch hlist)
    refine Program.meets_bind.mpr ((getLinearInstruments_complete fuel _).mono
      fun outcome _ hprelaunch => ?_)
    rcases outcome with error | prelaunch
    · exact fun list hlist => (nomatch hlist)
    rcases prelaunch with _ | prelaunch
    · exact fun list hlist => (nomatch hlist)
    · intro list hlist
      exact ⟨trading, prelaunch, htrading trading rfl, hprelaunch prelaunch rfl,
        (Option.some.inj (Except.ok.inj hlist)).symm⟩
  · intro list hlist
    exact (Option.some.inj (Except.ok.inj hlist)).symm

/-- A fetch that returns has all instruments that the exchange lists. -/
theorem fetchAll_complete (fuel : ℕ) :
    (fetchAll str config client fuel).Meets (.replying (Serves str server)) ()
      fun outcome _ => ∀ list, outcome = .ok (some list) →
        ∃ catalogue : Catalogue str config server, list = catalogue.all := by
  refine Program.meets_bind.mpr (fetchSpot_complete.mono fun outcome _ hspot => ?_)
  rcases outcome with error | spot
  · exact fun list hlist => (nomatch hlist)
  refine Program.meets_bind.mpr ((fetchLinear_complete fuel).mono fun outcome _ hlinear => ?_)
  rcases outcome with error | linear
  · exact fun list hlist => (nomatch hlist)
  · intro list hlist
    obtain ⟨linear, rfl, rfl⟩ := Option.map_eq_some_iff.mp (Except.ok.inj hlist)
    exact ⟨⟨spot, linear, hspot spot rfl, hlinear linear rfl⟩, rfl⟩

/-! ## The registry -/

/-- A discovery that writes the listed instruments, and removes or delists no other market. -/
def KeepsListed (listed : List Instrument) : Await → Prop
  | .store (.upsertMany instruments _) => instruments = listed
  | .store (.markRemoved keys _) => ∀ key ∈ keys, key ∉ listed.map Instrument.identity
  | .store (.record _ (some category) symbol .delisted _) =>
      (category, symbol) ∉ listed.map Instrument.identity
  | _ => True

/-- What is gone from a fetch is not in it. -/
theorem not_mem_of_removed {current fetched : List Instrument} {existing : Instrument}
    (h : existing ∈ InstrumentRegistry.removedInstruments current fetched) :
    existing.identity ∉ fetched.map Instrument.identity := by
  simp only [InstrumentRegistry.removedInstruments, List.mem_filter, Bool.and_eq_true,
    Bool.not_eq_true', List.any_eq_false, decide_eq_true_eq] at h
  rintro hmem
  obtain ⟨inst, hinst, heq⟩ := List.mem_map.mp hmem
  exact h.2.2 inst hinst heq

/-- Only a removal is a delisting. -/
theorem removed_of_delisted {event : RegistryEvent}
    (h : ListingTracker.eventTypeFor event = some .delisted) : event.event = .removed := by
  unfold ListingTracker.eventTypeFor at h
  cases hevent : event.event with
  | removed => rfl
  | new =>
      rw [hevent] at h
      dsimp only at h
      split_ifs at h <;> cases h
  | statusTransition =>
      rw [hevent] at h
      dsimp only at h
      split_ifs at h
      cases h

/-- A fetched instrument is not removed. -/
theorem fetchedEvent_ne_removed {current : List Instrument} {inst : Instrument}
    {event : RegistryEvent} (h : InstrumentRegistry.fetchedEvent current inst = some event) :
    event.event ≠ .removed := by
  unfold InstrumentRegistry.fetchedEvent at h
  dsimp only at h
  split at h <;> split_ifs at h <;> cases h <;> simp

/-- What is delisted is gone from the fetch. -/
theorem not_mem_of_delisted {current fetched : List Instrument} {event : RegistryEvent}
    (hevent : event ∈ (InstrumentRegistry.result current fetched).events)
    (htype : ListingTracker.eventTypeFor event = some .delisted) :
    (event.category, event.symbol) ∉ fetched.map Instrument.identity := by
  rcases List.mem_append.mp hevent with hfetched | hremoved
  · obtain ⟨inst, -, hinst⟩ := List.mem_filterMap.mp hfetched
    exact absurd (removed_of_delisted htype) (fetchedEvent_ne_removed hinst)
  · obtain ⟨existing, hexisting, rfl⟩ := List.mem_map.mp hremoved
    exact not_mem_of_removed hexisting

/-- A reconciliation writes the fetch, and removes what is gone from it. -/
theorem reconcile_keepsListed (listed : List Instrument) (now : ℤ) :
    (InstrumentRegistry.reconcile listed now).Meets (.asking (KeepsListed listed)) ()
      fun outcome _ => ∀ result, outcome = .ok result →
        ∃ current, result = InstrumentRegistry.result current listed := by
  refine Program.meets_bind.mpr (Coroutine.meets_store.mpr ⟨trivial, fun loaded _ _ => ?_⟩)
  rcases loaded with exc | current
  · exact fun result hresult => (nomatch hresult)
  refine Program.meets_bind.mpr (Coroutine.meets_store.mpr ⟨rfl, fun written _ _ => ?_⟩)
  rcases written with exc | _
  · exact fun result hresult => (nomatch hresult)
  have hremoved : KeepsListed listed (.store (.markRemoved
      ((InstrumentRegistry.removedInstruments current listed).map Instrument.identity) now)) := by
    intro key hkey
    obtain ⟨existing, hexisting, rfl⟩ := List.mem_map.mp hkey
    exact not_mem_of_removed hexisting
  refine Program.meets_bind.mpr (Coroutine.meets_store.mpr ⟨hremoved, fun marked _ _ => ?_⟩)
  rcases marked with exc | _
  · exact fun result hresult => (nomatch hresult)
  · intro result hresult
    exact ⟨current, (Except.ok.inj hresult).symm⟩

theorem handleRegistry_keepsListed {tracker : ListingTracker} {current fetched : List Instrument} :
    (tracker.handleRegistry (InstrumentRegistry.result current fetched)).Asks
      (KeepsListed fetched) := by
  refine Program.asks_bind (asks_ask trivial) fun now => ?_
  split
  · trivial
  · refine Program.asks_gather_of_mem fun event hevent => ?_
    rw [ListingTracker.handleEvent]
    split
    · trivial
    · rename_i eventType htype
      have hrecord : KeepsListed fetched (.store (.record
          (eventKeyFor (some event.category) event.symbol eventType) (some event.category)
          event.symbol eventType now)) := by
        cases eventType with
        | delisted => exact not_mem_of_delisted hevent htype
        | _ => trivial
      refine Program.asks_bind (asks_store hrecord) fun recorded => ?_
      cases recorded with
      | none => trivial
      | some recorded =>
          exact Program.asks_bind (asks_notify trivial (fun _ => trivial) _ _) fun _ => trivial

theorem discoverOnce_keepsListed (tracker : ListingTracker) (listed : List Instrument) :
    (discoverOnce tracker (.ok listed)).Asks (KeepsListed listed) := by
  refine Program.asks_bind (asks_ask trivial) fun now => ?_
  -- the fetch has returned, so that the reconciliation comes next
  show (InstrumentRegistry.reconcile listed now >>= _).Asks (KeepsListed listed)
  refine Program.asks_bind_of_returns (reconcile_keepsListed listed now) fun result hresult => ?_
  obtain ⟨current, rfl⟩ := hresult
  exact Program.asks_bind handleRegistry_keepsListed fun _ => trivial

/-- Whatever the transport does, a discovery writes to the registry all that the exchange lists,
and removes or delists only markets that it does not list; if the fetch raises, it leaves the
database alone. -/
theorem discovery_keeps_listed (tracker : ListingTracker)
    (convert : ParsedInstrument → Instrument) (fuel : ℕ) :
    (fetchAll str config client fuel).Meets (.replying (Serves str server)) () fun outcome _ =>
      match outcome with
      | .error error =>
          (discoverOnce tracker (.error error.toPyExc)).Asks fun question =>
            ∀ op, question ≠ .store op
      | .ok none => True
      | .ok (some list) =>
          ∃ catalogue : Catalogue str config server, list = catalogue.all ∧
            (discoverOnce tracker (.ok (list.map convert))).Asks
              (KeepsListed (catalogue.all.map convert)) := by
  refine (fetchAll_complete fuel).mono fun outcome _ hcomplete => ?_
  rcases outcome with error | list
  · exact ⟨fun op hop => (nomatch hop), fun _ => trivial⟩
  rcases list with _ | list
  · trivial
  · obtain ⟨catalogue, rfl⟩ := hcomplete list rfl
    exact ⟨catalogue, rfl, discoverOnce_keepsListed tracker _⟩

end BybitMonitor
