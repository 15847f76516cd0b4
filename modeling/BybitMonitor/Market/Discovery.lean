import Mathlib
import BybitMonitor.Coroutine

/-!
# Instrument discovery

`InstrumentRegistry.reconcile` compares the fetched instruments with the registry, writes the
registry and returns the events of the comparison.

* `discoverOnce`: a discovery, whose registry events are handed to the listing tracker.
-/

namespace BybitMonitor

/-- The kinds of registry events. -/
inductive RegistryChange
  | new
  | statusTransition
  | removed
  deriving DecidableEq, Repr

/-- An internal discovery event for a single instrument. -/
structure RegistryEvent where
  category : String
  symbol : String
  baseCoin : String
  event : RegistryChange
  oldStatus : Option String := none
  newStatus : Option String := none
  isPreListing : Bool := false
  deriving DecidableEq, Repr

structure DiscoveryResult where
  events : List RegistryEvent := []
  instrumentCount : ℕ := 0
  firstRun : Bool := false
  deriving DecidableEq, Repr

/-- `STATUS_REMOVED`. -/
def statusRemoved : String := "Removed"

/-- `STATUS_TRADING`. -/
def statusTrading : String := "Trading"

/-- `STATUS_PRELAUNCH`. -/
def statusPrelaunch : String := "PreLaunch"

namespace InstrumentRegistry

/-- `current.get(key)`. -/
def lookup (current : List Instrument) (identity : String × String) : Option Instrument :=
  current.find? fun instrument => instrument.identity = identity

/-- The event of a fetched instrument, if it has one. -/
def fetchedEvent (current : List Instrument) (instrument : Instrument) : Option RegistryEvent :=
  let event : RegistryEvent :=
    { category := instrument.category
      symbol := instrument.symbol
      baseCoin := instrument.baseCoin
      event := .new
      newStatus := some instrument.status
      isPreListing := instrument.isPreListing }
  match lookup current instrument.identity with
  -- the first run seeds the registry silently
  | none => if current.isEmpty then none else some event
  | some previous =>
      if previous.status ≠ instrument.status then
        some { event with event := .statusTransition, oldStatus := some previous.status }
      else none

/-- The instruments of the registry that the fetch does not have any more. -/
def removedInstruments (current fetched : List Instrument) : List Instrument :=
  current.filter fun existing =>
    existing.status ≠ statusRemoved && !(fetched.any fun inst => inst.identity = existing.identity)

/-- The event of an instrument that is gone. -/
def removedEvent (existing : Instrument) : RegistryEvent where
  category := existing.category
  symbol := existing.symbol
  baseCoin := existing.baseCoin
  event := .removed
  oldStatus := some existing.status
  isPreListing := existing.isPreListing

/-- What a reconciliation returns. -/
def result (current fetched : List Instrument) : DiscoveryResult where
  events :=
    fetched.filterMap (fetchedEvent current) ++
      (removedInstruments current fetched).map removedEvent
  instrumentCount := (fetched.map Instrument.identity).dedup.length
  firstRun := current.isEmpty

/-- `InstrumentRegistry.reconcile`. -/
def reconcile (fetched : List Instrument) (now : ℤ) : Coroutine DiscoveryResult := do
  let current ← Coroutine.store .loadAll
  Coroutine.store (.upsertMany fetched now)
  Coroutine.store
    (.markRemoved ((removedInstruments current fetched).map Instrument.identity) now)
  return result current fetched

end InstrumentRegistry

end BybitMonitor
