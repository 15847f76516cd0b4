import Mathlib
import BybitMonitor.Alerts.Dispatcher
import BybitMonitor.Alerts.Formatter
import BybitMonitor.Alerts.ServiceRun
import BybitMonitor.Market.Discovery

/-!
# The listing tracker

`ListingTracker` records listing events and enqueues their notifications; `reconcileUnsent` pairs
the events that were never confirmed with the outbox. -/

namespace BybitMonitor

/-- `event_key_for`. -/
def eventKeyFor (category : Option String) (symbol : String) (eventType : ListingEventType) :
    String :=
  PyText.orElse category "announcement" ++ ":" ++ symbol ++ ":" ++ eventType.text

/-- The label of an event type in a message. -/
def ListingEventType.label : ListingEventType → String
  | prelaunch => "PreLaunch"
  | trading => "Now Trading"
  | announced => "Announced"
  | delisted => "Delisted"

/-- `format_listing_alert`. -/
def formatListingAlert (event : ListingEvent) (now : ℤ) : Except PyExc String := do
  let updated ← timestampLine now
  return "\n".intercalate
    ["🆕 BYBIT NEW LISTING", "",
      event.symbol ++ " (" ++ PyText.orElse event.category "announcement" ++ ")",
      "Status: " ++ event.eventType.label, "", "Updated: " ++ updated]

/-- `AlertDispatcher.enqueue`. -/
def AlertDispatcher.enqueue (text tag : String) (dedupeKey originType originKey : Option String) :
    Coroutine ℕ := do
  let createdAt ← Coroutine.ask .clock
  Coroutine.store (.insertOutgoingNotification
    { messageTag := tag, message := text, createdAt, dedupeKey, originType, originKey })

/-- `Application._notify_listing`. -/
def notifyListing (event : ListingEvent) : Coroutine Unit := do
  let now ← Coroutine.ask .clock
  let text ← Coroutine.ofExcept (formatListingAlert event now)
  let _ ← AlertDispatcher.enqueue text "listing" (some (listingDedupeKey event.eventKey))
    (some "listing") (some event.eventKey)

/-- The tracker: its configuration, and whether it has a `notify` and an `outbox`. -/
structure ListingTracker where
  config : Settings
  hasNotify : Bool := true
  hasOutbox : Bool := true

namespace ListingTracker

/-- `ListingTracker._event_type_for`. -/
def eventTypeFor (event : RegistryEvent) : Option ListingEventType :=
  match event.event with
  | .removed => some .delisted
  | .new =>
      if event.newStatus = some statusPrelaunch then some .prelaunch
      else if event.newStatus = some statusTrading then some .trading
      else none
  | .statusTransition =>
      if event.oldStatus = some statusPrelaunch ∧ event.newStatus = some statusTrading then
        some .trading
      else none

variable (self : ListingTracker)

/-- `ListingTracker._notify`. -/
def notify (event : ListingEvent) : Coroutine Unit :=
  if event.eventType = .delisted then return
  else if !self.hasNotify || !self.config.listingNotificationsEnabled then return
  else notifyListing event

/-- Record an event and notify it, if it is new. -/
def recordAndNotify (category : Option String) (symbol : String) (eventType : ListingEventType)
    (now : ℤ) : Coroutine (Option ListingEvent) := do
  match ← Coroutine.store
    (.record (eventKeyFor category symbol eventType) category symbol eventType now) with
  | none => return none
  | some recorded =>
      self.notify recorded
      return some recorded

/-- The body of the loop of `handle_registry`. -/
def handleEvent (now : ℤ) (event : RegistryEvent) : Coroutine (Option ListingEvent) :=
  match eventTypeFor event with
  | none => return none
  | some eventType => self.recordAndNotify (some event.category) event.symbol eventType now

/-- `ListingTracker.handle_registry`. -/
def handleRegistry (result : DiscoveryResult) : Coroutine (List ListingEvent) := do
  let now ← Coroutine.ask .clock
  -- seeding an empty database is silent
  if result.firstRun then return []
  Program.gather (self.handleEvent now) result.events

/-- `ListingTracker.handle_announcements`, for the symbols of each announcement in the order in
which the set of them is iterated. -/
def handleAnnouncements (announcements : List (List String)) : Coroutine (List ListingEvent) := do
  let now ← Coroutine.ask .clock
  Program.gather (fun symbol => self.recordAndNotify none symbol .announced now)
    announcements.flatten

/-- The body of the loop of `reconcile_unsent`; it returns something if it has repaired the
event. -/
def repair (event : ListingEvent) : Coroutine (Option Unit) :=
  if self.hasOutbox then do
    match ← Coroutine.store (.findNotificationByDedupe (listingDedupeKey event.eventKey)) with
    | some row =>
        if row.status = .sent then do
          -- the outbox confirms the delivery
          Coroutine.store (.markSent event.eventKey)
          return some ()
        else return none
    | none =>
        self.notify event
        return some ()
  else do
    self.notify event
    return some ()

/-- `ListingTracker.reconcile_unsent`. -/
def reconcileUnsent : Coroutine ℕ := do
  let events ← Coroutine.store .unsent
  let repaired ← Program.gather self.repair events
  return repaired.length

end ListingTracker

/-- `InstrumentDiscovery.discover_once` with the callback of `Application`, for what the requests of
the fetch return or raise. -/
def discoverOnce (tracker : ListingTracker) (fetched : Except PyExc (List Instrument)) :
    Coroutine DiscoveryResult := do
  let now ← Coroutine.ask .clock
  let fetched ← Coroutine.ofExcept fetched
  let result ← InstrumentRegistry.reconcile fetched now
  let _ ← tracker.handleRegistry result
  return result

end BybitMonitor
