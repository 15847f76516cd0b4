import Mathlib
import BybitMonitor.Market.PriceEngine
import BybitMonitor.Persistence.Repository

/-!
# The database of the application

The outbox, the instrument registry and the listing events, with the operations of
`app/persistence/repository.py` that the dispatcher, the listing tracker and the discovery use. Each
operation is a query or one transaction, whose statements may be made to raise.

* `StoreOp.Does`: what an operation does that returns.
* `StoreOp.run_cases`: an operation does this, or it raises and leaves the tables as they were.
-/

namespace BybitMonitor

/-- The event types of `app/market/listing.py`. -/
inductive ListingEventType
  | prelaunch
  | trading
  | announced
  | delisted
  deriving DecidableEq, Repr

/-- The stored text of an event type. -/
def ListingEventType.text : ListingEventType → String
  | prelaunch => "prelaunch"
  | trading => "trading"
  | announced => "announced"
  | delisted => "delisted"

/-- A row of the table `listing_events`. -/
structure ListingEvent where
  eventKey : String
  category : Option String
  symbol : String
  eventType : ListingEventType
  firstSeenAt : ℤ
  telegramSent : Bool := false
  deriving DecidableEq, Repr

/-- A row of the table `instruments`. -/
structure InstrumentRow extends Instrument where
  firstSeenAt : ℤ
  lastSeenAt : ℤ
  deriving DecidableEq, Repr

def Instrument.identity (self : Instrument) : String × String := (self.category, self.symbol)

/-- A notification that is to be inserted. -/
structure Draft where
  messageTag : String
  message : String
  createdAt : ℤ
  dedupeKey : Option String := none
  originType : Option String := none
  originKey : Option String := none
  deriving DecidableEq, Repr

/-- The committed tables. -/
structure Store where
  tables : Tables := {}
  instruments : List InstrumentRow := []
  listingEvents : List ListingEvent := []
  deriving DecidableEq, Repr

/-- `pending` and `retry`. -/
def NotificationStatus.isOpen : NotificationStatus → Bool
  | pending | retry => true
  | sent | dead => false

namespace OutgoingNotification

/-- Whether `expire_notifications` marks the row dead. -/
def expires (row : OutgoingNotification) (alertMaxAge listingMaxAge now : ℤ) : Bool :=
  row.status.isOpen &&
    (if row.originType = some "listing" then row.createdAt < now - listingMaxAge
      else row.createdAt < now - alertMaxAge)

/-- Whether `due_notifications` selects the row. -/
def isDue (row : OutgoingNotification) (now : ℤ) : Bool :=
  row.status.isOpen && row.nextAttemptAt.all (· ≤ now)

end OutgoingNotification

namespace Store

/-- The rows of the outbox, in the order of their ids. -/
def outgoing (self : Store) : List OutgoingNotification := self.tables.outgoing

/-- Update the rows of the outbox. -/
def mapOutgoing (self : Store) (f : OutgoingNotification → OutgoingNotification) : Store :=
  { self with tables := { self.tables with outgoing := self.tables.outgoing.map f } }

/-- Update the row with an id, if there is one. -/
def updateOutgoing (self : Store) (id : ℕ) (f : OutgoingNotification → OutgoingNotification) :
    Store :=
  self.mapOutgoing fun row => if row.id = id then f row else row

/-- `mark_notification_sent`. -/
def markNotificationSent (self : Store) (id : ℕ) (now : ℤ) : Store :=
  self.updateOutgoing id fun row => { row with status := .sent, sentAt := some now }

/-- `error[:500]`. -/
def errorText (error : String) : String := String.ofList (error.toList.take 500)

/-- `mark_notification_dead`. -/
def markNotificationDead (self : Store) (id : ℕ) (error : String) : Store :=
  self.updateOutgoing id fun row =>
    { row with status := .dead, error := some (errorText error) }

/-- `mark_notification_retry`. -/
def markNotificationRetry (self : Store) (id : ℕ) (error : String) (nextAttemptAt now : ℤ) :
    Store :=
  self.updateOutgoing id fun row =>
    { row with
      status := .retry
      error := some (errorText error)
      attemptCount := row.attemptCount + 1
      lastAttemptAt := some now
      nextAttemptAt := some nextAttemptAt }

/-- `expire_notifications`. -/
def expireNotifications (self : Store) (alertMaxAge listingMaxAge now : ℤ) : Store :=
  self.mapOutgoing fun row =>
    if row.expires alertMaxAge listingMaxAge now then
      { row with status := .dead, error := some "expired" }
    else row

/-- `due_notifications`. -/
def dueNotifications (self : Store) (now : ℤ) : List OutgoingNotification :=
  (self.outgoing.filter fun row => row.isDue now).take 100

/-- `find_notification_by_dedupe`. -/
def findNotificationByDedupe (self : Store) (dedupeKey : String) : Option OutgoingNotification :=
  self.outgoing.find? fun row => row.dedupeKey = some dedupeKey

/-- Insert a pending row. -/
def insertOutgoing (self : Store) (draft : Draft) : Store :=
  { self with tables := self.tables.addRow (self.tables.newRow draft.messageTag draft.message
      draft.createdAt draft.dedupeKey draft.originType draft.originKey) }

/-- Update the listing event with a key, if there is one. -/
def updateListing (self : Store) (eventKey : String) (f : ListingEvent → ListingEvent) : Store :=
  { self with
    listingEvents := self.listingEvents.map fun event =>
      if event.eventKey = eventKey then f event else event }

/-- `mark_listing_sent`, and `mark_sent` of the listing events. -/
def markListingSent (self : Store) (eventKey : String) : Store :=
  self.updateListing eventKey fun event => { event with telegramSent := true }

/-- Whether an event with the key is recorded. -/
def hasListing (self : Store) (eventKey : String) : Bool :=
  self.listingEvents.any fun event => event.eventKey = eventKey

/-- Add a listing event. -/
def addListing (self : Store) (event : ListingEvent) : Store :=
  { self with listingEvents := self.listingEvents ++ [event] }

/-- `unsent` of the listing events: delisted events are silent. -/
def unsent (self : Store) : List ListingEvent :=
  self.listingEvents.filter fun event => !event.telegramSent && event.eventType ≠ .delisted

/-- `load_all` of the instruments. -/
def loadAll (self : Store) : List Instrument := self.instruments.map InstrumentRow.toInstrument

/-- Whether the registry has a row for the market. -/
def hasInstrument (self : Store) (identity : String × String) : Bool :=
  self.instruments.any fun row => row.identity = identity

/-- `ON CONFLICT(category, symbol) DO UPDATE`: `first_seen_at` is written on insert only. -/
def upsertInstrument (self : Store) (instrument : Instrument) (now : ℤ) : Store :=
  if self.hasInstrument instrument.identity then
    { self with
      instruments := self.instruments.map fun row =>
        if row.identity = instrument.identity then
          { row with toInstrument := instrument, lastSeenAt := now }
        else row }
  else
    { self with
      instruments := self.instruments ++
        [{ toInstrument := instrument, firstSeenAt := now, lastSeenAt := now }] }

/-- `upsert_many`. -/
def upsertMany (self : Store) (instruments : List Instrument) (now : ℤ) : Store :=
  instruments.foldl (fun store instrument => store.upsertInstrument instrument now) self

/-- `UPDATE instruments SET status = 'Removed'`. -/
def removeInstrument (self : Store) (identity : String × String) (now : ℤ) : Store :=
  { self with
    instruments := self.instruments.map fun row =>
      if row.identity = identity then { row with status := "Removed", lastSeenAt := now } else row }

/-- `mark_removed`. -/
def markRemoved (self : Store) (keys : List (String × String)) (now : ℤ) : Store :=
  keys.foldl (fun store key => store.removeInstrument key now) self

end Store

/-- The operations, with the clock readings that they bind. -/
inductive StoreOp
  | expireNotifications (alertMaxAge listingMaxAge now : ℤ)
  | dueNotifications (now : ℤ)
  | markNotificationSent (id : ℕ) (now : ℤ)
  /-- The transaction of `_deliver` that confirms a listing notification. -/
  | confirmListing (id : ℕ) (eventKey : String) (now : ℤ)
  | markNotificationDead (id : ℕ) (error : String)
  | markNotificationRetry (id : ℕ) (error : String) (nextAttemptAt now : ℤ)
  | insertOutgoingNotification (draft : Draft)
  | findNotificationByDedupe (dedupeKey : String)
  | record (eventKey : String) (category : Option String) (symbol : String)
      (eventType : ListingEventType) (now : ℤ)
  | markSent (eventKey : String)
  | unsent
  | loadAll
  | upsertMany (instruments : List Instrument) (now : ℤ)
  | markRemoved (keys : List (String × String)) (now : ℤ)

namespace StoreOp

/-- What an operation returns. -/
abbrev Result : StoreOp → Type
  | expireNotifications .. => ℕ
  | dueNotifications _ => List OutgoingNotification
  | insertOutgoingNotification _ => ℕ
  | findNotificationByDedupe _ => Option OutgoingNotification
  | record .. => Option ListingEvent
  | unsent => List ListingEvent
  | loadAll => List Instrument
  | _ => Unit

end StoreOp

/-- The exceptions that the parts of an operation are made to raise. -/
structure StoreFaults where
  begin : Option PyExc := none
  statements : List (Option PyExc) := []
  commit : Option PyExc := none
  deriving DecidableEq, Repr

namespace StoreFaults

/-- A statement, by its place in the operation, that binds integers. -/
def statement {α : Type} (faults : StoreFaults) (place : ℕ) (bound : List ℤ)
    (f : Store → Except PyExc (α × Store)) : Db PyExc Store α :=
  Db.guarded faults.statements[place]?.join <| Db.statement fun store =>
    if bound.all sqliteBinds then f store
    else .error (.overflowError "Python int too large to convert to SQLite INTEGER")

/-- A statement that returns nothing. -/
def update (faults : StoreFaults) (place : ℕ) (bound : List ℤ) (f : Store → Store) :
    Db PyExc Store Unit :=
  faults.statement place bound fun store => .ok ((), f store)

/-- One statement for each item of a list. -/
def updates {α : Type} (faults : StoreFaults) (items : List α) (bound : α → List ℤ)
    (f : α → Store → Store) : Db PyExc Store Unit :=
  items.zipIdx.forM fun (item, place) => faults.update place (bound item) (f item)

/-- A query outside a transaction. -/
def query {α : Type} (faults : StoreFaults) (bound : List ℤ) (f : Store → α) : Db PyExc Store α :=
  Db.guarded faults.statements[0]?.join <|
    if bound.all sqliteBinds then Db.query f
    else Db.throw (.overflowError "Python int too large to convert to SQLite INTEGER")

/-- `Database.transaction`. -/
def transaction {α : Type} (faults : StoreFaults) (body : Db PyExc Store α) : Db PyExc Store α :=
  Db.transaction (.runtimeError "nested transaction not supported") faults.begin faults.commit body

end StoreFaults

namespace StoreOp

/-- `Repository.mark_notification_sent` with `commit=False`. -/
def sentStatement (faults : StoreFaults) (id : ℕ) (now : ℤ) : Db PyExc Store Unit :=
  faults.update 0 [now] fun store => store.markNotificationSent id now

/-- Run an operation. -/
def run (faults : StoreFaults) : (op : StoreOp) → Db PyExc Store op.Result
  | expireNotifications alertMaxAge listingMaxAge now =>
      faults.transaction <| faults.statement 0 [now - listingMaxAge, now - alertMaxAge] fun store =>
        .ok ((store.outgoing.filter fun row => row.expires alertMaxAge listingMaxAge now).length,
          store.expireNotifications alertMaxAge listingMaxAge now)
  | dueNotifications now => faults.query [now] fun store => store.dueNotifications now
  | markNotificationSent id now => faults.transaction (sentStatement faults id now)
  | confirmListing id eventKey now =>
      faults.transaction do
        sentStatement faults id now
        faults.update 1 [] fun store => store.markListingSent eventKey
  | markNotificationDead id error =>
      faults.transaction <| faults.update 0 [] fun store => store.markNotificationDead id error
  | markNotificationRetry id error nextAttemptAt now =>
      faults.transaction <| faults.update 0 [now, nextAttemptAt] fun store =>
        store.markNotificationRetry id error nextAttemptAt now
  | insertOutgoingNotification draft =>
      faults.transaction <| faults.statement 0 [draft.createdAt] fun store =>
        if store.tables.violatesDedupe draft.dedupeKey then .error .integrityError
        else .ok (store.tables.outgoingSequence + 1, store.insertOutgoing draft)
  | findNotificationByDedupe dedupeKey =>
      faults.query [] fun store => store.findNotificationByDedupe dedupeKey
  | record eventKey category symbol eventType now =>
      faults.transaction <| faults.statement 0 [now] fun store =>
        -- INSERT OR IGNORE: a key that is there is left alone
        if store.hasListing eventKey then .ok (none, store)
        else
          let event : ListingEvent := { eventKey, category, symbol, eventType, firstSeenAt := now }
          .ok (some event, store.addListing event)
  | markSent eventKey =>
      faults.transaction <| faults.update 0 [] fun store => store.markListingSent eventKey
  | unsent => faults.query [] Store.unsent
  | loadAll => faults.query [] Store.loadAll
  | upsertMany instruments now =>
      faults.transaction <| faults.updates instruments
        (fun instrument =>
          instrument.launchTime.toList ++ instrument.deliveryTime.toList ++ [now, now])
        fun instrument store => store.upsertInstrument instrument now
  | markRemoved keys now =>
      faults.transaction <| faults.updates keys (fun _ => [now])
        fun key store => store.removeInstrument key now

/-- What an operation that returns does. -/
def Does : (op : StoreOp) → Store → op.Result → Store → Prop
  | expireNotifications alertMaxAge listingMaxAge now, store, _, store' =>
      store' = store.expireNotifications alertMaxAge listingMaxAge now
  | dueNotifications now, store, rows, store' => rows = store.dueNotifications now ∧ store' = store
  | markNotificationSent id now, store, _, store' => store' = store.markNotificationSent id now
  | confirmListing id eventKey now, store, _, store' =>
      store' = (store.markNotificationSent id now).markListingSent eventKey
  | markNotificationDead id error, store, _, store' => store' = store.markNotificationDead id error
  | markNotificationRetry id error nextAttemptAt now, store, _, store' =>
      store' = store.markNotificationRetry id error nextAttemptAt now
  | insertOutgoingNotification draft, store, id, store' =>
      store.tables.violatesDedupe draft.dedupeKey = false ∧
        id = store.tables.outgoingSequence + 1 ∧ store' = store.insertOutgoing draft
  | findNotificationByDedupe dedupeKey, store, row, store' =>
      row = store.findNotificationByDedupe dedupeKey ∧ store' = store
  | record eventKey category symbol eventType now, store, recorded, store' =>
      if store.hasListing eventKey then recorded = none ∧ store' = store
      else
        let event : ListingEvent := { eventKey, category, symbol, eventType, firstSeenAt := now }
        recorded = some event ∧ store' = store.addListing event
  | markSent eventKey, store, _, store' => store' = store.markListingSent eventKey
  | unsent, store, events, store' => events = store.unsent ∧ store' = store
  | loadAll, store, instruments, store' => instruments = store.loadAll ∧ store' = store
  | upsertMany instruments now, store, _, store' => store' = store.upsertMany instruments now
  | markRemoved keys now, store, _, store' => store' = store.markRemoved keys now

end StoreOp

section Effects

variable {faults : StoreFaults} {place : ℕ} {bound : List ℤ} {store image : Store}

theorem StoreFaults.keepsOpen_statement {α : Type} (f : Store → Except PyExc (α × Store)) :
    Db.KeepsOpen (faults.statement place bound f) :=
  Db.keepsOpen_guarded (Db.keepsOpen_statement _)

theorem StoreFaults.keepsOpen_update (f : Store → Store) :
    Db.KeepsOpen (faults.update place bound f) :=
  keepsOpen_statement _

/-- A statement that returns has bound its integers. -/
theorem StoreFaults.statement_ok {α : Type} {f : Store → Except PyExc (α × Store)} {a : α}
    {conn : Connection Store}
    (h : (faults.statement place bound f).run ⟨store, some image⟩ = (.ok a, conn)) :
    ∃ image', f image = .ok (a, image') ∧ conn = ⟨store, some image'⟩ := by
  -- a statement that returns was not made to raise, and its integers fit into 64 bits
  obtain ⟨-, h⟩ := Db.guarded_run_ok_iff.mp h
  obtain ⟨image', himage, rfl⟩ := Db.statement_run_ok_iff.mp h
  split at himage
  · exact ⟨image', himage, rfl⟩
  · cases himage

theorem StoreFaults.update_ok {f : Store → Store} {conn : Connection Store}
    (h : (faults.update place bound f).run ⟨store, some image⟩ = (.ok (), conn)) :
    conn = ⟨store, some (f image)⟩ := by
  obtain ⟨image', himage, rfl⟩ := statement_ok h
  obtain ⟨-, rfl⟩ := Prod.mk.inj (Except.ok.inj himage)
  rfl

theorem StoreFaults.keepsOpen_updates {α : Type} (items : List α) (bound : α → List ℤ)
    (f : α → Store → Store) : Db.KeepsOpen (faults.updates items bound f) :=
  Db.keepsOpen_forM (fun _ => keepsOpen_update _) _

/-- Statements in a row apply their updates in order. -/
theorem StoreFaults.updates_ok {α : Type} {items : List α} {bound : α → List ℤ}
    {f : α → Store → Store} {conn : Connection Store}
    (h : (faults.updates items bound f).run ⟨store, some image⟩ = (.ok (), conn)) :
    conn = ⟨store, some (items.foldl (fun image item => f item image) image)⟩ := by
  -- the places only choose the fault of a statement
  have hplaced : ∀ (placed : List (α × ℕ)) (image : Store),
      (placed.forM fun (item, place) => faults.update place (bound item) (f item)).run
        ⟨store, some image⟩ = (.ok ⟨⟩, conn) →
      conn =
        ⟨store, some ((placed.map Prod.fst).foldl (fun image item => f item image) image)⟩ := by
    intro placed
    induction placed with
    | nil => exact fun image h => (Prod.mk.inj h).2.symm
    | cons item placed ih =>
        intro image h
        obtain ⟨_, conn', hfirst, hrest⟩ := Db.bind_run_ok_iff.mp h
        obtain rfl := update_ok hfirst
        exact ih _ hrest
  have hconn := hplaced _ _ h
  rwa [List.zipIdx_map_fst] at hconn

/-- A transaction that raises leaves the tables as they were. -/
theorem StoreFaults.transaction_cases {α : Type} {body : Db PyExc Store α}
    {Q : α → Store → Prop} (hopen : Db.KeepsOpen body)
    (hbody : ∀ a image, body.run ⟨store, some store⟩ = (.ok a, ⟨store, some image⟩) → Q a image) :
    (∃ exc, (faults.transaction body).run ⟨store, none⟩ = (.error exc, ⟨store, none⟩)) ∨
      ∃ a store', Q a store' ∧
        (faults.transaction body).run ⟨store, none⟩ = (.ok a, ⟨store', none⟩) := by
  -- the body works on a copy, which is committed or given up
  rcases Db.transaction_run_cases hopen with ⟨exc, hrun⟩ | ⟨a, image, himage, hrun⟩
  · exact Or.inl ⟨exc, hrun⟩
  · exact Or.inr ⟨a, image, hbody a image himage, hrun⟩

theorem StoreFaults.query_cases {α : Type} (f : Store → α) :
    (∃ exc, (faults.query bound f).run ⟨store, none⟩ = (.error exc, ⟨store, none⟩)) ∨
      (faults.query bound f).run ⟨store, none⟩ = (.ok (f store), ⟨store, none⟩) := by
  rw [query]
  cases faults.statements[0]?.join with
  | some exc => exact Or.inl ⟨exc, rfl⟩
  | none =>
      by_cases hbound : bound.all sqliteBinds = true
      · exact Or.inr (by rw [if_pos hbound]; rfl)
      · exact Or.inl ⟨_, by rw [if_neg hbound]; rfl⟩

/-- An operation does what it is for, or it raises and leaves the tables as they were. -/
theorem StoreOp.run_cases (faults : StoreFaults) (op : StoreOp) (store : Store) :
    (∃ exc, (op.run faults).run ⟨store, none⟩ = (.error exc, ⟨store, none⟩)) ∨
      ∃ result store', op.Does store result store' ∧
        (op.run faults).run ⟨store, none⟩ = (.ok result, ⟨store', none⟩) := by
  -- each operation is a query, or a transaction of its statements
  cases op with
  | expireNotifications alertMaxAge listingMaxAge now =>
      refine StoreFaults.transaction_cases (StoreFaults.keepsOpen_statement _)
        fun count image himage => ?_
      obtain ⟨image', heffect, hconn⟩ := StoreFaults.statement_ok himage
      obtain rfl : image = image' := Option.some.inj (Connection.mk.inj hconn).2
      exact (Prod.mk.inj (Except.ok.inj heffect)).2.symm
  | dueNotifications now =>
      exact (StoreFaults.query_cases _).imp_right fun hrun => ⟨_, _, ⟨rfl, rfl⟩, hrun⟩
  | markNotificationSent id now =>
      refine StoreFaults.transaction_cases (StoreFaults.keepsOpen_update _) fun _ image himage => ?_
      exact Option.some.inj (Connection.mk.inj (StoreFaults.update_ok himage)).2
  | confirmListing id eventKey now =>
      refine StoreFaults.transaction_cases (Db.keepsOpen_bind (StoreFaults.keepsOpen_update _)
        fun _ => StoreFaults.keepsOpen_update _) fun _ image himage => ?_
      -- the two statements of the block, in their order
      obtain ⟨_, conn, hsent, hflag⟩ := Db.bind_run_ok_iff.mp himage
      obtain rfl := StoreFaults.update_ok hsent
      exact Option.some.inj (Connection.mk.inj (StoreFaults.update_ok hflag)).2
  | markNotificationDead id error =>
      refine StoreFaults.transaction_cases (StoreFaults.keepsOpen_update _) fun _ image himage => ?_
      exact Option.some.inj (Connection.mk.inj (StoreFaults.update_ok himage)).2
  | markNotificationRetry id error nextAttemptAt now =>
      refine StoreFaults.transaction_cases (StoreFaults.keepsOpen_update _) fun _ image himage => ?_
      exact Option.some.inj (Connection.mk.inj (StoreFaults.update_ok himage)).2
  | insertOutgoingNotification draft =>
      refine StoreFaults.transaction_cases (StoreFaults.keepsOpen_statement _)
        fun id image himage => ?_
      obtain ⟨image', heffect, hconn⟩ := StoreFaults.statement_ok himage
      obtain rfl : image = image' := Option.some.inj (Connection.mk.inj hconn).2
      -- the unique index refuses a key that is there
      split at heffect
      · cases heffect
      · rename_i hfresh
        obtain ⟨rfl, rfl⟩ := Prod.mk.inj (Except.ok.inj heffect)
        exact ⟨Bool.eq_false_iff.mpr hfresh, rfl, rfl⟩
  | findNotificationByDedupe dedupeKey =>
      exact (StoreFaults.query_cases _).imp_right fun hrun => ⟨_, _, ⟨rfl, rfl⟩, hrun⟩
  | record eventKey category symbol eventType now =>
      refine StoreFaults.transaction_cases (StoreFaults.keepsOpen_statement _)
        fun recorded image himage => ?_
      obtain ⟨image', heffect, hconn⟩ := StoreFaults.statement_ok himage
      obtain rfl : image = image' := Option.some.inj (Connection.mk.inj hconn).2
      show ite _ _ _
      split at heffect <;> rename_i hknown
      · obtain ⟨rfl, rfl⟩ := Prod.mk.inj (Except.ok.inj heffect)
        rw [if_pos hknown]
        exact ⟨rfl, rfl⟩
      · obtain ⟨rfl, rfl⟩ := Prod.mk.inj (Except.ok.inj heffect)
        rw [if_neg hknown]
        exact ⟨rfl, rfl⟩
  | markSent eventKey =>
      refine StoreFaults.transaction_cases (StoreFaults.keepsOpen_update _) fun _ image himage => ?_
      exact Option.some.inj (Connection.mk.inj (StoreFaults.update_ok himage)).2
  | unsent => exact (StoreFaults.query_cases _).imp_right fun hrun => ⟨_, _, ⟨rfl, rfl⟩, hrun⟩
  | loadAll => exact (StoreFaults.query_cases _).imp_right fun hrun => ⟨_, _, ⟨rfl, rfl⟩, hrun⟩
  | upsertMany instruments now =>
      refine StoreFaults.transaction_cases (StoreFaults.keepsOpen_updates _ _ _)
        fun _ image himage => ?_
      exact Option.some.inj (Connection.mk.inj (StoreFaults.updates_ok himage)).2
  | markRemoved keys now =>
      refine StoreFaults.transaction_cases (StoreFaults.keepsOpen_updates _ _ _)
        fun _ image himage => ?_
      exact Option.some.inj (Connection.mk.inj (StoreFaults.updates_ok himage)).2

end Effects

end BybitMonitor
