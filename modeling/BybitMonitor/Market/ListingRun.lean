import Mathlib
import BybitMonitor.Alerts.DedupeKeys
import BybitMonitor.Alerts.OutboxRun
import BybitMonitor.Market.ListingOutbox

/-!
# Listings over a run

The calls of the listing tracker, interleaved with the worker and with each other, keep the listing
events and the outbox consistent: a call enqueues the notification of an event only after it has
recorded the event, or has found it.

* `EntryPoint.meets`: what a call asks of the database.
* `ListingInvariant.step`: one step keeps the tables consistent.
-/

namespace BybitMonitor

/-- What a call may ask, by the tables. -/
def ListingAllows (store : Store) : Await → Prop
  | .store (.insertOutgoingNotification draft) =>
      ∃ event ∈ store.listingEvents, draft.Lists event.eventKey
  | .store (.record eventKey _ _ _ _) => eventKey ≠ ""
  | .store (.markSent eventKey) => ∃ row ∈ store.outgoing, row.status = .sent ∧
      row.dedupeKey = some (listingDedupeKey eventKey)
  | question => callAllows question

/-- The protocol of a call, on consistent tables. -/
def listingProtocol : Program.Protocol Await Await.Reply World where
  Allows world := ListingAllows world.store
  Moves world question reply world' := world.store.Consistent ∧ world.Serves question reply world'

/-- The protocol of a call among others, which let the tables grow. -/
def callProtocol : Program.Protocol Await Await.Reply World :=
  listingProtocol.interleaved fun world world' => world.store.Grows world'.store

theorem ListingAllows.callAllows {store : Store} {question : Await}
    (h : ListingAllows store question) : callAllows question := by
  cases question with
  | store op =>
      cases op with
      | insertOutgoingNotification draft => rfl
      | record eventKey category symbol eventType now => rfl
      | markSent eventKey => rfl
      | _ => exact h
  | _ => exact h

/-- What a call may ask, it may ask later. -/
theorem ListingAllows.grows {store store' : Store} {question : Await}
    (h : ListingAllows store question) (hgrows : store.Grows store') :
    ListingAllows store' question := by
  cases question with
  | store op =>
      cases op with
      | insertOutgoingNotification draft =>
          obtain ⟨event, hevent, hlists⟩ := h
          obtain ⟨event', hevent', hmoves⟩ := hgrows.events event hevent
          exact ⟨event', hevent', hmoves.eventKey_eq ▸ hlists⟩
      | markSent eventKey =>
          obtain ⟨row, hrow, hsent, hkey⟩ := h
          obtain ⟨row', hrow', hmoves⟩ := hgrows.rows row hrow
          exact ⟨row', hrow', hmoves.sent hsent, hmoves.notice.dedupeKey_eq.trans hkey⟩
      | _ => exact h
  | _ => exact h

/-! ## The operations and the listing events -/

theorem Store.mem_updateListing {store : Store} {eventKey : String}
    {f : ListingEvent → ListingEvent} {event : ListingEvent} :
    event ∈ (store.updateListing eventKey f).listingEvents ↔
      ∃ old ∈ store.listingEvents, (if old.eventKey = eventKey then f old else old) = event :=
  List.mem_map

/-- A flag is set, and the events are kept. -/
theorem Store.markListingSent_events (store : Store) (eventKey : String) :
    ∀ event ∈ store.listingEvents,
      ∃ event' ∈ (store.markListingSent eventKey).listingEvents, event.MovesTo event' := by
  intro event hevent
  refine ⟨_, mem_updateListing.mpr ⟨event, hevent, rfl⟩, ?_⟩
  split
  · exact ⟨rfl, rfl, fun _ => rfl⟩
  · exact .refl event

theorem Store.upsertMany_listingEvents (instruments : List Instrument) (now : ℤ) :
    ∀ store : Store, (store.upsertMany instruments now).listingEvents = store.listingEvents := by
  induction instruments with
  | nil => exact fun store => rfl
  | cons instrument instruments ih =>
      intro store
      refine (ih (store.upsertInstrument instrument now)).trans ?_
      rw [upsertInstrument]
      split <;> rfl

theorem Store.markRemoved_listingEvents (keys : List (String × String)) (now : ℤ) :
    ∀ store : Store, (store.markRemoved keys now).listingEvents = store.listingEvents := by
  induction keys with
  | nil => exact fun store => rfl
  | cons key keys ih => exact fun store => ih (store.removeInstrument key now)

/-- What an operation may do to the listing events: nothing, set a flag, or record one. -/
theorem StoreOp.Does.listingEvents {op : StoreOp} {store store' : Store} {result : op.Result}
    (h : op.Does store result store') :
    store'.listingEvents = store.listingEvents ∨
      (∃ eventKey, store'.listingEvents = (store.markListingSent eventKey).listingEvents) ∨
      ∃ eventKey category symbol eventType now event,
        op = .record eventKey category symbol eventType now ∧
          store'.listingEvents = store.listingEvents ++ [event] := by
  cases op with
  | confirmListing id eventKey now =>
      obtain rfl : store' = (store.markNotificationSent id now).markListingSent eventKey := h
      exact Or.inr (Or.inl ⟨eventKey, rfl⟩)
  | markSent eventKey =>
      obtain rfl : store' = store.markListingSent eventKey := h
      exact Or.inr (Or.inl ⟨eventKey, rfl⟩)
  | record eventKey category symbol eventType now =>
      -- `INSERT OR IGNORE` leaves a key that is there
      have h : ite _ _ _ := h
      split at h
      · exact Or.inl (congrArg Store.listingEvents h.2)
      · exact Or.inr (Or.inr ⟨_, _, _, _, _, _, rfl, congrArg Store.listingEvents h.2⟩)
  | expireNotifications alertMaxAge listingMaxAge now =>
      obtain rfl : store' = store.expireNotifications alertMaxAge listingMaxAge now := h
      exact Or.inl rfl
  | markNotificationSent id now =>
      obtain rfl : store' = store.markNotificationSent id now := h
      exact Or.inl rfl
  | markNotificationDead id error =>
      obtain rfl : store' = store.markNotificationDead id error := h
      exact Or.inl rfl
  | markNotificationRetry id error nextAttemptAt now =>
      obtain rfl : store' = store.markNotificationRetry id error nextAttemptAt now := h
      exact Or.inl rfl
  | insertOutgoingNotification draft =>
      obtain ⟨-, -, rfl⟩ := h
      exact Or.inl rfl
  | upsertMany instruments now =>
      exact Or.inl ((congrArg Store.listingEvents h).trans (store.upsertMany_listingEvents _ _))
  | markRemoved keys now =>
      exact Or.inl ((congrArg Store.listingEvents h).trans (store.markRemoved_listingEvents _ _))
  | dueNotifications now => exact Or.inl (congrArg Store.listingEvents h.2)
  | findNotificationByDedupe dedupeKey => exact Or.inl (congrArg Store.listingEvents h.2)
  | unsent => exact Or.inl (congrArg Store.listingEvents h.2)
  | loadAll => exact Or.inl (congrArg Store.listingEvents h.2)

/-- No operation removes an event or takes a flag back. -/
theorem StoreOp.Does.events {op : StoreOp} {store store' : Store} {result : op.Result}
    (h : op.Does store result store') : ∀ event ∈ store.listingEvents,
      ∃ event' ∈ store'.listingEvents, event.MovesTo event' := by
  rcases h.listingEvents with hsame | ⟨eventKey, hflag⟩ | ⟨_, _, _, _, _, added, -, hadded⟩
  · rw [hsame]
    exact fun event hevent => ⟨event, hevent, .refl event⟩
  · rw [hflag]
    exact store.markListingSent_events eventKey
  · rw [hadded]
    exact fun event hevent => ⟨event, List.mem_append_left _ hevent, .refl event⟩

/-- A question of a call lets the tables grow. -/
theorem World.Serves.grows {world world' : World} {question : Await} {reply : question.Reply}
    (h : world.Serves question reply world') (hallows : callAllows question) :
    world.store.Grows world'.store := by
  cases question with
  | store op =>
      rcases h.does with ⟨exc, -, rfl⟩ | ⟨result, -, hdoes, -⟩
      · exact .refl _
      · refine ⟨?_, hdoes.events⟩
        rcases hdoes.outbox hallows with hsame | ⟨draft, -, hstore⟩
        · exact (Store.Advances.of_eq (congrArg Tables.outgoing hsame)).kept
        · rw [hstore]
          exact fun row hrow => ⟨row, List.mem_append_left _ hrow, .refl row⟩
  | _ =>
      rw [h.store_eq fun op => nofun]
      exact .refl _

/-- A question of a call keeps the tables consistent. -/
theorem World.Serves.consistent {world world' : World} {question : Await} {reply : question.Reply}
    (h : world.Serves question reply world') (hallows : ListingAllows world.store question)
    (hconsistent : world.store.Consistent) : world'.store.Consistent := by
  cases question with
  | store op =>
      rcases h.does with ⟨exc, -, rfl⟩ | ⟨result, -, hdoes, -⟩
      · exact hconsistent
      · have hsame (htables : world'.store.tables = world.store.tables)
            (hevents : world'.store.listingEvents = world.store.listingEvents) :
            world'.store.Consistent :=
          hconsistent.of_eq hevents (congrArg Tables.outgoing htables)
        cases op with
        | insertOutgoingNotification draft =>
            -- the row is inserted for an event that is recorded
            obtain ⟨event, hevent, hlists⟩ := hallows
            obtain ⟨hfresh, -, hstore⟩ := hdoes
            rw [hstore]
            exact hconsistent.insert hevent hlists hfresh
        | record eventKey category symbol eventType now =>
            have hdoes : ite _ _ _ := hdoes
            split at hdoes
            · rw [hdoes.2]
              exact hconsistent
            · rename_i hnew
              rw [hdoes.2]
              exact hconsistent.record (Bool.eq_false_iff.mpr hnew) hallows rfl
        | markSent eventKey =>
            obtain ⟨row, hrow, hsent, hkey⟩ := hallows
            rw [show world'.store = world.store.markListingSent eventKey from hdoes]
            exact hconsistent.flag ⟨row, hrow, hsent, hkey⟩
        | findNotificationByDedupe dedupeKey =>
            exact hsame (congrArg Store.tables hdoes.2) (congrArg Store.listingEvents hdoes.2)
        | unsent =>
            exact hsame (congrArg Store.tables hdoes.2) (congrArg Store.listingEvents hdoes.2)
        | loadAll =>
            exact hsame (congrArg Store.tables hdoes.2) (congrArg Store.listingEvents hdoes.2)
        | upsertMany instruments now =>
            have hstore : world'.store = world.store.upsertMany instruments now := hdoes
            rw [hstore] at hsame ⊢
            exact hsame (Store.upsertMany_tables _ _ _) (Store.upsertMany_listingEvents _ _ _)
        | markRemoved keys now =>
            have hstore : world'.store = world.store.markRemoved keys now := hdoes
            rw [hstore] at hsame ⊢
            exact hsame (Store.markRemoved_tables _ _ _) (Store.markRemoved_listingEvents _ _ _)
        | _ => cases hallows
  | _ =>
      rw [h.store_eq fun op => nofun]
      exact hconsistent

/-! ## What the calls ask -/

/-- The outbox has a row of the event. -/
def Store.HasRow (store : Store) (eventKey : String) : Prop :=
  ∃ row ∈ store.outgoing, row.dedupeKey = some (listingDedupeKey eventKey)

/-- The event is recorded. -/
def Store.HasEvent (store : Store) (eventKey : String) : Prop :=
  ∃ event ∈ store.listingEvents, event.eventKey = eventKey

theorem Store.HasRow.grows {store store' : Store} {eventKey : String} (h : store.HasRow eventKey)
    (hgrows : store.Grows store') : store'.HasRow eventKey := by
  obtain ⟨row, hrow, hkey⟩ := h
  obtain ⟨row', hrow', hmoves⟩ := hgrows.rows row hrow
  exact ⟨row', hrow', hmoves.notice.dedupeKey_eq.trans hkey⟩

theorem Store.HasEvent.grows {store store' : Store} {eventKey : String}
    (h : store.HasEvent eventKey) (hgrows : store.Grows store') : store'.HasEvent eventKey := by
  obtain ⟨event, hevent, hkey⟩ := h
  obtain ⟨event', hevent', hmoves⟩ := hgrows.events event hevent
  exact ⟨event', hevent', hmoves.eventKey_eq.trans hkey⟩

section Calls

open Program

variable {α : Type} {world : World} {tracker : ListingTracker}

/-- What grows with the tables is kept by a call. -/
theorem meets_frame {p : Coroutine α} {post : Except Raised α → World → Prop} (F : World → Prop)
    (h : p.Meets callProtocol world post) (hF : F world)
    (hgrows : ∀ world world' : World, world.store.Grows world'.store → F world → F world') :
    p.Meets callProtocol world fun outcome world' => post outcome world' ∧ F world' := by
  refine h.frame hF ?_
  -- the other tasks let the tables grow to `mid`, and the question lets `mid` grow
  rintro world question reply world' hallows ⟨mid, hmid, -, hserves⟩ hF
  have hown := hserves.grows (ListingAllows.callAllows hallows)
  exact hgrows world world' (hmid.trans hown) hF

theorem clock_meets {post : Except Raised ℤ → World → Prop}
    (hpost : ∀ now world', world.store.Grows world'.store → post (.ok now) world') :
    (Coroutine.ask .clock).Meets callProtocol world post := by
  refine ⟨trivial, ?_⟩
  -- the clock changes nothing, but the other tasks may
  rintro now world' ⟨mid, hmid, -, hserves⟩
  obtain rfl : world' = mid := hserves
  exact hpost now world' hmid

/-- A call that raised has returned nothing. -/
theorem elim_error {α : Type} {e : Raised} {p : Prop}
    (h : ∃ result : α, Except.error e = Except.ok result) : p := by
  obtain ⟨_, h⟩ := h
  cases h

/-- An operation of a call is done on later tables, or raises. -/
theorem store_meets {op : StoreOp} {post : Except Raised op.Result → World → Prop}
    (hallows : ListingAllows world.store (.store op))
    (herror : ∀ exc world', world.store.Grows world'.store → post (.error (.python exc)) world')
    (hok : ∀ (mid : World) result world', world.store.Grows mid.store → mid.store.Consistent →
      op.Does mid.store result world'.store → mid.store.Grows world'.store →
      post (.ok result) world') :
    (Coroutine.store op).Meets callProtocol world post := by
  refine Coroutine.meets_store.mpr ⟨hallows, ?_⟩
  rintro reply world' ⟨mid, hmid, hconsistent, hserves⟩
  have hown := hserves.grows (ListingAllows.callAllows hallows)
  rcases hserves.does with ⟨exc, rfl, rfl⟩ | ⟨result, rfl, hdoes, -⟩
  · exact herror exc _ hmid
  · exact hok mid result world' hmid hconsistent hdoes hown

/-- Whether the tracker enqueues, and looks into the outbox before. -/
def ListingTracker.Enqueues (self : ListingTracker) : Prop :=
  self.hasNotify = true ∧ self.hasOutbox = true ∧ self.config.listingNotificationsEnabled = true

/-- A recorded event is notified by a row, unless the tracker is silent. -/
theorem notify_meets {event : ListingEvent} (hevent : world.store.HasEvent event.eventKey) :
    (tracker.notify event).Meets callProtocol world fun outcome world' =>
      outcome = .ok () → tracker.Enqueues → event.eventType ≠ .delisted →
        world'.store.HasRow event.eventKey := by
  rw [ListingTracker.notify]
  -- a delisting is not notified, and a silent tracker does not enqueue
  split_ifs with hdelisted hsilent
  · exact fun _ _ hnot => absurd hdelisted hnot
  · rintro - ⟨hnotify, -, henabled⟩
    simp [hnotify, henabled] at hsilent
  · refine meets_bind.mpr (clock_meets fun now world₁ hgrows₁ => ?_)
    dsimp only
    cases formatListingAlert event now with
    | error exc =>
        intro h
        cases h
    | ok text =>
        refine Coroutine.meets_ok_bind.mpr (meets_bind.mpr (meets_bind.mpr ?_))
        refine clock_meets fun createdAt world₂ hgrows₂ => ?_
        obtain ⟨recorded, hrecorded, hkey⟩ := hevent.grows (hgrows₁.trans hgrows₂)
        refine store_meets ⟨recorded, hrecorded, rfl, congrArg some hkey.symm,
          congrArg (some ∘ listingDedupeKey) hkey.symm⟩ (fun _ _ _ h => by cases h) ?_
        rintro mid id world' - - ⟨-, -, hstore⟩ - - - -
        show world'.store.HasRow event.eventKey
        rw [hstore]
        exact ⟨_, List.mem_append_right _ (List.mem_singleton_self _), rfl⟩

theorem eventKeyFor_ne_empty (category : Option String) (symbol : String)
    (eventType : ListingEventType) : eventKeyFor category symbol eventType ≠ "" := by
  intro h
  have hlength := congrArg String.length h
  simp [eventKeyFor] at hlength

theorem recordAndNotify_meets (category : Option String) (symbol : String)
    (eventType : ListingEventType) (now : ℤ) :
    (tracker.recordAndNotify category symbol eventType now).Meets callProtocol world
      fun _ _ => True := by
  refine meets_bind.mpr (store_meets (eventKeyFor_ne_empty _ _ _) (fun _ _ _ => trivial) ?_)
  rintro mid recorded world' - - hdoes -
  cases recorded with
  | none => trivial
  | some recorded =>
      have hdoes : ite _ _ _ := hdoes
      split at hdoes
      · cases hdoes.1
      · -- the event that is notified was recorded just now
        obtain ⟨hrecorded, hstore⟩ := hdoes
        obtain rfl := Option.some.inj hrecorded
        refine meets_bind.mpr ((notify_meets ?_).mono fun outcome world'' _ => ?_)
        · rw [hstore]
          exact ⟨_, List.mem_append_right _ (List.mem_singleton_self _), rfl⟩
        · cases outcome <;> trivial

theorem handleRegistry_meets (result : DiscoveryResult) :
    (tracker.handleRegistry result).Meets callProtocol world fun _ _ => True := by
  refine meets_bind.mpr (clock_meets fun now world₁ _ => ?_)
  show (ite _ _ _ : Coroutine _).Meets _ _ _
  split
  · trivial
  · refine meets_gather (fun _ _ => True) (fun event rest world₂ _ => ?_)
      (fun _ _ _ => trivial) trivial
    rw [ListingTracker.handleEvent]
    split
    · trivial
    · refine (recordAndNotify_meets _ _ _ _).mono fun outcome _ _ => ?_
      cases outcome <;> trivial

theorem handleAnnouncements_meets (announcements : List (List String)) :
    (tracker.handleAnnouncements announcements).Meets callProtocol world fun _ _ => True := by
  refine meets_bind.mpr (clock_meets fun now world₁ _ => ?_)
  -- nothing is carried from one symbol to the next
  refine meets_gather (fun _ _ => True) (fun symbol rest world₂ _ => ?_)
    (fun _ _ _ => trivial) trivial
  refine (recordAndNotify_meets _ _ _ _).mono fun outcome _ _ => ?_
  cases outcome <;> trivial

/-- An event that is repaired has a row, unless the tracker is silent. -/
theorem repair_meets {event : ListingEvent} (hevent : world.store.HasEvent event.eventKey) :
    (tracker.repair event).Meets callProtocol world fun outcome world' =>
      (∃ repaired, outcome = .ok repaired) → tracker.Enqueues → event.eventType ≠ .delisted →
        world'.store.HasRow event.eventKey := by
  rw [ListingTracker.repair]
  split
  · refine meets_bind.mpr (store_meets rfl (fun _ _ _ h => elim_error h) ?_)
    rintro mid row world' hmid - ⟨hrow, hstore⟩ -
    -- the query leaves the tables, and no event is removed
    have hevent' : world'.store.HasEvent event.eventKey := by
      rw [hstore]
      exact hevent.grows hmid
    cases row with
    | none =>
        refine meets_bind.mpr ((notify_meets hevent').mono fun outcome world'' hend => ?_)
        cases outcome with
        | error e => exact fun h => elim_error h
        | ok _ => exact fun _ => hend rfl
    | some row =>
        -- the row that was found
        have hmem : row ∈ world'.store.outgoing := by
          rw [hstore]
          exact List.mem_of_find?_eq_some hrow.symm
        have hkey : row.dedupeKey = some (listingDedupeKey event.eventKey) := by
          simpa using List.find?_some hrow.symm
        have hfound : world'.store.HasRow event.eventKey := ⟨row, hmem, hkey⟩
        show (ite _ _ _ : Coroutine _).Meets _ _ _
        split
        · rename_i hsent
          refine meets_bind.mpr (store_meets ⟨row, hmem, hsent, hkey⟩
            (fun _ _ _ h => elim_error h) ?_)
          exact fun mid' _ world'' hmid' _ _ hown _ _ _ => hfound.grows (hmid'.trans hown)
        · exact fun _ _ _ => hfound
  · rename_i houtbox
    refine meets_bind.mpr ((notify_meets hevent).mono fun outcome world'' _ => ?_)
    cases outcome with
    | error e => exact fun h => elim_error h
    | ok _ => exact fun _ henqueues => absurd henqueues.2.1 houtbox

/-- The events that were recorded have their rows when `reconcile_unsent` returns, unless the
tracker is silent. -/
theorem reconcileUnsent_meets {keys : List String} (hkeys : ∀ key ∈ keys,
    ∃ event ∈ world.store.listingEvents, event.eventKey = key ∧ event.eventType ≠ .delisted) :
    tracker.reconcileUnsent.Meets callProtocol world fun outcome world' =>
      (∃ count, outcome = .ok count) → tracker.Enqueues →
        ∀ key ∈ keys, world'.store.HasRow key := by
  refine meets_bind.mpr (store_meets rfl (fun _ _ _ h => elim_error h) ?_)
  rintro mid events world₁ hmid hconsistent ⟨hevents, hstore⟩ -
  -- each key has its row, or its event is still to come
  let Recorded (rest : List ListingEvent) (world : World) : Prop :=
    ∀ event ∈ rest, world.store.HasEvent event.eventKey
  let Paired (rest : List ListingEvent) (world : World) : Prop :=
    tracker.Enqueues → ∀ key ∈ keys, world.store.HasRow key ∨
      ∃ event ∈ rest, event.eventKey = key ∧ event.eventType ≠ .delisted
  refine meets_bind.mpr (meets_gather (fun rest world => Recorded rest world ∧ Paired rest world)
    ?_ ?_ ?_)
  · -- one repair gives the event its row, and keeps the rows of the others
    rintro event rest world ⟨hrecorded, hrows⟩
    have hrest : Recorded rest world := fun other hother =>
      hrecorded other (List.mem_cons_of_mem _ hother)
    refine (meets_frame (fun world => Recorded rest world ∧ Paired (event :: rest) world)
      (repair_meets (hrecorded event List.mem_cons_self)) ⟨hrest, hrows⟩ ?_).mono
      fun outcome world' hend => ?_
    · rintro world world' hgrows ⟨hrest, hrows⟩
      refine ⟨fun other hother => (hrest other hother).grows hgrows, fun henqueues key hkey => ?_⟩
      exact (hrows henqueues key hkey).imp_left fun hrow => hrow.grows hgrows
    · obtain ⟨hrepaired, hrest, hrows⟩ := hend
      cases outcome with
      | error e => exact fun h => elim_error h
      | ok repaired =>
          refine ⟨hrest, fun henqueues key hkey => ?_⟩
          rcases hrows henqueues key hkey with hrow | ⟨other, hother, rfl, hlisted⟩
          · exact Or.inl hrow
          · rcases List.mem_cons.mp hother with rfl | hmem
            · exact Or.inl (hrepaired ⟨repaired, rfl⟩ henqueues hlisted)
            · exact Or.inr ⟨other, hmem, rfl, hlisted⟩
  · rintro repaired world ⟨-, hrows⟩ - henqueues key hkey
    rcases hrows henqueues key hkey with hrow | ⟨event, hevent, -⟩
    · exact hrow
    · cases hevent
  · refine ⟨fun event hevent => ?_, fun _ key hkey => ?_⟩
    · rw [hevents] at hevent
      rw [hstore]
      exact ⟨event, (List.mem_filter.mp hevent).1, rfl⟩
    · -- a flagged event has a row already
      obtain ⟨event, hevent, rfl, hlisted⟩ := hkeys key hkey
      obtain ⟨event', hevent', hmoves⟩ := hmid.events event hevent
      cases hflag : event'.telegramSent with
      | true =>
          obtain ⟨row, hrow, hlists⟩ := hconsistent.flagged event' hevent' hflag
          refine Or.inl ⟨row, hstore ▸ hrow, ?_⟩
          rw [hlists.dedupeKey_eq, hmoves.eventKey_eq]
      | false =>
          have hlisted' : event'.eventType ≠ .delisted := hmoves.eventType_eq ▸ hlisted
          refine Or.inr ⟨event', ?_, hmoves.eventKey_eq, hlisted'⟩
          rw [hevents]
          exact List.mem_filter.mpr ⟨hevent', by simp [hflag, hlisted']⟩

theorem reconcile_meets (fetched : List Instrument) (now : ℤ) :
    (InstrumentRegistry.reconcile fetched now).Meets callProtocol world fun _ _ => True := by
  refine meets_bind.mpr (store_meets rfl (fun _ _ _ => trivial) fun _ current _ _ _ _ _ => ?_)
  refine meets_bind.mpr (store_meets rfl (fun _ _ _ => trivial) fun _ _ _ _ _ _ _ => ?_)
  exact meets_bind.mpr (store_meets rfl (fun _ _ _ => trivial) fun _ _ _ _ _ _ _ => trivial)

theorem discoverOnce_meets (fetched : Except PyExc (List Instrument)) :
    (discoverOnce tracker fetched).Meets callProtocol world fun _ _ => True := by
  refine meets_bind.mpr (clock_meets fun now world₁ _ => ?_)
  dsimp only
  cases fetched with
  | error exc => trivial
  | ok fetched =>
      refine Coroutine.meets_ok_bind.mpr (meets_bind.mpr ?_)
      refine (reconcile_meets fetched now).mono fun outcome world₂ _ => ?_
      cases outcome with
      | error e => trivial
      | ok result =>
          refine meets_bind.mpr ((handleRegistry_meets result).mono fun outcome _ _ => ?_)
          cases outcome <;> trivial

/-- Whether a call enqueues a notification of its own. -/
def EntryPoint.isEnqueue : EntryPoint → Bool
  | enqueue .. => true
  | _ => false

/-- Every listing call keeps to its protocol. -/
theorem EntryPoint.meets {entry : EntryPoint} (hentry : entry.isEnqueue = false) :
    (entry.coroutine tracker).Meets callProtocol world fun _ _ => True := by
  have hend {α : Type} {p : Coroutine α} {post : Except Raised α → World → Prop}
      (h : p.Meets callProtocol world post) :
      (do let _ ← p : Coroutine Unit).Meets callProtocol world fun _ _ => True := by
    refine meets_bind.mpr (h.mono fun outcome _ _ => ?_)
    cases outcome <;> trivial
  cases entry with
  | handleRegistry result => exact hend (handleRegistry_meets result)
  | handleAnnouncements announcements => exact hend (handleAnnouncements_meets announcements)
  | reconcileUnsent => exact hend (@reconcileUnsent_meets world tracker [] (by simp))
  | discoverOnce fetched => exact hend (discoverOnce_meets fetched)
  | enqueue => cases hentry

end Calls

/-! ## The invariant -/

/-- The tables are consistent, and each call in progress keeps to its protocol and ends as stated
for its number. -/
structure ListingInvariant (post : ℕ → Except Raised Unit → World → Prop) (s : Application) :
    Prop where
  consistent : s.store.Consistent
  calls : ∀ call ∈ s.calls, call.2.Meets callProtocol s.world (post call.1)

/-- A step that begins a direct call of `enqueue`. -/
def AppEvent.isEnqueue : AppEvent → Bool
  | .began _ entry => entry.isEnqueue
  | _ => false

/-- Over one step rows and events are kept. -/
theorem AppStep.grows {events : List AppEvent} {event : AppEvent} {s s' : Application}
    (hs : OutboxInvariant events s) (h : AppStep s event s') : s.store.Grows s'.store := by
  refine ⟨(hs.step h).2.kept, ?_⟩
  -- the events change with the operations of the database only
  have hserves {question : Await} {reply : question.Reply} {world' : World}
      (h : s.world.Serves question reply world') : ∀ event ∈ s.store.listingEvents,
        ∃ event' ∈ world'.store.listingEvents, event.MovesTo event' := by
    cases question with
    | store op =>
        rcases h.does with ⟨exc, -, rfl⟩ | ⟨result, -, hdoes, -⟩
        · exact fun event hevent => ⟨event, hevent, .refl event⟩
        · exact hdoes.events
    | _ =>
        rw [h.store_eq fun op => nofun]
        exact fun event hevent => ⟨event, hevent, .refl event⟩
  cases h with
  | workerAsked _ h => exact hserves h
  | callAsked _ h => exact hserves h
  | _ => exact fun event hevent => ⟨event, hevent, .refl event⟩

theorem alertKey_ne_listing (config : AdmittedSettings) (kind : AlertKind)
    (fingerprint : List String) (now : ℤ) (eventKey : String) :
    alertKey config kind fingerprint now ≠ listingDedupeKey eventKey := by
  intro h
  -- the keys differ in their first field
  cases kind with
  | transition => exact absurd (field_inj (by decide) (by decide) h).1 (by decide)
  | hourly => exact absurd (field_inj (by decide) (by decide) h).1 (by decide)
  | composition => exact absurd (field_inj (by decide) (by decide) h).1 (by decide)

namespace ListingInvariant

variable {events : List AppEvent} {event : AppEvent} {s s' : Application}
  {post : ℕ → Except Raised Unit → World → Prop}

/-- An alert cycle adds no row of a listing. -/
theorem cycled (hs : OutboxInvariant events s) (hconsistent : s.store.Consistent) {call : Call}
    {reply : Reply} {s₁ : ServiceState}
    (hcycle : ServiceStep s.serviceState (.process call, reply) s₁) :
    (s.withService s₁).store.Consistent := by
  cases hcycle.move hs.service with
  | @committed call decision state alert tables' fed hplan hcommits =>
      -- a committed cycle appends its alert, whose key is none of a listing
      refine hconsistent.append rfl hcommits.outgoing_eq fun row hrow hlisting => ?_
      obtain ⟨a, ha, rfl⟩ := List.mem_map.mp hrow
      rcases hlisting with horigin | ⟨eventKey, hkey⟩
      · cases horigin
      · have hplanned := hs.service.planned hplan
        have heq : a.key = listingDedupeKey eventKey := Option.some.inj hkey
        rw [hplanned.key_eq a (Option.mem_toList.mp ha)] at heq
        exact alertKey_ne_listing _ _ _ _ _ heq
  | _ => exact hconsistent.of_eq rfl rfl

/-- The worker books the row of an event together with the event. -/
theorem workerAsked (hs : OutboxInvariant events s) (hconsistent : s.store.Consistent)
    {question : Await} {next : question.Reply → Coroutine Unit} {reply : question.Reply}
    {world' : World} (hworker : s.worker = some (Program.ask question next))
    (hserves : s.world.Serves question reply world') : world'.store.Consistent := by
  obtain ⟨hmeets, hlinked⟩ := hs.worker _ hworker
  cases question with
  | store op =>
      have hoperates := WorkerStage.operates_of_allows hmeets.1
      rcases hserves.does with ⟨exc, -, rfl⟩ | ⟨result, -, hdoes, -⟩
      · exact hconsistent
      · generalize WorkerStage.of events = stage at hoperates hlinked
        -- the row of the outbox that the row of the batch stands for
        have hcurrent {row : OutgoingNotification} {rest : List OutgoingNotification}
            (hrows : stage.rows = row :: rest) : ∃ current ∈ s.store.outgoing,
              row.SameNotice current ∧ ∀ other ∈ s.store.outgoing, other.id = row.id →
                other = current ∧ current.status ≠ .sent := by
          obtain ⟨current, hmem, hsame, hopen⟩ := hlinked.current row (hrows ▸ List.mem_cons_self)
          refine ⟨current, hmem, hsame, fun other hother hid => ⟨?_, fun hsent => ?_⟩⟩
          · exact hs.eq_current hmem hother (hid.trans hsame.id_eq.symm)
          · rw [hsent] at hopen
            cases hopen
        cases hoperates with
        | @expire alertMaxAge listingMaxAge now halert hlisting =>
            have hstore : world'.store =
              s.store.expireNotifications alertMaxAge listingMaxAge now := hdoes
            rw [hstore]
            refine hconsistent.map_rows rfl rfl (fun row => ?_) fun row _ _ => ?_
            · split
              · exact ⟨rfl, rfl, rfl, rfl, rfl, rfl, rfl⟩
              · exact .refl row
            · split
              · rename_i hexpires
                refine iff_of_false (by simp) fun hsent => ?_
                have hopen := (Bool.and_eq_true_iff.mp hexpires).1
                rw [hsent] at hopen
                cases hopen
              · exact Iff.rfl
        | query =>
            rw [hdoes.2]
            exact hconsistent
        | @confirm row rest now hkey =>
            obtain ⟨current, -, hsame, hunique⟩ := hcurrent rfl
            have hstore : world'.store = s.store.markNotificationSent row.id now := hdoes
            rw [hstore]
            refine hconsistent.map_rows rfl rfl (fun other => ?_) fun other hother hlisting => ?_
            · split
              · exact ⟨rfl, rfl, rfl, rfl, rfl, rfl, rfl⟩
              · exact .refl other
            · split
              · -- the row of an event has a key to confirm
                rename_i hid
                obtain ⟨event, hevent, hlists⟩ := hconsistent.rows other hother hlisting
                obtain ⟨rfl, -⟩ := hunique other hother hid
                have hother' := hlists.listingKey (hconsistent.nonempty event hevent)
                rw [OutgoingNotification.listingKey, hsame.originType_eq, hsame.originKey_eq]
                  at hother'
                rw [OutgoingNotification.listingKey, hother'] at hkey
                cases hkey
              · exact Iff.rfl
        | @confirmListing row rest eventKey now hkey =>
            obtain ⟨current, hmem, hsame, -⟩ := hcurrent rfl
            have hstore : world'.store =
              (s.store.markNotificationSent row.id now).markListingSent eventKey := hdoes
            rw [hstore, ← hsame.id_eq]
            refine hconsistent.confirm hs.service.wellKeyed now hmem ?_
            rw [OutgoingNotification.listingKey, hsame.originType_eq, hsame.originKey_eq]
            exact hkey
        | @bury row accepted rest error =>
            obtain ⟨current, -, -, hunique⟩ := hcurrent rfl
            have hstore : world'.store = s.store.markNotificationDead row.id error := hdoes
            rw [hstore]
            refine hconsistent.update (fun _ => ⟨rfl, rfl, rfl, rfl, rfl, rfl, rfl⟩)
              (fun other hother hid => ?_) (fun _ => by simp)
            obtain ⟨rfl, hunsent⟩ := hunique other hother hid
            exact hunsent
        | @reschedule row accepted rest error nextAttemptAt now =>
            obtain ⟨current, -, -, hunique⟩ := hcurrent rfl
            have hstore : world'.store =
              s.store.markNotificationRetry row.id error nextAttemptAt now := hdoes
            rw [hstore]
            refine hconsistent.update (fun _ => ⟨rfl, rfl, rfl, rfl, rfl, rfl, rfl⟩)
              (fun other hother hid => ?_) (fun _ => by simp)
            obtain ⟨rfl, hunsent⟩ := hunique other hother hid
            exact hunsent
  | _ =>
      rw [hserves.store_eq fun op h => by cases h]
      exact hconsistent

/-- What a call keeps to, it keeps to after another step. -/
theorem call_grows {world world' : World} {p : Coroutine Unit}
    {post : Except Raised Unit → World → Prop}
    (hstable : ∀ outcome a b, post outcome a → a.store.Grows b.store → post outcome b)
    (h : p.Meets callProtocol world post) (hgrows : world.store.Grows world'.store) :
    p.Meets callProtocol world' post :=
  h.interleave hgrows (fun _ _ _ => Store.Grows.trans) (fun _ _ _ => ListingAllows.grows) hstable

/-- One step keeps the invariant, for ends that stay true and that new calls have anyway. -/
theorem step (hs : OutboxInvariant events s) (h : ListingInvariant post s)
    (hstep : AppStep s event s') (hevent : event.isEnqueue = false)
    (hstable : ∀ number outcome a b, post number outcome a → a.store.Grows b.store →
      post number outcome b)
    (hnew : ∀ outcome world, post (s.begun + 1) outcome world) : ListingInvariant post s' := by
  have hgrows := hstep.grows hs
  have hcalls (call : ℕ × Coroutine Unit) (hcall : call ∈ s.calls) :
      call.2.Meets callProtocol s'.world (post call.1) :=
    call_grows (hstable call.1) (h.calls call hcall) hgrows
  cases hstep with
  | restarted config => exact ⟨h.consistent, fun call hcall => nomatch hcall⟩
  | cycled hcycle => exact ⟨cycled hs h.consistent hcycle, hcalls⟩
  | began entry =>
      refine ⟨h.consistent, fun call hcall => ?_⟩
      rcases List.mem_append.mp hcall with hold | hadded
      · exact hcalls call hold
      · rw [List.mem_singleton.mp hadded]
        exact (EntryPoint.meets hevent).mono fun outcome world _ => hnew outcome world
  | workerAsked hworker hserves => exact ⟨workerAsked hs h.consistent hworker hserves, hcalls⟩
  | @callAsked number before rest question next reply world' heq hserves =>
      have hmeets := h.calls _ (heq ▸ List.mem_append_cons_self)
      -- the call that is served goes on with its reply, the others with a later world
      refine ⟨hserves.consistent hmeets.1 h.consistent, fun call hcall => ?_⟩
      rcases mem_middle.mp hcall with rfl | hother
      · exact hmeets.reply (.refl _) ⟨h.consistent, hserves⟩
      · exact hcalls call (heq ▸ mem_middle.mpr (Or.inr hother))
  | callEnded heq =>
      refine ⟨h.consistent, fun call hcall => h.calls call ?_⟩
      exact heq ▸ mem_middle.mpr (Or.inr hcall)
  | looped hworker => exact ⟨h.consistent, h.calls⟩
  | stopRequested => exact ⟨h.consistent, hcalls⟩

end ListingInvariant

end BybitMonitor
