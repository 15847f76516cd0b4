import Mathlib
import BybitMonitor.Market.Listing
import BybitMonitor.Persistence.Outbox

/-!
# The listing events and the outbox

A listing event and its row of the outbox are written by different modules. They agree in every
committed state: a row of a listing belongs to a recorded event, and it is sent exactly if the event
is flagged.

* `Store.Consistent`: what holds of the two tables.
* `Store.Grows`: no row and no event is removed, and flags are not taken back.
-/

namespace BybitMonitor

/-- The row is that of a listing event. -/
structure OutgoingNotification.Lists (row : OutgoingNotification) (event : ListingEvent) :
    Prop where
  originType_eq : row.originType = some "listing"
  originKey_eq : row.originKey = some event.eventKey
  dedupeKey_eq : row.dedupeKey = some (listingDedupeKey event.eventKey)

/-- A notification of the listing event with a key. -/
structure Draft.Lists (draft : Draft) (eventKey : String) : Prop where
  originType_eq : draft.originType = some "listing"
  originKey_eq : draft.originKey = some eventKey
  dedupeKey_eq : draft.dedupeKey = some (listingDedupeKey eventKey)

/-- The row has the origin or the key of a listing. -/
def OutgoingNotification.IsListing (row : OutgoingNotification) : Prop :=
  row.originType = some "listing" ∨ ∃ eventKey, row.dedupeKey = some (listingDedupeKey eventKey)

/-- The listing events agree with the outbox. -/
structure Store.Consistent (store : Store) : Prop where
  rows : ∀ row ∈ store.outgoing, row.IsListing → ∃ event ∈ store.listingEvents, row.Lists event
  sent : ∀ row ∈ store.outgoing, ∀ event ∈ store.listingEvents, row.Lists event →
    (row.status = .sent ↔ event.telegramSent = true)
  flagged : ∀ event ∈ store.listingEvents, event.telegramSent = true →
    ∃ row ∈ store.outgoing, row.Lists event
  keys : (store.listingEvents.map ListingEvent.eventKey).Nodup
  nonempty : ∀ event ∈ store.listingEvents, event.eventKey ≠ ""

/-- An event as a later event: it stays, but for its flag, which may be set. -/
structure ListingEvent.MovesTo (event event' : ListingEvent) : Prop where
  eventKey_eq : event'.eventKey = event.eventKey
  eventType_eq : event'.eventType = event.eventType
  flag : event.telegramSent = true → event'.telegramSent = true

/-- A later database: rows and events are kept. -/
structure Store.Grows (store store' : Store) : Prop where
  rows : ∀ row ∈ store.outgoing, ∃ row' ∈ store'.outgoing, row.MovesTo row'
  events : ∀ event ∈ store.listingEvents, ∃ event' ∈ store'.listingEvents, event.MovesTo event'

theorem listingDedupeKey_injective {eventKey eventKey' : String}
    (h : listingDedupeKey eventKey = listingDedupeKey eventKey') : eventKey = eventKey' := by
  refine String.toList_inj.mp ?_
  have htext := congrArg String.toList h
  simp only [listingDedupeKey, String.toList_append] at htext
  exact List.append_cancel_left htext

namespace OutgoingNotification

variable {row row' : OutgoingNotification} {event event' : ListingEvent}

theorem Lists.isListing (h : row.Lists event) : row.IsListing := Or.inl h.originType_eq

theorem Lists.eventKey_eq (h : row.Lists event) (h' : row.Lists event') :
    event'.eventKey = event.eventKey :=
  Option.some.inj (h'.originKey_eq.symm.trans h.originKey_eq)

theorem SameNotice.lists (h : row.SameNotice row') (hkey : event'.eventKey = event.eventKey) :
    row'.Lists event' ↔ row.Lists event := by
  constructor
  · rintro ⟨horigin, horiginKey, hdedupe⟩
    rw [h.originType_eq] at horigin
    rw [h.originKey_eq, hkey] at horiginKey
    rw [h.dedupeKey_eq, hkey] at hdedupe
    exact ⟨horigin, horiginKey, hdedupe⟩
  · rintro ⟨horigin, horiginKey, hdedupe⟩
    refine ⟨h.originType_eq.trans horigin, ?_, ?_⟩
    · rw [h.originKey_eq, hkey, horiginKey]
    · rw [h.dedupeKey_eq, hkey, hdedupe]

theorem SameNotice.isListing (h : row.SameNotice row') : row'.IsListing ↔ row.IsListing := by
  rw [IsListing, IsListing, h.originType_eq, h.dedupeKey_eq]

/-- The row of a listing event confirms it. -/
theorem Lists.listingKey (h : row.Lists event) (hnonempty : event.eventKey ≠ "") :
    row.listingKey = some event.eventKey := by
  rw [OutgoingNotification.listingKey, if_pos h.originType_eq, h.originKey_eq]
  simp [hnonempty]

end OutgoingNotification

namespace ListingEvent

variable {event event' event'' : ListingEvent}

theorem MovesTo.refl (event : ListingEvent) : event.MovesTo event := ⟨rfl, rfl, id⟩

theorem MovesTo.trans (h : event.MovesTo event') (h' : event'.MovesTo event'') :
    event.MovesTo event'' :=
  ⟨h'.eventKey_eq.trans h.eventKey_eq, h'.eventType_eq.trans h.eventType_eq,
    fun hflag => h'.flag (h.flag hflag)⟩

end ListingEvent

namespace Store

variable {store store' store'' : Store}

theorem Grows.refl (store : Store) : store.Grows store :=
  ⟨fun row hrow => ⟨row, hrow, .refl row⟩, fun event hevent => ⟨event, hevent, .refl event⟩⟩

theorem Grows.trans (h : store.Grows store') (h' : store'.Grows store'') : store.Grows store'' := by
  constructor
  · intro row hrow
    obtain ⟨row', hrow', hmoves⟩ := h.rows row hrow
    obtain ⟨row'', hrow'', hmoves'⟩ := h'.rows row' hrow'
    exact ⟨row'', hrow'', hmoves.trans hmoves'⟩
  · intro event hevent
    obtain ⟨event', hevent', hmoves⟩ := h.events event hevent
    obtain ⟨event'', hevent'', hmoves'⟩ := h'.events event' hevent'
    exact ⟨event'', hevent'', hmoves.trans hmoves'⟩

/-- Events that are equal by key are equal. -/
theorem Consistent.event_unique (h : store.Consistent) {event event' : ListingEvent}
    (hevent : event ∈ store.listingEvents) (hevent' : event' ∈ store.listingEvents)
    (hkey : event'.eventKey = event.eventKey) : event' = event :=
  List.inj_on_of_nodup_map h.keys hevent' hevent hkey

/-- An update of rows that books none of a listing. -/
theorem Consistent.map_rows (h : store.Consistent) {f : OutgoingNotification → OutgoingNotification}
    (hevents : store'.listingEvents = store.listingEvents)
    (hrows : store'.outgoing = (store.mapOutgoing f).outgoing)
    (hnotice : ∀ row : OutgoingNotification, row.SameNotice (f row))
    (hsent : ∀ row ∈ store.outgoing, row.IsListing →
      ((f row).status = .sent ↔ row.status = .sent)) : store'.Consistent := by
  have hmem {row' : OutgoingNotification} :
      row' ∈ store'.outgoing ↔ ∃ row ∈ store.outgoing, f row = row' := by
    rw [hrows]
    exact mem_mapOutgoing
  refine ⟨fun row' hrow' hlisting => ?_, fun row' hrow' event hevent hlists => ?_,
    fun event hevent hflag => ?_, hevents ▸ h.keys, hevents ▸ h.nonempty⟩
  · obtain ⟨row, hrow, rfl⟩ := hmem.mp hrow'
    obtain ⟨event, hevent, hlists⟩ := h.rows row hrow ((hnotice row).isListing.mp hlisting)
    exact ⟨event, hevents ▸ hevent, ((hnotice row).lists rfl).mpr hlists⟩
  · obtain ⟨row, hrow, rfl⟩ := hmem.mp hrow'
    have hold := ((hnotice row).lists rfl).mp hlists
    exact (hsent row hrow hold.isListing).trans (h.sent row hrow event (hevents ▸ hevent) hold)
  · obtain ⟨row, hrow, hlists⟩ := h.flagged event (hevents ▸ hevent) hflag
    exact ⟨f row, hmem.mpr ⟨row, hrow, rfl⟩, ((hnotice row).lists rfl).mpr hlists⟩

/-- An update of one row that is open before and not sent after. -/
theorem Consistent.update (h : store.Consistent) {id : ℕ}
    {f : OutgoingNotification → OutgoingNotification}
    (hnotice : ∀ row : OutgoingNotification, row.SameNotice (f row))
    (hunsent : ∀ row ∈ store.outgoing, row.id = id → row.status ≠ .sent)
    (hsent : ∀ row, (f row).status ≠ .sent) : (store.updateOutgoing id f).Consistent := by
  refine h.map_rows rfl rfl (fun row => ?_) fun row hrow _ => ?_
  · split
    · exact hnotice row
    · exact .refl row
  · split
    · rename_i hid
      exact iff_of_false (hsent row) (hunsent row hrow hid)
    · exact Iff.rfl

/-- A new row of another origin. -/
theorem Consistent.append (h : store.Consistent) {added : List OutgoingNotification}
    (hevents : store'.listingEvents = store.listingEvents)
    (hrows : store'.outgoing = store.outgoing ++ added)
    (hadded : ∀ row ∈ added, ¬ row.IsListing) : store'.Consistent := by
  have hmem {row : OutgoingNotification} (hrow : row ∈ store'.outgoing) (hlisting : row.IsListing) :
      row ∈ store.outgoing := by
    rw [hrows] at hrow
    exact (List.mem_append.mp hrow).resolve_right fun hnew => hadded row hnew hlisting
  refine ⟨fun row hrow hlisting => ?_, fun row hrow event hevent hlists => ?_,
    fun event hevent hflag => ?_, hevents ▸ h.keys, hevents ▸ h.nonempty⟩
  · rw [hevents]
    exact h.rows row (hmem hrow hlisting) hlisting
  · exact h.sent row (hmem hrow hlists.isListing) event (hevents ▸ hevent) hlists
  · obtain ⟨row, hrow, hlists⟩ := h.flagged event (hevents ▸ hevent) hflag
    exact ⟨row, hrows ▸ List.mem_append_left _ hrow, hlists⟩

/-- The same rows and events. -/
theorem Consistent.of_eq (h : store.Consistent)
    (hevents : store'.listingEvents = store.listingEvents)
    (hrows : store'.outgoing = store.outgoing) : store'.Consistent :=
  h.append hevents (hrows.trans (List.append_nil _).symm) (by simp)

/-- The new row of a recorded event. -/
theorem Consistent.insert (h : store.Consistent) {draft : Draft} {event : ListingEvent}
    (hevent : event ∈ store.listingEvents) (hlists : draft.Lists event.eventKey)
    (hfresh : store.tables.violatesDedupe draft.dedupeKey = false) :
    (store.insertOutgoing draft).Consistent := by
  have hnew : (store.tables.newRow draft.messageTag draft.message draft.createdAt draft.dedupeKey
      draft.originType draft.originKey).Lists event :=
    ⟨hlists.originType_eq, hlists.originKey_eq, hlists.dedupeKey_eq⟩
  -- the index has no row of the event yet, so that it is not flagged
  have hunflagged : event.telegramSent = false := by
    refine Bool.eq_false_iff.mpr fun hflag => ?_
    obtain ⟨row, hrow, hold⟩ := h.flagged event hevent hflag
    rw [hlists.dedupeKey_eq] at hfresh
    refine Bool.eq_false_iff.mp hfresh (Tables.violatesDedupe_some_iff.mpr ?_)
    exact List.mem_filterMap.mpr ⟨row, hrow, hold.dedupeKey_eq⟩
  refine ⟨fun row hrow hlisting => ?_, fun row hrow other hother hold => ?_,
    fun other hother hflag => ?_, h.keys, h.nonempty⟩
  · rcases List.mem_append.mp hrow with hold | hadded
    · exact h.rows row hold hlisting
    · rw [List.mem_singleton.mp hadded]
      exact ⟨event, hevent, hnew⟩
  · rcases List.mem_append.mp hrow with hwas | hadded
    · exact h.sent row hwas other hother hold
    · rw [List.mem_singleton.mp hadded] at hold ⊢
      obtain rfl := h.event_unique hevent hother (hnew.eventKey_eq hold)
      refine iff_of_false (by simp [Tables.newRow]) ?_
      rw [hunflagged]
      exact Bool.false_ne_true
  · obtain ⟨row, hrow, hold⟩ := h.flagged other hother hflag
    exact ⟨row, List.mem_append_left _ hrow, hold⟩

/-- A new event. -/
theorem Consistent.record (h : store.Consistent) {event : ListingEvent}
    (hfresh : store.hasListing event.eventKey = false) (hnonempty : event.eventKey ≠ "")
    (hunflagged : event.telegramSent = false) : (store.addListing event).Consistent := by
  have hne : ∀ other ∈ store.listingEvents, other.eventKey ≠ event.eventKey := by
    simpa [hasListing] using hfresh
  refine ⟨fun row hrow hlisting => ?_, fun row hrow other hother hlists => ?_,
    fun other hother hflag => ?_, ?_, fun other hother => ?_⟩
  · obtain ⟨other, hother, hlists⟩ := h.rows row hrow hlisting
    exact ⟨other, List.mem_append_left _ hother, hlists⟩
  · rcases List.mem_append.mp hother with hold | hnew
    · exact h.sent row hrow other hold hlists
    · -- a row of the new event would belong to an event that was there
      rw [List.mem_singleton.mp hnew] at hlists
      obtain ⟨old, hold, hlists'⟩ := h.rows row hrow hlists.isListing
      exact absurd (hlists.eventKey_eq hlists') (hne old hold)
  · rcases List.mem_append.mp hother with hold | hnew
    · exact h.flagged other hold hflag
    · rw [List.mem_singleton.mp hnew, hunflagged] at hflag
      cases hflag
  · show ((store.listingEvents ++ [event]).map ListingEvent.eventKey).Nodup
    rw [List.map_append]
    refine List.nodup_append.mpr ⟨h.keys, List.nodup_singleton _, ?_⟩
    rintro key hkey new hnew rfl
    obtain ⟨old, hold, heq⟩ := List.mem_map.mp hkey
    exact hne old hold (heq.trans (List.mem_singleton.mp hnew))
  · rcases List.mem_append.mp hother with hold | hnew
    · exact h.nonempty other hold
    · rw [List.mem_singleton.mp hnew]
      exact hnonempty

/-- The flag of an event is set whose row is sent. -/
theorem Consistent.flag (h : store.Consistent) {eventKey : String}
    (hsent : ∃ row ∈ store.outgoing, row.status = .sent ∧
      row.dedupeKey = some (listingDedupeKey eventKey)) :
    (store.markListingSent eventKey).Consistent := by
  obtain ⟨row, hrow, hstatus, hkey⟩ := hsent
  obtain ⟨event, hevent, hlists⟩ := h.rows row hrow (Or.inr ⟨eventKey, hkey⟩)
  obtain rfl : event.eventKey = eventKey :=
    listingDedupeKey_injective (Option.some.inj (hlists.dedupeKey_eq.symm.trans hkey))
  -- the event is flagged already
  have hflag := (h.sent row hrow event hevent hlists).mp hstatus
  have hsame : store.markListingSent event.eventKey = store := by
    have hmap : store.listingEvents.map (fun other =>
        if other.eventKey = event.eventKey then { other with telegramSent := true } else other) =
        store.listingEvents := by
      refine (List.map_congr_left fun other hother => ?_).trans (List.map_id _)
      split
      · rename_i heq
        obtain rfl := h.event_unique hevent hother heq
        rw [id, ← hflag]
      · rfl
    rw [markListingSent, updateListing, hmap]
  rw [hsame]
  exact h

/-- The row of an event and its flag are confirmed at once. -/
theorem Consistent.confirm (h : store.Consistent) (hkeyed : store.tables.WellKeyed)
    {row : OutgoingNotification} {eventKey : String} (now : ℤ) (hrow : row ∈ store.outgoing)
    (hkey : row.listingKey = some eventKey) :
    ((store.markNotificationSent row.id now).markListingSent eventKey).Consistent := by
  have horigin : row.originType = some "listing" := by
    by_contra hother
    rw [OutgoingNotification.listingKey, if_neg hother] at hkey
    cases hkey
  obtain ⟨event, hevent, hlists⟩ := h.rows row hrow (Or.inl horigin)
  obtain rfl : event.eventKey = eventKey :=
    Option.some.inj ((hlists.listingKey (h.nonempty event hevent)).symm.trans hkey)
  have hrows {row' : OutgoingNotification} :
      row' ∈ ((store.markNotificationSent row.id now).markListingSent event.eventKey).outgoing ↔
        ∃ old ∈ store.outgoing, (if old.id = row.id then
          { old with status := .sent, sentAt := some now } else old) = row' := mem_mapOutgoing
  have hevents {event' : ListingEvent} :
      event' ∈ ((store.markNotificationSent row.id now).markListingSent
          event.eventKey).listingEvents ↔
        ∃ old ∈ store.listingEvents, (if old.eventKey = event.eventKey then
          { old with telegramSent := true } else old) = event' := List.mem_map
  have hnotice (old : OutgoingNotification) : old.SameNotice (if old.id = row.id then
      { old with status := .sent, sentAt := some now } else old) := by
    split
    · exact ⟨rfl, rfl, rfl, rfl, rfl, rfl, rfl⟩
    · exact .refl old
  have heventKey (old : ListingEvent) : (if old.eventKey = event.eventKey then
      { old with telegramSent := true } else old).eventKey = old.eventKey := by
    split <;> rfl
  refine ⟨fun row' hrow' hlisting => ?_, fun row' hrow' event' hevent' hlists' => ?_,
    fun event' hevent' hflag => ?_, ?_, fun event' hevent' => ?_⟩
  · obtain ⟨old, hold, rfl⟩ := hrows.mp hrow'
    obtain ⟨other, hother, hlists'⟩ := h.rows old hold ((hnotice old).isListing.mp hlisting)
    exact ⟨_, hevents.mpr ⟨other, hother, rfl⟩, ((hnotice old).lists (heventKey other)).mpr hlists'⟩
  · obtain ⟨old, hold, rfl⟩ := hrows.mp hrow'
    obtain ⟨other, hother, rfl⟩ := hevents.mp hevent'
    have hwas := ((hnotice old).lists (heventKey other)).mp hlists'
    by_cases hid : old.id = row.id
    · -- the confirmed row, whose event is the flagged one
      obtain rfl := List.inj_on_of_nodup_map hkeyed.ids_nodup hold hrow hid
      rw [if_pos rfl, if_pos (hlists.eventKey_eq hwas)]
      exact iff_of_true rfl rfl
    · have hother' : other.eventKey ≠ event.eventKey := by
        intro heq
        refine hid (congrArg OutgoingNotification.id ?_)
        exact hkeyed.row_unique hold hrow (heq ▸ hwas.dedupeKey_eq) hlists.dedupeKey_eq
      rw [if_neg hid, if_neg hother']
      exact h.sent old hold other hother hwas
  · obtain ⟨other, hother, rfl⟩ := hevents.mp hevent'
    by_cases heq : other.eventKey = event.eventKey
    · refine ⟨_, hrows.mpr ⟨row, hrow, rfl⟩, ((hnotice row).lists ?_).mpr hlists⟩
      rw [heventKey, heq]
    · rw [if_neg heq] at hflag
      obtain ⟨old, hold, hlists'⟩ := h.flagged other hother hflag
      exact ⟨_, hrows.mpr ⟨old, hold, rfl⟩, ((hnotice old).lists (heventKey other)).mpr hlists'⟩
  · have hkeys : ((store.markNotificationSent row.id now).markListingSent
        event.eventKey).listingEvents.map ListingEvent.eventKey =
        store.listingEvents.map ListingEvent.eventKey := by
      show (store.listingEvents.map _).map _ = _
      rw [List.map_map]
      exact List.map_congr_left fun other _ => heventKey other
    rw [hkeys]
    exact h.keys
  · obtain ⟨other, hother, rfl⟩ := hevents.mp hevent'
    rw [heventKey]
    exact h.nonempty other hother

end Store

end BybitMonitor
