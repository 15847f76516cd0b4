import Mathlib
import BybitMonitor.Application

/-!
# The instrument registry

What the two transactions of `InstrumentRegistry.reconcile` make of the rows of the registry, and
the events that it returns.

* `Store.rowOf_reconciled`: the row of a market after a reconciliation.
* `InstrumentRegistry.mem_events`: the events of a reconciliation.
* `registry_reconciled`: both, over a call that succeeds, and over a second one.
-/

namespace BybitMonitor

/-! ## The rows -/

/-- The last entry of a market in a fetch. -/
def lastEntry (fetched : List Instrument) (identity : String × String) : Option Instrument :=
  (fetched.filter fun instrument => instrument.identity = identity).getLast?

theorem lastEntry_eq_none_iff {fetched : List Instrument} {identity : String × String} :
    lastEntry fetched identity = none ↔ ∀ entry ∈ fetched, entry.identity ≠ identity := by
  simp [lastEntry]

theorem lastEntry_mem {fetched : List Instrument} {identity : String × String} {entry : Instrument}
    (h : lastEntry fetched identity = some entry) :
    entry ∈ fetched ∧ entry.identity = identity := by
  simpa using List.mem_filter.mp (List.mem_of_getLast? h)

/-- In a fetch without duplicates, every entry is the last one of its market. -/
theorem lastEntry_of_nodup {fetched : List Instrument} {entry : Instrument}
    (hdistinct : (fetched.map Instrument.identity).Nodup) (hentry : entry ∈ fetched) :
    lastEntry fetched entry.identity = some entry := by
  cases hlast : lastEntry fetched entry.identity with
  | none => exact absurd rfl (lastEntry_eq_none_iff.mp hlast entry hentry)
  | some other =>
      obtain ⟨hother, hidentity⟩ := lastEntry_mem hlast
      rw [List.inj_on_of_nodup_map hdistinct hother hentry hidentity]

/-- The row of an instrument that is written over a stored row, or is new. -/
def InstrumentRow.upserted (stored : Option InstrumentRow) (instrument : Instrument) (now : ℤ) :
    InstrumentRow where
  toInstrument := instrument
  firstSeenAt := (stored.map InstrumentRow.firstSeenAt).getD now
  lastSeenAt := now

/-- The row of a market that is gone. -/
def InstrumentRow.removed (row : InstrumentRow) (now : ℤ) : InstrumentRow :=
  { row with status := statusRemoved, lastSeenAt := now }

/-- The row of a market after a reconciliation. -/
def rowAfter (fetched : List Instrument) (now : ℤ) (identity : String × String)
    (stored : Option InstrumentRow) : Option InstrumentRow :=
  match lastEntry fetched identity with
  | some entry => some (InstrumentRow.upserted stored entry now)
  | none => stored.map fun row => if row.status = statusRemoved then row else row.removed now

namespace Store

/-- The row of a market. -/
def rowOf (self : Store) (identity : String × String) : Option InstrumentRow :=
  self.instruments.find? fun row => row.identity = identity

/-- `category` and `symbol` are the primary key. -/
def RegistryKeyed (self : Store) : Prop := (self.instruments.map fun row => row.identity).Nodup

variable {store : Store} {identity : String × String}

theorem identity_of_rowOf {row : InstrumentRow} (h : store.rowOf identity = some row) :
    row.identity = identity := by
  simpa using List.find?_some h

/-- By the key, a row is the row of its market. -/
theorem RegistryKeyed.rowOf_eq (h : store.RegistryKeyed) {row : InstrumentRow}
    (hrow : row ∈ store.instruments) : store.rowOf row.identity = some row := by
  cases hfound : store.rowOf row.identity with
  | none => exact absurd (decide_eq_true rfl) (List.find?_eq_none.mp hfound row hrow)
  | some other =>
      have hother := List.mem_of_find?_eq_some hfound
      rw [List.inj_on_of_nodup_map h hother hrow (identity_of_rowOf hfound)]

theorem hasInstrument_eq (store : Store) :
    store.hasInstrument identity = (store.rowOf identity).isSome := by
  rw [hasInstrument, rowOf, List.isSome_find?]

/-- An update of the rows that keeps their markets is an update of the row of a market. -/
theorem rowOf_map {store' : Store} {update : InstrumentRow → InstrumentRow}
    (hidentity : ∀ row, (update row).identity = row.identity)
    (hrows : store'.instruments = store.instruments.map update) :
    store'.rowOf identity = (store.rowOf identity).map update := by
  -- the search tests the market only, which the update keeps
  have hsame : ((fun row : InstrumentRow => decide (row.identity = identity)) ∘ update) =
      fun row => decide (row.identity = identity) := by
    funext row
    simp only [Function.comp_apply, hidentity]
  rw [rowOf, hrows, List.find?_map, hsame]
  rfl

/-- `INSERT ... ON CONFLICT` writes the row of the instrument. -/
theorem rowOf_upsertInstrument (store : Store) (instrument : Instrument) (now : ℤ) :
    (store.upsertInstrument instrument now).rowOf identity =
      if instrument.identity = identity then
        some (.upserted (store.rowOf identity) instrument now)
      else store.rowOf identity := by
  rw [upsertInstrument, hasInstrument_eq]
  -- the conflict is with the row of the same market, if there is one
  cases hstored : store.rowOf instrument.identity with
  | some stored =>
      rw [if_pos Option.isSome_some]
      let update (row : InstrumentRow) : InstrumentRow :=
        if row.identity = instrument.identity then
          { row with toInstrument := instrument, lastSeenAt := now }
        else row
      have hidentity (row : InstrumentRow) : (update row).identity = row.identity := by
        show (if _ then _ else _ : InstrumentRow).identity = _
        split
        · rename_i heq
          exact heq.symm
        · rfl
      refine (rowOf_map hidentity (rfl : _ = store.instruments.map update)).trans ?_
      split
      · -- the row of the market is the one that is updated
        rename_i heq
        subst heq
        rw [hstored, Option.map_some]
        show some (if stored.identity = instrument.identity then _ else stored) = _
        rw [if_pos (identity_of_rowOf hstored)]
        rfl
      · rename_i hne
        cases hrow : store.rowOf identity with
        | none => rfl
        | some row =>
            rw [Option.map_some]
            show some (if row.identity = instrument.identity then _ else row) = _
            rw [if_neg fun heq => hne (heq.symm.trans (identity_of_rowOf hrow))]
  | none =>
      rw [if_neg (by simp), rowOf, List.find?_append]
      split
      · rename_i heq
        subst heq
        rw [show (store.instruments.find? _) = none from hstored, hstored, Option.none_or,
          List.find?_cons_of_pos (by simp [Instrument.identity])]
        rfl
      · rename_i hne
        rw [List.find?_cons_of_neg (by simpa using hne), List.find?_nil, Option.or_none]
        rfl

/-- After `upsert_many`, the row of a market is written from its last entry. -/
theorem rowOf_upsertMany (fetched : List Instrument) (now : ℤ) (store : Store) :
    (store.upsertMany fetched now).rowOf identity =
      match lastEntry fetched identity with
      | some entry => some (.upserted (store.rowOf identity) entry now)
      | none => store.rowOf identity := by
  -- by induction on the entries, from any table on
  induction fetched generalizing store with
  | nil => rfl
  | cons instrument fetched ih =>
      refine (ih (store.upsertInstrument instrument now)).trans ?_
      rw [rowOf_upsertInstrument]
      by_cases heq : instrument.identity = identity
      · -- the first entry is written over by a later one, which keeps the time it was first seen
        rw [if_pos heq, lastEntry, lastEntry, List.filter_cons_of_pos (by simpa using heq),
          List.getLast?_cons]
        cases (fetched.filter fun other => other.identity = identity).getLast? with
        | some entry => rfl
        | none => rfl
      · rw [if_neg heq, lastEntry, lastEntry, List.filter_cons_of_neg (by simpa using heq)]

theorem rowOf_removeInstrument (store : Store) (key : String × String) (now : ℤ) :
    (store.removeInstrument key now).rowOf identity =
      (store.rowOf identity).map fun row => if identity = key then row.removed now else row := by
  let update (row : InstrumentRow) : InstrumentRow :=
    if row.identity = key then { row with status := "Removed", lastSeenAt := now } else row
  have hidentity (row : InstrumentRow) : (update row).identity = row.identity := by
    show (if _ then _ else _ : InstrumentRow).identity = _
    split <;> rfl
  refine (rowOf_map hidentity (rfl : _ = store.instruments.map update)).trans ?_
  cases hrow : store.rowOf identity with
  | none => rfl
  | some row =>
      rw [Option.map_some, Option.map_some]
      show some (if row.identity = key then _ else row) = _
      rw [identity_of_rowOf hrow]
      rfl

/-- After `mark_removed`, the markets of the list are removed. -/
theorem rowOf_markRemoved (keys : List (String × String)) (now : ℤ) (store : Store) :
    (store.markRemoved keys now).rowOf identity =
      (store.rowOf identity).map fun row => if identity ∈ keys then row.removed now else row := by
  induction keys generalizing store with
  | nil => simp [markRemoved]
  | cons key keys ih =>
      refine (ih (store.removeInstrument key now)).trans ?_
      rw [rowOf_removeInstrument, Option.map_map]
      congr 1
      funext row
      by_cases heq : identity = key
      · -- a market that is removed twice is removed once
        have hmem : identity ∈ key :: keys := List.mem_cons.mpr (Or.inl heq)
        rw [if_pos hmem, Function.comp_apply, if_pos heq]
        split <;> rfl
      · rw [Function.comp_apply, if_neg heq]
        simp only [List.mem_cons, heq, false_or]

/-- The registry after the two transactions of a reconciliation. -/
def reconciled (store : Store) (fetched : List Instrument) (now : ℤ) : Store :=
  (store.upsertMany fetched now).markRemoved
    ((InstrumentRegistry.removedInstruments store.loadAll fetched).map Instrument.identity) now

/-- The keys that are marked as removed. -/
theorem mem_removedKeys (hkeyed : store.RegistryKeyed) {fetched : List Instrument} :
    identity ∈ (InstrumentRegistry.removedInstruments store.loadAll fetched).map
        Instrument.identity ↔
      lastEntry fetched identity = none ∧
        ∃ row, store.rowOf identity = some row ∧ row.status ≠ statusRemoved := by
  simp only [InstrumentRegistry.removedInstruments, loadAll, List.mem_map, List.mem_filter,
    Bool.and_eq_true, decide_eq_true_eq, Bool.not_eq_true', List.any_eq_false,
    lastEntry_eq_none_iff]
  constructor
  · rintro ⟨existing, ⟨⟨row, hrow, rfl⟩, hstatus, hgone⟩, rfl⟩
    exact ⟨hgone, row, hkeyed.rowOf_eq hrow, hstatus⟩
  · rintro ⟨hgone, row, hrow, hstatus⟩
    obtain rfl := identity_of_rowOf hrow
    exact ⟨row.toInstrument, ⟨⟨row, List.mem_of_find?_eq_some hrow, rfl⟩, hstatus, hgone⟩, rfl⟩

/-- The row of a market after a reconciliation depends on the row before and the fetch. -/
theorem rowOf_reconciled (hkeyed : store.RegistryKeyed) (fetched : List Instrument) (now : ℤ) :
    (store.reconciled fetched now).rowOf identity =
      rowAfter fetched now identity (store.rowOf identity) := by
  rw [reconciled, rowOf_markRemoved, rowOf_upsertMany, rowAfter]
  cases hlast : lastEntry fetched identity with
  | some entry =>
      -- a market that is fetched is not removed
      have hkept : identity ∉ (InstrumentRegistry.removedInstruments store.loadAll fetched).map
          Instrument.identity := by
        rw [mem_removedKeys hkeyed, hlast]
        exact fun h => nomatch h.1
      simp only [hkept, if_false, Option.map_some]
  | none =>
      cases hrow : store.rowOf identity with
      | none => rfl
      | some row =>
          -- a row that is removed already is left with its time
          have hremoved : identity ∈ (InstrumentRegistry.removedInstruments store.loadAll
              fetched).map Instrument.identity ↔ row.status ≠ statusRemoved := by
            simp [mem_removedKeys hkeyed, hlast, hrow]
          simp only [hremoved, Option.map_some, ne_eq, ite_not]

/-! ### The key -/

/-- An update of the rows that keeps their markets keeps the key. -/
theorem RegistryKeyed.map (h : store.RegistryKeyed) {store' : Store}
    {update : InstrumentRow → InstrumentRow}
    (hidentity : ∀ row, (update row).identity = row.identity)
    (hrows : store'.instruments = store.instruments.map update) : store'.RegistryKeyed := by
  have hmarkets : store'.instruments.map (fun row => row.identity) =
      store.instruments.map fun row => row.identity := by
    rw [hrows, List.map_map]
    exact List.map_congr_left fun row _ => hidentity row
  rw [RegistryKeyed, hmarkets]
  exact h

theorem RegistryKeyed.upsertInstrument (h : store.RegistryKeyed) (instrument : Instrument)
    (now : ℤ) : (store.upsertInstrument instrument now).RegistryKeyed := by
  rw [Store.upsertInstrument]
  split
  · refine h.map (fun row => ?_) rfl
    show (if _ then _ else _ : InstrumentRow).identity = _
    split
    · rename_i heq
      exact heq.symm
    · rfl
  · rename_i hnew
    -- a row is inserted only where there is none
    have hfresh : instrument.identity ∉ store.instruments.map fun row => row.identity := by
      intro hmem
      obtain ⟨row, hrow, hidentity⟩ := List.mem_map.mp hmem
      exact hnew (List.any_eq_true.mpr ⟨row, hrow, decide_eq_true hidentity⟩)
    rw [RegistryKeyed, List.map_append]
    refine List.nodup_append.mpr ⟨h, List.nodup_singleton _, ?_⟩
    rintro identity hidentity other hother rfl
    rw [List.map_singleton, List.mem_singleton] at hother
    exact hfresh (hother ▸ hidentity)

/-- A reconciliation keeps the key. -/
theorem RegistryKeyed.reconciled (h : store.RegistryKeyed) (fetched : List Instrument) (now : ℤ) :
    (store.reconciled fetched now).RegistryKeyed := by
  have hupsert (entries : List Instrument) :
      ∀ store : Store, store.RegistryKeyed → (store.upsertMany entries now).RegistryKeyed := by
    induction entries with
    | nil => exact fun store h => h
    | cons instrument entries ih => exact fun store h => ih _ (h.upsertInstrument instrument now)
  have hremove (keys : List (String × String)) :
      ∀ store : Store, store.RegistryKeyed → (store.markRemoved keys now).RegistryKeyed := by
    induction keys with
    | nil => exact fun store h => h
    | cons key keys ih =>
        refine fun store h => ih _ (h.map (fun row => ?_) rfl)
        show (if _ then _ else _ : InstrumentRow).identity = _
        split <;> rfl
  exact hremove _ _ (hupsert fetched store h)

end Store

/-! ## The events -/

namespace InstrumentRegistry

/-- The event of a market that is new. -/
def newEvent (instrument : Instrument) : RegistryEvent where
  category := instrument.category
  symbol := instrument.symbol
  baseCoin := instrument.baseCoin
  event := .new
  newStatus := some instrument.status
  isPreListing := instrument.isPreListing

/-- The event of a market whose status has changed. -/
def transitionEvent (old : String) (instrument : Instrument) : RegistryEvent :=
  { newEvent instrument with event := .statusTransition, oldStatus := some old }

end InstrumentRegistry

/-- The market that an event is of. -/
def RegistryEvent.identity (self : RegistryEvent) : String × String := (self.category, self.symbol)

/-- The events that a reconciliation is to report. -/
inductive RegistryReports (fetched : List Instrument) (before : Store) : RegistryEvent → Prop
  /-- A market that is fetched for the first time, unless the registry is seeded. -/
  | new {instrument : Instrument} (hmem : instrument ∈ fetched)
      (habsent : before.rowOf instrument.identity = none) (hseeded : before.instruments ≠ []) :
      RegistryReports fetched before (InstrumentRegistry.newEvent instrument)
  | statusTransition {instrument : Instrument} {row : InstrumentRow} (hmem : instrument ∈ fetched)
      (hrow : before.rowOf instrument.identity = some row)
      (hmoved : row.status ≠ instrument.status) :
      RegistryReports fetched before (InstrumentRegistry.transitionEvent row.status instrument)
  | removed {row : InstrumentRow} (hrow : row ∈ before.instruments)
      (hactive : row.status ≠ statusRemoved) (hgone : lastEntry fetched row.identity = none) :
      RegistryReports fetched before (InstrumentRegistry.removedEvent row.toInstrument)

namespace InstrumentRegistry

variable {store : Store} {fetched : List Instrument}

theorem lookup_loadAll (store : Store) (identity : String × String) :
    lookup store.loadAll identity = (store.rowOf identity).map InstrumentRow.toInstrument := by
  rw [lookup, Store.loadAll, List.find?_map]
  rfl

/-- The event of a fetched instrument, by the row of its market. -/
theorem fetchedEvent_eq (instrument : Instrument) :
    fetchedEvent store.loadAll instrument =
      match store.rowOf instrument.identity with
      | none => if store.instruments = [] then none else some (newEvent instrument)
      | some row =>
          if row.status = instrument.status then none
          else some (transitionEvent row.status instrument) := by
  rw [fetchedEvent.eq_def, lookup_loadAll]
  cases store.rowOf instrument.identity with
  | none => simp [Store.loadAll, newEvent]
  | some row => simp [newEvent, transitionEvent]

theorem fetchedEvent_identity {instrument : Instrument} {event : RegistryEvent}
    (h : fetchedEvent store.loadAll instrument = some event) :
    event.identity = instrument.identity := by
  rw [fetchedEvent_eq] at h
  split at h <;> split at h
  · cases h
  · cases h
    rfl
  · cases h
  · cases h
    rfl

/-- A reconciliation returns the events that it is to report. -/
theorem mem_events {event : RegistryEvent} :
    event ∈ (result store.loadAll fetched).events ↔ RegistryReports fetched store event := by
  have hremoved (instrument : Instrument) :
      instrument ∈ removedInstruments store.loadAll fetched ↔ ∃ row ∈ store.instruments,
        row.toInstrument = instrument ∧ row.status ≠ statusRemoved ∧
          lastEntry fetched row.identity = none := by
    simp only [removedInstruments, Store.loadAll, List.mem_filter, List.mem_map, Bool.and_eq_true,
      decide_eq_true_eq, Bool.not_eq_true', List.any_eq_false, lastEntry_eq_none_iff]
    constructor
    · rintro ⟨⟨row, hrow, rfl⟩, hactive, hgone⟩
      exact ⟨row, hrow, rfl, hactive, hgone⟩
    · rintro ⟨row, hrow, rfl, hactive, hgone⟩
      exact ⟨⟨row, hrow, rfl⟩, hactive, hgone⟩
  show event ∈ fetched.filterMap _ ++ _ ↔ _
  rw [List.mem_append, List.mem_filterMap, List.mem_map]
  constructor
  · rintro (⟨instrument, hmem, hevent⟩ | ⟨instrument, hmem, rfl⟩)
    · -- an entry of the fetch is new, has another status, or has no event
      rw [fetchedEvent_eq] at hevent
      split at hevent
      · rename_i habsent
        split at hevent
        · cases hevent
        · cases hevent
          exact .new hmem habsent ‹_›
      · rename_i row hrow
        split at hevent
        · cases hevent
        · cases hevent
          exact .statusTransition hmem hrow ‹_›
    · obtain ⟨row, hrow, rfl, hactive, hgone⟩ := (hremoved instrument).mp hmem
      exact .removed hrow hactive hgone
  · intro h
    cases h with
    | @new instrument hmem habsent hseeded =>
        refine Or.inl ⟨instrument, hmem, ?_⟩
        rw [fetchedEvent_eq, habsent]
        exact if_neg hseeded
    | @statusTransition instrument row hmem hrow hmoved =>
        refine Or.inl ⟨instrument, hmem, ?_⟩
        rw [fetchedEvent_eq, hrow]
        exact if_neg hmoved
    | @removed row hrow hactive hgone =>
        exact Or.inr ⟨_, (hremoved _).mpr ⟨row, hrow, rfl, hactive, hgone⟩, rfl⟩

/-- A fetch without duplicates has at most one event for each market. -/
theorem events_nodup (hkeyed : store.RegistryKeyed)
    (hdistinct : (fetched.map Instrument.identity).Nodup) :
    ((result store.loadAll fetched).events.map RegistryEvent.identity).Nodup := by
  -- the markets of the events are markets of the fetch, and of rows that it does not have
  have hsublist (entries : List Instrument) :
      ((entries.filterMap (fetchedEvent store.loadAll)).map RegistryEvent.identity).Sublist
        (entries.map Instrument.identity) := by
    induction entries with
    | nil => exact List.Sublist.refl _
    | cons instrument entries ih =>
        cases hevent : fetchedEvent store.loadAll instrument with
        | none =>
            rw [List.filterMap_cons_none hevent]
            exact ih.cons _
        | some event =>
            rw [List.filterMap_cons_some hevent, List.map_cons, List.map_cons,
              fetchedEvent_identity hevent]
            exact ih.cons_cons _
  have hremoved : (((removedInstruments store.loadAll fetched).map removedEvent).map
      RegistryEvent.identity).Nodup := by
    rw [List.map_map]
    have hloaded : (store.loadAll.map Instrument.identity).Nodup := by
      rw [Store.loadAll, List.map_map]
      exact hkeyed
    exact hloaded.sublist ((List.filter_sublist).map _)
  show ((fetched.filterMap _ ++ _).map _).Nodup
  rw [List.map_append]
  refine List.nodup_append.mpr ⟨hdistinct.sublist (hsublist fetched), hremoved, ?_⟩
  rintro identity hfetched other hgone rfl
  obtain ⟨entry, hentry, hidentity⟩ := List.mem_map.mp ((hsublist fetched).subset hfetched)
  rw [List.map_map] at hgone
  obtain ⟨existing, hexisting, hother⟩ := List.mem_map.mp hgone
  have hnone := (List.mem_filter.mp hexisting).2
  simp only [Bool.and_eq_true, Bool.not_eq_true', List.any_eq_false, decide_eq_true_eq] at hnone
  exact hnone.2 entry hentry (hidentity.trans hother.symm)

end InstrumentRegistry

/-! ## A call -/

/-- The protocol of a coroutine that runs alone. -/
def servedProtocol : Program.Protocol Await Await.Reply World where
  Allows _ _ := True
  Moves := World.Serves

section Call

open Program

variable {world world' : World} {fetched : List Instrument} {now : ℤ} {result : DiscoveryResult}

/-- An operation that is served alone. -/
theorem served_store {op : StoreOp} {post : Except Raised op.Result → World → Prop}
    (herror : ∀ exc, post (.error (.python exc)) world)
    (hok : ∀ result world', op.Does world.store result world'.store → post (.ok result) world') :
    (Coroutine.store op).Meets servedProtocol world post := by
  refine Coroutine.meets_store.mpr ⟨trivial, fun reply world' hserves => ?_⟩
  rcases World.Serves.does hserves with ⟨exc, rfl, rfl⟩ | ⟨result, rfl, hdoes, -⟩
  · exact herror exc
  · exact hok result world' hdoes

/-- What `reconcile` writes and returns, unless it raises. -/
theorem reconcile_writes (fetched : List Instrument) (now : ℤ) :
    (InstrumentRegistry.reconcile fetched now).Meets servedProtocol world fun outcome world' =>
      ∀ result, outcome = .ok result →
        result = InstrumentRegistry.result world.store.loadAll fetched ∧
          world'.store = world.store.reconciled fetched now := by
  -- the rows are loaded before they are written, so the events are of the rows before
  refine meets_bind.mpr (served_store (fun exc result h => by cases h)
    fun current world₁ hload => ?_)
  obtain ⟨rfl, hstore₁⟩ := hload
  refine meets_bind.mpr (served_store (fun exc result h => by cases h)
    fun _ world₂ hupsert => ?_)
  have hstore₂ : world₂.store = world.store.upsertMany fetched now := hstore₁ ▸ hupsert
  refine meets_bind.mpr (served_store (fun exc result h => by cases h)
    fun _ world₃ hremove => ?_)
  have hstore₃ : world₃.store = world₂.store.markRemoved _ now := hremove
  rintro result ⟨⟩
  rw [hstore₃, hstore₂]
  exact ⟨rfl, rfl⟩

/-- A reconciliation that succeeds, without anything else in between. -/
def Reconciles (world : World) (fetched : List Instrument) (now : ℤ) (result : DiscoveryResult)
    (world' : World) : Prop :=
  Reaches World.Serves (InstrumentRegistry.reconcile fetched now) world (done (.ok result)) world'

theorem Reconciles.writes (h : Reconciles world fetched now result world') :
    result = InstrumentRegistry.result world.store.loadAll fetched ∧
      world'.store = world.store.reconciled fetched now :=
  Meets.done (reconcile_writes fetched now) h result rfl

/-- The registry after a fetch, row by row. -/
structure Registered (fetched : List Instrument) (now : ℤ) (before after : Store) : Prop where
  keyed : after.RegistryKeyed
  present : ∀ identity entry, lastEntry fetched identity = some entry →
    after.rowOf identity = some
      { toInstrument := entry
        firstSeenAt := ((before.rowOf identity).map InstrumentRow.firstSeenAt).getD now
        lastSeenAt := now }
  gone : ∀ identity row, lastEntry fetched identity = none → before.rowOf identity = some row →
    row.status ≠ statusRemoved →
      after.rowOf identity = some { row with status := statusRemoved, lastSeenAt := now }
  kept : ∀ identity row, lastEntry fetched identity = none → before.rowOf identity = some row →
    row.status = statusRemoved → after.rowOf identity = some row
  absent : ∀ identity, lastEntry fetched identity = none → before.rowOf identity = none →
    after.rowOf identity = none
  active : ∀ identity, (∃ row, after.rowOf identity = some row ∧ row.status ≠ statusRemoved) ↔
    identity ∈ fetched.map Instrument.identity

/-- A reconciliation leaves the registry as it is to be after the fetch. -/
theorem registered_reconciled {store : Store} (hkeyed : store.RegistryKeyed)
    (hstatus : ∀ entry ∈ fetched, entry.status ≠ statusRemoved) :
    Registered fetched now store (store.reconciled fetched now) := by
  have hrow (identity : String × String) :=
    @Store.rowOf_reconciled store identity hkeyed fetched now
  refine ⟨hkeyed.reconciled fetched now, fun identity entry hlast => ?_,
    fun identity row hlast hbefore hactive => ?_, fun identity row hlast hbefore hremoved => ?_,
    fun identity hlast hbefore => ?_, fun identity => ?_⟩
  · rw [hrow, rowAfter, hlast]
    rfl
  · rw [hrow, rowAfter, hlast, hbefore, Option.map_some, if_neg hactive]
    rfl
  · rw [hrow, rowAfter, hlast, hbefore, Option.map_some, if_pos hremoved]
  · rw [hrow, rowAfter, hlast, hbefore]
    rfl
  · rw [hrow, rowAfter]
    cases hlast : lastEntry fetched identity with
    | some entry =>
        obtain ⟨hentry, rfl⟩ := lastEntry_mem hlast
        exact iff_of_true ⟨_, rfl, hstatus entry hentry⟩ (List.mem_map_of_mem hentry)
    | none =>
        -- a market without an entry has no row, or a removed one
        have hgone := lastEntry_eq_none_iff.mp hlast
        refine iff_of_false ?_ ?_
        · rintro ⟨row, hafter, hactive⟩
          obtain ⟨stored, -, rfl⟩ := Option.map_eq_some_iff.mp hafter
          split at hactive
          · exact hactive ‹_›
          · exact hactive rfl
        · intro hmem
          obtain ⟨entry, hentry, hidentity⟩ := List.mem_map.mp hmem
          exact hgone entry hentry hidentity

/-- A second reconciliation of a fetch only moves the time its markets were last seen. -/
theorem rowOf_reconciled_again {store : Store} (hkeyed : store.RegistryKeyed)
    (hstatus : ∀ entry ∈ fetched, entry.status ≠ statusRemoved) (later : ℤ)
    (identity : String × String) :
    ((store.reconciled fetched now).reconciled fetched later).rowOf identity =
      ((store.reconciled fetched now).rowOf identity).map fun row =>
        if identity ∈ fetched.map Instrument.identity then { row with lastSeenAt := later }
        else row := by
  have hregistered := @registered_reconciled fetched now store hkeyed hstatus
  rw [Store.rowOf_reconciled hregistered.keyed, rowAfter]
  cases hlast : lastEntry fetched identity with
  | some entry =>
      obtain ⟨hentry, hidentity⟩ := lastEntry_mem hlast
      have hmem : identity ∈ fetched.map Instrument.identity :=
        hidentity ▸ List.mem_map_of_mem hentry
      rw [hregistered.present identity entry hlast]
      simp only [Option.map_some, hmem, if_true]
      rfl
  | none =>
      have hgone : identity ∉ fetched.map Instrument.identity := by
        simpa using lastEntry_eq_none_iff.mp hlast
      dsimp only
      rw [Store.rowOf_reconciled hkeyed, rowAfter, hlast]
      cases store.rowOf identity with
      | none => rfl
      | some row =>
          simp only [Option.map_some, hgone, if_false]
          by_cases hremoved : row.status = statusRemoved
          · rw [if_pos hremoved, if_pos hremoved]
          · rw [if_neg hremoved]
            rfl

/-- A second reconciliation of a fetch without duplicates has nothing to report. -/
theorem events_again {store : Store} (hkeyed : store.RegistryKeyed)
    (hstatus : ∀ entry ∈ fetched, entry.status ≠ statusRemoved)
    (hdistinct : (fetched.map Instrument.identity).Nodup) :
    (InstrumentRegistry.result (store.reconciled fetched now).loadAll fetched).events = [] := by
  have hregistered := @registered_reconciled fetched now store hkeyed hstatus
  refine List.eq_nil_iff_forall_not_mem.mpr fun event hevent => ?_
  cases InstrumentRegistry.mem_events.mp hevent with
  | @new entry hmem habsent =>
      -- after the first one every entry has its row, with its status
      rw [hregistered.present _ entry (lastEntry_of_nodup hdistinct hmem)] at habsent
      cases habsent
  | @statusTransition entry row hmem hrow hmoved =>
      rw [hregistered.present _ entry (lastEntry_of_nodup hdistinct hmem)] at hrow
      cases hrow
      exact hmoved rfl
  | @removed row hrow hactive hgone =>
      have hfetched := (hregistered.active row.identity).mp
        ⟨row, hregistered.keyed.rowOf_eq hrow, hactive⟩
      obtain ⟨entry, hentry, hidentity⟩ := List.mem_map.mp hfetched
      exact lastEntry_eq_none_iff.mp hgone entry hentry hidentity

/-- A reconciliation that succeeds has brought the registry to the fetch, row by row. If no market
is fetched twice, it reports every change of the registry once, and reconciling the fetch again
reports nothing and only moves the time its markets were last seen. -/
theorem registry_reconciled (hkeyed : world.store.RegistryKeyed)
    (hstatus : ∀ entry ∈ fetched, entry.status ≠ statusRemoved)
    (hrun : Reconciles world fetched now result world') :
    Registered fetched now world.store world'.store ∧
      ((fetched.map Instrument.identity).Nodup →
        (result.events.map RegistryEvent.identity).Nodup ∧
        (∀ event, event ∈ result.events ↔ RegistryReports fetched world.store event) ∧
        ∀ later again world'', Reconciles world' fetched later again world'' →
          again.events = [] ∧
            ∀ identity, world''.store.rowOf identity =
              (world'.store.rowOf identity).map fun row =>
                if identity ∈ fetched.map Instrument.identity then { row with lastSeenAt := later }
                else row) := by
  obtain ⟨rfl, hstore⟩ := hrun.writes
  rw [hstore]
  refine ⟨registered_reconciled hkeyed hstatus, fun hdistinct =>
    ⟨InstrumentRegistry.events_nodup hkeyed hdistinct, fun _ => InstrumentRegistry.mem_events, ?_⟩⟩
  intro later again world'' hagain
  obtain ⟨rfl, hstore''⟩ := hagain.writes
  -- the second call starts from what the first one wrote
  rw [hstore'', hstore]
  exact ⟨events_again hkeyed hstatus hdistinct, rowOf_reconciled_again hkeyed hstatus later⟩

end Call

/-- A registry with a market that trades and one that is gone. -/
def listedWorld : World :=
  { store :=
      { instruments :=
          [{ category := "spot", symbol := "BTCUSDT", baseCoin := "BTC", firstSeenAt := 10,
             lastSeenAt := 20 },
            { category := "spot", symbol := "LUNAUSDT", baseCoin := "LUNA", status := "Removed",
              firstSeenAt := 10, lastSeenAt := 15 }] } }

/-- The fetch of another market. -/
def otherFetch : List Instrument :=
  [{ category := "linear", symbol := "BTCUSDT", baseCoin := "BTC", status := "PreLaunch" }]

/-- The reconciliation of it, without a fault. -/
def reconciledAt (now : ℤ) (world : World) : Except Raised DiscoveryResult × World :=
  (InstrumentRegistry.reconcile otherFetch now).drive (fun world question =>
    world.answer {} question) world

theorem reconciles_reconciledAt {now : ℤ} {world : World}
    (h : (reconciledAt now world).1.toOption.isSome = true) :
    ∃ result, (reconciledAt now world).1 = .ok result ∧
      Reconciles world otherFetch now result (reconciledAt now world).2 := by
  have hrun := Program.drive_reaches
    (fun world question => World.answer_serves world {} question)
    (InstrumentRegistry.reconcile otherFetch now) world
  change Program.Reaches _ _ _ (.done (reconciledAt now world).1) (reconciledAt now world).2 at hrun
  cases hresult : (reconciledAt now world).1 with
  | error e =>
      rw [hresult] at h
      cases h
  | ok result =>
      rw [hresult] at hrun
      exact ⟨result, rfl, hrun⟩

/-- A market that is fetched for the first time, one that is removed and one that stays removed, and
the same fetch ten seconds later. -/
theorem registry_reconciled_other :
    ∃ result again, (reconciledAt 30 listedWorld).1 = .ok result ∧ result.events.length = 2 ∧
      Registered otherFetch 30 listedWorld.store (reconciledAt 30 listedWorld).2.store ∧
      (∀ event, event ∈ result.events ↔
        RegistryReports otherFetch listedWorld.store event) ∧
      (reconciledAt 40 (reconciledAt 30 listedWorld).2).1 = .ok again ∧ again.events = [] := by
  obtain ⟨result, hresult, hrun⟩ := @reconciles_reconciledAt 30 listedWorld (by decide +kernel)
  obtain ⟨again, hagain, hrun'⟩ :=
    @reconciles_reconciledAt 40 (reconciledAt 30 listedWorld).2 (by decide +kernel)
  have hcount : (reconciledAt 30 listedWorld).1.toOption.map
      (fun result => result.events.length) = some 2 := by decide +kernel
  rw [hresult] at hcount
  obtain ⟨hregistered, hdistinct⟩ :=
    registry_reconciled (by unfold Store.RegistryKeyed; decide) (by decide) hrun
  obtain ⟨-, hevents, hrepeated⟩ := hdistinct (by decide)
  exact ⟨result, again, hresult, Option.some.inj hcount, hregistered, hevents, hagain,
    (hrepeated 40 again _ hrun').1⟩

end BybitMonitor
