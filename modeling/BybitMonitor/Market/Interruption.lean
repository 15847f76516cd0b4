import Mathlib
import BybitMonitor.Market.Reconcile
import BybitMonitor.Market.TradingReport

/-!
# Interrupted discoveries

A discovery cycle commits the registry first, and records the listing events afterwards, one by one.
A market that the registry has is not new in any later cycle: its event is lost if the cycle ends in
between.

* `CycleProgress`: the markets that a call has inserted, and the events that it has recorded.
* `discoverOnce_settles`: a cycle that returns has recorded the events of its new markets.
* `listings_kept`: no listing is lost if no cycle ends in between.
-/

namespace BybitMonitor

open Program

/-- The key of the event of a market that is new, if the market is announced or trades. -/
def Instrument.listedKey (self : Instrument) : Option String :=
  if self.status = statusPrelaunch then
    some (eventKeyFor (some self.category) self.symbol .prelaunch)
  else if self.status = statusTrading then some self.tradingKey
  else none

/-- The keys of the events of the fetched markets that the registry does not have. The first run has
none. -/
def newKeys (current fetched : List Instrument) : List String :=
  if current.isEmpty then []
  else (fetched.filter fun instrument =>
    (InstrumentRegistry.lookup current instrument.identity).isNone).filterMap Instrument.listedKey

/-- What a call has done to the registry and to the listing events. -/
structure CycleProgress where
  /-- The registry as the call has loaded it. -/
  current : List Instrument := []
  /-- The keys of the events of the markets that were inserted as new. -/
  inserted : List String := []
  recorded : List String := []

namespace CycleProgress

/-- The progress after a reply. -/
def after (self : CycleProgress) : (question : Await) → question.Reply → CycleProgress
  | .store .loadAll, .ok current => { self with current }
  | .store (.upsertMany fetched _), .ok _ =>
      { self with inserted := self.inserted ++ newKeys self.current fetched }
  | .store (.record eventKey _ _ _ _), .ok _ =>
      { self with recorded := self.recorded ++ [eventKey] }
  | _, _ => self

/-- The event of each market that was inserted is recorded. -/
def Settled (self : CycleProgress) : Prop := ∀ key ∈ self.inserted, key ∈ self.recorded

instance (progress : CycleProgress) : Decidable progress.Settled :=
  inferInstanceAs (Decidable (∀ key ∈ progress.inserted, key ∈ progress.recorded))

/-- The protocol of the progress of a call. -/
def protocol : Program.Protocol Await Await.Reply CycleProgress where
  Allows _ _ := True
  Moves progress question reply progress' := progress' = progress.after question reply

end CycleProgress

/-! ## What a cycle records -/

/-- The event of a new market is recorded under the key of the market. -/
theorem recordedKey_newEvent (instrument : Instrument) :
    (InstrumentRegistry.newEvent instrument).recordedKey = instrument.listedKey := by
  rw [RegistryEvent.recordedKey, Instrument.listedKey, ListingTracker.eventTypeFor.eq_def]
  simp only [InstrumentRegistry.newEvent, Option.some.injEq]
  split
  · rfl
  · split <;> rfl

/-- A reconciliation returns the events of the new markets. -/
theorem event_of_newKeys {current fetched : List Instrument} {key : String}
    (h : key ∈ newKeys current fetched) :
    (InstrumentRegistry.result current fetched).firstRun = false ∧
      ∃ event ∈ (InstrumentRegistry.result current fetched).events,
        event.recordedKey = some key := by
  rw [newKeys] at h
  split at h
  · cases h
  · rename_i hseeded
    obtain ⟨instrument, hmem, hkey⟩ := List.mem_filterMap.mp h
    obtain ⟨hfetched, hnew⟩ := List.mem_filter.mp hmem
    refine ⟨Bool.eq_false_iff.mpr hseeded, InstrumentRegistry.newEvent instrument, ?_, ?_⟩
    · refine List.mem_append_left _ (List.mem_filterMap.mpr ⟨instrument, hfetched, ?_⟩)
      rw [InstrumentRegistry.fetchedEvent.eq_def, Option.isNone_iff_eq_none.mp hnew]
      exact if_neg hseeded
    · rw [recordedKey_newEvent, hkey]

section Cycle

variable {tracker : ListingTracker} {progress : CycleProgress}

/-- A question of the database is a step of the progress. -/
theorem progress_store {op : StoreOp} {post : Except Raised op.Result → CycleProgress → Prop}
    (herror : ∀ exc, post (.error (.python exc)) (progress.after (.store op) (.error exc)))
    (hok : ∀ result, post (.ok result) (progress.after (.store op) (.ok result))) :
    (Coroutine.store op).Meets CycleProgress.protocol progress post := by
  refine Coroutine.meets_store.mpr ⟨trivial, fun reply progress' hmove => ?_⟩
  obtain rfl : progress' = _ := hmove
  cases reply with
  | error exc => exact herror exc
  | ok result => exact hok result

theorem recordAndNotify_progress (category : Option String) (symbol : String)
    (eventType : ListingEventType) (now : ℤ) :
    (tracker.recordAndNotify category symbol eventType now).Meets CycleProgress.protocol progress
      fun outcome progress' => outcome.isOk = true →
        progress'.inserted = progress.inserted ∧
        progress'.recorded = progress.recorded ++ [eventKeyFor category symbol eventType] := by
  refine meets_bind.mpr (progress_store (fun exc h => by cases h) fun recorded => ?_)
  cases recorded with
  -- the event was there: `record` returns, and nothing is notified
  | none => exact fun _ => ⟨rfl, rfl⟩
  | some recorded =>
      have hasks : (tracker.notify recorded).Asks Await.enqueues :=
        asks_notify trivial (fun _ => trivial) tracker recorded
      refine meets_bind.mpr ((hasks.meets rfl (fun _ _ _ => trivial) ?_).mono ?_)
      · -- a notification inserts no market and records no event
        rintro reached question reply progress' hquestion rfl rfl
        cases question with
        | clock => rfl
        | store op =>
            cases op with
            | insertOutgoingNotification draft => cases reply <;> rfl
            | _ => cases hquestion
        | _ => cases hquestion
      · rintro outcome progress' rfl
        cases outcome with
        | error e => exact fun h => by cases h
        | ok _ => exact fun _ => ⟨rfl, rfl⟩

/-- `handle_registry` records the events of the markets that were inserted, if they are among those
of the result. -/
theorem handleRegistry_settles {result : DiscoveryResult} (h : ∀ key ∈ progress.inserted,
      result.firstRun = false ∧ ∃ event ∈ result.events, event.recordedKey = some key) :
    (tracker.handleRegistry result).Meets CycleProgress.protocol progress
      fun outcome progress' => outcome.isOk = true → progress'.Settled := by
  refine meets_bind.mpr ⟨trivial, fun now reached hreached => ?_⟩
  obtain rfl : reached = progress := hreached
  show (ite _ _ _ : Coroutine _).Meets _ _ _
  split
  · rename_i hfirst
    intro _ key hkey
    rw [(h key hkey).1] at hfirst
    cases hfirst
  · -- an event that is not recorded yet is still to come
    refine meets_gather (fun rest (progress' : CycleProgress) => ∀ key ∈ progress'.inserted,
      key ∈ progress'.recorded ∨ ∃ event ∈ rest, event.recordedKey = some key) ?_ ?_
      fun key hkey => Or.inr (h key hkey).2
    · intro event rest progress' hrest
      rw [ListingTracker.handleEvent]
      cases htype : ListingTracker.eventTypeFor event with
      | none =>
          intro key hkey
          refine (hrest key hkey).imp_right ?_
          rintro ⟨other, hother, hrecorded⟩
          rcases List.mem_cons.mp hother with rfl | hother
          · rw [RegistryEvent.recordedKey, htype] at hrecorded
            cases hrecorded
          · exact ⟨other, hother, hrecorded⟩
      | some eventType =>
          refine (recordAndNotify_progress _ _ _ _).mono fun outcome progress'' hend => ?_
          cases outcome with
          | error e => exact fun h => by cases h
          | ok _ =>
              obtain ⟨hinserted, hrecorded⟩ := hend rfl
              intro key hkey
              rw [hrecorded]
              rcases hrest key (hinserted ▸ hkey) with hold | ⟨other, hother, hkeyed⟩
              · exact Or.inl (List.mem_append_left _ hold)
              · rcases List.mem_cons.mp hother with rfl | hother
                · -- the event that is recorded now
                  rw [RegistryEvent.recordedKey, htype] at hkeyed
                  refine Or.inl (List.mem_append_right _ (List.mem_singleton.mpr ?_))
                  exact (Option.some.inj hkeyed).symm
                · exact Or.inr ⟨other, hother, hkeyed⟩
    · intro _ progress' hrest _ key hkey
      refine (hrest key hkey).resolve_right ?_
      rintro ⟨event, hevent, -⟩
      cases hevent

/-- A cycle that returns has recorded the events of the markets that it has inserted. -/
theorem discoverOnce_settles (fetched : Except PyExc (List Instrument)) :
    (discoverOnce tracker fetched).Meets CycleProgress.protocol {}
      fun outcome progress' => outcome.isOk = true → progress'.Settled := by
  refine Coroutine.meets_ask_bind.mpr ⟨trivial, fun now reached hreached => ?_⟩
  obtain rfl : reached = {} := hreached
  cases fetched with
  | error exc => exact fun h => by cases h
  | ok fetched =>
      refine Coroutine.meets_ok_bind.mpr (meets_bind.mpr ?_)
      -- the registry is loaded and written twice before the first event is recorded
      refine meets_bind.mpr (progress_store (fun exc h => by cases h) fun current => ?_)
      refine meets_bind.mpr (progress_store (fun exc h => by cases h) fun _ => ?_)
      refine meets_bind.mpr (progress_store (fun exc h => by cases h) fun _ => ?_)
      refine meets_bind.mpr ((handleRegistry_settles fun key hkey => ?_).mono ?_)
      · exact event_of_newKeys hkey
      · intro outcome progress' hend
        cases outcome with
        | error e => exact fun h => by cases h
        | ok _ => exact hend

/-- What a call asks that is not a discovery: it inserts no market. -/
def Await.insertsNothing : Await → Prop
  | .store (.upsertMany ..) => False
  | _ => True

/-- A call that inserts no market has no event to record. -/
theorem settles_of_asks {α : Type} {p : Coroutine α} (h : p.Asks Await.insertsNothing) :
    p.Meets CycleProgress.protocol {} fun outcome progress' =>
      outcome.isOk = true → progress'.Settled := by
  -- only `upsert_many` adds to the markets that are inserted
  have hempty : p.Meets CycleProgress.protocol {} fun _ progress' => progress'.inserted = [] := by
    refine h.meets rfl (fun _ _ _ => trivial) ?_
    rintro progress question reply progress' hquestion rfl hinserted
    cases question with
    | store op =>
        cases op with
        | upsertMany instruments now => cases hquestion
        | _ => cases reply <;> exact hinserted
    | _ => exact hinserted
  refine hempty.mono fun outcome progress' hinserted _ key hkey => ?_
  rw [hinserted] at hkey
  cases hkey

/-- A call that returns has recorded the events of the markets that it has inserted. -/
theorem EntryPoint.settles (entry : EntryPoint) (tracker : ListingTracker) :
    (entry.coroutine tracker).Meets CycleProgress.protocol {}
      fun outcome progress' => outcome.isOk = true → progress'.Settled := by
  have hend {α : Type} {p : Coroutine α} (h : p.Meets CycleProgress.protocol {}
        fun outcome progress' => outcome.isOk = true → progress'.Settled) :
      (do let _ ← p : Coroutine Unit).Meets CycleProgress.protocol {}
        fun outcome progress' => outcome.isOk = true → progress'.Settled := by
    refine meets_bind.mpr (h.mono fun outcome _ hsettled => ?_)
    cases outcome with
    | error e => exact fun h => by cases h
    | ok _ => exact hsettled
  cases entry with
  | discoverOnce fetched => exact hend (discoverOnce_settles fetched)
  | handleRegistry result => exact hend (handleRegistry_settles fun key hkey => nomatch hkey)
  | handleAnnouncements announcements =>
      refine hend (settles_of_asks (asks_bind (asks_ask trivial) fun now => ?_))
      refine asks_gather (fun symbol => ?_) _
      exact asks_recordAndNotify trivial (fun _ => trivial) (fun _ _ _ _ _ => trivial) _ _ _ _ _
  | reconcileUnsent =>
      exact hend (settles_of_asks (asks_reconcileUnsent trivial (fun _ => trivial)
        (fun _ => trivial) (fun _ => trivial) trivial tracker))
  | enqueue text tag dedupeKey originType originKey =>
      exact hend (settles_of_asks (asks_enqueue trivial (fun _ => trivial) _ _ _ _ _))

end Cycle

/-! ## Runs -/

/-- The progress of a call after an event. -/
def AppEvent.progressAfter (number : ℕ) (progress : CycleProgress) : AppEvent → CycleProgress
  | .callAsked asker question reply =>
      if asker = number then progress.after question reply else progress
  | _ => progress

/-- The progress of a call after some events. -/
def CycleProgress.of (number : ℕ) (events : List AppEvent) : CycleProgress :=
  events.foldl (AppEvent.progressAfter number) {}

theorem CycleProgress.of_append (number : ℕ) (events : List AppEvent) (event : AppEvent) :
    CycleProgress.of number (events ++ [event]) = event.progressAfter number (.of number events) :=
  List.foldl_append

/-- The calls in progress after an event. -/
def AppEvent.ongoingAfter (numbers : List ℕ) : AppEvent → List ℕ
  | .restarted _ => []
  | .began number _ => numbers ++ [number]
  | .callEnded number _ => numbers.filter (· ≠ number)
  | _ => numbers

/-- The calls in progress after some events. -/
def ongoing (events : List AppEvent) : List ℕ := events.foldl AppEvent.ongoingAfter []

theorem ongoing_append (events : List AppEvent) (event : AppEvent) :
    ongoing (events ++ [event]) = event.ongoingAfter (ongoing events) :=
  List.foldl_append

/-- The event ends no call between the insertion of a market and the record of its event. -/
def AppEvent.Spares (before : List AppEvent) : AppEvent → Prop
  | .restarted _ => ∀ number ∈ ongoing before, (CycleProgress.of number before).Settled
  | .callEnded number (.error _) => (CycleProgress.of number before).Settled
  | _ => True

instance (before : List AppEvent) (event : AppEvent) : Decidable (event.Spares before) := by
  unfold AppEvent.Spares
  split <;> infer_instance

/-- The calls in progress have the numbers that the events say. -/
theorem AppRun.ongoing_eq {config : AdmittedSettings} {events : List AppEvent} {s : Application}
    (h : AppRun config events s) :
    s.calls.map Prod.fst = ongoing events ∧ (ongoing events).Nodup := by
  induction h with
  | nil => exact ⟨rfl, List.nodup_nil⟩
  | @snoc events s event s' prior last ih =>
      obtain ⟨hcalls, hnodup⟩ := ih
      have hprior : AppRun config events s := prior
      rw [ongoing_append]
      cases last with
      | restarted config => exact ⟨rfl, List.nodup_nil⟩
      | cycled hcycle => exact ⟨hcalls, hnodup⟩
      | began entry =>
          refine ⟨?_, List.nodup_append.mpr ⟨hnodup, List.nodup_singleton _, ?_⟩⟩
          · show (s.calls ++ _).map Prod.fst = ongoing events ++ [_]
            rw [List.map_append, hcalls]
            rfl
          · -- the number of a new call is greater than those before
            rintro number hnumber new hnew rfl
            rw [← hcalls] at hnumber
            obtain ⟨call, hcall, rfl⟩ := List.mem_map.mp hnumber
            have hle := hprior.number_le call hcall
            have heq := List.mem_singleton.mp hnew
            omega
      | workerAsked => exact ⟨hcalls, hnodup⟩
      | @callAsked number before rest question next reply world' heq hserves =>
          refine ⟨?_, hnodup⟩
          rw [heq, List.map_append, List.map_cons] at hcalls
          show (before ++ (number, next reply) :: rest).map Prod.fst = ongoing events
          rw [List.map_append, List.map_cons, hcalls]
      | @callEnded number before rest outcome heq =>
          refine ⟨?_, hnodup.filter _⟩
          rw [heq, List.map_append, List.map_cons] at hcalls
          rw [← hcalls] at hnodup
          -- no other call has the number
          have hother : ∀ m ∈ before.map Prod.fst ++ rest.map Prod.fst, m ≠ number :=
            fun m hm heq => (List.nodup_cons.mp (List.nodup_middle.mp hnodup)).1 (heq ▸ hm)
          show (before ++ rest).map Prod.fst = (ongoing events).filter _
          rw [← hcalls, List.filter_append, List.filter_cons_of_neg (by simp), ← List.filter_append,
            List.map_append]
          exact (List.filter_eq_self.mpr fun m hm => decide_eq_true (hother m hm)).symm
      | looped => exact ⟨hcalls, hnodup⟩
      | stopRequested => exact ⟨hcalls, hnodup⟩

/-- The calls in progress go on as their progress says, what a call has recorded is recorded, and no
event of a market is lost. -/
structure ListingsKept (events : List AppEvent) (s : Application) : Prop where
  calls : ∀ call ∈ s.calls, call.2.Meets CycleProgress.protocol (.of call.1 events)
    fun outcome progress => outcome.isOk = true → progress.Settled
  recorded : ∀ number, ∀ key ∈ (CycleProgress.of number events).recorded, s.store.HasEvent key
  settled : ∀ number ∉ ongoing events, (CycleProgress.of number events).Settled
  fresh : ∀ number, s.begun < number → CycleProgress.of number events = {}

/-- A call has recorded what its progress says. -/
theorem World.Serves.recorded {world world' : World} {question : Await} {reply : question.Reply}
    (h : world.Serves question reply world') {progress : CycleProgress} {key : String}
    (hkey : key ∈ (progress.after question reply).recorded) :
    key ∈ progress.recorded ∨ world'.store.HasEvent key := by
  cases question with
  | store op =>
      rcases h.does with ⟨exc, rfl, -⟩ | ⟨result, rfl, hdoes, -⟩
      · refine Or.inl ?_
        cases op <;> exact hkey
      · cases op with
        | record eventKey category symbol eventType now =>
            rcases List.mem_append.mp hkey with hold | hnew
            · exact Or.inl hold
            · obtain rfl := List.mem_singleton.mp hnew
              refine Or.inr ?_
              have hdoes : ite _ _ _ := hdoes
              split at hdoes
              · -- the event was there
                rename_i hknown
                rw [hdoes.2]
                obtain ⟨event, hevent, heq⟩ := List.any_eq_true.mp hknown
                exact ⟨event, hevent, of_decide_eq_true heq⟩
              · rw [hdoes.2]
                exact ⟨_, List.mem_append_right _ (List.mem_singleton_self _), rfl⟩
        | _ => exact Or.inl hkey
  | _ => exact Or.inl hkey

namespace ListingsKept

variable {config : AdmittedSettings} {events : List AppEvent} {event : AppEvent}
  {s s' : Application}

/-- A step that is none of a call keeps the invariant, if it ends no call. -/
theorem of_same (h : ListingsKept events s) (hgrows : s.store.Grows s'.store)
    (hprogress : ∀ number, CycleProgress.of number (events ++ [event]) = .of number events)
    (hongoing : ongoing (events ++ [event]) = ongoing events) (hcalls : s'.calls = s.calls)
    (hbegun : s'.begun = s.begun) : ListingsKept (events ++ [event]) s' := by
  refine ⟨fun call hcall => ?_, fun number key hkey => ?_, fun number hnot => ?_,
    fun number hlt => ?_⟩
  · rw [hprogress]
    exact h.calls call (hcalls ▸ hcall)
  · rw [hprogress] at hkey
    exact (h.recorded number key hkey).grows hgrows
  · rw [hprogress]
    exact h.settled number (hongoing ▸ hnot)
  · rw [hprogress]
    exact h.fresh number (hbegun ▸ hlt)

/-- A call asks a question: its progress goes on, and that of the others stays. -/
theorem callAsked (hrun : AppRun config events s) (h : ListingsKept events s) {number : ℕ}
    {before rest : List (ℕ × Coroutine Unit)} {question : Await}
    {next : question.Reply → Coroutine Unit} {reply : question.Reply} {world' : World}
    (heq : s.calls = before ++ (number, Program.ask question next) :: rest)
    (hserves : s.world.Serves question reply world') (hgrows : s.store.Grows world'.store) :
    ListingsKept (events ++ [.callAsked number question reply])
      { s with world := world', calls := before ++ (number, next reply) :: rest } := by
  obtain ⟨hnumbers, hnodup⟩ := hrun.ongoing_eq
  have hprogress (m : ℕ) :=
    CycleProgress.of_append m events (.callAsked number question reply)
  have hongoing : ongoing (events ++ [.callAsked number question reply]) = ongoing events :=
    ongoing_append events _
  have hmem : number ∈ ongoing events := by
    rw [← hnumbers, heq]
    simp
  -- the numbers of calls are distinct, so that the reply is part of one progress only
  have hdistinct : ∀ call ∈ before ++ rest, number ≠ call.1 := by
    rw [← hnumbers, heq, List.map_append, List.map_cons] at hnodup
    rintro call hcall rfl
    refine (List.nodup_cons.mp (List.nodup_middle.mp hnodup)).1 ?_
    rw [← List.map_append]
    exact List.mem_map.mpr ⟨call, hcall, rfl⟩
  have hother {m : ℕ} (hne : number ≠ m) :
      CycleProgress.of m (events ++ [.callAsked number question reply]) = .of m events :=
    (hprogress m).trans (if_neg hne)
  have hown : CycleProgress.of number (events ++ [.callAsked number question reply]) =
      (CycleProgress.of number events).after question reply :=
    (hprogress number).trans (if_pos rfl)
  refine ⟨fun call hcall => ?_, fun m key hkey => ?_, fun m hnot => ?_, fun m hlt => ?_⟩
  · rcases mem_middle.mp hcall with rfl | hothers
    · have hmeets := h.calls _ (heq ▸ List.mem_append_cons_self)
      rw [hown]
      exact hmeets.2 reply _ rfl
    · rw [hother (hdistinct call hothers)]
      exact h.calls call (heq ▸ mem_middle.mpr (Or.inr hothers))
  · -- the event that was recorded now, or one that was recorded before
    by_cases hm : number = m
    · subst hm
      rw [hown] at hkey
      rcases hserves.recorded hkey with hold | hnew
      · exact (h.recorded number key hold).grows hgrows
      · exact hnew
    · rw [hother hm] at hkey
      exact (h.recorded m key hkey).grows hgrows
  · rw [hongoing] at hnot
    rw [hother (ne_of_mem_of_not_mem hmem hnot)]
    exact h.settled m hnot
  · have hle := hrun.number_le (number, Program.ask question next)
      (heq ▸ List.mem_append_cons_self)
    rw [hother (Nat.ne_of_lt (Nat.lt_of_le_of_lt hle hlt))]
    exact h.fresh m hlt

/-- One step keeps the invariant, if it cuts no call with an event to record. -/
theorem step (hrun : AppRun config events s) (h : ListingsKept events s)
    (hspares : event.Spares events) (hstep : AppStep s event s') :
    ListingsKept (events ++ [event]) s' := by
  -- events are never removed, so that a recorded event stays recorded whoever takes the step
  have hgrows := hstep.grows hrun.outboxInvariant
  have hprogress (number : ℕ) := CycleProgress.of_append number events event
  have hongoing := ongoing_append events event
  have hrecorded
      (hsame : ∀ number, CycleProgress.of number (events ++ [event]) = .of number events)
      (number : ℕ) (key : String)
      (hkey : key ∈ (CycleProgress.of number (events ++ [event])).recorded) :
      s'.store.HasEvent key := by
    rw [hsame] at hkey
    exact (h.recorded number key hkey).grows hgrows
  cases hstep with
  | restarted config =>
      refine ⟨fun call hcall => (nomatch hcall), hrecorded hprogress, fun number _ => ?_,
        fun number hlt => ?_⟩
      · -- the calls in progress are cut
        rw [hprogress]
        by_cases hmem : number ∈ ongoing events
        · exact hspares number hmem
        · exact h.settled number hmem
      · rw [hprogress]
        exact h.fresh number hlt
  | cycled hcycle => exact h.of_same hgrows hprogress hongoing rfl rfl
  | began entry =>
      refine ⟨fun call hcall => ?_, hrecorded hprogress, fun number hnot => ?_,
        fun number hlt => ?_⟩
      · rw [hprogress]
        rcases List.mem_append.mp hcall with hold | hadded
        · exact h.calls call hold
        · rw [List.mem_singleton.mp hadded]
          show (entry.coroutine s.tracker).Meets _ (CycleProgress.of (s.begun + 1) events) _
          rw [h.fresh _ (Nat.lt_succ_self _)]
          exact entry.settles s.tracker
      · rw [hprogress]
        rw [hongoing] at hnot
        exact h.settled number fun hmem => hnot (List.mem_append_left _ hmem)
      · rw [hprogress]
        exact h.fresh number (Nat.lt_of_succ_lt hlt)
  -- the worker records nothing, and no call goes on
  | workerAsked hworker hserves => exact h.of_same hgrows hprogress hongoing rfl rfl
  | callAsked heq hserves => exact callAsked hrun h heq hserves hgrows
  | @callEnded number before rest outcome heq =>
      refine ⟨fun call hcall => ?_, hrecorded hprogress, fun m hnot => ?_, fun m hlt => ?_⟩
      · rw [hprogress]
        exact h.calls call (heq ▸ mem_middle.mpr (Or.inr hcall))
      · rw [hprogress]
        by_cases hm : m = number
        · subst hm
          -- the call has returned, or the condition says what it has recorded
          cases outcome with
          | error e => exact hspares
          | ok _ =>
              have hdone := h.calls _ (heq ▸ List.mem_append_cons_self)
              exact hdone rfl
        · refine h.settled m fun hmem => hnot ?_
          rw [hongoing]
          exact List.mem_filter.mpr ⟨hmem, decide_eq_true hm⟩
      · rw [hprogress]
        exact h.fresh m hlt
  | looped hworker => exact h.of_same hgrows hprogress hongoing rfl rfl
  | stopRequested => exact h.of_same hgrows hprogress hongoing rfl rfl

end ListingsKept

section Runs

variable {config : AdmittedSettings} {events : List AppEvent} {s : Application}

theorem AppRun.listingsKept (h : AppRun config events s)
    (hspares : Trace.EveryLabel events AppEvent.Spares) : ListingsKept events s := by
  induction h with
  | nil => exact ⟨fun call hcall => (nomatch hcall), fun _ key hkey => (nomatch hkey),
      fun _ _ key hkey => (nomatch hkey), fun _ _ => rfl⟩
  | snoc prior last ih =>
      obtain ⟨hbefore, hlast⟩ := Trace.everyLabel_snoc.mp hspares
      have hprior : AppRun config _ _ := prior
      exact (ih hbefore).step hprior hlast last

/-- In every run in which no call ends between the insertion of a market and the record of its
event, by an exception or with the process, the event of each market that was inserted as new is
recorded in every state after the end of its cycle. -/
theorem listings_kept (h : AppRun config events s)
    (hspares : Trace.EveryLabel events AppEvent.Spares) (number : ℕ)
    (hended : number ∉ s.calls.map Prod.fst) :
    ∀ key ∈ (CycleProgress.of number events).inserted, s.store.hasListing key = true := by
  have hkept := h.listingsKept hspares
  rw [h.ongoing_eq.1] at hended
  intro key hkey
  obtain ⟨event, hevent, rfl⟩ := hkept.recorded number key (hkept.settled number hended key hkey)
  exact List.any_eq_true.mpr ⟨event, hevent, decide_eq_true rfl⟩

end Runs

/-- The fetch that seeds the registry. -/
def seedFetch : List Instrument := [linearMarket "BTCUSDT" "BTC" statusTrading]

/-- A fetch with a market that has been listed since. -/
def listedFetch : List Instrument := seedFetch ++ [linearMarket "ABCUSDT" "ABC" statusTrading]

/-- The registry is seeded, and the next cycle is cut after some replies. -/
def cutCycleInputs (replies : ℕ) : List AppInput :=
  .begin (.discoverOnce (.ok seedFetch)) :: List.replicate 5 (.call 1 { now := 100 }) ++
    [.finish 1, .begin (.discoverOnce (.ok listedFetch))] ++
    List.replicate replies (.call 2 { now := 200 }) ++ [.restart .default]

/-- A cycle that is cut after it has recorded its event, and before it has notified it. -/
theorem listings_kept_recorded :
    (CycleProgress.of 2 (performAll .default (cutCycleInputs 6)).1).inserted =
        ["linear:ABCUSDT:trading"] ∧
      (performAll .default (cutCycleInputs 6)).2.store.hasListing
        "linear:ABCUSDT:trading" = true := by
  have hinserted : (CycleProgress.of 2 (performAll .default (cutCycleInputs 6)).1).inserted =
      ["linear:ABCUSDT:trading"] := by decide +kernel
  refine ⟨hinserted, listings_kept (run_performAll .default (cutCycleInputs 6)) (by decide +kernel)
    2 (by decide +kernel) _ ?_⟩
  rw [hinserted]
  exact List.mem_singleton_self _

/-- The discovery that an event begins: its number and its fetch. -/
def AppEvent.discovery : AppEvent → Option (ℕ × List Instrument)
  | .began number (.discoverOnce (.ok fetched)) => some (number, fetched)
  | _ => none

/-- The reconciliation that an event begins. -/
def AppEvent.reconciliation : AppEvent → Option ℕ
  | .began number .reconcileUnsent => some number
  | _ => none

/-- A cycle is followed by a reconciliation and by a cycle that return, and all fetches since are
the same. -/
structure Repeated (events : List AppEvent) (number : ℕ) (fetched : List Instrument) : Prop where
  began : (number, fetched) ∈ events.filterMap AppEvent.discovery
  unchanged : ∀ cycle ∈ events.filterMap AppEvent.discovery,
    number ≤ cycle.1 → cycle.2 = fetched
  recovered : ∃ between ∈ events.filterMap AppEvent.reconciliation,
    ∃ later ∈ events.filterMap AppEvent.discovery, number < between ∧ between < later.1 ∧
      between ∈ events.filterMap AppEvent.returnedCall ∧
      later.1 ∈ events.filterMap AppEvent.returnedCall

/-- The process dies after the registry is committed and before an event is recorded. The next one
reconciles its events and runs the cycle again. -/
def lostListingInputs : List AppInput :=
  cutCycleInputs 3 ++
    [.begin .reconcileUnsent, .call 3 { now := 300 }, .finish 3,
      .begin (.discoverOnce (.ok listedFetch))] ++
    List.replicate 5 (.call 4 { now := 400 }) ++ [.finish 4]

/-- The new market is in the registry, so that no later cycle takes it for new. -/
theorem listing_lost :
    ¬ ∀ (config : AdmittedSettings) (events : List AppEvent) (s : Application),
      AppRun config events s → ∀ (number : ℕ) (fetched : List Instrument),
        Repeated events number fetched →
          ∀ key ∈ (CycleProgress.of number events).inserted, s.store.hasListing key = true := by
  intro h
  have hrepeated : Repeated (performAll .default lostListingInputs).1 2 listedFetch :=
    ⟨by decide +kernel, by decide +kernel, by decide +kernel⟩
  have hrecorded := h _ _ _ (run_performAll .default lostListingInputs) 2 listedFetch hrepeated
    "linear:ABCUSDT:trading" (by decide +kernel)
  have hlost : (performAll .default lostListingInputs).2.store.hasListing
      "linear:ABCUSDT:trading" = false := by decide +kernel
  rw [hlost] at hrecorded
  cases hrecorded

end BybitMonitor
