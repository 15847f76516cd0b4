import Mathlib
import BybitMonitor.Market.ListingRun

/-!
# Reconciliation of the listing events

What `reconcile_unsent` achieves when it returns, and why a second reconciliation has nothing to do.

* `reconcile_idle`: on paired tables a reconciliation changes nothing.
* `listings_consistent`: the listing events and the outbox over every run.
-/

namespace BybitMonitor

open Program

/-- Every unsent event has its row, if the tracker enqueues. -/
def ListingTracker.Paired (self : ListingTracker) (store : Store) : Prop :=
  self.Enqueues → ∀ event ∈ store.unsent, store.HasRow event.eventKey

/-- The protocol of a party that asks in one state only. -/
def fixedProtocol (world : World) : Program.Protocol Await Await.Reply World where
  Allows world' _ := world' = world
  Moves := World.Serves

section Idle

variable {tracker : ListingTracker} {world : World}

/-- A query leaves the world as it is. -/
theorem query_meets {op : StoreOp} {post : Except Raised op.Result → World → Prop}
    (hquery : ∀ result store', op.Does world.store result store' → store' = world.store)
    (herror : ∀ exc, post (.error (.python exc)) world)
    (hok : ∀ result, op.Does world.store result world.store → post (.ok result) world) :
    (Coroutine.store op).Meets (fixedProtocol world) world post := by
  refine Coroutine.meets_store.mpr ⟨rfl, fun reply world' hserves => ?_⟩
  rcases World.Serves.does hserves with ⟨exc, rfl, rfl⟩ | ⟨result, rfl, hdoes, hworld⟩
  · exact herror exc
  · have hstore := hquery result _ hdoes
    rw [hstore] at hworld hdoes
    obtain rfl : world' = world := hworld
    exact hok result hdoes

/-- An unsent event that has its row, or is not notified, is left alone. -/
theorem repair_idle (houtbox : tracker.hasOutbox = true) (hconsistent : world.store.Consistent)
    (hpaired : tracker.Paired world.store) {event : ListingEvent}
    (hevent : event ∈ world.store.unsent) :
    (tracker.repair event).Meets (fixedProtocol world) world fun _ world' => world' = world := by
  obtain ⟨hmem, hunsent⟩ := List.mem_filter.mp hevent
  simp only [Bool.and_eq_true, Bool.not_eq_true', decide_eq_true_eq] at hunsent
  rw [ListingTracker.repair, if_pos houtbox]
  refine meets_bind.mpr (query_meets (fun _ _ h => h.2) (fun _ => rfl) fun row hdoes => ?_)
  have hfind : row = world.store.findNotificationByDedupe (listingDedupeKey event.eventKey) :=
    hdoes.1
  cases row with
  | none =>
      -- the event has no row, so that the tracker is silent
      have hsilent : ¬ tracker.Enqueues := by
        intro henqueues
        obtain ⟨row, hrow, hkey⟩ := hpaired henqueues event hevent
        have hnone := List.find?_eq_none.mp hfind.symm row hrow
        exact hnone (by simpa using hkey)
      refine meets_bind.mpr ?_
      rw [ListingTracker.notify, if_neg hunsent.2, if_pos ?_]
      · rfl
      · by_contra hloud
        simp only [Bool.or_eq_true, Bool.not_eq_true', not_or, Bool.not_eq_false] at hloud
        exact hsilent ⟨hloud.1, houtbox, hloud.2⟩
  | some row =>
      show (ite _ _ _ : Coroutine _).Meets _ _ _
      split
      · -- a sent row belongs to a flagged event
        rename_i hsent
        exfalso
        have hrow := List.mem_of_find?_eq_some hfind.symm
        have hkey : row.dedupeKey = some (listingDedupeKey event.eventKey) := by
          simpa using List.find?_some hfind.symm
        obtain ⟨other, hother, hlists⟩ := hconsistent.rows row hrow (Or.inr ⟨_, hkey⟩)
        have heq : other.eventKey = event.eventKey :=
          listingDedupeKey_injective (Option.some.inj (hlists.dedupeKey_eq.symm.trans hkey))
        obtain rfl := hconsistent.event_unique hmem hother heq
        rw [(hconsistent.sent row hrow other hother hlists).mp hsent] at hunsent
        exact Bool.noConfusion hunsent.1
      · rfl

/-- On paired tables a reconciliation changes nothing, wherever it stands. -/
theorem reconcile_idle (houtbox : tracker.hasOutbox = true) (hconsistent : world.store.Consistent)
    (hpaired : tracker.Paired world.store) {p : Coroutine ℕ} {world' : World}
    (hrun : Reaches World.Serves tracker.reconcileUnsent world p world') : world' = world := by
  have hmeets : tracker.reconcileUnsent.Meets (fixedProtocol world) world
      fun _ world' => world' = world := by
    refine meets_bind.mpr (query_meets (fun _ _ h => h.2) (fun _ => rfl) fun events hdoes => ?_)
    obtain rfl : events = world.store.unsent := hdoes.1
    refine meets_bind.mpr (meets_gather (fun rest world' => world' = world ∧
      ∀ event ∈ rest, event ∈ world.store.unsent) ?_ ?_ ⟨rfl, fun _ h => h⟩)
    · rintro event rest world' ⟨rfl, hrest⟩
      refine (repair_idle houtbox hconsistent hpaired
        (hrest event List.mem_cons_self)).mono fun outcome world' hend => ?_
      cases outcome with
      | ok _ => exact ⟨hend, fun other hother => hrest other (List.mem_cons_of_mem _ hother)⟩
      | error e => exact hend
    · exact fun _ world' hend => hend.1
  have hreached := @Meets.reaches _ _ _ _ _ (fixedProtocol world) _ _ _ _ _ hmeets hrun
  cases p with
  | done outcome => exact hreached
  | ask question next => exact hreached.1

end Idle

/-! ## Runs -/

/-- An operation other than `record` adds no event. -/
theorem StoreOp.Does.events_old {op : StoreOp} {store store' : Store} {result : op.Result}
    (h : op.Does store result store') (hop : ∀ eventKey category symbol eventType now,
      op ≠ .record eventKey category symbol eventType now) :
    ∀ event' ∈ store'.listingEvents, ∃ event ∈ store.listingEvents, event.MovesTo event' := by
  rcases h.listingEvents with hsame | ⟨eventKey, hflag⟩ | ⟨_, _, _, _, _, _, hrecord, -⟩
  · rw [hsame]
    exact fun event hevent => ⟨event, hevent, .refl event⟩
  · rw [hflag]
    intro event' hevent'
    obtain ⟨event, hevent, rfl⟩ := Store.mem_updateListing.mp hevent'
    refine ⟨event, hevent, ?_⟩
    split
    · exact ⟨rfl, rfl, fun _ => rfl⟩
    · exact .refl event
  · exact absurd hrecord (hop _ _ _ _ _)

/-- What a reconciliation asks: it records no event. -/
def Await.recordsNothing : Await → Prop
  | .store (.record ..) => False
  | _ => True

/-- A run that goes on without other listing calls records no event. -/
structure NothingRecorded (number : ℕ) (store : Store) (t : Application) : Prop where
  begun : number ≤ t.begun
  asks : ∀ call ∈ t.calls, call.1 = number → call.2.Asks Await.recordsNothing
  events : ∀ event' ∈ t.store.listingEvents, ∃ event ∈ store.listingEvents, event.MovesTo event'

theorem NothingRecorded.step {number : ℕ} {store : Store} {t t' : Application} {event : AppEvent}
    {events : List AppEvent} (hs : OutboxInvariant events t) (h : NothingRecorded number store t)
    (hstep : AppStep t event t')
    (hother : ∀ m question reply, event = .callAsked m question reply → m = number) :
    NothingRecorded number store t' := by
  have hserves {question : Await} {reply : question.Reply} {world' : World}
      (hserves : t.world.Serves question reply world') (hquestion : question.recordsNothing) :
      ∀ event' ∈ world'.store.listingEvents, ∃ event ∈ store.listingEvents,
        event.MovesTo event' := by
    cases question with
    | store op =>
        rcases hserves.does with ⟨exc, -, rfl⟩ | ⟨result, -, hdoes, -⟩
        · exact h.events
        · intro event' hevent'
          obtain ⟨event, hevent, hmoves⟩ := hdoes.events_old
            (fun _ _ _ _ _ heq => by subst heq; exact hquestion) event' hevent'
          obtain ⟨old, hold, hmoves'⟩ := h.events event hevent
          exact ⟨old, hold, hmoves'.trans hmoves⟩
    | _ =>
        rw [hserves.store_eq fun op => nofun]
        exact h.events
  cases hstep with
  | restarted config => exact ⟨h.begun, fun call hcall => (nomatch hcall), h.events⟩
  | cycled hcycle => exact ⟨h.begun, h.asks, h.events⟩
  | began entry =>
      refine ⟨Nat.le_succ_of_le h.begun, fun call hcall heq => ?_, h.events⟩
      rcases List.mem_append.mp hcall with hold | hadded
      · exact h.asks call hold heq
      · rw [List.mem_singleton.mp hadded] at heq
        have hbegun := h.begun
        omega
  | @workerAsked question next reply world' hworker hserved =>
      refine ⟨h.begun, h.asks, hserves hserved ?_⟩
      -- the worker records nothing
      have hallows := (hs.worker _ hworker).1.1
      cases question with
      | store op =>
          have hoperates := WorkerStage.operates_of_allows hallows
          generalize WorkerStage.of events = stage at hoperates
          cases hoperates <;> trivial
      | _ => trivial
  | @callAsked m before rest question next reply world' heq hserved =>
      obtain rfl : m = number := hother m question reply rfl
      have hasks := h.asks _ (heq ▸ List.mem_append_cons_self) rfl
      refine ⟨h.begun, fun call hcall hnumber => ?_, hserves hserved hasks.1⟩
      rcases mem_middle.mp hcall with rfl | hothers
      · exact hasks.2 reply
      · exact h.asks call (heq ▸ mem_middle.mpr (Or.inr hothers)) hnumber
  | callEnded heq =>
      refine ⟨h.begun, fun call hcall => h.asks call ?_, h.events⟩
      exact heq ▸ mem_middle.mpr (Or.inr hcall)
  | looped hworker => exact ⟨h.begun, h.asks, h.events⟩
  | stopRequested => exact ⟨h.begun, h.asks, h.events⟩

/-- The calls in progress were numbered when they began. -/
theorem AppRun.number_le {config : AdmittedSettings} {events : List AppEvent} {s : Application}
    (h : AppRun config events s) : ∀ call ∈ s.calls, call.1 ≤ s.begun := by
  induction h with
  | nil => exact fun call hcall => nomatch hcall
  | @snoc events s event s' prior last ih =>
      cases last with
      | restarted config => exact fun call hcall => nomatch hcall
      | cycled hcycle => exact ih
      | began entry =>
          intro call hcall
          rcases List.mem_append.mp hcall with hold | hadded
          · exact Nat.le_succ_of_le (ih call hold)
          · rw [List.mem_singleton.mp hadded]
      | workerAsked => exact ih
      | @callAsked m before rest question next reply world' heq hserved =>
          intro call hcall
          rcases mem_middle.mp hcall with rfl | hother
          · exact ih (m, ask question next) (heq ▸ List.mem_append_cons_self)
          · exact ih call (heq ▸ mem_middle.mpr (Or.inr hother))
      | callEnded heq =>
          exact fun call hcall => ih call (heq ▸ mem_middle.mpr (Or.inr hcall))
      | looped => exact ih
      | stopRequested => exact ih

/-- The invariant over a later part of a run, for ends that new calls have anyway. -/
theorem ListingInvariant.trace {config : AdmittedSettings} {events later : List AppEvent}
    {s s' : Application} {post : ℕ → Except Raised Unit → World → Prop}
    (hrun : AppRun config events s)
    (hs : ListingInvariant post s) (htrace : Trace AppStep s later s')
    (hlater : ∀ event ∈ later, event.isEnqueue = false)
    (hstable : ∀ number outcome a b, post number outcome a → a.store.Grows b.store →
      post number outcome b)
    (hnew : ∀ number outcome world, s.begun < number → post number outcome world) :
    ListingInvariant post s' := by
  have hinvariant : ListingInvariant post s' ∧ s.begun ≤ s'.begun := by
    induction htrace with
    | nil => exact ⟨hs, Nat.le_refl _⟩
    | @snoc later t event t' prior last ih =>
        obtain ⟨ht, hbegun⟩ := ih fun event hevent => hlater event (List.mem_append_left _ hevent)
        have hlast := hlater event (List.mem_append_right _ (List.mem_singleton_self _))
        have hprior : AppRun config (events ++ later) t := hrun.append prior
        refine ⟨ht.step hprior.outboxInvariant last hlast hstable fun outcome world =>
          hnew _ outcome world (Nat.lt_succ_of_le hbegun), ?_⟩
        cases last <;> first | exact hbegun | exact Nat.le_succ_of_le hbegun
  exact hinvariant.1

/-- Every run of listing calls keeps the tables consistent. -/
theorem AppRun.listingInvariant {config : AdmittedSettings} {events : List AppEvent}
    {s : Application} (h : AppRun config events s)
    (hcalls : ∀ event ∈ events, event.isEnqueue = false) :
    ListingInvariant (fun _ _ _ => True) s := by
  have hstart : ListingInvariant (fun _ _ _ => True) (Application.start config {} 0) := by
    refine ⟨⟨?_, ?_, ?_, List.nodup_nil, ?_⟩, fun call hcall => nomatch hcall⟩
    · exact fun row hrow => nomatch hrow
    · exact fun row hrow => nomatch hrow
    · exact fun event hevent => nomatch hevent
    · exact fun event hevent => nomatch hevent
  exact hstart.trace Trace.nil h hcalls (fun _ _ _ _ _ _ => trivial) fun _ _ _ _ => trivial

/-- A run lets the tables grow. -/
theorem AppRun.grows {config : AdmittedSettings} {events later : List AppEvent}
    {s s' : Application} (h : AppRun config events s) (htrace : Trace AppStep s later s') :
    s.store.Grows s'.store := by
  induction htrace with
  | nil => exact .refl _
  | snoc prior last ih =>
      have hprior : AppRun config _ _ := h.append prior
      exact ih.trans (last.grows hprior.outboxInvariant)

section Reconciled

variable {config : AdmittedSettings} {events later : List AppEvent} {s s₁ s₂ s₃ : Application}
  {number : ℕ}

/-- A reconciliation that returns has paired the events that were recorded when it began. -/
theorem AppRun.reconciled (h : AppRun config events s)
    (hcalls : ∀ event ∈ events, event.isEnqueue = false)
    (hbegan : AppStep s (.began number .reconcileUnsent) s₁) (htrace : Trace AppStep s₁ later s₂)
    (hlater : ∀ event ∈ later, event.isEnqueue = false)
    (hended : AppStep s₂ (.callEnded number (.ok ())) s₃) (henqueues : s.tracker.Enqueues) :
    ∀ event ∈ s.store.listingEvents, event.eventType ≠ .delisted →
      s₃.store.HasRow event.eventKey := by
  have hrun : AppRun config (events ++ [.began number .reconcileUnsent]) s₁ := h.snoc hbegan
  have hs := h.listingInvariant hcalls
  cases hbegan with
  | began entry =>
      let keys := (s.store.listingEvents.filter (·.eventType ≠ .delisted)).map ListingEvent.eventKey
      let post (n : ℕ) (outcome : Except Raised Unit) (world : World) : Prop :=
        n = s.begun + 1 → outcome = .ok () → ∀ key ∈ keys, world.store.HasRow key
      have hkeys : ∀ key ∈ keys, ∃ event ∈ s.world.store.listingEvents,
          event.eventKey = key ∧ event.eventType ≠ .delisted := by
        intro key hkey
        obtain ⟨event, hevent, rfl⟩ := List.mem_map.mp hkey
        obtain ⟨hmem, hlisted⟩ := List.mem_filter.mp hevent
        exact ⟨event, hmem, rfl, of_decide_eq_true hlisted⟩
      have hpost : ListingInvariant post { s with
          calls := s.calls ++ [(s.begun + 1, EntryPoint.reconcileUnsent.coroutine s.tracker)]
          begun := s.begun + 1 } := by
        refine ⟨hs.consistent, fun call hcall => ?_⟩
        rcases List.mem_append.mp hcall with hold | hadded
        · have hle := h.number_le call hold
          exact (hs.calls call hold).mono fun outcome world _ hnumber => by omega
        · rw [List.mem_singleton.mp hadded]
          refine meets_bind.mpr ((reconcileUnsent_meets hkeys).mono fun outcome world hend => ?_)
          cases outcome with
          | error e =>
              intro _ h
              cases h
          | ok count => exact fun _ _ => hend ⟨count, rfl⟩ henqueues
      have hreached := hpost.trace hrun htrace hlater
        (fun _ _ _ _ hrows hgrows hnumber hok key hkey => (hrows hnumber hok key hkey).grows hgrows)
        (fun number _ _ hlt hnumber => by simp only [hnumber] at hlt; omega)
      cases hended with
      | callEnded heq =>
          intro event hevent hlisted
          have hdone := hreached.calls _ (heq ▸ List.mem_append_cons_self)
          refine hdone rfl rfl event.eventKey (List.mem_map_of_mem ?_)
          exact List.mem_filter.mpr ⟨hevent, decide_eq_true hlisted⟩

/-- Between its begin and its end, a reconciliation without other listing calls finds no new
event. -/
theorem AppRun.nothingRecorded (h : AppRun config events s)
    (hbegan : AppStep s (.began number .reconcileUnsent) s₁) (htrace : Trace AppStep s₁ later s₂)
    (hother : ∀ m question reply, .callAsked m question reply ∈ later → m = number) :
    NothingRecorded number s.store s₂ := by
  have hrun : AppRun config (events ++ [.began number .reconcileUnsent]) s₁ := h.snoc hbegan
  have hstart : NothingRecorded number s.store s₁ := by
    cases hbegan with
    | began entry =>
        refine ⟨Nat.le_refl _, fun call hcall hnumber => ?_, fun event hevent =>
          ⟨event, hevent, .refl event⟩⟩
        rcases List.mem_append.mp hcall with hold | hadded
        · have hle := h.number_le call hold
          omega
        · rw [List.mem_singleton.mp hadded]
          refine asks_bind ?_ fun _ => trivial
          exact asks_reconcileUnsent trivial (fun _ => trivial) (fun _ => trivial)
            (fun _ => trivial) trivial s.tracker
  induction htrace with
  | nil => exact hstart
  | @snoc later t event t' prior last ih =>
      have hprior : AppRun config _ t := hrun.append prior
      refine (ih fun m question reply hmem => hother m question reply
        (List.mem_append_left _ hmem)).step hprior.outboxInvariant last
        fun m question reply heq => ?_
      exact hother m question reply (List.mem_append_right _ (List.mem_singleton.mpr heq.symm))

end Reconciled

/-- Over every run of listing calls, the worker and alert cycles: the listing events agree with the
outbox, an event has at most one row over the life of the database, `reconcile_unsent` has paired
the unsent events when it returns, and doing it again changes nothing. -/
theorem listings_consistent {config : AdmittedSettings} {events : List AppEvent} {s : Application}
    (h : AppRun config events s) (hcalls : ∀ event ∈ events, event.isEnqueue = false) :
    s.store.Consistent ∧
      (∀ later s', Trace AppStep s later s' → ∀ eventKey, ∀ row ∈ s.store.outgoing,
        ∀ row' ∈ s'.store.outgoing, row.dedupeKey = some (listingDedupeKey eventKey) →
          row'.dedupeKey = some (listingDedupeKey eventKey) → row'.id = row.id) ∧
      ∀ number s₁ later s₂ s₃, AppStep s (.began number .reconcileUnsent) s₁ →
        Trace AppStep s₁ later s₂ → (∀ event ∈ later, event.isEnqueue = false) →
        AppStep s₂ (.callEnded number (.ok ())) s₃ →
          (s.config.listingNotificationsEnabled = true → ∀ event ∈ s.store.unsent,
            ∃ row ∈ s₃.store.outgoing, row.Lists event) ∧
          ((∀ m question reply, .callAsked m question reply ∈ later → m = number) →
            ∀ p world', Reaches World.Serves s.tracker.reconcileUnsent s₃.world p world' →
              world' = s₃.world) := by
  have hs := h.listingInvariant hcalls
  refine ⟨hs.consistent, fun later s' htrace eventKey row hrow row' hrow' hkey hkey' => ?_,
    fun number s₁ later s₂ s₃ hbegan htrace hlater hended => ?_⟩
  · -- the row is still there, and the index allows no other one
    obtain ⟨kept, hkept, hmoves⟩ := (h.grows htrace).rows row hrow
    have hrun : AppRun config (events ++ later) s' := h.append htrace
    have hsame := hrun.outboxInvariant.service.wellKeyed.row_unique hrow' hkept hkey'
      (hmoves.notice.dedupeKey_eq.trans hkey)
    rw [hsame]
    exact hmoves.notice.id_eq
  · have hrun : AppRun config (events ++ [.began number .reconcileUnsent]) s₁ := h.snoc hbegan
    have hs₁ : ListingInvariant (fun _ _ _ => True) s₁ := by
      refine hs.step h.outboxInvariant hbegan rfl (fun _ _ _ _ _ _ => trivial) fun _ _ => trivial
    have hs₂ : ListingInvariant (fun _ _ _ => True) s₂ :=
      hs₁.trace hrun htrace hlater (fun _ _ _ _ _ _ => trivial) fun _ _ _ _ => trivial
    have hstore : s₃.world = s₂.world := by
      cases hended
      rfl
    have hconsistent : s₃.store.Consistent := by
      rw [Application.store, hstore]
      exact hs₂.consistent
    have hreconciled := h.reconciled hcalls hbegan htrace hlater hended
    refine ⟨fun henabled event hevent => ?_, fun hother p world' hreaches => ?_⟩
    · obtain ⟨hmem, hunsent⟩ := List.mem_filter.mp hevent
      simp only [Bool.and_eq_true, decide_eq_true_eq] at hunsent
      obtain ⟨row, hrow, hkey⟩ := hreconciled ⟨rfl, rfl, henabled⟩ event hmem hunsent.2
      obtain ⟨other, -, hlists⟩ := hconsistent.rows row hrow (Or.inr ⟨_, hkey⟩)
      have heq : other.eventKey = event.eventKey :=
        listingDedupeKey_injective (Option.some.inj (hlists.dedupeKey_eq.symm.trans hkey))
      exact ⟨row, hrow, hlists.originType_eq, heq ▸ hlists.originKey_eq, hkey⟩
    · refine reconcile_idle rfl hconsistent (fun henqueues event hevent => ?_) hreaches
      -- an event that is unsent now was recorded when the reconciliation began
      obtain ⟨hmem, hunsent⟩ := List.mem_filter.mp hevent
      simp only [Bool.and_eq_true, decide_eq_true_eq] at hunsent
      have hnothing := h.nothingRecorded hbegan htrace hother
      rw [hstore] at hmem
      obtain ⟨old, hold, hmoves⟩ := hnothing.events event hmem
      rw [hmoves.eventKey_eq]
      exact hreconciled henqueues old hold (hmoves.eventType_eq ▸ hunsent.2)

/-- A new market is recorded, and the process dies before the event is notified. -/
def lostNotificationInputs : List AppInput :=
  let event : RegistryEvent :=
    { category := "linear"
      symbol := "ABCUSDT"
      baseCoin := "ABC"
      event := .new
      newStatus := some statusTrading }
  .begin (.handleRegistry { events := [event] }) :: List.replicate 2 (.call 1 { now := 100 }) ++
    [.restart .default]

/-- The application after the restart. -/
def lostNotification : Application := (performAll .default lostNotificationInputs).2

/-- The reconciliation after the restart has begun. -/
def reconciling : Application :=
  { lostNotification with
    calls := lostNotification.calls ++ [(lostNotification.begun + 1,
      EntryPoint.reconcileUnsent.coroutine lostNotification.tracker)]
    begun := lostNotification.begun + 1 }

/-- The reconciliation has run. -/
def reconciled : List AppEvent × Application :=
  Trace.exec Application.perform reconciling [] (List.replicate 5 (.call 2 { now := 200 }))

/-- The call that an event is the return of. -/
def AppEvent.returnedCall : AppEvent → Option ℕ
  | .callEnded number (.ok _) => some number
  | _ => none

theorem AppEvent.eq_of_returnedCall {event : AppEvent} {number : ℕ}
    (h : event.returnedCall = some number) : event = .callEnded number (.ok ()) := by
  cases event with
  | callEnded other outcome =>
      cases outcome with
      | error e => cases h
      | ok _ =>
          cases h
          rfl
  | _ => cases h

/-- The reconciliation enqueues the notification that was lost. -/
theorem listings_consistent_recovered :
    lostNotification.store.unsent ≠ [] ∧ lostNotification.store.outgoing = [] ∧
      ∃ s₃, AppStep reconciled.2 (.callEnded 2 (.ok ())) s₃ ∧
        ∀ event ∈ lostNotification.store.unsent, ∃ row ∈ s₃.store.outgoing, row.Lists event := by
  have hbegan : AppStep lostNotification (.began 2 .reconcileUnsent) reconciling :=
    .began .reconcileUnsent
  have htrace : Trace AppStep reconciling reconciled.1 reconciled.2 :=
    @Trace.exec_trace _ _ AppStep _ _ _ _ Application.perform
      (fun _ _ _ _ h => Application.perform_step h) _ Trace.nil
  obtain ⟨⟨event, s₃⟩, hfinish⟩ : ∃ result, reconciled.2.perform (.finish 2) = some result :=
    Option.isSome_iff_exists.mp (by decide +kernel)
  have hended := Application.perform_step hfinish
  -- the reconciliation has returned
  have hreturned : (reconciled.2.perform (.finish 2)).all (·.1.returnedCall = some 2) = true := by
    decide +kernel
  rw [hfinish, Option.all_some] at hreturned
  obtain rfl := AppEvent.eq_of_returnedCall (of_decide_eq_true hreturned)
  have hlistings := listings_consistent (run_performAll .default lostNotificationInputs)
    (by decide +kernel)
  exact ⟨by decide +kernel, by decide +kernel, s₃, hended,
    (hlistings.2.2 2 reconciling _ _ s₃ hbegan htrace (by decide +kernel) hended).1 rfl⟩

end BybitMonitor
