import Mathlib
import BybitMonitor.Alerts.ServiceRun

/-!
# The alert state and the outbox agree

The row of `alert_state` and the rows of the outbox are written in one transaction, so that they
agree in every state of a run, whichever database operation of whichever call raises.

* `Agrees`: the time that the row stores for a kind of message is the one of the call that has
  inserted the newest message of this kind.
* `alertState_agrees_with_outbox`: both kinds agree after every run, a call that fails changes
  nothing, and the dispatcher is fed committed rows only.
-/

namespace BybitMonitor

variable {config : AdmittedSettings} {events : List ServiceEvent} {s s' : ServiceState}

/-- The call of a run whose step added the row with this id. -/
def InsertedBy (config : AdmittedSettings) (events : List ServiceEvent) (id : ℕ) (call : Call) :
    Prop :=
  ∃ earlier reply later before after, events = earlier ++ (.process call, reply) :: later ∧
    ServiceRun config earlier before ∧
    ServiceRun config (earlier ++ [(.process call, reply)]) after ∧
    (∀ row ∈ before.tables.outgoing, row.id ≠ id) ∧ ∃ row ∈ after.tables.outgoing, row.id = id

/-- The row with the highest id among those with this tag. -/
def IsNewest (tables : Tables) (tag : String) (row : OutgoingNotification) : Prop :=
  row ∈ tables.outgoing ∧ row.messageTag = tag ∧
    ∀ other ∈ tables.outgoing, other.messageTag = tag → other.id ≤ row.id

/-- The stored time of a kind of message is the time of the call that has inserted its newest row,
and it is missing exactly if there is no such row. -/
structure Agrees (config : AdmittedSettings) (events : List ServiceEvent) (tables : Tables)
    (kind : AlertKind) (last : Option ℤ) : Prop where
  none_iff : last = none ↔ ∀ row ∈ tables.outgoing, row.messageTag ≠ kind.tag
  newest : ∀ row, IsNewest tables kind.tag row →
    ∃ call, InsertedBy config events row.id call ∧ last = some call.now

/-- A call that has inserted a row stays that call when the run goes on. -/
theorem InsertedBy.append {id : ℕ} {call : Call} (h : InsertedBy config events id call)
    (event : ServiceEvent) : InsertedBy config (events ++ [event]) id call := by
  obtain ⟨earlier, reply, later, before, after, rfl, hrest⟩ := h
  exact ⟨earlier, reply, later ++ [event], before, after, by simp, hrest⟩

/-- Rows of other kinds do not matter. -/
theorem Agrees.append_others {tables tables' : Tables} {kind : AlertKind} {last : Option ℤ}
    {rows : List OutgoingNotification} (h : Agrees config events tables kind last)
    (event : ServiceEvent) (houtgoing : tables'.outgoing = tables.outgoing ++ rows)
    (hothers : ∀ row ∈ rows, row.messageTag ≠ kind.tag) :
    Agrees config (events ++ [event]) tables' kind last := by
  -- the rows of this kind are the old ones
  have hsame (P : OutgoingNotification → Prop) :
      (∀ row ∈ tables'.outgoing, row.messageTag = kind.tag → P row) ↔
        ∀ row ∈ tables.outgoing, row.messageTag = kind.tag → P row := by
    rw [houtgoing]
    constructor
    · intro hall row hrow
      exact hall row (List.mem_append_left _ hrow)
    · intro hall row hrow htag
      rcases List.mem_append.mp hrow with hrow | hrow
      · exact hall row hrow htag
      · exact absurd htag (hothers row hrow)
  constructor
  · rw [h.none_iff]
    exact (hsame fun _ => False).symm
  · rintro row ⟨hrow, htag, hmax⟩
    rw [houtgoing] at hrow
    rcases List.mem_append.mp hrow with hrow | hrow
    · obtain ⟨call, hcall, hlast⟩ := h.newest row ⟨hrow, htag, (hsame _).mp hmax⟩
      exact ⟨call, hcall.append event, hlast⟩
    · exact absurd htag (hothers row hrow)

/-- A new row of the kind becomes the newest one. -/
theorem agrees_of_append_new {kind : AlertKind} {call : Call} {reply : Reply}
    {row : OutgoingNotification} (hrun : ServiceRun config events s)
    (hstep : ServiceStep s (.process call, reply) s') (hkeyed : s.tables.WellKeyed)
    (houtgoing : s'.tables.outgoing = s.tables.outgoing ++ [row])
    (hid : row.id = s.tables.outgoingSequence + 1) (htag : row.messageTag = kind.tag) :
    Agrees config (events ++ [(.process call, reply)]) s'.tables kind (some call.now) := by
  have hmem : row ∈ s'.tables.outgoing := by simp [houtgoing]
  have hnew : ∀ old ∈ s.tables.outgoing, old.id < row.id := fun old hold =>
    hid ▸ Nat.lt_succ_of_le (hkeyed.id_le old hold)
  constructor
  · refine iff_of_false (by simp) fun hnone => hnone row hmem htag
  · rintro newest ⟨hnewest, -, hmax⟩
    -- an old row would lie below the new one
    have heq : newest = row := by
      rw [houtgoing] at hnewest
      rcases List.mem_append.mp hnewest with hold | hold
      · exact absurd (hmax row hmem htag) (not_le.mpr (hnew newest hold))
      · exact List.mem_singleton.mp hold
    refine ⟨call, ?_, rfl⟩
    rw [heq]
    refine ⟨events, reply, [], s, s', rfl, hrun, hrun.snoc hstep, ?_, row, hmem, rfl⟩
    intro old hold
    exact Nat.ne_of_lt (hnew old hold)

theorem AlertKind.tag_injective : Function.Injective AlertKind.tag := by
  intro kind other h
  cases kind <;> cases other <;> first | rfl | exact absurd h (by decide)

/-- A committed call that updates the stored time of exactly the kind of its message. -/
theorem Agrees.commit {kind : AlertKind} {last last' : Option ℤ} {call : Call} {reply : Reply}
    {decision : AlertDecision} {state : AlertState} {alert : Option OutgoingAlert}
    {tables' : Tables} {fed : Option ℕ}
    (h : Agrees config events s.tables kind last) (hrun : ServiceRun config events s)
    (hstep : ServiceStep s (.process call, reply) (s.withTables tables'))
    (hplanned : Planned s.service.config s.stored call decision state alert)
    (hcommits : Commits s.tables call state alert tables' fed)
    (hnew : decision.kind = some kind → last' = some call.now)
    (hold : decision.kind ≠ some kind → last' = last) :
    Agrees config (events ++ [(.process call, reply)]) tables' kind last' := by
  -- the time moves exactly when the message is of this kind
  cases alert with
  | none =>
      have hkind : decision.kind = none := hplanned.kind_eq.symm
      rw [hold (by rw [hkind]; simp)]
      exact h.append_others _ hcommits.outgoing_eq (by simp)
  | some a =>
      have hkind : decision.kind = some a.kind := hplanned.kind_eq.symm
      by_cases hsame : a.kind = kind
      · rw [hnew (by rw [hkind, hsame])]
        exact agrees_of_append_new hrun hstep hrun.invariant.wellKeyed hcommits.outgoing_eq rfl
          (by rw [← hsame]; rfl)
      · rw [hold (by rw [hkind]; simpa using hsame)]
        refine h.append_others _ hcommits.outgoing_eq fun row hrow htag => hsame ?_
        rw [Option.toList_some, List.map_singleton, List.mem_singleton] at hrow
        rw [hrow] at htag
        exact AlertKind.tag_injective htag

/-- Both stored times agree with the outbox after every run. -/
theorem ServiceRun.agrees (h : ServiceRun config events s) :
    Agrees config events s.tables .transition s.stored.lastTransitionAt ∧
      Agrees config events s.tables .composition s.stored.lastCompositionAt := by
  -- induction on the run; a step that rolls back appends an event to the same tables
  induction h with
  | nil =>
      refine ⟨⟨?_, ?_⟩, ⟨?_, ?_⟩⟩
      · exact iff_of_true rfl (by simp [ServiceState.tables, ServiceState.start])
      · rintro row ⟨hrow, -⟩
        simp [ServiceState.tables, ServiceState.start] at hrow
      · exact iff_of_true rfl (by simp [ServiceState.tables, ServiceState.start])
      · rintro row ⟨hrow, -⟩
        simp [ServiceState.tables, ServiceState.start] at hrow
  | @snoc events s event s' prior last ih =>
      obtain ⟨htransition, hcomposition⟩ := ih
      have hs := ServiceRun.invariant prior
      have hunchanged : Agrees config (events ++ [event]) s.tables .transition
          s.stored.lastTransitionAt ∧ Agrees config (events ++ [event]) s.tables .composition
          s.stored.lastCompositionAt :=
        ⟨htransition.append_others event (List.append_nil _).symm (by simp),
          hcomposition.append_others event (List.append_nil _).symm (by simp)⟩
      cases last.move hs with
      | committed hplan hcommits =>
          have hplanned := hs.planned hplan
          have hspec := hplanned.spec
          rw [hcommits.stored_eq]
          constructor
          · refine htransition.commit prior last hplanned hcommits (fun hkind => ?_) fun hkind => ?_
            · have hlive := AlertDecision.kind_eq_transition_iff.mp hkind
              exact hspec.lastTransitionAt_eq.trans (if_pos hlive)
            · have hlive := mt AlertDecision.kind_eq_transition_iff.mpr hkind
              exact hspec.lastTransitionAt_eq.trans (if_neg hlive)
          · refine hcomposition.commit prior last hplanned hcommits (fun hkind => ?_)
              fun hkind => ?_
            · have hupdate := hspec.kind_eq_composition_iff.mp hkind
              exact hspec.lastCompositionAt_eq.trans (if_pos hupdate)
            · have hupdate := mt hspec.kind_eq_composition_iff.mpr hkind
              exact hspec.lastCompositionAt_eq.trans (if_neg hupdate)
      | enqueued hfresh =>
          refine ⟨htransition.append_others _ rfl ?_, hcomposition.append_others _ rfl ?_⟩
          · intro row hrow
            rw [List.mem_singleton.mp hrow]
            exact (by decide : "listing" ≠ "transition")
          · intro row hrow
            rw [List.mem_singleton.mp hrow]
            exact (by decide : "listing" ≠ "composition")
      | _ => exact hunchanged

/-- After every run the stored times agree with the outbox, and whatever call comes next: if it
fails it changes no table, and if it feeds a row to the dispatcher, that row is committed. -/
theorem alertState_agrees_with_outbox (config : AdmittedSettings) {events : List ServiceEvent}
    {s : ServiceState} (h : ServiceRun config events s) :
    Agrees config events s.tables .transition s.stored.lastTransitionAt ∧
      Agrees config events s.tables .composition s.stored.lastCompositionAt ∧
      ∀ (call : Call) (outcome : Except PyExc AlertDecision) (fed : Option ℕ) (s' : ServiceState),
        ServiceStep s (.process call, .processed outcome fed) s' →
        (∀ exc, outcome = .error exc → s'.tables = s.tables) ∧
          ∀ id ∈ fed, ∃ row ∈ s'.tables.outgoing, row.id = id := by
  refine ⟨h.agrees.1, h.agrees.2, fun call outcome fed s' hstep => ?_⟩
  cases hstep.move h.invariant with
  | unplanned hplan => exact ⟨fun _ _ => rfl, by simp⟩
  | rolledBack hplan hcause => exact ⟨fun _ _ => rfl, by simp⟩
  | suppressed hplan hcause => exact ⟨by simp, by simp⟩
  | @committed _ _ _ _ tables' _ hplan hcommits =>
      refine ⟨by simp, fun id hid => ?_⟩
      rw [hcommits.fed_eq] at hid
      obtain ⟨a, rfl, rfl⟩ := Option.map_eq_some_iff.mp hid
      have hrow : s.tables.newRow a.kind.tag a.message call.createdAt (some a.key) none none ∈
          (s.withTables tables').tables.outgoing := by
        rw [ServiceState.withTables_tables, hcommits.outgoing_eq]
        exact List.mem_append_right _ (List.mem_singleton_self _)
      exact ⟨_, hrow, rfl⟩

/-- A transition whose commit fails is announced by the next call, through a restart. -/
theorem transition_after_failed_commit :
    let config : AdmittedSettings :=
      { toSettings := { alertDebounceSeconds := 0 }, admitted := by decide +kernel }
    let run := serveAll config
      [.process { qualifying := .ofCoins ["BTC"], now := 1000,
                  faults := { commit := some .databaseError } },
        .restart config, .process { qualifying := .ofCoins ["BTC"], now := 1010 }]
    run.2.tables.outgoing.map OutgoingNotification.messageTag = ["transition"] ∧
      run.2.stored.lastTransitionAt = some 1010 ∧
      Agrees config run.1 run.2.tables .transition run.2.stored.lastTransitionAt :=
  ⟨by decide +kernel, by decide +kernel, (alertState_agrees_with_outbox _ (run_serveAll _ _)).1⟩

end BybitMonitor
