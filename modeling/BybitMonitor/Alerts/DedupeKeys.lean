import Mathlib
import BybitMonitor.Alerts.Bucket

/-!
# Dedupe keys

Every dedupe key in the outbox is bounded by what the row of `alert_state` remembers of the last
message of its kind, so that a clock that does not step back hardly ever builds a key twice.

* `KeyInvariant`: the keys, the clock and a pending transition are bounded by the stored row.
* `KeyInvariant.collision`: the only key that can be built twice is that of a transition without
  debounce in the second of the last one.
* `alert_insert_never_violates`: with a clock that moves on, no alert is ever suppressed.
-/

namespace BybitMonitor

/-! ## Injectivity of the key formats -/

section Formats

variable {a b x y coins coins' : String}

theorem field_inj (ha : ':' ∉ a.toList) (hb : ':' ∉ b.toList)
    (h : a ++ ":" ++ x = b ++ ":" ++ y) : a = b ∧ x = y :=
  @FieldText.prefix_inj a b x y ':' ha hb h

theorem lastField_inj (hx : ':' ∉ x.toList) (hy : ':' ∉ y.toList)
    (h : a ++ ":" ++ x = b ++ ":" ++ y) : a = b ∧ x = y :=
  @FieldText.suffix_inj a b x y ':' hx hy h

theorem colon_not_mem_int (n : ℤ) : ':' ∉ (toString n).toList :=
  FieldText.not_mem_int (by decide) (by decide) n

theorem transitionKey_inj {t t' : ℤ} (h : transitionKey t coins = transitionKey t' coins') :
    t = t' := by
  rw [transitionKey, transitionKey] at h
  obtain ⟨-, hrest⟩ := field_inj (by decide) (by decide) h
  obtain ⟨htime, -⟩ := field_inj (colon_not_mem_int t) (colon_not_mem_int t') hrest
  exact FieldText.toString_int_injective htime

theorem hourlyKey_inj {hour hour' : ℤ}
    (h : hourlyKey (hourText hour) coins = hourlyKey (hourText hour') coins') : hour = hour' := by
  rw [hourlyKey, hourlyKey] at h
  obtain ⟨-, hrest⟩ := field_inj (by decide) (by decide) h
  obtain ⟨hbucket, -⟩ := field_inj (colon_not_mem_hourText hour) (colon_not_mem_hourText hour')
    hrest
  exact hourText_injective hbucket

/-- The window stands after the last separator, so that coins may contain separators. -/
theorem compositionKey_inj {window window' : ℤ}
    (h : compositionKey coins window = compositionKey coins' window') : window = window' := by
  rw [compositionKey, compositionKey] at h
  obtain ⟨-, hrest⟩ := field_inj (by decide) (by decide) h
  obtain ⟨-, hwindow⟩ := lastField_inj (colon_not_mem_int window) (colon_not_mem_int window')
    hrest
  exact FieldText.toString_int_injective hwindow

end Formats

/-! ## The invariant of the outbox keys -/

/-- A key of the outbox lies no later than what the row remembers of the last message of its
kind. -/
inductive KeyBounded (config : AdmittedSettings) (stored : AlertState) : String → Prop
  | listing (eventKey : String) : KeyBounded config stored (listingDedupeKey eventKey)
  | transition {t last : ℤ} (coins : String) (hlast : stored.lastTransitionAt = some last)
      (hle : t ≤ last) : KeyBounded config stored (transitionKey t coins)
  | hourly {hour last : ℤ} (coins : String)
      (hlast : stored.lastHourlyBucket = some (hourText last)) (hle : hour ≤ last) :
      KeyBounded config stored (hourlyKey (hourText hour) coins)
  | composition {window last : ℤ} (coins : String)
      (hlast : stored.lastCompositionAt = some last) (hle : window ≤ last / config.cooldown) :
      KeyBounded config stored (compositionKey coins window)

namespace KeyBounded

variable {config : AdmittedSettings} {stored : AlertState} {coins : String}

theorem of_transition {t : ℤ} (h : KeyBounded config stored (transitionKey t coins)) :
    ∃ last, stored.lastTransitionAt = some last ∧ t ≤ last := by
  generalize hkey : transitionKey t coins = key at h
  -- the first field tells the kinds apart, the second is the time
  cases h with
  | listing => exact absurd (field_inj (by decide) (by decide) hkey).1 (by decide)
  | transition _ hlast hle => exact ⟨_, hlast, transitionKey_inj hkey ▸ hle⟩
  | hourly => exact absurd (field_inj (by decide) (by decide) hkey).1 (by decide)
  | composition => exact absurd (field_inj (by decide) (by decide) hkey).1 (by decide)

theorem of_hourly {hour : ℤ} (h : KeyBounded config stored (hourlyKey (hourText hour) coins)) :
    ∃ last, stored.lastHourlyBucket = some (hourText last) ∧ hour ≤ last := by
  generalize hkey : hourlyKey (hourText hour) coins = key at h
  cases h with
  | listing => exact absurd (field_inj (by decide) (by decide) hkey).1 (by decide)
  | transition => exact absurd (field_inj (by decide) (by decide) hkey).1 (by decide)
  | hourly _ hlast hle => exact ⟨_, hlast, hourlyKey_inj hkey ▸ hle⟩
  | composition => exact absurd (field_inj (by decide) (by decide) hkey).1 (by decide)

theorem of_composition {window : ℤ} (h : KeyBounded config stored (compositionKey coins window)) :
    ∃ last, stored.lastCompositionAt = some last ∧ window ≤ last / config.cooldown := by
  generalize hkey : compositionKey coins window = key at h
  cases h with
  | listing => exact absurd (field_inj (by decide) (by decide) hkey).1 (by decide)
  | transition => exact absurd (field_inj (by decide) (by decide) hkey).1 (by decide)
  | hourly => exact absurd (field_inj (by decide) (by decide) hkey).1 (by decide)
  | composition _ hlast hle => exact ⟨_, hlast, compositionKey_inj hkey ▸ hle⟩

end KeyBounded

/-- What the row remembers does not lie after `now`. -/
structure PastOf (stored : AlertState) (now : ℤ) : Prop where
  transition : ∀ last, stored.lastTransitionAt = some last → last ≤ now
  composition : ∀ last, stored.lastCompositionAt = some last → last ≤ now
  hourly : ∀ bucket, stored.lastHourlyBucket = some bucket →
    ∃ hour, bucket = hourText hour ∧ hour ≤ now / 3600

/-- What keys, clock and a pending transition have to do with the stored row. -/
structure KeyInvariant (config : AdmittedSettings) (events : List ServiceEvent)
    (s : ServiceState) : Prop where
  config_eq : s.service.config = config
  keys : ∀ key ∈ s.tables.dedupeKeys, KeyBounded config s.stored key
  past : ∀ now, (∀ call ∈ calls events, call.now ≤ now) → PastOf s.stored now
  pending : ∀ since, s.stored.phase = .waiting since →
    0 < config.debounce ∧ ∀ last, s.stored.lastTransitionAt = some last → last ≤ since

section Cycle

variable {config : AdmittedSettings} {stored state : AlertState} {qualifying : QualifyingSet}
  {now : ℤ} {decision : AlertDecision}

/-- After a cycle the row still remembers nothing that lies after its time. -/
theorem PastOf.cycle (h : PastOf stored now)
    (hspec : CycleSpec config stored qualifying now decision state) : PastOf state now where
  transition := by
    intro last hlast
    rw [hspec.lastTransitionAt_eq] at hlast
    split at hlast
    · exact (Option.some.inj hlast).symm.le
    · exact h.transition last hlast
  composition := by
    intro last hlast
    rw [hspec.lastCompositionAt_eq] at hlast
    split at hlast
    · exact (Option.some.inj hlast).symm.le
    · exact h.composition last hlast
  hourly := by
    intro bucket hbucket
    rw [hspec.lastHourlyBucket_eq] at hbucket
    split at hbucket
    · exact ⟨_, (Option.some.inj hbucket).symm, le_rfl⟩
    · exact h.hourly bucket hbucket

theorem PastOf.mono {now' : ℤ} (h : PastOf stored now) (hle : now ≤ now') : PastOf stored now' where
  transition last hlast := (h.transition last hlast).trans hle
  composition last hlast := (h.composition last hlast).trans hle
  hourly bucket hbucket := by
    obtain ⟨hour, hhour, hpast⟩ := h.hourly bucket hbucket
    exact ⟨hour, hhour, hpast.trans (Int.ediv_le_ediv (by decide) hle)⟩

/-- The bounds of old keys only move up in a cycle. -/
theorem KeyBounded.cycle {key : String} (h : KeyBounded config stored key)
    (hpast : PastOf stored now)
    (hspec : CycleSpec config stored qualifying now decision state) :
    KeyBounded config state key := by
  -- a cycle either leaves what bounds the key or moves it up to the present
  cases h with
  | listing eventKey => exact .listing eventKey
  | transition coins hlast hle =>
      by_cases hlive : decision.liveTransition = true
      · exact .transition coins (hspec.lastTransitionAt_eq.trans (if_pos hlive))
          (hle.trans (hpast.transition _ hlast))
      · exact .transition coins
          ((hspec.lastTransitionAt_eq.trans (if_neg hlive)).trans hlast) hle
  | hourly coins hlast hle =>
      by_cases hclaims : (decision.liveTransition || decision.hourlyUpdate) = true
      · obtain ⟨hour, hhour, hbound⟩ := hpast.hourly _ hlast
        rw [hourText_injective hhour] at hle
        exact .hourly coins (hspec.lastHourlyBucket_eq.trans (if_pos hclaims)) (hle.trans hbound)
      · exact .hourly coins
          ((hspec.lastHourlyBucket_eq.trans (if_neg hclaims)).trans hlast) hle
  | composition coins hlast hle =>
      by_cases hupdate : decision.compositionUpdate = true
      · refine .composition coins (hspec.lastCompositionAt_eq.trans (if_pos hupdate)) ?_
        refine hle.trans ?_
        rcases config.cooldown_spec.2.lt_or_eq with hpos | hzero
        · exact Int.ediv_le_ediv hpos (hpast.composition _ hlast)
        · rw [← hzero, Int.ediv_zero, Int.ediv_zero]
      · exact .composition coins
          ((hspec.lastCompositionAt_eq.trans (if_neg hupdate)).trans hlast) hle

/-- The key of a message is bounded by the row that its cycle stores. -/
theorem keyBounded_new {kind : AlertKind} (hkind : decision.kind = some kind)
    (hspec : CycleSpec config stored qualifying now decision state) :
    KeyBounded config state (alertKey config kind qualifying.fingerprint now) := by
  -- a message is at its own bound: the cycle stores its time or bucket
  cases kind with
  | transition =>
      have hlive := AlertDecision.kind_eq_transition_iff.mp hkind
      exact .transition _ (hspec.lastTransitionAt_eq.trans (if_pos hlive)) le_rfl
  | hourly =>
      have hclaims : (decision.liveTransition || decision.hourlyUpdate) = true := by
        rw [AlertDecision.kind] at hkind
        split_ifs at hkind <;> simp_all
      exact .hourly _ (hspec.lastHourlyBucket_eq.trans (if_pos hclaims)) le_rfl
  | composition =>
      have hupdate := hspec.kind_eq_composition_iff.mp hkind
      exact .composition _ (hspec.lastCompositionAt_eq.trans (if_pos hupdate)) le_rfl

/-- A transition that is pending after a cycle waits since the cycle itself or was pending. -/
theorem pending_cycle (hpast : PastOf stored now)
    (hpending : ∀ since, stored.phase = .waiting since →
      0 < config.debounce ∧ ∀ last, stored.lastTransitionAt = some last → last ≤ since)
    (hspec : CycleSpec config stored qualifying now decision state) (since : ℤ)
    (hphase : state.phase = .waiting since) :
    0 < config.debounce ∧ ∀ last, state.lastTransitionAt = some last → last ≤ since := by
  rw [hspec.phase_eq] at hphase
  -- a cycle that leaves the transition pending has not announced it
  have hlive : ¬ decision.liveTransition = true := by
    intro hlive
    have hconfirmed := (hspec.live_iff.mp hlive).2.2
    rw [hphase] at hconfirmed
    cases hconfirmed
  rw [hspec.lastTransitionAt_eq, if_neg hlive]
  cases hrange : config.inRange qualifying with
  | false =>
      rw [hrange, Debounce.Phase.step_inactive] at hphase
      cases hphase
  | true =>
      rw [hrange] at hphase
      cases hstored : stored.phase with
      | idle =>
          rw [hstored, Debounce.Phase.step_idle] at hphase
          split at hphase
          · cases hphase
          · rename_i hdelay
            obtain rfl : now = since := Debounce.Phase.waiting.inj hphase
            exact ⟨by omega, hpast.transition⟩
      | waiting since' =>
          rw [hstored, Debounce.Phase.step_waiting] at hphase
          split at hphase
          · cases hphase
          · obtain rfl : since' = since := Debounce.Phase.waiting.inj hphase
            exact hpending _ hstored
      | confirmed =>
          rw [hstored, Debounce.Phase.step_confirmed] at hphase
          cases hphase

end Cycle

/-- The dedupe keys after a committed call. -/
theorem Commits.dedupeKeys_eq {tables tables' : Tables} {call : Call} {state : AlertState}
    {alert : Option OutgoingAlert} {fed : Option ℕ}
    (h : Commits tables call state alert tables' fed) :
    tables'.dedupeKeys = tables.dedupeKeys ++ alert.toList.map OutgoingAlert.key := by
  rw [Tables.dedupeKeys, h.outgoing_eq, List.filterMap_append]
  cases alert <;> rfl

/-- One step keeps the invariant, if the clock does not step back. -/
theorem KeyInvariant.step {config : AdmittedSettings} {events : List ServiceEvent}
    {s s' : ServiceState} {event : ServiceEvent} (hs : KeyInvariant config events s)
    (hbase : ServiceInvariant s) (h : ServiceStep s event s')
    (hconfig : ∀ config', event.1 = .restart config' → config' = config)
    (hclock : ((calls (events ++ [event])).Pairwise fun earlier later =>
      earlier.now ≤ later.now)) :
    KeyInvariant config (events ++ [event]) s' := by
  have hpast : ∀ now, (∀ call ∈ calls (events ++ [event]), call.now ≤ now) →
      PastOf s.stored now := by
    intro now hnow
    refine hs.past now fun call hcall => hnow call ?_
    rw [calls_append]
    exact List.mem_append_left _ hcall
  -- steps that commit nothing keep the row and the keys
  cases h.move hbase with
  | restarted config' => exact ⟨hconfig config' rfl, hs.keys, hpast, hs.pending⟩
  | unplanned => exact ⟨hs.config_eq, hs.keys, hpast, hs.pending⟩
  | rolledBack => exact ⟨hs.config_eq, hs.keys, hpast, hs.pending⟩
  | suppressed => exact ⟨hs.config_eq, hs.keys, hpast, hs.pending⟩
  | notEnqueued => exact ⟨hs.config_eq, hs.keys, hpast, hs.pending⟩
  | @enqueued notice hfresh =>
      refine ⟨hs.config_eq, fun key hkey => ?_, hpast, hs.pending⟩
      rw [ServiceState.withTables_tables, Tables.dedupeKeys, Tables.addRow,
        List.filterMap_append] at hkey
      -- the key is an old one or that of the listing
      rcases List.mem_append.mp hkey with hkey | hkey
      · exact hs.keys key hkey
      · obtain rfl : key = listingDedupeKey notice.eventKey := by
          simpa [Tables.newRow] using hkey
        exact .listing _
  | @committed call decision state alert tables' fed hplan hcommits =>
      have hplanned := hbase.planned hplan
      have hspec := hplanned.spec
      rw [hs.config_eq] at hplanned hspec
      have hnow : PastOf s.stored call.now := by
        rw [calls_append] at hclock
        refine hs.past call.now fun earlier hearlier => ?_
        exact (List.pairwise_append.mp hclock).2.2 earlier hearlier call
          (List.mem_singleton_self call)
      refine ⟨hs.config_eq, fun key hkey => ?_, fun now hall => ?_, ?_⟩
      · rw [hcommits.stored_eq]
        rw [ServiceState.withTables_tables, hcommits.dedupeKeys_eq] at hkey
        rcases List.mem_append.mp hkey with hkey | hkey
        · exact (hs.keys key hkey).cycle hnow hspec
        · obtain ⟨a, ha, rfl⟩ := List.mem_map.mp hkey
          obtain rfl : alert = some a := Option.mem_toList.mp ha
          rw [hplanned.key_eq a rfl]
          exact keyBounded_new hplanned.kind_eq.symm hspec
      · rw [hcommits.stored_eq]
        refine (hnow.cycle hspec).mono (hall call ?_)
        rw [calls_append]
        exact List.mem_append_right _ (List.mem_singleton_self call)
      · rw [hcommits.stored_eq]
        exact pending_cycle hnow hs.pending hspec

/-- Every run whose clock does not step back keeps the invariant. -/
theorem ServiceRun.keyInvariant {config : AdmittedSettings} {events : List ServiceEvent}
    {s : ServiceState} (h : ServiceRun config events s) (hconfig : KeepsConfig config events)
    (hclock : (calls events).Pairwise fun earlier later => earlier.now ≤ later.now) :
    KeyInvariant config events s := by
  induction h with
  | nil =>
      refine ⟨rfl, fun key hkey => ?_, fun now _ => ⟨?_, ?_, ?_⟩, fun since hphase => ?_⟩
      · exact absurd hkey List.not_mem_nil
      · exact fun last hlast => nomatch hlast
      · exact fun last hlast => nomatch hlast
      · exact fun bucket hbucket => nomatch hbucket
      · exact absurd (AlertState.phase_eq_waiting_iff.mp hphase).1
          (show GroupState.empty ≠ .activeRange by decide)
  | @snoc events s event s' prior last ih =>
      obtain ⟨hbefore, hlast⟩ := hconfig.of_append
      have hearlier := hclock
      rw [calls_append] at hearlier
      exact (ih hbefore (List.pairwise_append.mp hearlier).1).step (ServiceRun.invariant prior) last
        hlast hclock

/-- The only message whose key can be in the outbox already is a transition without debounce, in the
second of the last transition. -/
theorem KeyInvariant.collision {config : AdmittedSettings} {events : List ServiceEvent}
    {s : ServiceState} {call : Call} {decision : AlertDecision} {state : AlertState}
    {alert : Option OutgoingAlert} (hs : KeyInvariant config events s)
    (hplanned : Planned config s.stored call decision state alert)
    (hclock : ∀ earlier ∈ calls events, earlier.now ≤ call.now) {a : OutgoingAlert}
    (ha : alert = some a) (hkey : a.key ∈ s.tables.dedupeKeys) :
    a.kind = .transition ∧ s.stored.lastTransitionAt = some call.now ∧
      s.stored.phase = .idle ∧ config.debounce = 0 := by
  subst ha
  have hspec := hplanned.spec
  have hpast := hs.past call.now hclock
  have hbounded := hs.keys a.key hkey
  have hkind : decision.kind = some a.kind := hplanned.kind_eq.symm
  have hcooldown := hplanned.cooldown_ne a rfl
  rw [hplanned.key_eq a rfl] at hbounded
  -- each kind compares the key in the outbox with what the row remembers
  cases hsort : a.kind with
  | transition =>
      rw [hsort] at hkind hbounded
      obtain ⟨last, hlast, hle⟩ := hbounded.of_transition
      obtain rfl : last = call.now := le_antisymm (hpast.transition last hlast) hle
      obtain ⟨-, hphase, hstep⟩ :=
        hspec.live_iff.mp (AlertDecision.kind_eq_transition_iff.mp hkind)
      cases hrange : config.inRange call.qualifying with
      | false =>
          rw [hrange, Debounce.Phase.step_inactive] at hstep
          cases hstep
      | true =>
          rw [hrange] at hstep
          have hnonneg := config.debounce_spec.2
          cases hstored : s.stored.phase with
          | idle =>
              rw [hstored, Debounce.Phase.step_idle] at hstep
              split at hstep
              · rename_i hdelay
                exact ⟨rfl, hlast, rfl, by omega⟩
              · cases hstep
          | waiting since =>
              -- the pending transition waits since after the last one
              obtain ⟨hpositive, hafter⟩ := hs.pending since hstored
              have := hafter _ hlast
              rw [hstored, Debounce.Phase.step_waiting] at hstep
              split at hstep
              · omega
              · cases hstep
          | confirmed => exact absurd hstored hphase
  | hourly =>
      rw [hsort] at hkind hbounded
      obtain ⟨last, hlast, hle⟩ := hbounded.of_hourly
      -- the hour was claimed before, so that no hourly update is due in it
      obtain ⟨hour, hhour, hpast⟩ := hpast.hourly _ hlast
      have hlive : decision.hourlyUpdate = true := by
        rw [AlertDecision.kind] at hkind
        split_ifs at hkind <;> simp_all
      have hother := (hspec.hourly_iff.mp hlive).2.2.2
      rw [hlast, ← hourText_injective hhour] at *
      exact absurd rfl (le_antisymm hpast hle ▸ hother)
  | composition =>
      rw [hsort] at hkind hbounded
      obtain ⟨last, hlast, hle⟩ := hbounded.of_composition
      -- the cooldown has passed, so that the window is a later one
      have hdue := (hspec.composition_iff.mp (hspec.kind_eq_composition_iff.mp hkind)).2.2.2.2 last
        hlast
      have hpositive : 0 < config.cooldown :=
        lt_of_le_of_ne config.cooldown_spec.2 (hcooldown hsort).symm
      have hnext : (last + config.cooldown) / config.cooldown ≤ call.now / config.cooldown :=
        Int.ediv_le_ediv hpositive (by omega)
      rw [Int.add_ediv_of_dvd_right (dvd_refl _), Int.ediv_self hpositive.ne'] at hnext
      omega

/-- Whether a decision has a message. -/
def AlertDecision.hasFlag (self : AlertDecision) : Bool :=
  self.liveTransition || self.compositionUpdate || self.hourlyUpdate

theorem AlertDecision.kind_eq_none_iff {decision : AlertDecision} :
    decision.kind = none ↔ decision.hasFlag = false := by
  rw [kind, hasFlag]
  split_ifs <;> simp_all

/-- What a call does to the outbox when no alert is suppressed. -/
structure InsertsOnce (s s' : ServiceState) (call : Call) (reply : Reply) : Prop where
  /-- The unique index refuses no key that the call builds. -/
  accepted : ∀ decision state alert,
    s.service.plan call s.tables.alertState = .ok (decision, state, alert) →
    ∀ a ∈ alert, s.tables.violatesDedupe (some a.key) = false
  /-- A call that returns with a decision flag adds one row, of the kind of its decision. -/
  one : ∀ decision fed, reply = .processed (.ok decision) fed → decision.hasFlag = true →
    ∃ row, s'.tables.outgoing = s.tables.outgoing ++ [row] ∧
      decision.kind.map AlertKind.tag = some row.messageTag
  /-- A call that returns without a flag adds none. -/
  none_without_flag : ∀ decision fed, reply = .processed (.ok decision) fed →
    decision.hasFlag = false → s'.tables.outgoing = s.tables.outgoing
  /-- A call that fails adds none. -/
  none_on_failure : ∀ exc fed, reply = .processed (.error exc) fed →
    s'.tables.outgoing = s.tables.outgoing

/-- In every run whose calls are at increasing times, with listing notifications and failed calls in
between, no alert violates the unique index: a call that returns adds exactly one row if its
decision has a flag and no row otherwise. -/
theorem alert_insert_never_violates (config : AdmittedSettings) {events : List ServiceEvent}
    {s s' : ServiceState} (hrun : ServiceRun config events s)
    (hconfig : KeepsConfig config events) {call : Call} {reply : Reply}
    (hclock : (calls events ++ [call]).Pairwise fun earlier later => earlier.now < later.now)
    (hstep : ServiceStep s (.process call, reply) s')
    (hfaults : ¬ call.faults.Raises .integrityError) : InsertsOnce s s' call reply := by
  obtain ⟨hearlier, -, hlater⟩ := List.pairwise_append.mp hclock
  have hbefore : ∀ earlier ∈ calls events, earlier.now < call.now := fun earlier hearlier =>
    hlater earlier hearlier call (List.mem_singleton_self call)
  have hkeys := hrun.keyInvariant hconfig (hearlier.imp fun h => h.le)
  -- a collision would be in the second of an earlier call
  have hfresh : ∀ decision state alert,
      s.service.plan call s.tables.alertState = .ok (decision, state, alert) →
      ∀ a ∈ alert, a.key ∉ s.tables.dedupeKeys := by
    intro decision state alert hplan a ha hkey
    have hplanned := hrun.invariant.planned hplan
    rw [hkeys.config_eq] at hplanned
    obtain ⟨-, hlast, -⟩ := hkeys.collision hplanned (fun c hc => (hbefore c hc).le) ha hkey
    -- the last transition lies in an earlier call
    have hpast := hkeys.past (call.now - 1) fun c hc => Int.le_sub_one_of_lt (hbefore c hc)
    have := hpast.transition _ hlast
    omega
  have haccepted : ∀ decision state alert,
      s.service.plan call s.tables.alertState = .ok (decision, state, alert) →
      ∀ a ∈ alert, s.tables.violatesDedupe (some a.key) = false := by
    intro decision state alert hplan a ha
    refine Bool.eq_false_iff.mpr fun hviolates => hfresh _ _ _ hplan a ha ?_
    exact Tables.violatesDedupe_some_iff.mp hviolates
  cases hstep.move hrun.invariant with
  | unplanned hplan => exact ⟨haccepted, by simp, by simp, fun _ _ _ => rfl⟩
  | rolledBack hplan hcause => exact ⟨haccepted, by simp, by simp, fun _ _ _ => rfl⟩
  | suppressed hplan hcause =>
      rcases hcause with hfault | ⟨a, ha, hkey⟩
      · exact absurd hfault hfaults
      · exact absurd hkey (hfresh _ _ _ hplan a ha)
  | @committed _ decision state alert tables' fed hplan hcommits =>
      have hkind := (hrun.invariant.planned hplan).kind_eq
      refine ⟨haccepted, fun decision' fed' hreply hflag => ?_,
        fun decision' fed' hreply hflag => ?_, by simp⟩
      · obtain rfl : decision = decision' := Except.ok.inj (Reply.processed.inj hreply).1
        cases alert with
        | none =>
            rw [AlertDecision.kind_eq_none_iff.mp hkind.symm] at hflag
            cases hflag
        | some a => exact ⟨_, hcommits.outgoing_eq, by rw [← hkind]; rfl⟩
      · obtain rfl : decision = decision' := Except.ok.inj (Reply.processed.inj hreply).1
        rw [AlertDecision.kind_eq_none_iff.mpr hflag] at hkind
        obtain rfl : alert = none := Option.map_eq_none_iff.mp hkind
        exact hcommits.outgoing_eq.trans (List.append_nil _)

/-- Coins whose names contain the separator, a listing with a similar key and a failed call in
between: the composition update of the next call is inserted. -/
theorem alert_insert_after_listing :
    let run := serveAll compositionConfig
      [.process { qualifying := .ofCoins ["A:B"], now := 1000 },
        .enqueue { eventKey := "composition:A", text := "listed", createdAt := 1001 },
        .process { qualifying := .ofCoins ["A", "B"], now := 1100,
                   faults := { insert := some .databaseError } }]
    let call : Call := { qualifying := .ofCoins ["A", "B"], now := 1300 }
    InsertsOnce run.2 (run.2.serve (.process call)).2 call (run.2.serve (.process call)).1 :=
  alert_insert_never_violates compositionConfig (run_serveAll compositionConfig _)
    (keepsConfig_serveAll (by simp)) (by rw [calls_serveAll]; decide) rfl
    (by simp [Faults.Raises])

end BybitMonitor
