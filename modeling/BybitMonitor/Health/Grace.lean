import Mathlib
import BybitMonitor.Health.Verdict
import BybitMonitor.Python.Rounding
import BybitMonitor.ToMathlib.Streak

/-!
# The grace window

A critical condition counts once it has been failing, in every snapshot, for
`critical_health_failure_seconds`; the database has no grace. The monitor keeps the time at which
each condition was first seen bad, and prunes and extends that map in every snapshot.

* `HealthMonitor.GraceOf`: the map holds, for each condition, the start of its unbroken failure.
* `grace_classification`: what a snapshot reports after any history.
-/

namespace BybitMonitor

/-! ## The conditions that fail -/

/-- A stream has a ticker that is at most `int(ws_stale_seconds)` old. -/
def StreamFresh (config : Settings) (now : ℤ) (stream : Option ClientReading) : Prop :=
  ∃ client last stale, stream = some client ∧ client.lastTickerAt = some last ∧
    config.wsStaleSeconds.toInt = .ok stale ∧ max 0 (now - (PyFloat.finite last).truncated) ≤ stale

/-- The critical conditions that fail when a snapshot is taken. -/
def Failing (config : Settings) (readings : HealthReadings) : CriticalIssue → Prop
  | .database => readings.database ≠ some (.ok (some 1))
  | .dispatcher =>
      ∃ dispatcher, readings.dispatcher = some dispatcher ∧ dispatcher.workerHealthy = false
  | .rest => ¬ ∃ last, readings.discovery = some (some last) ∧
      (config.instrumentRefreshSeconds.mulPos 3).lt
        (PyFloat.finite (max 0 (readings.now - last) : ℤ)) = false
  | .spotWs => config.spotStreamEnabled = true ∧
      ¬ StreamFresh config readings.now (readings.wsManager.bind WsManagerReading.spot)
  | .linearWs => config.linearStreamEnabled = true ∧
      ¬ StreamFresh config readings.now (readings.wsManager.bind WsManagerReading.linear)

namespace HealthMonitor

variable {config : Settings} {self monitor : HealthMonitor} {readings : HealthReadings}
  {state : HealthState} {bad : List CriticalIssue}

/-- A stream that is judged is bad exactly if it is enabled and has no fresh ticker. -/
theorem wsBad_iff {enabled streamBad : Bool} {now : ℤ} {stream : Option ClientReading}
    (h : wsBad config enabled (stream.bind fun client => age now client.lastTickerAt) =
      .ok streamBad) :
    streamBad = true ↔ enabled = true ∧ ¬ StreamFresh config now stream := by
  cases enabled with
  | false =>
      cases h
      simp
  | true =>
      have hfresh (hage : ∀ client last, stream = some client → client.lastTickerAt ≠ some last) :
          ¬ StreamFresh config now stream := by
        rintro ⟨client, last, -, hclient, hlast, -⟩
        exact hage client last hclient hlast
      cases stream with
      | none =>
          cases h
          exact iff_of_true rfl ⟨rfl, hfresh (by simp)⟩
      | some client =>
          rw [Option.bind_some] at h
          cases hlast : client.lastTickerAt with
          | none =>
              rw [hlast] at h
              cases h
              exact iff_of_true rfl ⟨rfl, hfresh (by rintro _ _ ⟨⟩; simp [hlast])⟩
          | some last =>
              simp only [hlast, age, Option.map_some, wsBad, if_true, wsAcceptable] at h
              cases hstale : config.wsStaleSeconds.toInt with
              | error exc =>
                  rw [hstale] at h
                  cases h
              | ok stale =>
                  rw [hstale] at h
                  cases h
                  simp [StreamFresh, hlast, hstale]
                  omega

/-- The conditions that the classification finds bad are the ones that fail. -/
theorem mem_critical_iff (hgathered : HealthState.Gathered config readings state)
    (hbad : critical config state = .ok bad) (issue : CriticalIssue) :
    issue ∈ bad ↔ Failing config readings issue := by
  rw [critical, hgathered.spot, hgathered.linear] at hbad
  simp only [PyExc.bind_eq_ok] at hbad
  obtain ⟨spotBad, hspot, linearBad, hlinear, hissues⟩ := hbad
  cases hissues
  have hflag (flag : Bool) (p : Prop) (h : flag = true ↔ p) : flag = false ↔ ¬ p := by
    rw [← h, Bool.not_eq_true]
  cases issue with
  | database => simp [criticalIssues, Failing, hflag _ _ hgathered.database]
  | dispatcher => simp [criticalIssues, Failing, hflag _ _ hgathered.worker]
  | rest => simp [criticalIssues, Failing, hflag _ _ hgathered.discovery]
  | spotWs => simp [criticalIssues, Failing, wsBad_iff hspot]
  | linearWs => simp [criticalIssues, Failing, wsBad_iff hlinear]

/-! ### The map of first failures -/

/-- After `setdefault` for every bad condition, the map holds what it held, and the present time for
the conditions that were not in it. -/
theorem mem_foldl_setDefault {now : ℚ} {since : List (CriticalIssue × ℚ)}
    {issue : CriticalIssue} {t : ℚ} :
    (issue, t) ∈ bad.foldl (fun since issue => setDefault since issue now) since ↔
      (issue, t) ∈ since ∨ (issue ∈ bad ∧ (∀ s, (issue, s) ∉ since) ∧ t = now) := by
  -- by induction on the conditions; `setdefault` writes where there is no time yet
  induction bad generalizing since with
  | nil => simp
  | cons first rest ih =>
      rw [List.foldl_cons, ih, setDefault]
      split
      · rename_i hany
        obtain ⟨⟨_, s⟩, hmem, hkey⟩ := List.any_eq_true.mp hany
        obtain rfl := of_decide_eq_true hkey
        constructor
        · rintro (hold | ⟨hrest, hnone, heq⟩)
          · exact Or.inl hold
          · exact Or.inr ⟨List.mem_cons_of_mem _ hrest, hnone, heq⟩
        · rintro (hold | ⟨hissue, hnone, heq⟩)
          · exact Or.inl hold
          · rcases List.mem_cons.mp hissue with rfl | hrest
            · exact absurd hmem (hnone s)
            · exact Or.inr ⟨hrest, hnone, heq⟩
      · rename_i hany
        have hfirst : ∀ s, (first, s) ∉ since := fun s hmem =>
          hany (List.any_eq_true.mpr ⟨_, hmem, decide_eq_true rfl⟩)
        simp only [List.mem_append, Prod.mk.injEq, List.mem_cons, List.not_mem_nil, or_false]
        constructor
        · rintro ((hold | ⟨rfl, rfl⟩) | ⟨hrest, hnone, heq⟩)
          · exact Or.inl hold
          · exact Or.inr ⟨Or.inl rfl, hfirst, rfl⟩
          · exact Or.inr ⟨Or.inr hrest, fun s hmem => hnone s (Or.inl hmem), heq⟩
        · rintro (hold | ⟨rfl | hrest, hnone, rfl⟩)
          · exact Or.inl (Or.inl hold)
          · exact Or.inl (Or.inr ⟨rfl, rfl⟩)
          · by_cases heq : issue = first
            · exact Or.inl (Or.inr ⟨heq, rfl⟩)
            · refine Or.inr ⟨hrest, fun s hmem => ?_, rfl⟩
              rcases hmem with hmem | ⟨hsame, -⟩
              · exact hnone s hmem
              · exact heq hsame

open Classical in
/-- The map holds, for each condition, the start of its unbroken failure in the reports so far. -/
def GraceOf (config : Settings) (reports : List HealthReadings)
    (since : List (CriticalIssue × ℚ)) : Prop :=
  ∀ issue t, (issue, t) ∈ since ↔
    Streak.start (fun readings => Failing config readings issue) HealthReadings.monotonic reports =
      some t

/-- The map of a snapshot, before and after it is pruned for the second time. -/
def sinceOf (self : HealthMonitor) (bad : List CriticalIssue) (now : ℚ) :
    List (CriticalIssue × ℚ) :=
  bad.foldl (fun since issue => setDefault since issue now)
    (self.criticalSince.filter fun entry => entry.1 ∈ bad)

/-- One more snapshot moves every start to the one after it. -/
theorem GraceOf.snoc {reports : List HealthReadings}
    (h : GraceOf config reports self.criticalSince)
    (hbad : ∀ issue, issue ∈ bad ↔ Failing config readings issue) :
    GraceOf config (reports ++ [readings]) (self.sinceOf bad readings.monotonic) := by
  classical
  intro issue t
  rw [sinceOf, mem_foldl_setDefault, Streak.start_snoc]
  simp only [List.mem_filter, decide_eq_true_eq]
  by_cases hissue : issue ∈ bad
  · rw [if_pos ((hbad issue).mp hissue), Option.some.injEq]
    -- the failure begins now, or goes on
    cases hstart : Streak.start (fun readings => Failing config readings issue)
        HealthReadings.monotonic reports with
    | none =>
        have hnone (s : ℚ) : (issue, s) ∉ self.criticalSince := by
          rw [h, hstart]
          simp
        simp [hissue, hnone, eq_comm]
    | some s =>
        have hsome (u : ℚ) : (issue, u) ∈ self.criticalSince ↔ s = u := by
          rw [h, hstart, Option.some.injEq]
        simp [hissue, hsome]
  · rw [if_neg (mt (hbad issue).mpr hissue)]
    simp [hissue]

/-- The second pruning takes nothing away. -/
theorem sinceOf_filter (now : ℚ) :
    (self.sinceOf bad now).filter (fun entry => entry.1 ∈ bad) = self.sinceOf bad now := by
  rw [List.filter_eq_self]
  rintro ⟨issue, t⟩ hmem
  rw [sinceOf, mem_foldl_setDefault, List.mem_filter] at hmem
  rcases hmem with ⟨-, hbad⟩ | ⟨hbad, -⟩
  · exact hbad
  · exact decide_eq_true hbad

/-! ### What a snapshot reports -/

/-- The verdict on the conditions `bad`, with the map `since` of their first failures. -/
structure Classified (config : Settings) (since : List (CriticalIssue × ℚ)) (now : ℚ)
    (bad : List CriticalIssue) (state : HealthState) : Prop where
  critical : state.criticalIssues = bad.filter fun issue => isPersisted config since now issue
  pending : state.pendingCriticalIssues =
    sortedNames (bad.filter fun issue => issue ∉ state.criticalIssues)
  unhealthy : state.overall = .unhealthy ↔ state.criticalIssues ≠ []
  degraded : state.overall = .degraded ↔
    state.criticalIssues = [] ∧ (bad ≠ [] ∨ state.degradedIssues ≠ [])
  healthy : state.overall = .healthy ↔ bad = [] ∧ state.degradedIssues = []

/-- The verdict in terms of the bad conditions, the ones that persist and the degradations. -/
theorem overall_spec {failed : Prop} [Decidable failed] {persisted : List CriticalIssue}
    {degradations : List DegradedIssue} {overall : Overall}
    (hfailed : failed → persisted ≠ []) (hnone : bad = [] → persisted = [])
    (h : overall =
      if failed then .unhealthy
      else if persisted ≠ [] then .unhealthy
      else if bad ≠ [] ∨ degradations ≠ [] then .degraded
      else .healthy) :
    (overall = .unhealthy ↔ persisted ≠ []) ∧
      (overall = .degraded ↔ persisted = [] ∧ (bad ≠ [] ∨ degradations ≠ [])) ∧
      (overall = .healthy ↔ bad = [] ∧ degradations = []) := by
  have hbad : persisted ≠ [] → bad ≠ [] := mt hnone
  -- a database that is down is unhealthy even before the other conditions
  split_ifs at h with h₁ h₂ h₃
  · have hne := hfailed h₁
    simp [h, hne, hbad hne]
  · simp [h, h₂, hbad h₂]
  · have hsome : ¬ (bad = [] ∧ degradations = []) := fun hboth =>
      h₃.elim (fun hne => hne hboth.1) fun hne => hne hboth.2
    simp only [not_not] at h₂
    simp [h, h₂, h₃, hsome]
  · simp only [not_not] at h₂
    simp only [not_or, not_not] at h₃
    simp [h, h₂, h₃]

/-- What the classification returns, when the streams can be judged. -/
theorem classify_classified {now : ℚ} {state' : HealthState}
    (hbad : critical config state = .ok bad)
    (hdatabase : state.databaseHealthy = false → .database ∈ bad)
    (h : self.classify config state now = .ok (state', monitor)) :
    monitor.criticalSince = self.sinceOf bad now ∧
      Classified config (self.sinceOf bad now) now bad state' := by
  rw [classify, hbad] at h
  cases h
  refine ⟨sinceOf_filter now, ?_⟩
  -- a failure of the database persists at once, and nothing persists that is not bad
  have hpersisted : state.databaseHealthy = false →
      bad.filter (fun issue => isPersisted config (self.sinceOf bad now) now issue) ≠ [] :=
    fun hfailed => List.ne_nil_of_mem
      (List.mem_filter.mpr ⟨hdatabase hfailed, by simp [isPersisted]⟩)
  have hnone : bad = [] →
      bad.filter (fun issue => isPersisted config (self.sinceOf bad now) now issue) = [] := by
    rintro rfl
    rfl
  obtain ⟨hunhealthy, hdegraded, hhealthy⟩ :=
    @overall_spec bad _ _ _ (HealthMonitor.degraded state) _ hpersisted hnone rfl
  exact ⟨rfl, rfl, hunhealthy, hdegraded, hhealthy⟩

/-- What a snapshot that returns reports. -/
theorem snapshot_classified (h : self.snapshot config readings = .ok (state, monitor)) :
    ∃ bad, (∀ issue, issue ∈ bad ↔ Failing config readings issue) ∧
      monitor.criticalSince = self.sinceOf bad readings.monotonic ∧
      Classified config (self.sinceOf bad readings.monotonic) readings.monotonic bad state := by
  simp only [snapshot, PyExc.bind_eq_ok] at h
  obtain ⟨collected, hcollected, ⟨state', monitor'⟩, hclassify, hresult⟩ := h
  cases hresult
  -- the count of the market loop is no part of the verdict
  have hgathered : HealthState.Gathered config readings
      { collected with qualifyingCoinCount := self.qualifyingCoinCount } :=
    have h := HealthState.collectSubstates_gathered hcollected
    ⟨h.database, h.worker, h.depth, h.discovery, h.telegram, h.spot, h.linear⟩
  have hjudged := hclassify
  rw [classify] at hjudged
  obtain ⟨bad, hbad, -⟩ := PyExc.bind_eq_ok.mp hjudged
  have hmem := mem_critical_iff hgathered hbad
  have hdatabase : collected.databaseHealthy = false → .database ∈ bad := by
    intro hfailed
    rw [hmem, Failing, Ne, ← hgathered.database]
    exact Bool.not_eq_true _ ▸ hfailed
  obtain ⟨hsince, hclassified⟩ := classify_classified hbad hdatabase hclassify
  exact ⟨bad, hmem, hsince, hclassified⟩

end HealthMonitor

/-! ## Histories -/

/-- The snapshot that an event reports, with its verdict. -/
def HealthEvent.report : HealthEvent → Option (HealthReadings × Overall)
  | .snapshot readings (.ok state) => some (readings, state.overall)
  | _ => none

/-- The snapshots that have reported, in the order in which they were taken. -/
def reported (events : List HealthEvent) : List HealthReadings :=
  (events.filterMap HealthEvent.report).map Prod.fst

/-- A condition has failed in every snapshot since one that is at least the grace old. -/
def FailingForGrace (config : Settings) (reports : List HealthReadings) (now : ℚ)
    (issue : CriticalIssue) : Prop :=
  ∃ before first after, reports = before ++ first :: after ∧
    (∀ readings ∈ first :: after, Failing config readings issue) ∧
    config.criticalHealthFailureSeconds.le (PyFloat.elapsed now first.monotonic) = true

/-- The report `state` of the last snapshot is the one that the grace window asks for. -/
structure GraceVerdict (config : Settings) (earlier : List HealthReadings)
    (readings : HealthReadings) (state : HealthState) : Prop where
  critical (issue : CriticalIssue) : issue ∈ state.criticalIssues ↔
    Failing config readings issue ∧ (issue = .database ∨
      FailingForGrace config (earlier ++ [readings]) readings.monotonic issue)
  pending (name : String) : name ∈ state.pendingCriticalIssues ↔
    ∃ issue : CriticalIssue, issue.name = name ∧ Failing config readings issue ∧
      issue ∉ state.criticalIssues
  unhealthy : state.overall = .unhealthy ↔ state.criticalIssues ≠ []
  degraded : state.overall = .degraded ↔ state.criticalIssues = [] ∧
    ((∃ issue, Failing config readings issue) ∨ state.degradedIssues ≠ [])
  healthy : state.overall = .healthy ↔
    (∀ issue, ¬ Failing config readings issue) ∧ state.degradedIssues = []
  /-- A snapshot in which a condition is good restarts its grace. -/
  restart (issue : CriticalIssue) (before after : List HealthReadings) (good : HealthReadings) :
    earlier = before ++ good :: after → ¬ Failing config good issue →
      issue ∈ state.criticalIssues → issue = .database ∨
        FailingForGrace config (after ++ [readings]) readings.monotonic issue

/-- Every report of a history is the one that the grace window asks for. -/
def ClassifiedByGrace (config : Settings) (earlier : List HealthEvent) : HealthEvent → Prop
  | .snapshot readings (.ok state) => GraceVerdict config (reported earlier) readings state
  | _ => True

/-- A failure for the grace after a good snapshot is one since that snapshot. -/
theorem FailingForGrace.after_good {config : Settings} {before after : List HealthReadings}
    {good : HealthReadings} {now : ℚ} {issue : CriticalIssue}
    (h : FailingForGrace config (before ++ good :: after) now issue)
    (hgood : ¬ Failing config good issue) : FailingForGrace config after now issue := by
  obtain ⟨older, first, later, heq, hall, hgrace⟩ := h
  -- the good snapshot stands before the first of the failing ones
  rcases List.append_eq_append_iff.mp heq with ⟨middle, holder, hmiddle⟩ | ⟨middle, -, hmiddle⟩
  · cases middle with
    | nil =>
        obtain ⟨rfl, -⟩ := List.cons.inj hmiddle
        exact absurd (hall good List.mem_cons_self) hgood
    | cons head middle =>
        obtain ⟨-, hafter⟩ := List.cons.inj hmiddle
        exact ⟨middle, first, later, hafter, hall, hgrace⟩
  · refine absurd (hall good ?_) hgood
    rw [hmiddle]
    exact List.mem_append_right _ List.mem_cons_self

namespace HealthMonitor

variable {config : Settings} {self monitor : HealthMonitor} {readings : HealthReadings}
  {state : HealthState} {bad : List CriticalIssue} {events : List HealthEvent}

theorem reported_snoc (event : HealthEvent) :
    reported (events ++ [event]) = reported events ++ reported [event] := by
  rw [reported, List.filterMap_append, List.map_append]
  rfl

/-- After every history the map holds the starts of the failures. -/
theorem graceOf_trace (h : Trace (HealthStep config) {} events monitor) :
    GraceOf config (reported events) monitor.criticalSince := by
  induction h with
  | nil =>
      intro issue t
      simp [reported]
  | @snoc events monitor event monitor' _ hstep hgrace =>
      rw [reported_snoc]
      cases hstep with
      | counted count =>
          have hnone : reported [.counted count] = [] := rfl
          rw [hnone, List.append_nil]
          exact hgrace
      | reported h =>
          -- only a snapshot that reports writes the map
          obtain ⟨bad, hbad, hsince, -⟩ := snapshot_classified h
          rw [hsince]
          exact hgrace.snoc hbad
      | @raised readings exc h =>
          have hnone : reported [.snapshot readings (.error exc)] = [] := rfl
          rw [hnone, List.append_nil]
          exact hgrace

/-- A bad condition persists exactly if it has none, or has failed for the grace. -/
theorem isPersisted_iff {reports : List HealthReadings} {since : List (CriticalIssue × ℚ)}
    {now : ℚ} {issue : CriticalIssue} (hgrace : GraceOf config reports since)
    (hsorted : reports.Pairwise fun r r' => r.monotonic ≤ r'.monotonic) :
    isPersisted config since now issue = true ↔
      issue = .database ∨ FailingForGrace config reports now issue := by
  classical
  -- a failure that began earlier has lasted longer
  have hearlier (s t : ℚ) (hle : s ≤ t)
      (h : config.criticalHealthFailureSeconds.le (PyFloat.elapsed now t) = true) :
      config.criticalHealthFailureSeconds.le (PyFloat.elapsed now s) = true :=
    PyFloat.le_of_le_of_le h (PyFloat.elapsed_anti_since hle)
  rw [FailingForGrace, Streak.exists_tail_iff hsorted hearlier, isPersisted, Bool.or_eq_true,
    decide_eq_true_eq, or_comm, Option.any_eq_true]
  refine or_congr_right ⟨?_, ?_⟩
  · rintro ⟨⟨_, t⟩, hfind, ht⟩
    obtain rfl : _ = issue := by simpa using List.find?_some hfind
    exact ⟨t, (hgrace _ t).mp (List.mem_of_find?_eq_some hfind), ht⟩
  · rintro ⟨t, hstart, ht⟩
    have hmem := (hgrace issue t).mpr hstart
    have hsome : (since.find? fun entry => entry.1 = issue).isSome = true :=
      List.find?_isSome.mpr ⟨_, hmem, by simp⟩
    obtain ⟨⟨_, s⟩, hfind⟩ := Option.isSome_iff_exists.mp hsome
    -- the map has one time for each condition
    obtain rfl : _ = issue := by simpa using List.find?_some hfind
    have hs := (hgrace _ s).mp (List.mem_of_find?_eq_some hfind)
    rw [hstart, Option.some.injEq] at hs
    subst hs
    exact ⟨_, hfind, ht⟩

theorem mem_sortedNames {issues : List CriticalIssue} {name : String} :
    name ∈ sortedNames issues ↔ ∃ issue : CriticalIssue, issue.name = name ∧ issue ∈ issues := by
  rw [sortedNames, PyText.mem_sorted, List.mem_toFinset, List.mem_map]
  exact exists_congr fun issue => and_comm

/-- A report after a history whose times do not decrease. -/
theorem graceVerdict {earlier : List HealthReadings}
    (hgrace : GraceOf config earlier self.criticalSince)
    (hsorted : (earlier ++ [readings]).Pairwise fun r r' => r.monotonic ≤ r'.monotonic)
    (h : self.snapshot config readings = .ok (state, monitor)) :
    GraceVerdict config earlier readings state := by
  obtain ⟨bad, hbad, -, hclassified⟩ := snapshot_classified h
  have hcritical (issue : CriticalIssue) : issue ∈ state.criticalIssues ↔
      Failing config readings issue ∧ (issue = .database ∨
        FailingForGrace config (earlier ++ [readings]) readings.monotonic issue) := by
    rw [hclassified.critical, List.mem_filter, hbad, isPersisted_iff (hgrace.snoc hbad) hsorted]
  have hempty : bad = [] ↔ ∀ issue, ¬ Failing config readings issue := by
    rw [List.eq_nil_iff_forall_not_mem]
    exact forall_congr' fun issue => not_congr (hbad issue)
  refine ⟨hcritical, fun name => ?_, hclassified.unhealthy, ?_, ?_, ?_⟩
  · rw [hclassified.pending, mem_sortedNames]
    simp only [List.mem_filter, decide_eq_true_eq, hbad]
  · rw [hclassified.degraded, Ne, hempty, not_forall_not]
  · rw [hclassified.healthy, hempty]
  · intro issue before after good heq hgood hissue
    -- a failure for the grace does not reach back over the good snapshot
    obtain ⟨-, hdatabase | hfailing⟩ := (hcritical issue).mp hissue
    · exact Or.inl hdatabase
    · rw [heq, List.append_assoc] at hfailing
      exact Or.inr (hfailing.after_good hgood)

end HealthMonitor

/-- **Classification over whole histories.** In every history whose snapshots are taken at times
that do not decrease, a report counts a condition as critical exactly if it fails and either is the
database or has failed in every snapshot since one that is at least the grace old; the other
failing conditions are pending; and the verdict follows from the two lists. -/
theorem grace_classification (config : Settings) (events : List HealthEvent)
    (htimes : (reported events).Pairwise fun r r' => r.monotonic ≤ r'.monotonic) :
    Trace.EveryStepAfter (HealthStep config) {} events fun earlier _ event _ =>
      ClassifiedByGrace config earlier event := by
  intro k event monitor monitor' hk hrun hstep
  cases hstep with
  | counted count => trivial
  | raised h => trivial
  | @reported _ readings state h =>
      refine HealthMonitor.graceVerdict (HealthMonitor.graceOf_trace hrun) ?_ h
      -- the snapshots until this one are an initial part of the history
      have hinitial : events.take k ++ [.snapshot readings (.ok state)] <+: events := by
        have hnext : events.take (k + 1) = events.take k ++ [.snapshot readings (.ok state)] := by
          rw [List.take_add_one, hk]
          rfl
        rw [← hnext]
        exact List.take_prefix _ _
      have hreports : reported (events.take k) ++ [readings] <+: reported events := by
        have hmap := (hinitial.filterMap HealthEvent.report).map Prod.fst
        rw [List.filterMap_append, List.map_append] at hmap
        exact hmap
      exact htimes.sublist hreports.sublist

/-- Take a snapshot and record what it reports. -/
def takeSnapshot (config : Settings) (monitor : HealthMonitor) (readings : HealthReadings) :
    Option (HealthEvent × HealthMonitor) :=
  match monitor.snapshot config readings with
  | .ok (state, monitor') => some (.snapshot readings (.ok state), monitor')
  | .error exc => some (.snapshot readings (.error exc), monitor)

/-- Taking a snapshot is a step of the history. -/
theorem takeSnapshot_step {config : Settings} {monitor monitor' : HealthMonitor}
    {readings : HealthReadings} {event : HealthEvent}
    (h : takeSnapshot config monitor readings = some (event, monitor')) :
    HealthStep config monitor event monitor' := by
  rw [takeSnapshot] at h
  cases hsnapshot : monitor.snapshot config readings with
  | error exc =>
      rw [hsnapshot] at h
      cases h
      exact .raised hsnapshot
  | ok result =>
      rw [hsnapshot] at h
      cases h
      exact .reported hsnapshot

/-- Snapshots that are taken one after the other are a history. -/
theorem trace_takeSnapshot (config : Settings) (inputs : List HealthReadings) :
    Trace (HealthStep config) {} (Trace.exec (takeSnapshot config) {} [] inputs).1
      (Trace.exec (takeSnapshot config) {} [] inputs).2 := by
  have hnext : ∀ monitor readings event monitor',
      takeSnapshot config monitor readings = some (event, monitor') →
        HealthStep config monitor event monitor' := fun _ _ _ _ hstep => takeSnapshot_step hstep
  exact Trace.exec_trace hnext inputs Trace.nil

/-- The discovery has not succeeded yet and everything else is well, at the time `monotonic`. -/
def outage (monotonic : ℚ) : HealthReadings :=
  { reconnectingSpot with monotonic, discovery := none }

/-- Snapshots of an outage at 0 s and 179 s, of the recovery at 185 s, and of a relapse. -/
def outageReadings : List HealthReadings :=
  [outage 0, outage 179, { reconnectingSpot with monotonic := 185 }, outage 190, outage 300,
    outage 370]

/-- The history of the outage, with what each snapshot reports. -/
def outageHistory : List HealthEvent × HealthMonitor :=
  Trace.exec (takeSnapshot {}) {} [] outageReadings

/-- The recovery restarts the grace of 180 s: only the last snapshot is unhealthy. -/
theorem grace_classification_relapse :
    Trace (HealthStep {}) {} outageHistory.1 outageHistory.2 ∧
      (outageHistory.1.filterMap HealthEvent.report).map Prod.snd =
        [.degraded, .degraded, .healthy, .degraded, .degraded, .unhealthy] ∧
      Trace.EveryStepAfter (HealthStep {}) {} outageHistory.1 fun earlier _ event _ =>
        ClassifiedByGrace {} earlier event := by
  refine ⟨?_, by decide +kernel, grace_classification {} outageHistory.1 (by decide +kernel)⟩
  exact trace_takeSnapshot {} outageReadings

end BybitMonitor
