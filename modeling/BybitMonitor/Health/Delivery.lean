import Mathlib
import BybitMonitor.Application
import BybitMonitor.Health.Verdict

/-!
# The health of deliveries

The verdict of the health monitor about Telegram is made from two times that the client keeps. Not
every failed attempt is recorded, and a failure in the second of a success does not count.

* `HttpReply.recorded`: the replies whose failure is recorded.
* `TelegramClient.sendMessage_settles`: what the two times are after a call.
* `DeliveryState.reflects_iff`: in which runs the verdict is the outcome of the last attempt.
-/

namespace BybitMonitor

/-- A body that says that the message was not sent. -/
def Json.refuses : Json → Bool
  | object fields => !(get fields "ok").truthy
  | _ => false

/-- Whether `_send_chunk` records a response as a failure: flood control whose delay it can read,
another status of 400 or above, or a body that says so. -/
def HttpResponse.recorded (response : HttpResponse) : Bool :=
  if response.statusCode = 429 then (TelegramClient.parseRetryAfter response).isOk
  else 400 ≤ response.statusCode || response.body.any Json.refuses

/-- Whether `_send_chunk` records the failure of an attempt with this reply. -/
def HttpReply.recorded : HttpReply → Bool
  | httpError _ => true
  | raised _ => false
  | response r => r.recorded

/-- An attempt: its reply, and what the clock has shown since. -/
structure DeliveryAttempt where
  reply : HttpReply
  times : List ℤ := []

/-- The two times and the last failure of the client, the clock, and the attempts so far. -/
structure DeliveryState where
  health : DeliveryHealth := {}
  now : ℤ := 0
  attempts : List DeliveryAttempt := []

namespace DeliveryState

/-- A reading of the clock is after the last reply. -/
def readClock (s : DeliveryState) (now : ℤ) : List DeliveryAttempt :=
  match s.attempts.getLast? with
  | none => []
  | some last => s.attempts.dropLast ++ [{ last with times := last.times ++ [now] }]

/-- The replies that a call may get, with a clock that does not step back. -/
def Serves (s : DeliveryState) : (question : Await) → question.Reply → DeliveryState → Prop
  | .clock, now, s' => s.now ≤ now ∧ s' = { s with now, attempts := s.readClock now }
  | .post _, reply, s' => s' = { s with attempts := s.attempts ++ [⟨reply, []⟩] }
  | .remember fact, _, s' => s' = { s with health := s.health.after fact }
  | _, _, s' => s' = s

/-- The protocol of a call that is alone. -/
def protocol : Program.Protocol Await Await.Reply DeliveryState where
  Allows _ _ := True
  Moves := Serves

end DeliveryState

/-- The time of the last attempt of a kind. -/
def lastTime (kind : HttpReply → Bool) (attempts : List DeliveryAttempt) : Option ℤ :=
  (attempts.filter fun attempt => kind attempt.reply).getLast?.bind fun attempt =>
    attempt.times.getLast?

theorem lastTime_append (kind : HttpReply → Bool) (attempts : List DeliveryAttempt)
    (attempt : DeliveryAttempt) :
    lastTime kind (attempts ++ [attempt]) =
      if kind attempt.reply then attempt.times.getLast? else lastTime kind attempts := by
  rw [lastTime, List.filter_append]
  by_cases hkind : kind attempt.reply = true
  · simp [hkind]
  · simp [hkind, lastTime]

/-- A success is no failure. -/
theorem HttpReply.recorded_of_accepted {reply : HttpReply} (h : reply.accepted = true) :
    reply.recorded = false := by
  unfold accepted at h
  split at h
  · rename_i statusCode fields retryAfter
    obtain ⟨hstatus, hok⟩ := Bool.and_eq_true_iff.mp h
    have hstatus := of_decide_eq_true hstatus
    rw [recorded, HttpResponse.recorded, if_neg (by dsimp only; omega)]
    simp [Json.refuses, hok, hstatus]
  · cases h

/-- Between two calls, the client has the times of the last accepted attempt and of the last failure
that is recorded. -/
structure UpToDate (s : DeliveryState) : Prop where
  success : s.health.lastSuccessAt = lastTime HttpReply.accepted s.attempts
  failure : s.health.lastErrorAt = lastTime HttpReply.recorded s.attempts
  past : ∀ attempt ∈ s.attempts, ∀ t ∈ attempt.times, t ≤ s.now

/-- The last attempt has this reply, and the client was up to date before it. -/
structure Pending (s : DeliveryState) (reply : HttpReply) (before : List DeliveryAttempt)
    (times : List ℤ) : Prop where
  attempts_eq : s.attempts = before ++ [⟨reply, times⟩]
  success : s.health.lastSuccessAt = lastTime HttpReply.accepted before
  failure : times = [] → s.health.lastErrorAt = lastTime HttpReply.recorded before
  past : ∀ attempt ∈ s.attempts, ∀ t ∈ attempt.times, t ≤ s.now

/-- The last attempt has this reply. -/
def LastReply (s : DeliveryState) (reply : HttpReply) : Prop :=
  s.attempts.getLast?.map DeliveryAttempt.reply = some reply

/-- The last attempt was accepted. -/
def DeliveryState.LastAccepted (s : DeliveryState) : Prop :=
  ∃ reply, LastReply s reply ∧ reply.accepted = true

/-- The last attempt was accepted just now. -/
def DeliveryState.Succeeded (s : DeliveryState) : Prop :=
  s.LastAccepted ∧ s.health.lastSuccessAt = some s.now

section Attempt

variable {s s' : DeliveryState} {reply : HttpReply} {before : List DeliveryAttempt}
  {times : List ℤ}

theorem Pending.lastReply (h : Pending s reply before times) : LastReply s reply := by
  rw [LastReply, h.attempts_eq, List.getLast?_concat]
  rfl

/-- A request is answered. -/
theorem UpToDate.post {text : String} (h : UpToDate s)
    (hmove : s.Serves (.post text) reply s') : Pending s' reply s.attempts [] := by
  obtain rfl : s' = { s with attempts := s.attempts ++ [⟨reply, []⟩] } := hmove
  refine ⟨rfl, h.success, fun _ => h.failure, fun attempt hattempt t ht => ?_⟩
  rcases List.mem_append.mp hattempt with hold | hnew
  · exact h.past attempt hold t ht
  · rw [List.mem_singleton.mp hnew] at ht
    cases ht

/-- A failure that is not recorded changes nothing. -/
theorem Pending.upToDate (h : Pending s reply before []) (haccepted : reply.accepted = false)
    (hrecorded : reply.recorded = false) : UpToDate s := by
  refine ⟨?_, ?_, h.past⟩
  · rw [h.success, h.attempts_eq, lastTime_append, haccepted]
    rfl
  · rw [h.failure rfl, h.attempts_eq, lastTime_append, hrecorded]
    rfl

/-- The clock is read after a reply. -/
theorem Pending.clock {now : ℤ} (h : Pending s reply before times)
    (hmove : s.Serves .clock now s') :
    s'.attempts = before ++ [⟨reply, times ++ [now]⟩] ∧ s'.health = s.health ∧
      ∀ attempt ∈ s'.attempts, ∀ t ∈ attempt.times, t ≤ s'.now := by
  obtain ⟨hle, rfl⟩ := hmove
  have hattempts : s.readClock now = before ++ [⟨reply, times ++ [now]⟩] := by
    rw [DeliveryState.readClock, h.attempts_eq, List.getLast?_concat, List.dropLast_concat]
  refine ⟨hattempts, rfl, ?_⟩
  intro attempt hattempt t ht
  dsimp only at hattempt
  rw [hattempts] at hattempt
  rcases List.mem_append.mp hattempt with hold | hnew
  · refine (h.past attempt ?_ t ht).trans hle
    rw [h.attempts_eq]
    exact List.mem_append_left _ hold
  · rw [List.mem_singleton.mp hnew] at ht
    rcases List.mem_append.mp ht with hearlier | hnow
    · refine (h.past ⟨reply, times⟩ ?_ t hearlier).trans hle
      rw [h.attempts_eq]
      exact List.mem_append_right _ (List.mem_singleton_self _)
    · exact (List.mem_singleton.mp hnow).le

end Attempt

namespace TelegramClient

variable {s : DeliveryState} {reply : HttpReply} {before : List DeliveryAttempt} {times : List ℤ}

/-- A failure is recorded at the time of the clock. -/
theorem recordFailure_settles (h : Pending s reply before times)
    (haccepted : reply.accepted = false) (hrecorded : reply.recorded = true)
    (errorType : String) :
    (recordFailure errorType).Meets DeliveryState.protocol s fun outcome s' =>
      outcome = .ok () ∧ UpToDate s' ∧ ∃ times, Pending s' reply before times := by
  refine ⟨trivial, fun now s₁ hclock => ⟨trivial, fun _ s₂ hremember => ?_⟩⟩
  obtain ⟨hattempts, hhealth, hpast⟩ := h.clock hclock
  obtain rfl : s₂ = { s₁ with health := s₁.health.after (.sendFailed now errorType) } := hremember
  have hsuccess : s₁.health.lastSuccessAt = lastTime HttpReply.accepted before := by
    rw [hhealth, h.success]
  refine ⟨rfl, ⟨?_, ?_, hpast⟩, times ++ [now], hattempts, hsuccess, by simp, hpast⟩
  · show s₁.health.lastSuccessAt = lastTime HttpReply.accepted s₁.attempts
    rw [hattempts, lastTime_append, haccepted, hsuccess]
    rfl
  · show some now = lastTime HttpReply.recorded s₁.attempts
    rw [hattempts, lastTime_append, hrecorded, if_pos rfl, List.getLast?_concat]

/-- How an attempt with this reply ends: it is accepted, to be retried, or raises. -/
def Settles (reply : HttpReply) (before : List DeliveryAttempt) :
    Except Raised (Option String) → DeliveryState → Prop
  | .ok none, s => UpToDate s ∧ LastReply s reply ∧ reply.accepted = true ∧
      s.health.lastSuccessAt = some s.now
  | .ok (some _), s => Pending s reply before [] ∧ reply.accepted = false ∧ reply.recorded = true
  | .error _, s => UpToDate s ∧ LastReply s reply ∧ reply.accepted = false

/-- A failure is recorded before an exception is raised. -/
theorem recordFailure_throw_settles {α : Type} (h : Pending s reply before times)
    (haccepted : reply.accepted = false) (hrecorded : reply.recorded = true) (errorType : String)
    (e : Raised) :
    (recordFailure errorType >>= fun _ => (Program.throw e : Coroutine α)).Meets
      DeliveryState.protocol s fun outcome s' => outcome = .error e ∧ UpToDate s' ∧
        LastReply s' reply := by
  refine Program.meets_bind.mpr
    ((recordFailure_settles h haccepted hrecorded errorType).mono fun outcome s' hend => ?_)
  obtain ⟨rfl, hupToDate, times', hawaits⟩ := hend
  exact ⟨rfl, hupToDate, hawaits.lastReply⟩

/-- A success is remembered at the time of the clock. -/
theorem remember_success_settles (h : Pending s reply before times)
    (haccepted : reply.accepted = true) (hfresh : times = []) {α : Type} (a : α) :
    (do
      let now ← Coroutine.ask .clock
      Coroutine.ask (.remember (.sendSucceeded now))
      return a : Coroutine α).Meets DeliveryState.protocol s fun outcome s' =>
        outcome = .ok a ∧ UpToDate s' ∧ LastReply s' reply ∧
          s'.health.lastSuccessAt = some s'.now := by
  refine ⟨trivial, fun now s₁ hclock => ⟨trivial, fun _ s₂ hremember => ?_⟩⟩
  obtain ⟨hattempts, hhealth, hpast⟩ := h.clock hclock
  obtain rfl : s₂ = { s₁ with health := s₁.health.after (.sendSucceeded now) } := hremember
  refine ⟨rfl, ⟨?_, ?_, hpast⟩, ?_, ?_⟩
  · show some now = lastTime HttpReply.accepted s₁.attempts
    rw [hattempts, lastTime_append, haccepted, if_pos rfl, List.getLast?_concat]
  · show s₁.health.lastErrorAt = lastTime HttpReply.recorded s₁.attempts
    rw [hattempts, lastTime_append, HttpReply.recorded_of_accepted haccepted, hhealth,
      h.failure hfresh]
    rfl
  · rw [LastReply, hattempts, List.getLast?_concat]
    rfl
  · obtain ⟨-, rfl⟩ := hclock
    rfl

/-- The statements on a response settle the attempt. -/
theorem handleResponse_settles {response : HttpResponse}
    (h : Pending s (.response response) before []) :
    (handleResponse response).Meets DeliveryState.protocol s
      (Settles (.response response) before) := by
  have hraises (haccepted : (HttpReply.response response).accepted = false)
      (hrecorded : (HttpReply.response response).recorded = false) :
      UpToDate s ∧ LastReply s (.response response) ∧
        (HttpReply.response response).accepted = false :=
    ⟨h.upToDate haccepted hrecorded, h.lastReply, haccepted⟩
  have hrecords {errorType : String} {e : Raised}
      (haccepted : (HttpReply.response response).accepted = false)
      (hrecorded : (HttpReply.response response).recorded = true) :
      (recordFailure errorType >>= fun _ => (Program.throw e : Coroutine (Option String))).Meets
        DeliveryState.protocol s (Settles (.response response) before) := by
    refine (recordFailure_throw_settles h haccepted hrecorded errorType e).mono ?_
    rintro outcome s' ⟨rfl, hupToDate, hlast⟩
    exact ⟨hupToDate, hlast, haccepted⟩
  rw [handleResponse]
  split_ifs with h429 h500 h400
  · -- flood control is recorded once its delay is read
    have hrefused : (HttpReply.response response).accepted = false := accepted_of_le (by omega)
    have hrecorded : (HttpReply.response response).recorded = (parseRetryAfter response).isOk := by
      rw [HttpReply.recorded, HttpResponse.recorded, if_pos h429]
    refine Program.meets_bind.mpr ?_
    cases hparse : parseRetryAfter response with
    | error exc =>
        rw [hparse] at hrecorded
        exact hraises hrefused hrecorded
    | ok delay =>
        rw [hparse] at hrecorded
        exact hrecords hrefused hrecorded
  · -- the loop records what it retries
    refine ⟨h, accepted_of_le (by omega), ?_⟩
    rw [HttpReply.recorded, HttpResponse.recorded, if_neg h429, decide_eq_true (by omega)]
    rfl
  · refine hrecords (accepted_of_le h400) ?_
    rw [HttpReply.recorded, HttpResponse.recorded, if_neg h429, decide_eq_true h400]
    rfl
  · have hrecorded : (HttpReply.response response).recorded = response.body.any Json.refuses := by
      rw [HttpReply.recorded, HttpResponse.recorded, if_neg h429, decide_eq_false h400]
      rfl
    obtain ⟨status, body, header⟩ := response
    refine Program.meets_bind.mpr ?_
    cases body with
    | none => exact hraises rfl hrecorded
    | some value =>
        cases value with
        | object fields =>
            have haccepted : (HttpReply.response ⟨status, some (.object fields), header⟩).accepted =
                (Json.get fields "ok").truthy := by
              show (decide (status < 400) && _) = _
              rw [decide_eq_true (not_le.mp h400), Bool.true_and]
            have hrefuses : (HttpReply.response ⟨status, some (.object fields), header⟩).recorded =
                !(Json.get fields "ok").truthy := hrecorded
            show Program.Meets DeliveryState.protocol (ite _ _ _) _ _
            split_ifs with hok
            · rw [hok] at haccepted
              refine (remember_success_settles h haccepted rfl none).mono ?_
              rintro outcome s' ⟨rfl, hupToDate, hlast, hnow⟩
              exact ⟨hupToDate, hlast, haccepted, hnow⟩
            · rw [Bool.eq_false_iff.mpr hok] at haccepted hrefuses
              exact hrecords haccepted hrefuses
        | _ => exact hraises rfl hrecorded

/-- One request settles its attempt. -/
theorem requestChunk_settles (h : UpToDate s) (text : String) :
    (requestChunk text).Meets DeliveryState.protocol s fun outcome s' =>
      ∃ reply before, Settles reply before outcome s' := by
  refine Program.meets_bind.mpr ⟨trivial, fun reply s' hmove => ?_⟩
  have hawaits := @UpToDate.post s s' reply text h hmove
  cases reply with
  | httpError name => exact ⟨_, _, hawaits, rfl, rfl⟩
  | raised exc =>
      exact ⟨.raised exc, s.attempts, hawaits.upToDate rfl rfl, hawaits.lastReply, rfl⟩
  | response response =>
      exact (handleResponse_settles hawaits).mono fun outcome s' hsettles => ⟨_, _, hsettles⟩

/-- After a chunk, the client is up to date. The last attempt was accepted just now if the chunk was
sent, and failed otherwise. -/
def ChunkEnd : Except Raised Unit → DeliveryState → Prop
  | .ok _, s => UpToDate s ∧ s.Succeeded
  | .error _, s => UpToDate s ∧ ∃ reply, LastReply s reply ∧ reply.accepted = false

theorem Settles.raised {s : DeliveryState} {reply : HttpReply} {before : List DeliveryAttempt}
    {e : Raised} (h : Settles reply before (.error e) s) : ChunkEnd (.error e) s := by
  obtain ⟨hupToDate, hlast, haccepted⟩ := h
  exact ⟨hupToDate, reply, hlast, haccepted⟩

theorem Settles.returned {s : DeliveryState} {reply : HttpReply} {before : List DeliveryAttempt}
    (h : Settles reply before (.ok none) s) : ChunkEnd (.ok ()) s := by
  obtain ⟨hupToDate, hlast, haccepted, hnow⟩ := h
  exact ⟨hupToDate, ⟨reply, hlast, haccepted⟩, hnow⟩

/-- The attempts for a chunk leave the client up to date. -/
theorem sendChunkFrom_settles (left : ℕ) (text : String) :
    ∀ attempt s, UpToDate s →
      (sendChunkFrom text attempt left).Meets DeliveryState.protocol s ChunkEnd := by
  induction left with
  | zero =>
      intro attempt s h
      refine Program.meets_bind.mpr ((requestChunk_settles h text).mono fun outcome s₁ hreq => ?_)
      obtain ⟨reply, before, hsettles⟩ := hreq
      cases outcome with
      | error e => exact hsettles.raised
      | ok retried =>
          cases retried with
          | none => exact hsettles.returned
          | some name =>
              obtain ⟨hawaits, haccepted, hrecorded⟩ := hsettles
              -- the failure is recorded once for the attempt and once for the end of the retries
              have hrecord := recordFailure_settles hawaits haccepted hrecorded
              refine Program.meets_bind.mpr ((hrecord _).mono fun outcome s₂ hend => ?_)
              obtain ⟨rfl, -, times, hawaits⟩ := hend
              refine (recordFailure_throw_settles hawaits haccepted hrecorded _ _).mono ?_
              rintro outcome s₃ ⟨rfl, hupToDate, hlast⟩
              exact ⟨hupToDate, reply, hlast, haccepted⟩
  | succ left ih =>
      intro attempt s h
      refine Program.meets_bind.mpr ((requestChunk_settles h text).mono fun outcome s₁ hreq => ?_)
      obtain ⟨reply, before, hsettles⟩ := hreq
      cases outcome with
      | error e => exact hsettles.raised
      | ok retried =>
          cases retried with
          | none => exact hsettles.returned
          | some name =>
              obtain ⟨hawaits, haccepted, hrecorded⟩ := hsettles
              have hrecord := recordFailure_settles hawaits haccepted hrecorded
              refine Program.meets_bind.mpr ((hrecord _).mono fun outcome s₂ hend => ?_)
              obtain ⟨rfl, hupToDate, times, hawaits⟩ := hend
              refine Program.meets_bind.mpr ?_
              cases PyFloat.ofInt (2 ^ (attempt + 1)) with
              | error exc => exact ⟨hupToDate, reply, hawaits.lastReply, haccepted⟩
              | ok power =>
                  refine ⟨trivial, fun _ s₃ hsleep => ?_⟩
                  obtain rfl : s₃ = s₂ := hsleep
                  exact ih (attempt + 1) _ hupToDate

/-- A call leaves the client up to date. -/
theorem sendMessage_settles (config : Settings) (text : String) (h : UpToDate s) :
    (sendMessage config text).Meets DeliveryState.protocol s ChunkEnd := by
  -- before the first chunk nothing is known of the last attempt
  refine Program.meets_forM
    (fun rest g => UpToDate g ∧ (rest = splitMessage text ∨ g.Succeeded)) ?_ ?_ ⟨h, Or.inl rfl⟩
  · rintro chunk rest g ⟨hupToDate, -⟩
    refine (sendChunkFrom_settles _ chunk 0 g hupToDate).mono fun outcome g' hend => ?_
    cases outcome with
    | error e => exact hend
    | ok _ => exact ⟨hend.1, Or.inr hend.2⟩
  · rintro g ⟨hupToDate, hnil | hsucceeded⟩
    · exact absurd hnil.symm (splitMessage_ne_nil text)
    · exact ⟨hupToDate, hsucceeded⟩

end TelegramClient

/-! ## Runs of calls -/

/-- A call of `send_message`: its text, and how it ends. -/
structure SendCall where
  text : String
  outcome : Except Raised Unit

namespace DeliveryState

/-- A call, with the replies that it gets. -/
def Calls (config : Settings) (s : DeliveryState) (call : SendCall) (s' : DeliveryState) : Prop :=
  Program.Reaches Serves (TelegramClient.sendMessage config call.text) s (.done call.outcome) s'

theorem Calls.chunkEnd {config : Settings} {s s' : DeliveryState} {call : SendCall}
    (h : Calls config s call s') (hs : UpToDate s) : TelegramClient.ChunkEnd call.outcome s' :=
  (TelegramClient.sendMessage_settles config call.text hs).done h

/-- What a snapshot reads of the client. -/
def reading (s : DeliveryState) : TelegramReading where
  lastSuccessAt := s.health.lastSuccessAt
  lastErrorAt := s.health.lastErrorAt
  lastErrorType := s.health.lastErrorType

/-- Every snapshot finds the client healthy exactly if the last attempt was accepted. -/
def Reflects (config : Settings) (s : DeliveryState) : Prop :=
  ∀ readings state, readings.telegram = some s.reading →
    HealthState.collectSubstates config readings = .ok state →
    (state.telegramHealthy = true ↔ s.LastAccepted)

/-- The last attempt was accepted, or a failure that is recorded came in a later second than the
last success. -/
def FailureSeen (s : DeliveryState) : Prop :=
  s.LastAccepted ∨ ∀ t ∈ lastTime HttpReply.accepted s.attempts,
    ∃ failed ∈ lastTime HttpReply.recorded s.attempts, t < failed

/-- The verdict of a snapshot is that on the two times. -/
theorem reflects_iff_healthy {config : Settings} {s : DeliveryState} :
    s.Reflects config ↔ (s.reading.healthy = true ↔ s.LastAccepted) := by
  have hverdict {readings : HealthReadings} {state : HealthState}
      (htelegram : readings.telegram = some s.reading)
      (hstate : HealthState.collectSubstates config readings = .ok state) :
      state.telegramHealthy = true ↔ s.reading.healthy = true := by
    rw [(HealthState.collectSubstates_gathered hstate).telegram, htelegram]
    simp
  constructor
  · intro h
    -- a monitor that has the client alone returns
    let readings : HealthReadings :=
      { now := 0, monotonic := 0, database := none, discovery := none, wsManager := none,
        telegram := some s.reading, dispatcher := none, registry := none }
    obtain ⟨state, hstate⟩ : ∃ state, HealthState.collectSubstates config readings = .ok state :=
      ⟨_, rfl⟩
    exact (hverdict rfl hstate).symm.trans (h readings state rfl hstate)
  · intro h readings state htelegram hstate
    exact (hverdict htelegram hstate).trans h

/-- After a failure, the verdict is right exactly if a failure is seen. -/
theorem reflects_of_failed {config : Settings} {s : DeliveryState} (h : UpToDate s)
    (hfailed : ¬ s.LastAccepted) : s.Reflects config ↔ s.FailureSeen := by
  rw [reflects_iff_healthy, iff_false_right hfailed, FailureSeen, or_iff_right hfailed]
  unfold TelegramReading.healthy reading
  rw [h.success, h.failure]
  cases lastTime HttpReply.accepted s.attempts with
  | none => simp
  | some t =>
      cases lastTime HttpReply.recorded s.attempts with
      | none => simp
      | some failed => simp

/-- After a success, the verdict is right: no failure is later. -/
theorem reflects_of_succeeded {config : Settings} {s : DeliveryState} (h : UpToDate s)
    (hsucceeded : s.Succeeded) : s.Reflects config := by
  obtain ⟨haccepted, hnow⟩ := hsucceeded
  rw [reflects_iff_healthy, iff_true_right haccepted]
  unfold TelegramReading.healthy reading
  rw [hnow, h.failure, Option.any_some, Option.all_eq_true]
  intro failed hfailed
  -- the last failure was at a reading of the clock
  obtain ⟨attempt, hattempt, hlast⟩ := Option.bind_eq_some_iff.mp hfailed
  have hmem := (List.mem_filter.mp (List.mem_of_getLast? hattempt)).1
  exact decide_eq_true (h.past attempt hmem failed (List.mem_of_getLast? hlast))

theorem upToDate_init : UpToDate {} := by
  refine ⟨rfl, rfl, fun attempt hattempt => ?_⟩
  cases hattempt

/-- Between the calls of a run, the client is up to date. -/
theorem upToDate {config : Settings} {calls : List SendCall} {s : DeliveryState}
    (h : Trace (Calls config) {} calls s) : UpToDate s := by
  refine h.stateInvariant upToDate_init fun s call s' hs hcall => ?_
  have hend := hcall.chunkEnd hs
  cases houtcome : call.outcome with
  | ok _ =>
      rw [houtcome] at hend
      exact hend.1
  | error e =>
      rw [houtcome] at hend
      exact hend.1

/-- In every run of calls, the verdict is right exactly if the last attempt was accepted, or no
attempt was accepted before, or the last failure that is recorded came in a later second than the
last success. -/
theorem reflects_iff {config : Settings} {calls : List SendCall} {s : DeliveryState}
    (h : Trace (Calls config) {} calls s) : s.Reflects config ↔ s.FailureSeen := by
  cases h with
  | nil =>
      refine reflects_of_failed upToDate_init ?_
      rintro ⟨reply, hlast, -⟩
      cases hlast
  | @snoc calls s₁ call s prior last =>
      have hend := last.chunkEnd (upToDate prior)
      cases houtcome : call.outcome with
      | ok _ =>
          rw [houtcome] at hend
          exact iff_of_true (reflects_of_succeeded hend.1 hend.2) (Or.inl hend.2.1)
      | error e =>
          rw [houtcome] at hend
          obtain ⟨hupToDate, reply, hlast, haccepted⟩ := hend
          refine reflects_of_failed hupToDate ?_
          rintro ⟨reply', hlast', haccepted'⟩
          -- the last attempt has one reply
          cases hlast.symm.trans hlast'
          rw [haccepted] at haccepted'
          cases haccepted'

/-- Every request gets the same reply, and the clock moves on by some seconds at each reading. -/
def answer (reply : HttpReply) (seconds : ℕ) (s : DeliveryState) :
    (question : Await) → question.Reply × DeliveryState
  | .clock =>
      (s.now + seconds, { s with
        now := s.now + seconds
        attempts := s.readClock (s.now + seconds) })
  | .post _ => (reply, { s with attempts := s.attempts ++ [⟨reply, []⟩] })
  | .remember fact => ((), { s with health := s.health.after fact })
  | .note _ => ((), s)
  | .sleep => ((), s)
  | .stopIsSet => (false, s)
  | .wake => ((), s)
  | .store _ => (.error .databaseError, s)

/-- A call that is answered in this way. -/
def callWith (config : Settings) (reply : HttpReply) (seconds : ℕ) (s : DeliveryState) :
    Except Raised Unit × DeliveryState :=
  (TelegramClient.sendMessage config "a").drive (answer reply seconds) s

theorem calls_callWith (config : Settings) (reply : HttpReply) (seconds : ℕ) (s : DeliveryState) :
    Calls config s ⟨"a", (callWith config reply seconds s).1⟩
      (callWith config reply seconds s).2 := by
  refine Program.drive_reaches (fun s question => ?_) _ _
  cases question with
  | clock => exact ⟨by simp [answer], rfl⟩
  | _ => rfl

/-- The client after a message that was delivered in the second 0. -/
def delivered : DeliveryState :=
  (callWith {} (.response ⟨200, some (.object [("ok", .bool true)]), none⟩) 0 {}).2

/-- A call that is refused a second after a success leaves the client unhealthy. -/
theorem reflects_iff_refused :
    let refused := (callWith {} (.response ⟨403, none, none⟩) 1 delivered).2
    refused.Reflects {} ∧ refused.health.lastSuccessAt = some 0 ∧
      refused.reading.healthy = false := by
  intro refused
  refine ⟨(reflects_iff ((Trace.nil.snoc (calls_callWith _ _ _ _)).snoc
    (calls_callWith _ _ _ delivered))).mpr (Or.inr fun t ht => ?_), rfl, rfl⟩
  -- the success was in the second 0, and the failure in the second 1
  obtain rfl : 0 = t := Option.some.inj ht
  exact ⟨1, rfl, by decide⟩

/-- After a success, a body that is no JSON leaves the client healthy. -/
theorem unparsed_unseen :
    ¬ ∀ (config : Settings) (calls : List SendCall) (s : DeliveryState),
      Trace (Calls config) {} calls s → s.Reflects config := by
  intro h
  have hreflects := h {} _ _ ((Trace.nil.snoc (calls_callWith {} _ 0 {})).snoc
    (calls_callWith {} (.response ⟨200, none, none⟩) 0 delivered))
  obtain ⟨reply, hlast, haccepted⟩ := (reflects_iff_healthy.mp hreflects).mp rfl
  obtain rfl : HttpReply.response ⟨200, none, none⟩ = reply := Option.some.inj hlast
  cases haccepted

end DeliveryState

end BybitMonitor
