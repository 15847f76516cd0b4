import Mathlib
import BybitMonitor.Config
import BybitMonitor.Bybit.Pagination
import BybitMonitor.ToMathlib.Retry

/-!
# The REST client

`_request` of `app/bybit/rest.py` with its bounded retries: what a reply is taken for, and the
pauses between the attempts, which may raise. Texts that only the message of an exception carries
are left out.

* `RestClient.request_attempts`: the attempts, the pauses and the outcome of a request.
* `RestClient.request_bounded`: how often and how long the client of the application tries.
* `RestClient.request_raises_iff`: when it raises another exception than a `BybitError`.
-/

namespace BybitMonitor

/-! ## Errors -/

/-- What a request may raise: `BybitError` and its subclasses, or something else. -/
inductive RestError
  /-- `BybitError("client is closed")`. -/
  | clientClosed
  | timeoutError
  | connectError
  | rateLimitError
  | serverError
  | apiError (retCode : ℤ) (retMsg : String)
  | httpStatusError (statusCode : ℕ) (body : String)
  | malformedResponse (message : String)
  /-- An exception of another kind. -/
  | python (exc : PyExc)
  deriving DecidableEq, Repr

namespace RestError

/-- Whether it is a `BybitRetryableError`. -/
def isRetryable : RestError → Bool
  | timeoutError | connectError | rateLimitError | serverError => true
  | _ => false

/-- The exception as the loops of the application tell it apart. -/
def toPyExc : RestError → PyExc
  | python exc => exc
  | _ => .bybitError

end RestError

/-! ## Requests -/

/-- A path with its parameters as they stand in the URL. -/
structure RestQuery where
  path : String
  params : List (String × String) := []
  deriving DecidableEq, Repr

/-- What a `GET` ends with. -/
inductive RestReply
  /-- What `response.json()` and `response.text` return or raise. -/
  | response (statusCode : ℕ) (body : Except PyExc Json) (text : Except PyExc String)
  /-- `httpx.TimeoutException`. -/
  | timeout
  /-- Any other `httpx.TransportError`. -/
  | transportError
  /-- Any other exception, such as the `AssertionError` of a client that was closed during a
  pause. -/
  | raised (exc : PyExc)

/-- What a request asks. -/
inductive RestAwait
  /-- `self._client.get(url, params=params)`. -/
  | get (query : RestQuery)
  /-- `random.uniform(0, upper)`. -/
  | uniform (upper : PyFloat)
  /-- `self._sleep(delay)`. -/
  | sleep (delay : PyFloat)

/-- The reply to a question. A wait may raise, such as the `CancelledError` of a shutdown. -/
abbrev RestAwait.Reply : RestAwait → Type
  | get _ => RestReply
  | uniform _ => ℚ
  | sleep _ => Except PyExc Unit

/-- A coroutine of the REST client. -/
abbrev RestCall (α : Type) : Type := Program RestAwait RestAwait.Reply RestError α

namespace Json

/-- The digits of a text that `int()` reads, with the sign; `none` is the `ValueError`. Texts of
more than 4300 digits are refused. -/
def intOfText (text : String) : Option ℤ := do
  let stripped := ((text.toList.map PyFloat.toAscii).dropWhile PyFloat.isAsciiSpace).reverse
  let plain ← PyFloat.dropUnderscores false (stripped.dropWhile PyFloat.isAsciiSpace).reverse
  let (negative, digits) := PyFloat.splitSign plain
  if digits.isEmpty || !digits.all Char.isDigit || 4300 < digits.length then none
  else return if negative then -PyFloat.natOfDigits digits else PyFloat.natOfDigits digits

/-- `int(value)`. -/
def toInt : Json → Except PyExc ℤ
  | bool value => .ok (if value then 1 else 0)
  | int value => .ok value
  | float value => value.toInt
  | string text =>
      match intOfText text with
      | some value => .ok value
      | none =>
          .error (.valueError ("invalid literal for int() with base 10: " ++
            String.ofList ((PyText.repr text).toList.take 200)))
  | value =>
      .error (.typeError ("int() argument must be a string, a bytes-like object or a real " ++
        "number, not '" ++ value.typeName ++ "'"))

/-- `value in (0, "0")`. -/
def isZeroCode : Json → Bool
  | bool value => !value
  | int value => value = 0
  | float value => value = 0
  | string text => text = "0"
  | _ => false

end Json

/-- `RETRYABLE_HTTP_STATUS`. -/
def retryableHttpStatus : List ℕ := [408, 425, 429, 500, 502, 503, 504]

/-- `RETRYABLE_RETCODES`. -/
def retryableRetcodes : List ℤ := [10002, 10006, 33004, 33005]

/-- `BybitRestClient`. -/
structure RestClient where
  maxRetries : ℤ := 3
  baseBackoff : PyFloat := .finite (1 / 2)
  jitter : PyFloat := .finite (1 / 4)
  maxBackoff : PyFloat := .finite 10
  /-- Whether `self._client` is there: `close` drops it. -/
  isOpen : Bool := true

/-- The client of the application. -/
def Settings.restClient (self : Settings) : RestClient := { maxRetries := self.restMaxRetries }

namespace RestClient

variable (str : Json → String) (self : RestClient) (query : RestQuery)

/-- `_safe_body`. -/
def safeBody (text : Except PyExc String) : Except PyExc String :=
  match text with
  | .ok body => .ok body
  | .error exc => if exc.isException then .ok "" else .error exc

/-- `code_int`. -/
def codeInt (retCode : Json) : Except RestError ℤ :=
  match retCode.toInt with
  | .ok code => .ok code
  | .error exc => if exc.isTypeOrValueError then .ok (-1) else .error (.python exc)

/-- `_parse_success`. -/
def parseSuccess : Except PyExc Json → Except RestError Json
  | .error exc =>
      if exc.isValueError then .error (.malformedResponse "invalid JSON in response body")
      else .error (.python exc)
  | .ok (.object fields) => do
      let retCode := Json.get fields "retCode"
      if retCode.isZeroCode then return .object fields
      else
        let retMsg := ((Json.get fields "retMsg").orElse (Json.get fields "ret_msg")).orElse
          (.string "unknown")
        let code ← codeInt retCode
        if code ∈ retryableRetcodes then throw .rateLimitError
        else throw (.apiError code (retMsg.text str))
  | .ok _ => .error (.malformedResponse "response payload is not a JSON object")

/-- `_try_request` from the reply on. -/
def settle : RestReply → Except RestError Json
  | .timeout => .error .timeoutError
  | .transportError => .error .connectError
  | .raised exc => .error (.python exc)
  | .response statusCode body text =>
      if statusCode ∈ retryableHttpStatus then do
        let _ ← (safeBody text).mapError .python
        if statusCode = 429 then throw .rateLimitError else throw .serverError
      else if statusCode = 200 then parseSuccess str body
      else do
        let body ← (safeBody text).mapError .python
        throw (.httpStatusError statusCode body)

/-- `_try_request`. -/
def tryRequest : RestCall Json := do
  let reply ← Program.perform (.get query)
  Program.lift (settle str reply)

/-- `_backoff_delay` before the jitter. -/
def baseDelay (attempt : ℕ) : Except PyExc PyFloat := do
  let factor ← PyFloat.ofInt (2 ^ (attempt - 1))
  let product := self.baseBackoff.mulPos factor.value
  return if self.maxBackoff.lt product then self.maxBackoff else product

/-- `_backoff_delay`. -/
def backoffDelay (attempt : ℕ) : RestCall PyFloat := do
  let base ← Program.lift ((self.baseDelay attempt).mapError .python)
  if PyFloat.lt 0 self.jitter then
    let draw ← Program.perform (.uniform self.jitter)
    return base.add (.finite draw)
  else return base

/-- The pause after a failed attempt. -/
def pause (attempt : ℕ) : RestCall Unit := do
  let delay ← self.backoffDelay attempt
  let woken ← Program.perform (RestAwait.sleep delay)
  Program.lift (woken.mapError .python)

/-- `_request`: it gives up when `attempts > self.max_retries`. -/
def request : RestCall Json :=
  if self.isOpen then
    Program.retry (tryRequest str query) RestError.isRetryable self.pause self.maxRetries.toNat 0
  else Program.throw .clientClosed

end RestClient

/-! ## The attempts of a request -/

/-- The draws of `random.uniform` are between its bounds. -/
def RestAwait.legal : (question : RestAwait) → question.Reply → Prop
  | uniform upper, draw => 0 ≤ draw ∧ (PyFloat.finite draw).le upper
  | _, _ => True

/-- What a coroutine of the client has asked, with the replies. -/
abbrev RestLog : Type := Program.Transcript RestAwait RestAwait.Reply

/-- What a request does, its draws apart. -/
inductive RestStep
  | got (query : RestQuery) (reply : RestReply)
  | slept (delay : PyFloat) (outcome : Except PyExc Unit)

namespace RestStep

/-- The reply of a `GET`. -/
def reply? : RestStep → Option RestReply
  | got _ reply => some reply
  | slept _ _ => none

/-- The length of a pause. -/
def delay? : RestStep → Option PyFloat
  | got _ _ => none
  | slept delay _ => some delay

end RestStep

namespace RestLog

/-- The steps of a request in their order. -/
def steps (log : RestLog) : List RestStep :=
  log.filterMap fun entry =>
    match entry with
    | ⟨.get query, reply⟩ => some (.got query reply)
    | ⟨.uniform _, _⟩ => none
    | ⟨.sleep delay, outcome⟩ => some (.slept delay outcome)

/-- The replies to the attempts. -/
def replies (log : RestLog) : List RestReply := log.steps.filterMap RestStep.reply?

/-- The pauses, one that raises among them. -/
def sleeps (log : RestLog) : List PyFloat := log.steps.filterMap RestStep.delay?

variable (log log' : RestLog)

@[simp]
theorem steps_append : steps (log ++ log') = steps log ++ steps log' := List.filterMap_append

@[simp]
theorem steps_nil : steps [] = [] := rfl

@[simp]
theorem steps_get (query : RestQuery) (reply : RestReply) :
    steps (⟨.get query, reply⟩ :: log) = .got query reply :: steps log := rfl

@[simp]
theorem steps_uniform (upper : PyFloat) (draw : ℚ) :
    steps (⟨.uniform upper, draw⟩ :: log) = steps log := rfl

@[simp]
theorem steps_sleep (delay : PyFloat) (outcome : Except PyExc Unit) :
    steps (⟨.sleep delay, outcome⟩ :: log) = .slept delay outcome :: steps log := rfl

end RestLog

namespace RestClient

/-- Failed attempts, each with the pause after it. -/
def rounds (query : RestQuery) (failures : List (RestReply × PyFloat)) : List RestStep :=
  failures.flatMap fun failure => [.got query failure.1, .slept failure.2 (.ok ())]

variable (str : Json → String) (client : RestClient) (query : RestQuery)

/-- A reply after which the request is tried again. -/
def Transient (reply : RestReply) : Prop :=
  ∃ error, settle str reply = .error error ∧ error.isRetryable = true

/-- A pause that may come after a failed attempt: the exponential delay with its jitter. -/
def PauseAfter (attempt : ℕ) (delay : PyFloat) : Prop :=
  ∃ base, client.baseDelay attempt = .ok base ∧
    if PyFloat.lt 0 client.jitter then
      ∃ draw : ℚ,
        0 ≤ draw ∧ (PyFloat.finite draw).le client.jitter ∧ delay = base.add (.finite draw)
    else delay = base

/-- Attempts that have failed transiently, with the pauses that come after them. -/
structure Failed (failures : List (RestReply × PyFloat)) : Prop where
  transient : ∀ failure ∈ failures, Transient str failure.1
  pauses : ∀ i failure, failures[i]? = some failure → client.PauseAfter (i + 1) failure.2

/-- How a request ends after `n` failures and the reply `last`: with what the reply settles, unless
there is an attempt left for a transient failure, with a delay that is too large for a `float`, or
with what the pause raises. -/
inductive RequestEnd (n : ℕ) (last : RestReply) : Except RestError Json → List RestStep → Prop
  | settled (hlast : Transient str last → n = client.maxRetries.toNat) :
      RequestEnd n last (settle str last) []
  | overflowed {exc : PyExc} (hlt : n < client.maxRetries.toNat) (hlast : Transient str last)
      (hdelay : client.baseDelay (n + 1) = .error exc) :
      RequestEnd n last (.error (.python exc)) []
  | interrupted {delay : PyFloat} {exc : PyExc} (hlt : n < client.maxRetries.toNat)
      (hlast : Transient str last) (hdelay : client.PauseAfter (n + 1) delay) :
      RequestEnd n last (.error (.python exc)) [.slept delay (.error exc)]

variable {str client query}

theorem rounds_append (failures : List (RestReply × PyFloat)) (failure : RestReply × PyFloat) :
    rounds query (failures ++ [failure]) =
      rounds query failures ++ [.got query failure.1, .slept failure.2 (.ok ())] := by
  simp [rounds]

/-- A pause is drawn and slept, or the delay overflows. -/
theorem pause_meets {attempt : ℕ} {log : RestLog} {post : Except RestError Unit → RestLog → Prop}
    (hpause : ∀ delay outcome log', client.PauseAfter attempt delay →
      RestLog.steps log' = log.steps ++ [.slept delay outcome] →
        post (outcome.mapError .python) log')
    (hraise : ∀ exc, client.baseDelay attempt = .error exc → post (.error (.python exc)) log) :
    (client.pause attempt).Meets (.recording RestAwait.legal) log post := by
  cases hbase : client.baseDelay attempt with
  | error exc =>
      simp only [pause, backoffDelay, hbase]
      exact hraise exc hbase
  | ok base =>
      by_cases hjitter : PyFloat.lt 0 client.jitter = true
      · simp only [pause, backoffDelay, hbase, hjitter, if_true]
        refine Program.meets_bind.mpr ?_
        show (Program.perform (RestAwait.uniform client.jitter) >>= _).Meets _ _ _
        refine Program.meets_recording_bind.mpr fun draw hdraw => ?_
        refine Program.meets_recording_bind.mpr fun outcome _ => ?_
        refine hpause (base.add (.finite draw)) outcome _ ⟨base, hbase, ?_⟩ (by simp)
        rw [if_pos hjitter]
        exact ⟨draw, hdraw.1, hdraw.2, rfl⟩
      · simp only [pause, backoffDelay, hbase, hjitter]
        refine Program.meets_recording_bind.mpr fun outcome _ => ?_
        refine hpause base outcome _ ⟨base, hbase, ?_⟩ (by simp)
        rw [if_neg hjitter]

/-- One more attempt has failed, and the pause after it is over. -/
theorem Failed.snoc {failures : List (RestReply × PyFloat)} {reply : RestReply} {delay : PyFloat}
    (h : Failed str client failures) (hreply : Transient str reply)
    (hdelay : client.PauseAfter (failures.length + 1) delay) :
    Failed str client (failures ++ [(reply, delay)]) where
  transient := by
    simp only [List.mem_append, List.mem_singleton]
    rintro other (hother | rfl)
    · exact h.transient other hother
    · exact hreply
  pauses := by
    intro i other hother
    rw [List.getElem?_append] at hother
    split at hother
    · exact h.pauses i other hother
    · obtain ⟨hi, rfl⟩ := List.getElem?_eq_some_iff.mp hother
      -- the pause after the last attempt
      obtain rfl : i = failures.length := by simp at hi; omega
      simpa using hdelay

/-- A request makes attempts that fail transiently, with one pause after each of them, and then a
last one, which it ends with or which it cannot pause after. -/
theorem request_attempts (str : Json → String) (client : RestClient) (query : RestQuery) :
    (request str client query).Meets (.recording RestAwait.legal) [] fun outcome log =>
      if client.isOpen then
        ∃ failures last ending, Failed str client failures ∧
          failures.length ≤ client.maxRetries.toNat ∧
          RestLog.steps log = rounds query failures ++ .got query last :: ending ∧
          RequestEnd str client failures.length last outcome ending
      else outcome = .error .clientClosed ∧ log = [] := by
  unfold request
  split
  · -- the invariant: as many attempts as counted have failed
    refine Program.meets_retry
      (fun n (log : RestLog) => ∃ failures, Failed str client failures ∧
        log.steps = rounds query failures ∧ failures.length = n)
      client.maxRetries.toNat ?_ (Nat.zero_add _) ⟨[], ⟨by simp, by simp⟩, rfl, rfl⟩
    rintro n log hn ⟨failures, hfailed, hsteps, rfl⟩
    refine Program.meets_recording_bind.mpr fun reply _ => ?_
    cases hsettle : settle str reply with
    | ok payload =>
        refine ⟨failures, reply, [], hfailed, hn, by simp [hsteps], hsettle ▸ .settled ?_⟩
        rintro ⟨error, herror, -⟩
        rw [hsettle] at herror
        cases herror
    | error error =>
        refine ⟨fun hlast => ?_, fun hretry hlt => ?_⟩
        · refine ⟨failures, reply, [], hfailed, hn, by simp [hsteps], hsettle ▸ .settled ?_⟩
          rintro ⟨other, hother, hretry⟩
          obtain rfl : error = other := Except.error.inj (hsettle.symm.trans hother)
          rcases hlast with hpermanent | hlimit
          · rw [hretry] at hpermanent
            cases hpermanent
          · exact hlimit
        · have htransient : Transient str reply := ⟨error, hsettle, hretry⟩
          refine pause_meets (fun delay outcome log' hdelay hlog => ?_) fun exc hexc => ?_
          · cases outcome with
            | ok returned =>
                refine ⟨_, hfailed.snoc htransient hdelay, ?_, by simp⟩
                rw [hlog, rounds_append]
                simp [hsteps]
            | error exc =>
                exact ⟨failures, reply, _, hfailed, hn, by rw [hlog]; simp [hsteps],
                  .interrupted hlt htransient hdelay⟩
          · exact ⟨failures, reply, [], hfailed, hn, by simp [hsteps],
              .overflowed hlt htransient hexc⟩
  · exact ⟨rfl, rfl⟩

/-! ## The pauses of the application -/

/-- A power of two within the range is a binary64 number. -/
theorem roundBinary64_two_zpow {e : ℤ} (hlow : -1074 ≤ e) (hhigh : e < 1024) :
    PyFloat.roundBinary64 (2 ^ e) = .finite (2 ^ e) := by
  have habs : |(2 : ℚ) ^ e| = 2 ^ e := abs_of_pos (by positivity)
  have hlog : Int.log 2 |(2 : ℚ) ^ e| = e := by
    rw [habs]
    exact_mod_cast Int.log_zpow (R := ℚ) (b := 2) (by norm_num) e
  obtain ⟨m, hm⟩ := PyFloat.eq_multiple_binaryUnit (r := 2 ^ e) (n := 1) (e := e) (by simp)
    (by omega)
  refine PyFloat.roundBinary64_of_multiple hm ?_
  rw [habs, ← zpow_natCast]
  exact zpow_lt_zpow_right₀ (by norm_num) (by exact_mod_cast hhigh)

/-- `float(2 ** i)` is exact, as long as there is such a number. -/
theorem ofInt_two_pow {i : ℕ} (h : i < 1024) : PyFloat.ofInt (2 ^ i) = .ok (.finite (2 ^ i)) := by
  have hround := @roundBinary64_two_zpow i (by omega) (by omega)
  rw [zpow_natCast] at hround
  unfold PyFloat.ofInt
  push_cast
  rw [hround]

/-- The delay of the application before the jitter: half a second, doubled up to ten seconds. -/
def delayOf (i : ℕ) : ℚ := min (2 ^ i / 2) 10

theorem baseDelay_application (config : Settings) {i : ℕ} (h : i < 1024) :
    config.restClient.baseDelay (i + 1) = .ok (.finite (delayOf i)) := by
  have hhalf : PyFloat.roundBinary64 (1 / 2 * 2 ^ i) = .finite (2 ^ i / 2) := by
    have hround := @roundBinary64_two_zpow (i - 1) (by omega) (by omega)
    have heq : (2 : ℚ) ^ ((i : ℤ) - 1) = 1 / 2 * 2 ^ i := by
      rw [zpow_sub₀ two_ne_zero, zpow_natCast]
      ring
    rw [heq] at hround
    rw [hround]
    ring_nf
  simp only [baseDelay, Nat.add_sub_cancel, ofInt_two_pow h]
  show Except.ok (if PyFloat.lt (.finite 10) (PyFloat.roundBinary64 (1 / 2 * 2 ^ i)) then
    PyFloat.finite 10 else PyFloat.roundBinary64 (1 / 2 * 2 ^ i)) = _
  rw [hhalf, delayOf]
  simp only [PyFloat.lt, decide_eq_true_eq]
  split
  · rename_i hlt
    rw [min_eq_right hlt.le]
  · rename_i hle
    rw [min_eq_left (not_lt.mp hle)]

/-- The jitter of the application adds at most a quarter of a second. -/
theorem pauseAfter_application {config : Settings} {i : ℕ} (h : i < 1024) {delay : PyFloat}
    (hdelay : config.restClient.PauseAfter (i + 1) delay) :
    ∃ x, delay = .finite x ∧ delayOf i ≤ x ∧ x ≤ delayOf i + 1 / 4 := by
  obtain ⟨base, hbase, hdelay⟩ := hdelay
  rw [baseDelay_application config h] at hbase
  obtain rfl := Except.ok.inj hbase
  have hpositive : PyFloat.lt 0 config.restClient.jitter = true := by
    show PyFloat.lt 0 (.finite (1 / 4)) = true
    decide +kernel
  rw [if_pos hpositive] at hdelay
  obtain ⟨draw, hdraw, hjitter, rfl⟩ := hdelay
  have hjitter : draw ≤ 1 / 4 := by
    replace hjitter : (PyFloat.finite draw).le (.finite (1 / 4)) = true := hjitter
    simpa [PyFloat.le, PyFloat.lt] using hjitter
  have hpos : 0 ≤ delayOf i := le_min (by positivity) (by norm_num)
  have hten : delayOf i ≤ 10 := min_le_right _ _
  -- the delay before the jitter is a multiple of a quarter
  obtain ⟨m, hm⟩ : ∃ m : ℤ, delayOf i = m * 2 ^ (-2 : ℤ) := by
    rcases min_choice ((2 : ℚ) ^ i / 2) 10 with hmin | hmin
    · exact ⟨2 * 2 ^ i, by rw [delayOf, hmin]; push_cast; norm_num; ring⟩
    · exact ⟨40, by rw [delayOf, hmin]; norm_num⟩
  have habs : |delayOf i + draw| = delayOf i + draw := abs_of_nonneg (by linarith)
  have hlog : Int.log 2 |delayOf i + draw| ≤ 3 := by
    by_cases hzero : delayOf i + draw = 0
    · simp [hzero]
    · have hpos' : 0 < delayOf i + draw := lt_of_le_of_ne (by linarith) (Ne.symm hzero)
      rw [habs]
      have hlt : Int.log 2 (delayOf i + draw) < 4 := by
        rw [← Int.lt_zpow_iff_log_lt (by norm_num) hpos']
        norm_num
        linarith
      omega
  obtain ⟨x, hx⟩ := PyFloat.roundBinary64_finite (x := delayOf i + draw) (by
    rw [habs]
    calc delayOf i + draw ≤ 2 ^ 4 := by norm_num; linarith
      _ ≤ 2 ^ 1023 := pow_le_pow_right₀ (by norm_num) (by norm_num))
  refine ⟨x, hx, ?_, ?_⟩
  · rw [hm]
    exact PyFloat.le_roundBinary64 hx (by omega) (by rw [← hm]; linarith)
  · have hend : delayOf i + 1 / 4 = (m + 1 : ℤ) * 2 ^ (-2 : ℤ) := by
      rw [hm]
      push_cast
      norm_num
      ring
    rw [hend]
    exact PyFloat.roundBinary64_le hx (by omega) (by rw [← hend]; linarith)

/-- After 1024 failures the delay is no `float` any more. -/
theorem baseDelay_eq_error_iff (client : RestClient) {i : ℕ} {exc : PyExc} :
    client.baseDelay (i + 1) = .error exc ↔
      1024 ≤ i ∧ exc = .overflowError "int too large to convert to float" := by
  by_cases hsmall : i < 1024
  · simp only [baseDelay, Nat.add_sub_cancel, ofInt_two_pow hsmall]
    exact iff_of_false (by rintro ⟨⟩) fun h => absurd h.1 (not_le.mpr hsmall)
  · have hlarge : ¬ ∃ r, PyFloat.roundBinary64 (2 ^ i) = .finite r := by
      rw [PyFloat.roundBinary64_finite_iff, not_lt, abs_of_pos (by positivity)]
      calc PyFloat.binary64Limit ≤ 2 ^ 1024 := sub_le_self _ (by positivity)
        _ ≤ 2 ^ i := pow_le_pow_right₀ (by norm_num) (not_lt.mp hsmall)
    have hint : PyFloat.ofInt (2 ^ i) =
        .error (.overflowError "int too large to convert to float") := by
      unfold PyFloat.ofInt
      push_cast
      cases hround : PyFloat.roundBinary64 (2 ^ i) with
      | finite r => exact absurd ⟨r, hround⟩ hlarge
      | nan => rfl
      | inf negative => rfl
    simp only [baseDelay, Nat.add_sub_cancel, hint]
    show Except.error _ = Except.error exc ↔ _
    simp [not_lt.mp hsmall, eq_comm]

/-- There is a pause after at most 1024 attempts. -/
theorem PauseAfter.lt {client : RestClient} {i : ℕ} {delay : PyFloat}
    (h : client.PauseAfter (i + 1) delay) : i < 1024 := by
  obtain ⟨base, hbase, -⟩ := h
  by_contra hge
  rw [(baseDelay_eq_error_iff client).mpr ⟨not_lt.mp hge, rfl⟩] at hbase
  cases hbase

theorem Failed.length_le {failures : List (RestReply × PyFloat)}
    (h : Failed str client failures) : failures.length ≤ 1024 := by
  by_contra hlt
  exact lt_irrefl _ (h.pauses 1024 _ (List.getElem?_eq_getElem (by omega))).lt

theorem delays_rounds (failures : List (RestReply × PyFloat)) :
    (rounds query failures).filterMap RestStep.delay? = failures.map Prod.snd := by
  induction failures with
  | nil => rfl
  | cons failure failures ih => exact congrArg (failure.2 :: ·) ih

theorem replies_rounds (failures : List (RestReply × PyFloat)) :
    (rounds query failures).filterMap RestStep.reply? = failures.map Prod.fst := by
  induction failures with
  | nil => rfl
  | cons failure failures ih => exact congrArg (failure.1 :: ·) ih

/-- The pauses of a request, with an interrupted one at its end. -/
theorem RequestEnd.sleeps {failures : List (RestReply × PyFloat)} {last : RestReply}
    {outcome : Except RestError Json} {ending : List RestStep} {log : RestLog}
    (h : RequestEnd str client failures.length last outcome ending)
    (hfailed : Failed str client failures) (hle : failures.length ≤ client.maxRetries.toNat)
    (hsteps : log.steps = rounds query failures ++ .got query last :: ending) :
    log.sleeps.length ≤ client.maxRetries.toNat ∧
      ∀ i delay, log.sleeps[i]? = some delay → client.PauseAfter (i + 1) delay := by
  have hsleeps : log.sleeps = failures.map Prod.snd ++ ending.filterMap RestStep.delay? := by
    rw [RestLog.sleeps, hsteps, List.filterMap_append, delays_rounds]
    rfl
  have hpauses (i : ℕ) (delay : PyFloat) (hi : (failures.map Prod.snd)[i]? = some delay) :
      client.PauseAfter (i + 1) delay := by
    rw [List.getElem?_map] at hi
    obtain ⟨failure, hfailure, rfl⟩ := Option.map_eq_some_iff.mp hi
    exact hfailed.pauses i failure hfailure
  rw [hsleeps]
  cases h with
  | settled hlast => simpa using ⟨hle, fun i delay => by simpa using hpauses i delay⟩
  | overflowed hlt hlast hdelay => simpa using ⟨hle, fun i delay => by simpa using hpauses i delay⟩
  | @interrupted delay exc hlt hlast hdelay =>
      show (failures.map Prod.snd ++ [delay]).length ≤ _ ∧
        ∀ i delay', (failures.map Prod.snd ++ [delay])[i]? = some delay' → _
      refine ⟨by simpa using hlt, fun i delay' hi => ?_⟩
      rw [List.getElem?_append, List.getElem?_singleton] at hi
      split_ifs at hi with hi' hzero
      · exact hpauses i delay' hi
      · -- the pause that raises
        rw [List.length_map] at hi' hzero
        obtain rfl : i = failures.length := by omega
        exact Option.some.inj hi ▸ hdelay

/-- The pauses of the application add up to ten seconds and a quarter for each of them. -/
theorem sum_le_of_forall {delays : List PyFloat}
    (h : ∀ (i : ℕ) delay, delays[i]? = some delay → ∃ x, delay = .finite x ∧ x ≤ 10 + 1 / 4) :
    (delays.map PyFloat.value).sum ≤ 41 / 4 * delays.length := by
  have hall : ∀ x ∈ delays.map PyFloat.value, x ≤ 41 / 4 := by
    intro x hx
    obtain ⟨delay, hdelay, rfl⟩ := List.mem_map.mp hx
    obtain ⟨i, hi⟩ := List.mem_iff_getElem?.mp hdelay
    obtain ⟨y, rfl, hy⟩ := h i delay hi
    show y ≤ 41 / 4
    linarith
  have hsum := List.sum_le_card_nsmul _ _ hall
  rw [List.length_map, nsmul_eq_mul] at hsum
  linarith

/-- The application sends the same request until it is answered, with one pause between two
attempts, at most `rest_max_retries` times again and never more than 1025 times in all. It ends
with an attempt, or with a pause that raises. Before the attempt number `i + 2` it sleeps for half
a second that doubles up to ten seconds, and up to a quarter of a second longer. -/
theorem request_bounded (str : Json → String) (config : Settings) (query : RestQuery) :
    (request str config.restClient query).Meets (.recording RestAwait.legal) []
      fun _ (log : RestLog) =>
        (∃ failures last ending, log.steps = rounds query failures ++ .got query last :: ending ∧
          (ending = [] ∨ ∃ delay exc, ending = [.slept delay (.error exc)])) ∧
        log.sleeps.length ≤ min config.restMaxRetries.toNat 1024 ∧
        (∀ (i : ℕ) delay, log.sleeps[i]? = some delay →
          ∃ x, delay = .finite x ∧ delayOf i ≤ x ∧ x ≤ delayOf i + 1 / 4) ∧
        (log.sleeps.map PyFloat.value).sum ≤ 41 / 4 * log.sleeps.length := by
  refine (request_attempts str config.restClient query).mono fun outcome log h => ?_
  obtain ⟨failures, last, ending, hfailed, hle, hsteps, hend⟩ := h
  obtain ⟨hlength, hsleeps⟩ := hend.sleeps hfailed hle hsteps
  have hpauses (i : ℕ) (delay : PyFloat) (hi : (RestLog.sleeps log)[i]? = some delay) :
      ∃ x, delay = .finite x ∧ delayOf i ≤ x ∧ x ≤ delayOf i + 1 / 4 :=
    pauseAfter_application (hsleeps i delay hi).lt (hsleeps i delay hi)
  refine ⟨⟨failures, last, ending, hsteps, ?_⟩, le_min hlength ?_, hpauses,
    sum_le_of_forall fun i delay hi => ?_⟩
  · cases hend with
    | settled | overflowed => exact Or.inl rfl
    | interrupted => exact Or.inr ⟨_, _, rfl⟩
  · by_contra hlt
    exact lt_irrefl _ (hsleeps 1024 _ (List.getElem?_eq_getElem (by omega))).lt
  · obtain ⟨x, rfl, -, hx⟩ := hpauses i delay hi
    have hmin := min_le_right ((2 : ℚ) ^ i / 2) 10
    exact ⟨x, rfl, hx.trans (by unfold delayOf; linarith)⟩

/-! ## Exceptions -/

/-- A body that `_parse_success` raises another exception than a `BybitError` for: one that is not
read, though not for want of JSON, or the overflow of an infinite code. -/
def BodyEscapes (exc : PyExc) (body : Except PyExc Json) : Prop :=
  (body = .error exc ∧ exc.isValueError = false) ∨
    ∃ fields negative, body = .ok (.object fields) ∧
      Json.get fields "retCode" = .float (.inf negative) ∧
      exc = .overflowError "cannot convert float infinity to integer"

/-- A reply after which another exception than a `BybitError` is raised: one that the transport
raises, one that `except Exception` does not catch, or one of a body. -/
def Escapes (exc : PyExc) : RestReply → Prop
  | .raised raised => raised = exc
  | .response statusCode body text =>
      (statusCode ≠ 200 ∧ text = .error exc ∧ exc.isException = false) ∨
        (statusCode = 200 ∧ BodyEscapes exc body)
  | _ => False

/-- Only an infinite code makes `int()` raise what `_parse_success` does not catch. -/
theorem codeInt_python_iff {retCode : Json} {exc : PyExc} :
    codeInt retCode = .error (.python exc) ↔ ∃ negative, retCode = .float (.inf negative) ∧
      exc = .overflowError "cannot convert float infinity to integer" := by
  cases retCode with
  | float value =>
      cases value with
      | inf negative => simp [codeInt, Json.toInt, PyFloat.toInt, PyExc.isTypeOrValueError, eq_comm]
      | nan => simp [codeInt, Json.toInt, PyFloat.toInt, PyExc.isTypeOrValueError]
      | finite x => simp [codeInt, Json.toInt, PyFloat.toInt]
  | string text =>
      cases hread : Json.intOfText text <;>
        simp [codeInt, Json.toInt, hread, PyExc.isTypeOrValueError]
  | _ => simp [codeInt, Json.toInt, PyExc.isTypeOrValueError]

theorem parseSuccess_python_iff {body : Except PyExc Json} {exc : PyExc} :
    parseSuccess str body = .error (.python exc) ↔ BodyEscapes exc body := by
  cases body with
  | error raised =>
      cases hraised : raised.isValueError <;> simp [parseSuccess, BodyEscapes, hraised]
      · rintro rfl
        exact hraised
      · rintro rfl
        exact hraised
  | ok value =>
      cases value with
      | object fields =>
          have hinfinite (negative : Bool) : (Json.float (.inf negative)).isZeroCode = false := rfl
          have hobject : parseSuccess str (.ok (.object fields)) = .error (.python exc) ↔
              (Json.get fields "retCode").isZeroCode = false ∧
                codeInt (Json.get fields "retCode") = .error (.python exc) := by
            cases hzero : (Json.get fields "retCode").isZeroCode with
            | true => simp [parseSuccess, hzero, pure, Except.pure]
            | false =>
                simp only [parseSuccess, hzero]
                cases codeInt (Json.get fields "retCode") with
                | error error => simp [bind, Except.bind]
                | ok code =>
                    -- a code that is an integer is the code of a `BybitError`
                    by_cases hretry : code ∈ retryableRetcodes <;>
                      simp [bind, Except.bind, hretry, throw, throwThe, MonadExceptOf.throw]
          rw [hobject, codeInt_python_iff]
          constructor
          · rintro ⟨-, negative, hcode, hexc⟩
            exact Or.inr ⟨fields, negative, rfl, hcode, hexc⟩
          · rintro (⟨hread, -⟩ | ⟨_, negative, heq, hcode, hexc⟩)
            · cases hread
            · obtain rfl := Json.object.inj (Except.ok.inj heq)
              exact ⟨by rw [hcode, hinfinite], negative, hcode, hexc⟩
      | _ => simp [parseSuccess, BodyEscapes]

/-- Which replies are taken for another exception than a `BybitError`. -/
theorem settle_python_iff {reply : RestReply} {exc : PyExc} :
    settle str reply = .error (.python exc) ↔ Escapes exc reply := by
  cases reply with
  | timeout => simp [settle, Escapes]
  | transportError => simp [settle, Escapes]
  | raised raised => simp [settle, Escapes]
  | response statusCode body text =>
      by_cases hok : statusCode = 200
      · subst hok
        have hlist : (200 : ℕ) ∉ retryableHttpStatus := by decide
        simp [settle, Escapes, hlist, parseSuccess_python_iff]
      · have htext : safeBody text = .error exc ↔ text = .error exc ∧ exc.isException = false := by
          cases text with
          | ok body => simp [safeBody]
          | error raised =>
              cases hraised : raised.isException <;> simp [safeBody, hraised]
              · rintro rfl
                exact hraised
              · rintro rfl
                exact hraised
        have hescapes :
            Escapes exc (.response statusCode body text) ↔ safeBody text = .error exc := by
          simp [Escapes, hok, htext]
        rw [hescapes, settle, if_neg hok]
        split
        · cases safeBody text with
          | error raised => simp [bind, Except.bind, Except.mapError]
          | ok body =>
              by_cases hlimit : statusCode = 429 <;>
                simp [bind, Except.bind, Except.mapError, hlimit, throw, throwThe,
                  MonadExceptOf.throw]
        · cases safeBody text <;> simp [bind, Except.bind, Except.mapError, throw, throwThe,
            MonadExceptOf.throw]

/-- A request raises another exception than a `BybitError` exactly if its last step is a pause
that raises it or an attempt whose reply does so, or if it has failed 1025 times and is to be tried
again. -/
theorem request_raises_iff (str : Json → String) (client : RestClient) (query : RestQuery) :
    (request str client query).Meets (.recording RestAwait.legal) [] fun outcome (log : RestLog) =>
      ∀ exc, outcome = .error (.python exc) ↔
        (∃ delay, log.steps.getLast? = some (.slept delay (.error exc))) ∨
          ∃ last, log.steps.getLast? = some (.got query last) ∧
            (Escapes exc last ∨
              log.replies.length = 1025 ∧ 1024 < client.maxRetries ∧ Transient str last ∧
                exc = .overflowError "int too large to convert to float") := by
  refine (request_attempts str client query).mono fun outcome log h exc => ?_
  split at h
  · obtain ⟨failures, last, ending, hfailed, hle, hsteps, hend⟩ := h
    have hlength := hfailed.length_le
    have hreplies : (RestLog.replies log).length =
        failures.length + 1 + (ending.filterMap RestStep.reply?).length := by
      simp [RestLog.replies, hsteps, replies_rounds, RestStep.reply?]
      omega
    cases hend with
    | settled hlast =>
        simp only [hsteps, List.getLast?_append, List.getLast?_singleton, Option.some_or,
          Option.some.injEq, reduceCtorEq, exists_false, false_or, RestStep.got.injEq, true_and,
          exists_eq_left', settle_python_iff, hreplies, List.filterMap_nil, List.length_nil]
        constructor
        · exact Or.inl
        · rintro (hescapes | ⟨hmany, hmore, htransient, -⟩)
          · exact hescapes
          · have := hlast htransient
            omega
    | @overflowed raised hlt htransient hoverflow =>
        obtain ⟨hmany, rfl⟩ := (baseDelay_eq_error_iff client).mp hoverflow
        have hescapes : ¬ Escapes exc last := by
          obtain ⟨error, herror, hretry⟩ := htransient
          rw [← @settle_python_iff str, herror]
          rintro heq
          rw [Except.error.inj heq] at hretry
          cases hretry
        simp only [hsteps, List.getLast?_append, List.getLast?_singleton, Option.some_or,
          Option.some.injEq, reduceCtorEq, exists_false, false_or, RestStep.got.injEq, true_and,
          exists_eq_left', hreplies, List.filterMap_nil, List.length_nil, Except.error.injEq,
          RestError.python.injEq, hescapes, false_or]
        constructor
        · rintro rfl
          exact ⟨by omega, by omega, htransient, rfl⟩
        · rintro ⟨-, -, -, rfl⟩
          rfl
    | @interrupted delay raised hlt htransient hdelay =>
        simp [hsteps, List.getLast?_append, eq_comm]
  · obtain ⟨rfl, rfl⟩ := h
    simp

end RestClient

end BybitMonitor
