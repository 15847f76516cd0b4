import Mathlib
import BybitMonitor.Config
import BybitMonitor.Coroutine

/-!
# The Telegram client

`split_message` and `TelegramClient.send_message` with its bounded retries.

* `HttpReply.accepted`: the replies that `_send_chunk` takes for a success.
* `TelegramClient.sendMessage_meets`: the chunks are posted in order, each until it is accepted, and
  `send_message` returns after the last one.
-/

namespace BybitMonitor

/-- `MESSAGE_CHUNK_LIMIT`. -/
def messageChunkLimit : ℕ := 4096

/-- The end of the next chunk of a text over the limit: its last newline within the limit, unless
the text begins with it. -/
def chunkEnd (limit : ℕ) (remaining : List Char) : ℕ :=
  let window := remaining.take limit
  let afterNewline := window.reverse.idxOf '\n'
  -- `rfind` counts from the front; a newline at 0 and none at all cut at the limit
  if afterNewline + 1 < window.length then window.length - 1 - afterNewline else limit

theorem chunkEnd_pos {limit : ℕ} (hlimit : 0 < limit) (remaining : List Char) :
    0 < chunkEnd limit remaining := by
  simp only [chunkEnd]
  split
  · omega
  · exact hlimit

/-- The chunks of the remaining text. -/
def splitRemaining (limit : ℕ) (hlimit : 0 < limit) (remaining : List Char) : List (List Char) :=
  if limit < remaining.length then
    let cut := chunkEnd limit remaining
    ((remaining.take cut).reverse.dropWhile PyText.isSpace).reverse ::
      splitRemaining limit hlimit ((remaining.drop cut).dropWhile PyText.isSpace)
  else if remaining.isEmpty then [] else [remaining]
termination_by remaining.length
decreasing_by
  have hcut := chunkEnd_pos hlimit remaining
  have hdrop := (List.dropWhile_suffix (p := PyText.isSpace)
    (l := remaining.drop (chunkEnd limit remaining))).length_le
  rw [List.length_drop] at hdrop
  omega

/-- `split_message`. -/
def splitMessage (text : String) : List String :=
  if text.length ≤ messageChunkLimit then [text]
  else (splitRemaining messageChunkLimit (by decide) text.toList).map String.ofList

theorem splitMessage_ne_nil (text : String) : splitMessage text ≠ [] := by
  rw [splitMessage]
  split
  · simp
  · rename_i hlong
    -- a text over the limit has a first chunk
    rw [splitRemaining, if_pos (by rwa [String.length_toList, ← not_le])]
    simp

namespace TelegramClient

/-- `float(value)` of a value of a response. -/
def floatOf : Json → Except PyExc PyFloat
  | .bool value => .ok (if value then 1 else 0)
  | .int value => PyFloat.ofInt value
  | .float value => .ok value
  | .string text =>
      match PyFloat.ofText text with
      | some value => .ok value
      | none => .error (.valueError ("could not convert string to float: " ++ PyText.repr text))
  | value =>
      .error (.typeError
        ("float() argument must be a string or a real number, not '" ++ value.typeName ++ "'"))

/-- `value.get(...)` of a value that is no dictionary. -/
def noDict {α : Type} (value : Json) : Except PyExc α :=
  .error (.attributeError ("'" ++ value.typeName ++ "' object has no attribute 'get'"))

/-- `body.get("parameters", {}).get("retry_after")`, where a body that is no JSON has none. -/
def retryAfterField (body : RawJson) : Except PyExc Json :=
  match body with
  | none => .ok .null
  | some (.object fields) =>
      match fields.lookup "parameters" with
      | none => .ok .null
      | some (.object parameters) => .ok (Json.get parameters "retry_after")
      | some value => noDict value
  | some value => noDict value

/-- `TelegramClient._parse_retry_after`. -/
def parseRetryAfter (response : HttpResponse) : Except PyExc (Option PyFloat) := do
  match ← retryAfterField response.body with
  | .null => return response.retryAfter.bind PyFloat.ofText
  | value => return some (← floatOf value)

/-- `TelegramClient._record_failure`. -/
def recordFailure (errorType : String) : Coroutine Unit := do
  let now ← Coroutine.ask .clock
  Coroutine.ask (.remember (.sendFailed now errorType))

/-- The statements of `_send_chunk` on a response: `none` if it is a success, and the class of an
exception that is retried. -/
def handleResponse (response : HttpResponse) : Coroutine (Option String) :=
  if response.statusCode = 429 then do
    let retryAfter ← Coroutine.ofExcept (parseRetryAfter response)
    recordFailure "http_429"
    Program.throw (.telegramSendError "http_429" retryAfter)
  else if 500 ≤ response.statusCode then return some "_RetryableSendError"
  else if 400 ≤ response.statusCode then do
    -- a status of the 400 class is permanent
    recordFailure ("http_" ++ toString response.statusCode)
    Program.throw (.telegramPermanentError ("http_" ++ toString response.statusCode))
  else do
    match ← Coroutine.ofExcept response.body.loads with
    | .object fields =>
        if (Json.get fields "ok").truthy then do
          let now ← Coroutine.ask .clock
          Coroutine.ask (.remember (.sendSucceeded now))
          return none
        else do
          recordFailure "telegram_ok_false"
          Program.throw (.telegramPermanentError "telegram_ok_false")
    | value => Coroutine.ofExcept (noDict value)

/-- One request for a chunk. -/
def requestChunk (text : String) : Coroutine (Option String) := do
  match ← Coroutine.ask (.post text) with
  | .httpError name => return some name
  | .raised exc => Program.throw (.python exc)
  | .response response => handleResponse response

/-- The loop of `_send_chunk` after `attempt` failures, with the retries that are left. -/
def sendChunkFrom (text : String) (attempt : ℕ) : ℕ → Coroutine Unit
  | 0 => do
      match ← requestChunk text with
      | none => return
      | some name =>
          recordFailure (name ++ ":attempt_" ++ toString (attempt + 1))
          recordFailure ("retries_exhausted:" ++ name)
          Program.throw (.telegramSendError ("retries_exhausted:" ++ name) none)
  | left + 1 => do
      match ← requestChunk text with
      | none => return
      | some name =>
          recordFailure (name ++ ":attempt_" ++ toString (attempt + 1))
          -- the delay is the sum of `2 ** attempt` and a `float`
          let _ ← Coroutine.ofExcept (PyFloat.ofInt (2 ^ (attempt + 1)))
          Coroutine.ask .sleep
          sendChunkFrom text (attempt + 1) left

/-- `TelegramClient._send_chunk`: it gives up when `attempt > telegram_max_retries`. -/
def sendChunk (config : Settings) (text : String) : Coroutine Unit :=
  sendChunkFrom text 0 config.telegramMaxRetries.toNat

/-- `TelegramClient.send_message`. -/
def sendMessage (config : Settings) (text : String) : Coroutine Unit :=
  (splitMessage text).forM (sendChunk config)

end TelegramClient

/-! ## The requests of `send_message` -/

/-- Whether `_send_chunk` takes a reply for a success. -/
def HttpReply.accepted : HttpReply → Bool
  | response ⟨statusCode, some (.object fields), _⟩ =>
      statusCode < 400 && (Json.get fields "ok").truthy
  | _ => false

/-- A protocol that lets a message be sent: in state `G i` the next chunk is the one at index
`i`. -/
structure Sends {γ : Type} (P : Program.Protocol Await Await.Reply γ) (chunks : List String)
    (G : ℕ → γ) : Prop where
  clock : ∀ i, P.Allows (G i) .clock ∧ ∀ now g, P.Moves (G i) .clock now g → g = G i
  remember : ∀ i fact, P.Allows (G i) (.remember fact) ∧
    ∀ reply g, P.Moves (G i) (.remember fact) reply g → g = G i
  sleep : ∀ i, P.Allows (G i) .sleep ∧ ∀ reply g, P.Moves (G i) .sleep reply g → g = G i
  post : ∀ i text, chunks[i]? = some text → P.Allows (G i) (.post text) ∧
    ∀ (reply : HttpReply) g, P.Moves (G i) (.post text) reply g →
      g = if reply.accepted then G (i + 1) else G i

namespace TelegramClient

variable {γ : Type} {P : Program.Protocol Await Await.Reply γ} {chunks : List String} {G : ℕ → γ}
  {i : ℕ} {text : String}

theorem recordFailure_meets (hP : Sends P chunks G) (errorType : String)
    {post : Except Raised Unit → γ → Prop} (hpost : post (.ok ()) (G i)) :
    (recordFailure errorType).Meets P (G i) post := by
  refine ⟨(hP.clock i).1, fun now g hclock => ?_⟩
  obtain rfl := (hP.clock i).2 now g hclock
  refine ⟨(hP.remember i _).1, fun reply g hremember => ?_⟩
  obtain rfl := (hP.remember i _).2 reply g hremember
  exact hpost

/-- A failure is recorded before an exception is raised. -/
theorem recordFailure_throw_meets {α : Type} (hP : Sends P chunks G) (errorType : String)
    {e : Raised} {post : Except Raised α → γ → Prop} (hpost : post (.error e) (G i)) :
    (recordFailure errorType >>= fun _ => Program.throw e).Meets P (G i) post :=
  Program.meets_bind.mpr (recordFailure_meets hP errorType hpost)

/-- A response of status 400 or above is no success. -/
theorem accepted_of_le {response : HttpResponse} (h : 400 ≤ response.statusCode) :
    (HttpReply.response response).accepted = false := by
  obtain ⟨statusCode, body, header⟩ := response
  cases body with
  | none => rfl
  | some value =>
      cases value with
      | object fields => exact Bool.and_eq_false_iff.mpr (Or.inl (by simpa using h))
      | _ => rfl

/-- The statements on a response return `none` exactly for a success. -/
theorem handleResponse_meets (hP : Sends P chunks G) (response : HttpResponse) :
    (handleResponse response).Meets P (G i) fun outcome g =>
      g = G i ∧ (outcome = .ok none ↔ (HttpReply.response response).accepted = true) := by
  have hraised {e : Raised} (h : (HttpReply.response response).accepted = false) :
      (Except.error e : Except Raised (Option String)) = .ok none ↔
        (HttpReply.response response).accepted = true := by
    rw [h]
    exact ⟨fun h => (nomatch h), fun h => (nomatch h)⟩
  rw [handleResponse]
  split_ifs with h429 h500 h400
  · -- flood control raises, also where the delay cannot be read
    have hrefused : (HttpReply.response response).accepted = false := accepted_of_le (by omega)
    refine Program.meets_bind.mpr ?_
    cases parseRetryAfter response with
    | error exc => exact ⟨rfl, hraised hrefused⟩
    | ok retryAfter => exact recordFailure_throw_meets hP _ ⟨rfl, hraised hrefused⟩
  · have hrefused : (HttpReply.response response).accepted = false := accepted_of_le (by omega)
    exact ⟨rfl, by rw [hrefused]; simp⟩
  · exact recordFailure_throw_meets hP _ ⟨rfl, hraised (accepted_of_le h400)⟩
  · obtain ⟨statusCode, body, header⟩ := response
    refine Program.meets_bind.mpr ?_
    cases body with
    | none => exact ⟨rfl, hraised rfl⟩
    | some value =>
        cases value with
        | object fields =>
            have haccepted :
                (HttpReply.response ⟨statusCode, some (.object fields), header⟩).accepted =
                  (Json.get fields "ok").truthy := by
              show (decide (statusCode < 400) && _) = _
              rw [decide_eq_true (not_le.mp h400), Bool.true_and]
            show Program.Meets P (ite _ _ _) _ _
            split_ifs with hok
            · refine ⟨(hP.clock i).1, fun now g hclock => ?_⟩
              obtain rfl := (hP.clock i).2 now g hclock
              refine ⟨(hP.remember i _).1, fun reply g hremember => ?_⟩
              obtain rfl := (hP.remember i _).2 reply g hremember
              exact ⟨rfl, iff_of_true rfl (by rw [haccepted, hok])⟩
            · refine recordFailure_throw_meets hP _ ⟨rfl, hraised ?_⟩
              rw [haccepted]
              exact Bool.eq_false_iff.mpr hok
        | _ => exact ⟨rfl, hraised rfl⟩

/-- One request accepts its chunk, or leaves it the next one. -/
theorem requestChunk_meets (hP : Sends P chunks G) (hi : chunks[i]? = some text) :
    (requestChunk text).Meets P (G i) fun outcome g =>
      g = match outcome with
        | .ok none => G (i + 1)
        | _ => G i := by
  refine Program.meets_bind.mpr ⟨(hP.post i text hi).1, fun reply g hmove => ?_⟩
  have hg := (hP.post i text hi).2 reply g hmove
  cases reply with
  | httpError name => exact hg
  | raised exc => exact hg
  | response response =>
      show (handleResponse response).Meets P g _
      -- the state has moved on with the reply; the statements that follow keep it
      by_cases haccepted : (HttpReply.response response).accepted = true
      · obtain rfl : g = G (i + 1) := by rw [hg, if_pos haccepted]
        refine (handleResponse_meets hP response).mono fun outcome g' hend => ?_
        rw [hend.2.mpr haccepted]
        exact hend.1
      · obtain rfl : g = G i := by rw [hg, if_neg haccepted]
        refine (handleResponse_meets hP response).mono fun outcome g' hend => ?_
        have hnot : outcome ≠ .ok none := fun h => haccepted (hend.2.mp h)
        rw [hend.1]
        split
        · exact absurd rfl hnot
        · rfl

/-- The attempts for a chunk end with its success, or raise and leave it the next one. -/
theorem sendChunkFrom_meets (hP : Sends P chunks G) (hi : chunks[i]? = some text) (left : ℕ) :
    ∀ attempt, (sendChunkFrom text attempt left).Meets P (G i) fun outcome g =>
      g = match outcome with
        | .ok _ => G (i + 1)
        | .error _ => G i := by
  induction left with
  | zero =>
      intro attempt
      refine Program.meets_bind.mpr ((requestChunk_meets hP hi).mono fun outcome g hg => ?_)
      cases outcome with
      | error e => exact hg
      | ok retried =>
          cases retried with
          | none => exact hg
          | some name =>
              obtain rfl : g = G i := hg
              refine Program.meets_bind.mpr (recordFailure_meets hP _ ?_)
              exact recordFailure_throw_meets hP _ rfl
  | succ left ih =>
      intro attempt
      refine Program.meets_bind.mpr ((requestChunk_meets hP hi).mono fun outcome g hg => ?_)
      cases outcome with
      | error e => exact hg
      | ok retried =>
          cases retried with
          | none => exact hg
          | some name =>
              obtain rfl : g = G i := hg
              refine Program.meets_bind.mpr (recordFailure_meets hP _ ?_)
              refine Program.meets_bind.mpr ?_
              cases PyFloat.ofInt (2 ^ (attempt + 1)) with
              | error exc => rfl
              | ok power =>
                  refine ⟨(hP.sleep i).1, fun reply g hsleep => ?_⟩
                  obtain rfl := (hP.sleep i).2 reply g hsleep
                  exact ih (attempt + 1)

/-- `send_message` returns after the last chunk, or raises before it. -/
theorem sendMessage_meets (config : Settings) (text : String)
    (hP : Sends P (splitMessage text) G) :
    (sendMessage config text).Meets P (G 0) fun outcome g =>
      match outcome with
      | .ok _ => g = G (splitMessage text).length
      | .error _ => ∃ i < (splitMessage text).length, g = G i := by
  -- the loop has the chunks from the index of its state on before it
  refine Program.meets_forM
    (fun rest g => ∃ i, (splitMessage text).drop i = rest ∧ g = G i ∧
      i ≤ (splitMessage text).length)
    ?_ ?_ ⟨0, rfl, rfl, Nat.zero_le _⟩
  · rintro chunk rest g ⟨i, hrest, rfl, hle⟩
    have hi : (splitMessage text)[i]? = some chunk := by
      rw [← List.head?_drop, hrest]
      rfl
    have hlt : i < (splitMessage text).length := (List.getElem?_eq_some_iff.mp hi).1
    refine (sendChunkFrom_meets hP hi _ 0).mono fun outcome g hg => ?_
    cases outcome with
    | error e => exact ⟨i, hlt, hg⟩
    | ok _ =>
        refine ⟨i + 1, ?_, hg, hlt⟩
        rw [← List.tail_drop, hrest]
        rfl
  · rintro g ⟨i, hrest, rfl, hle⟩
    have hlength := List.drop_eq_nil_iff.mp hrest
    rw [Nat.le_antisymm hle hlength]

end TelegramClient

end BybitMonitor
