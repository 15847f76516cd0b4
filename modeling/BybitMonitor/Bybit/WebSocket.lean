import Mathlib
import BybitMonitor.Config
import BybitMonitor.Python.Json
import BybitMonitor.Python.Text
import BybitMonitor.ToMathlib.Slices

/-!
# The WebSocket client

The state of `BybitWebSocketClient` and the parts of its methods that run between two awaits. What
the client hands to the socket, and how it classifies what it receives, is recorded as a list of
effects. Readings of the monotonic clock are arguments.

* `BybitWebSocketClient.handleRaw`, `BybitWebSocketClient.handleSubscribeAck`: one received frame.
* `BybitWebSocketClient.sendNext`, `BybitWebSocketClient.resumeSend`: the batch loop of
  `_send_topic_ops`, from one send to the next.
* `BybitWebSocketClient.failUnackedSubscriptions`, `BybitWebSocketClient.tickerStale`: the two
  watchdogs.
* `BybitWebSocketClient.batches_spec`: the batches make up what is to be sent.
-/

namespace BybitMonitor

/-- One subscribe request awaiting its acknowledgement. -/
structure PendingSubscription where
  reqId : String
  symbols : List String
  topics : List String
  sentAt : ℚ
  deriving DecidableEq, Repr

/-- The argument of `on_message`. -/
structure TickerMessage where
  category : String
  symbol : String
  type : Json
  ts : Json
  data : Json
  deriving Repr

/-- What the client does to the outside, and how it classifies an acknowledgement. A connection is
named by its number. -/
inductive Effect
  /-- A request was registered and its frame handed to `_ws`. -/
  | requested (connection : Option ℕ) (request : PendingSubscription)
  /-- An unsubscribe frame was handed to `_ws`. -/
  | unsubscribed (connection : ℕ) (topics : List String)
  /-- The send of a subscribe frame raised. -/
  | sendFailed (reqId : String)
  /-- An acknowledgement resolved the pending request `reqId`. -/
  | acknowledged (connection : Option ℕ) (reqId : String) (success : Bool)
  /-- An acknowledgement matched no pending request. -/
  | unknownAck (connection : Option ℕ) (reqId : Json)
  /-- `on_message` was called. -/
  | message (payload : TickerMessage)

/-- The fields of `BybitWebSocketClient`. -/
structure BybitWebSocketClient where
  desiredSymbols : Finset String := ∅
  subscribed : Finset String := ∅
  /-- In the order of registration, each under its own `reqId`. -/
  pendingSubscriptions : List PendingSubscription := []
  sequence : ℕ := 0
  lastTickerMonotonic : Option ℚ := none
  connectedMonotonic : ℚ := 0
  lastPingAt : ℚ := 0
  connected : Bool := false
  /-- The connection that `_ws` refers to. -/
  ws : Option ℕ := none
  deriving DecidableEq

/-- What a method has done when it returns or raises. -/
structure Handled where
  result : Except PyExc Unit
  client : BybitWebSocketClient
  effects : List Effect := []

/-- The frames that `_send_topic_ops` sends. -/
inductive TopicOp
  | subscribe
  | unsubscribe
  deriving DecidableEq, Repr

/-- `_send_topic_ops` awaits the send of `batch`; `reqId` is the id of a subscribe request. -/
structure Sending where
  reqId : Option String
  batch : List String
  rest : List (List String)
  deriving DecidableEq, Repr

/-- Where `_send_topic_ops` stands. -/
inductive SendProgress
  | sending (state : Sending)
  | returned (outcome : Except PyExc Unit)

/-- `_send_topic_ops` has run up to an await or to its end. -/
structure SendRun where
  progress : SendProgress
  client : BybitWebSocketClient
  effects : List Effect := []

/-- `f"tickers.{symbol}"`. -/
def tickerTopic (symbol : String) : String := "tickers." ++ symbol

/-- `f"sub-{category}-{sequence}"`. -/
def subscriptionReqId (category : String) (sequence : ℕ) : String :=
  "sub-" ++ category ++ "-" ++ sequence.repr

namespace BybitWebSocketClient

/-- `pending_symbols`. -/
def pendingSymbols (self : BybitWebSocketClient) : Finset String :=
  (self.pendingSubscriptions.flatMap PendingSubscription.symbols).toFinset

def setSymbols (self : BybitWebSocketClient) (symbols : Finset String) : BybitWebSocketClient :=
  { self with desiredSymbols := symbols }

/-- `_set_status`; the application passes no status callback. -/
def setStatus (self : BybitWebSocketClient) (connected : Bool) : BybitWebSocketClient :=
  { self with connected }

/-- The assignments of `_connect_and_listen` to a fresh connection. -/
def established (self : BybitWebSocketClient) (connection : ℕ) (connectedAt pingAt : ℚ) :
    BybitWebSocketClient :=
  { self with
    ws := some connection
    subscribed := ∅
    pendingSubscriptions := []
    -- the ticker age counts from the connect until the first ticker
    lastTickerMonotonic := none
    connectedMonotonic := connectedAt
    lastPingAt := pingAt
    connected := true }

/-- The `finally` of `_connect_and_listen`. -/
def cleanUp (self : BybitWebSocketClient) : BybitWebSocketClient :=
  { self with ws := none, connected := false }

/-! ## Watchdogs -/

/-- `_expired_pending_subscriptions`. -/
def expiredPendingSubscriptions (config : Settings) (self : BybitWebSocketClient) (now : ℚ) :
    List PendingSubscription :=
  self.pendingSubscriptions.filter fun pending =>
    config.wsSubscriptionAckTimeoutSeconds.lt (PyFloat.elapsed now pending.sentAt)

/-- The verdict of `_fail_unacked_subscriptions`. -/
def failUnackedSubscriptions (config : Settings) (self : BybitWebSocketClient) (now : ℚ) : Bool :=
  !(self.expiredPendingSubscriptions config now).isEmpty

/-- `_ticker_age`: seconds since the last ticker, or since connect if none yet. -/
def tickerAge (self : BybitWebSocketClient) (now : ℚ) : PyFloat :=
  match self.lastTickerMonotonic with
  | some last => PyFloat.elapsed now last
  | none => PyFloat.elapsed now self.connectedMonotonic

/-- The verdict of `_ticker_stale`. -/
def tickerStale (config : Settings) (self : BybitWebSocketClient) (now : ℚ) : Bool :=
  if self.desiredSymbols = ∅ then false
  else if (self.tickerAge now).le config.wsStaleSeconds then false
  else true

/-- Whether the heartbeat of the listen loop is due. -/
def pingDue (config : Settings) (self : BybitWebSocketClient) (now : ℚ) : Bool :=
  config.wsHeartbeatIntervalSeconds.le (PyFloat.elapsed now self.lastPingAt)

/-! ## Subscription requests -/

/-- `self._pending_subscriptions.pop(req_id, None)`, without the popped value. -/
def dropPending (self : BybitWebSocketClient) (reqId : String) : BybitWebSocketClient :=
  { self with
    pendingSubscriptions := self.pendingSubscriptions.filter fun p => p.reqId ≠ reqId }

/-- The next subscribe request. -/
def nextRequest (self : BybitWebSocketClient) (category : String) (batch : List String)
    (now : ℚ) : PendingSubscription where
  reqId := subscriptionReqId category (self.sequence + 1)
  symbols := batch
  topics := batch.map tickerTopic
  sentAt := now

/-- Register a request under its id, which is a new one. -/
def register (self : BybitWebSocketClient) (request : PendingSubscription) :
    BybitWebSocketClient :=
  { self with
    sequence := self.sequence + 1
    pendingSubscriptions := self.pendingSubscriptions ++ [request] }

/-- The loop of `_send_topic_ops`, from the top of a round to its send. Without a connection the
send raises at once. -/
def sendNext (category : String) (op : TopicOp) (now : ℚ) (self : BybitWebSocketClient) :
    List (List String) → SendRun
  | [] => { progress := .returned (.ok ()), client := self }
  | batch :: rest =>
      match op, self.ws with
      | .subscribe, some connection =>
          let request := self.nextRequest category batch now
          { progress := .sending { reqId := some request.reqId, batch, rest }
            client := self.register request
            effects := [.requested (some connection) request] }
      | .subscribe, none =>
          -- registered, then rolled back by the handler around the send
          let request := self.nextRequest category batch now
          { progress := .returned
              (.error (.attributeError "'NoneType' object has no attribute 'send'"))
            client := (self.register request).dropPending request.reqId
            effects := [.requested none request, .sendFailed request.reqId] }
      | .unsubscribe, some connection =>
          { progress := .sending { reqId := none, batch, rest }
            client := self
            effects := [.unsubscribed connection (batch.map tickerTopic)] }
      | .unsubscribe, none =>
          { progress := .returned
              (.error (.attributeError "'NoneType' object has no attribute 'send'"))
            client := self }

/-- The rest of a round of `_send_topic_ops` after its send has returned or raised, and the next
round up to its send. A cancelled send is no `Exception` and leaves the request pending. -/
def resumeSend (category : String) (self : BybitWebSocketClient) (sending : Sending) :
    Except PyExc ℚ → SendRun
  | .ok now =>
      match sending.reqId with
      | some _ => self.sendNext category .subscribe now sending.rest
      | none =>
          { self with subscribed := self.subscribed \ sending.batch.toFinset }.sendNext category
            .unsubscribe now sending.rest
  | .error exc =>
      match sending.reqId with
      | some reqId =>
          -- `except Exception` withdraws the request; the sends before it stay pending
          if exc.isException then
            { progress := .returned (.error exc)
              client := self.dropPending reqId
              effects := [.sendFailed reqId] }
          else { progress := .returned (.error exc), client := self }
      | none => { progress := .returned (.error exc), client := self }

/-- The batches of `_send_topic_ops`. -/
def batches (config : Settings) (symbols : List String) : List (List String) :=
  symbols.slices config.wsSubscribeBatchSize.toNat

/-- The critical section of `resubscribe` up to its first send. -/
def resubscribe (config : Settings) (category : String) (now : ℚ) (self : BybitWebSocketClient) :
    SendRun :=
  let missing := PyText.sorted ((self.desiredSymbols \ self.subscribed) \ self.pendingSymbols)
  self.sendNext category .subscribe now (batches config missing)

/-- The critical section of `unsubscribe` up to its first send. -/
def unsubscribe (config : Settings) (category : String) (now : ℚ) (symbols : Finset String)
    (self : BybitWebSocketClient) : SendRun :=
  let stale := PyText.sorted (symbols ∩ self.subscribed)
  self.sendNext category .unsubscribe now (batches config stale)

/-! ## Message handling -/

/-- `self._pending_subscriptions.get(req_id) if req_id else None`. Lists and objects are not
hashable; values that are no strings equal no key. -/
def lookupPending (self : BybitWebSocketClient) (reqId : Json) :
    Except PyExc (Option PendingSubscription) :=
  if reqId.truthy then
    match reqId with
    | .string text => .ok (self.pendingSubscriptions.find? fun p => p.reqId = text)
    | .array _ | .object _ => .error (.typeError ("unhashable type: '" ++ reqId.typeName ++ "'"))
    | _ => .ok none
  else .ok none

/-- `_handle_subscribe_ack`. -/
def handleSubscribeAck (self : BybitWebSocketClient) (data : List (String × Json)) : Handled :=
  let reqId := Json.get data "req_id"
  match self.lookupPending reqId with
  | .error exc => { result := .error exc, client := self }
  | .ok none => { result := .ok (), client := self, effects := [.unknownAck self.ws reqId] }
  | .ok (some pending) =>
      -- the request is resolved before its verdict is read
      let popped := self.dropPending pending.reqId
      if (Json.get data "success").isTrue then
        { result := .ok ()
          client := { popped with subscribed := popped.subscribed ∪ pending.symbols.toFinset }
          effects := [.acknowledged self.ws pending.reqId true] }
      else
        { result := .error (.subscriptionAckError ("subscribe rejected req_id=" ++ pending.reqId))
          client := popped
          effects := [.acknowledged self.ws pending.reqId false] }

/-- `data.get("topic") or ""`, which `startswith` requires to be a string. -/
def topicOf (data : List (String × Json)) : Except PyExc String :=
  let topic := Json.get data "topic"
  if topic.truthy then
    match topic with
    | .string text => .ok text
    | _ => .error (.attributeError
        ("'" ++ topic.typeName ++ "' object has no attribute 'startswith'"))
  else .ok ""

/-- `topic.startswith("tickers.")`. -/
def isTickerTopic (topic : String) : Bool := PyText.startsWith "tickers." topic

/-- `_note_ticker`. -/
def noteTicker (self : BybitWebSocketClient) (now : ℚ) : BybitWebSocketClient :=
  { self with lastTickerMonotonic := some now }

/-- The argument of `on_message` for a ticker frame. -/
def tickerMessage (category topic : String) (data : List (String × Json)) : TickerMessage where
  category := category
  symbol := PyText.dropFront "tickers." topic
  type := Json.get data "type"
  ts := Json.get data "ts"
  data := if (Json.get data "data").truthy then Json.get data "data" else .object []

/-- `_handle_raw`; `raised` is what `on_message` raises, if it is called. -/
def handleRaw (category : String) (self : BybitWebSocketClient) (raw : RawJson) (noted : ℚ)
    (raised : Option PyExc) : Handled :=
  match raw.loads with
  | .error exc => { result := .error exc, client := self }
  | .ok (.object data) =>
      match topicOf data with
      | .error exc => { result := .error exc, client := self }
      | .ok topic =>
          -- a ticker topic is noted even on a frame with `op`
          let client := if isTickerTopic topic then self.noteTicker noted else self
          if (Json.get data "op").isString "subscribe" then client.handleSubscribeAck data
          else if (Json.get data "op").isString "pong" then { result := .ok (), client }
          else if isTickerTopic topic then
            { result := raiseIf raised
              client
              effects := [.message (tickerMessage category topic data)] }
          else { result := .ok (), client }
  | .ok value =>
      { result := .error (.attributeError
          ("'" ++ value.typeName ++ "' object has no attribute 'get'"))
        client := self }

/-! ## The batches -/

/-- The batches of `_send_topic_ops` make up the symbols, and none is empty or too long. -/
theorem batches_spec (config : AdmittedSettings) (symbols : List String) :
    (batches config.toSettings symbols).flatten = symbols ∧
      ∀ batch ∈ batches config.toSettings symbols,
        0 < batch.length ∧ (batch.length : ℤ) ≤ config.wsSubscribeBatchSize := by
  have hsize : 1 ≤ config.wsSubscribeBatchSize := config.checks.2.1
  have hpos : 0 < config.wsSubscribeBatchSize.toNat := by omega
  refine ⟨List.flatten_slices hpos, fun batch hbatch => ?_⟩
  obtain ⟨hnonempty, hle⟩ := List.length_of_mem_slices hpos hbatch
  omega

/-! ## What a method leaves alone -/

/-- Two states that agree in the connection and in the subscriptions. -/
structure Agrees (client other : BybitWebSocketClient) : Prop where
  ws_eq : other.ws = client.ws
  subscribed_eq : other.subscribed = client.subscribed
  pending_eq : other.pendingSubscriptions = client.pendingSubscriptions
  sequence_eq : other.sequence = client.sequence

variable {client : BybitWebSocketClient} {category : String}

theorem Agrees.refl (client : BybitWebSocketClient) : client.Agrees client := ⟨rfl, rfl, rfl, rfl⟩

theorem agrees_setStatus (connected : Bool) : client.Agrees (client.setStatus connected) :=
  ⟨rfl, rfl, rfl, rfl⟩

theorem agrees_setSymbols (symbols : Finset String) : client.Agrees (client.setSymbols symbols) :=
  ⟨rfl, rfl, rfl, rfl⟩

theorem agrees_noteTicker (now : ℚ) : client.Agrees (client.noteTicker now) :=
  ⟨rfl, rfl, rfl, rfl⟩

@[simp]
theorem sendNext_ws (op : TopicOp) (now : ℚ) (rounds : List (List String)) :
    (client.sendNext category op now rounds).client.ws = client.ws := by
  cases rounds with
  | nil => rfl
  | cons batch rest =>
      rw [sendNext.eq_def]
      dsimp only
      split <;> rfl

@[simp]
theorem resumeSend_ws (sending : Sending) (outcome : Except PyExc ℚ) :
    (client.resumeSend category sending outcome).client.ws = client.ws := by
  cases outcome with
  | ok now =>
      rw [resumeSend]
      split <;> simp
  | error exc =>
      rw [resumeSend]
      split
      · split <;> rfl
      · rfl

@[simp]
theorem handleSubscribeAck_ws (data : List (String × Json)) :
    (client.handleSubscribeAck data).client.ws = client.ws := by
  rw [handleSubscribeAck]
  split
  · rfl
  · rfl
  · split <;> rfl

/-- Only a string that is the id of a pending request finds one. -/
theorem lookupPending_some {reqId : Json} {pending : PendingSubscription}
    (h : client.lookupPending reqId = .ok (some pending)) :
    ∃ text, reqId = .string text ∧
      client.pendingSubscriptions.find? (fun p => p.reqId = text) = some pending := by
  cases reqId with
  | string text =>
      rw [lookupPending] at h
      split at h
      · exact ⟨text, rfl, Except.ok.inj h⟩
      · cases Except.ok.inj h
  -- no other value is the id of a request
  | _ =>
      simp only [lookupPending] at h
      split at h <;> cases h

/-- The id of a pending request finds one, unless it is empty. -/
theorem lookupPending_string {text : String} (hne : text ≠ "") :
    client.lookupPending (.string text) =
      .ok (client.pendingSubscriptions.find? fun p => p.reqId = text) := by
  rw [lookupPending, if_pos (by simpa [Json.truthy] using hne)]

/-- Only an acknowledgement touches the subscriptions. -/
theorem handleRaw_cases (raw : RawJson) (noted : ℚ) (raised : Option PyExc) :
    (∃ noticed data, client.Agrees noticed ∧
      client.handleRaw category raw noted raised = noticed.handleSubscribeAck data) ∨
    (client.Agrees (client.handleRaw category raw noted raised).client ∧
      ∀ effect ∈ (client.handleRaw category raw noted raised).effects,
        ∃ payload, effect = .message payload) := by
  rw [handleRaw]
  split
  · exact Or.inr ⟨Agrees.refl client, by simp⟩
  · rename_i data _
    split
    · exact Or.inr ⟨Agrees.refl client, by simp⟩
    · rename_i topic _
      -- the ticker clock is no part of the subscriptions
      have hnoted : client.Agrees
          (if isTickerTopic topic then client.noteTicker noted else client) := by
        split
        · exact agrees_noteTicker noted
        · exact Agrees.refl client
      dsimp only
      split
      · exact Or.inl ⟨_, data, hnoted, rfl⟩
      · split
        · exact Or.inr ⟨hnoted, by simp⟩
        · split
          · exact Or.inr ⟨agrees_noteTicker noted, by simp⟩
          · exact Or.inr ⟨Agrees.refl client, by simp⟩
  · exact Or.inr ⟨Agrees.refl client, by simp⟩

/-- An acknowledgement is unknown only if no pending request has its id. -/
theorem handleSubscribeAck_unknown {data : List (String × Json)} {connection : Option ℕ}
    {reqId : Json} (h : .unknownAck connection reqId ∈ (client.handleSubscribeAck data).effects) :
    connection = client.ws ∧ client.lookupPending reqId = .ok none := by
  rw [handleSubscribeAck] at h
  dsimp only at h
  split at h
  · cases h
  · rename_i hlookup
    obtain ⟨rfl, rfl⟩ := Effect.unknownAck.inj (List.mem_singleton.mp h)
    exact ⟨rfl, hlookup⟩
  · split at h <;> exact absurd (List.mem_singleton.mp h) nofun

/-- `handleSubscribeAck_unknown` for a whole frame. -/
theorem handleRaw_unknown {raw : RawJson} {noted : ℚ} {raised : Option PyExc}
    {connection : Option ℕ} {reqId : Json}
    (h : .unknownAck connection reqId ∈ (client.handleRaw category raw noted raised).effects) :
    connection = client.ws ∧ client.lookupPending reqId = .ok none := by
  -- only an acknowledgement is classified; the ticker clock does not matter to the lookup
  rcases @handleRaw_cases client category raw noted raised with
    ⟨noticed, data, hagrees, heq⟩ | ⟨-, hmessages⟩
  · rw [heq] at h
    obtain ⟨hws, hlookup⟩ := handleSubscribeAck_unknown h
    refine ⟨hws.trans hagrees.ws_eq, ?_⟩
    rwa [lookupPending.eq_def, hagrees.pending_eq] at hlookup
  · obtain ⟨payload, heq⟩ := hmessages _ h
    cases heq

/-- A batch loop classifies no acknowledgement. -/
theorem sendNext_not_unknown (op : TopicOp) (now : ℚ) (rounds : List (List String))
    (connection : Option ℕ) (reqId : Json) :
    .unknownAck connection reqId ∉ (client.sendNext category op now rounds).effects := by
  cases rounds with
  | nil => simp [sendNext]
  | cons batch rest =>
      rw [sendNext.eq_def]
      dsimp only
      split <;> simp

theorem resumeSend_not_unknown (sending : Sending) (outcome : Except PyExc ℚ)
    (connection : Option ℕ) (reqId : Json) :
    .unknownAck connection reqId ∉ (client.resumeSend category sending outcome).effects := by
  cases outcome with
  | ok now =>
      rw [resumeSend]
      split <;> exact sendNext_not_unknown _ _ _ _ _
  | error exc =>
      rw [resumeSend]
      split
      · split <;> simp
      · simp

@[simp]
theorem handleRaw_ws (raw : RawJson) (noted : ℚ) (raised : Option PyExc) :
    (client.handleRaw category raw noted raised).client.ws = client.ws := by
  rcases @handleRaw_cases client category raw noted raised with
    ⟨noticed, data, hagrees, heq⟩ | ⟨hagrees, -⟩
  · rw [heq, handleSubscribeAck_ws, hagrees.ws_eq]
  · exact hagrees.ws_eq

end BybitWebSocketClient

end BybitMonitor
