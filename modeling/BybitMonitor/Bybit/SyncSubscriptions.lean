import Mathlib
import BybitMonitor.Bybit.ServerTopics
import BybitMonitor.Market.Evaluator

/-!
# The symbols of the streams

`WebSocketManager.sync_subscriptions` gives each client the symbols of the supported markets of the
registry.

* `WebSocketManager.mem_desired`: these are the markets that are evaluated.
* `RequestsWanted`: whatever a client requests was wanted by a synchronisation.
* `requested_supported`: so no stream requests the topic of another market.
-/

namespace BybitMonitor

/-! ## The supported markets -/

namespace WebSocketManager

/-- The filter of `sync_subscriptions`. -/
def wants (config : Settings) (category : String) (instrument : Instrument) : Bool :=
  if instrument.category ≠ category ∨ instrument.status ≠ "Trading" then false
  else if category = "spot" then config.enableSpot
  else if instrument.settleCoin = some "USDT" then config.enableLinearUsdt
  else if instrument.settleCoin = some "USDC" then config.enableLinearUsdc
  else false

/-- The set `desired` of `sync_subscriptions` for one client. -/
def desired (config : Settings) (category : String) (instruments : List Instrument) :
    Finset String :=
  ((instruments.filter (wants config category)).map Instrument.symbol).toFinset

variable {config : Settings} {category symbol : String} {instruments : List Instrument}

/-- On the two streams the filter is that of the evaluation. -/
theorem wants_eq (hstream : category = "spot" ∨ category = "linear") (instrument : Instrument) :
    wants config category instrument =
      (decide (instrument.category = category) &&
        MomentumEvaluator.isSupported config instrument) := by
  unfold wants MomentumEvaluator.isSupported
  by_cases hcategory : instrument.category = category
  · by_cases hstatus : instrument.status = "Trading"
    · rcases hstream with rfl | rfl
      · simp [hcategory, hstatus]
      · simp [hcategory, hstatus]
    · simp [hstatus]
  · simp [hcategory]

/-- The wanted symbols are those of the markets that `evaluate_all` evaluates. -/
theorem mem_desired (hstream : category = "spot" ∨ category = "linear") :
    symbol ∈ desired config category instruments ↔
      ∃ instrument ∈ instruments, instrument.identity = (category, symbol) ∧
        MomentumEvaluator.isSupported config instrument = true := by
  simp only [desired, List.mem_toFinset, List.mem_map, List.mem_filter, wants_eq hstream,
    Bool.and_eq_true, decide_eq_true_eq, Instrument.identity, Prod.mk.injEq]
  constructor
  · rintro ⟨instrument, ⟨hmem, hcategory, hsupported⟩, hsymbol⟩
    exact ⟨instrument, hmem, ⟨hcategory, hsymbol⟩, hsupported⟩
  · rintro ⟨instrument, hmem, ⟨hcategory, hsymbol⟩, hsupported⟩
    exact ⟨instrument, ⟨hmem, hcategory, hsupported⟩, hsymbol⟩

end WebSocketManager

/-- A `sync_subscriptions` among the events wanted the symbol. -/
def Wanted (events : List StreamEvent) (symbol : String) : Prop :=
  ∃ symbols effects, (.sync symbols, effects) ∈ events ∧ symbol ∈ symbols

theorem Wanted.append {events : List StreamEvent} {symbol : String} (h : Wanted events symbol)
    (later : List StreamEvent) : Wanted (events ++ later) symbol := by
  obtain ⟨symbols, effects, hmem, hsymbol⟩ := h
  exact ⟨symbols, effects, List.mem_append_left _ hmem, hsymbol⟩

/-- What is desired, what is reserved and what was requested was wanted. -/
structure RequestsWanted (events : List StreamEvent) (s : StreamState) : Prop where
  desired : ∀ symbol ∈ s.client.desiredSymbols, Wanted events symbol
  reserved : ∀ symbol ∈ s.reserved, Wanted events symbol
  requested : ∀ request ∈ requestsOf (effectsOf events), ∀ symbol ∈ request.symbols,
    Wanted events symbol

namespace BybitWebSocketClient

variable {client : BybitWebSocketClient} {category : String} {now : ℚ}

@[simp]
theorem sendNext_desired (op : TopicOp) (rounds : List (List String)) :
    (client.sendNext category op now rounds).client.desiredSymbols = client.desiredSymbols := by
  cases rounds with
  | nil => rfl
  | cons batch rest =>
      rw [sendNext.eq_def]
      dsimp only
      split <;> rfl

@[simp]
theorem resumeSend_desired (sending : Sending) (outcome : Except PyExc ℚ) :
    (client.resumeSend category sending outcome).client.desiredSymbols =
      client.desiredSymbols := by
  cases outcome with
  | ok now =>
      rw [resumeSend]
      split <;> simp
  | error exc =>
      rw [resumeSend]
      split
      · split <;> rfl
      · rfl

@[simp]
theorem handleRaw_desired (raw : RawJson) (noted : ℚ) (raised : Option PyExc) :
    (client.handleRaw category raw noted raised).client.desiredSymbols =
      client.desiredSymbols := by
  rw [handleRaw]
  split
  · rfl
  · split
    · rfl
    · rename_i topic _
      have hnoted : (if isTickerTopic topic then client.noteTicker noted
          else client).desiredSymbols = client.desiredSymbols := by
        split <;> rfl
      dsimp only
      split
      · -- an acknowledgement moves symbols between the other sets
        rw [handleSubscribeAck]
        dsimp only
        split
        · exact hnoted
        · exact hnoted
        · split <;> exact hnoted
      · split
        · exact hnoted
        · split <;> rfl
  · rfl

/-- A received frame is no request. -/
theorem handleRaw_requests (raw : RawJson) (noted : ℚ) (raised : Option PyExc) :
    requestsOf (client.handleRaw category raw noted raised).effects = [] := by
  refine List.filterMap_eq_nil_iff.mpr fun effect hmem => ?_
  rcases @handleRaw_cases client category raw noted raised with
    ⟨noticed, data, -, heq⟩ | ⟨-, hmessages⟩
  · rw [heq, handleSubscribeAck] at hmem
    dsimp only at hmem
    split at hmem
    · cases hmem
    · obtain rfl := List.mem_singleton.mp hmem
      rfl
    · split at hmem
      · obtain rfl := List.mem_singleton.mp hmem
        rfl
      · obtain rfl := List.mem_singleton.mp hmem
        rfl
  · obtain ⟨payload, rfl⟩ := hmessages effect hmem
    rfl

/-- An unsubscribing batch loop requests and reserves nothing. -/
theorem sendNext_unsubscribe_symbols (rounds : List (List String)) :
    requestsOf (client.sendNext category .unsubscribe now rounds).effects = [] ∧
      (client.sendNext category .unsubscribe now rounds).progress.reserved = [] := by
  cases rounds with
  | nil => exact ⟨rfl, rfl⟩
  | cons batch rest =>
      rw [sendNext.eq_def]
      dsimp only
      cases client.ws with
      | some n => exact ⟨rfl, rfl⟩
      | none => exact ⟨rfl, rfl⟩

/-- A batch loop requests and reserves what it has to send, and nothing else. -/
theorem sendNext_symbols (op : TopicOp) (rounds : List (List String)) :
    (∀ request ∈ requestsOf (client.sendNext category op now rounds).effects,
        ∀ symbol ∈ request.symbols, symbol ∈ rounds.flatten) ∧
      ∀ symbol ∈ (client.sendNext category op now rounds).progress.reserved,
        symbol ∈ rounds.flatten := by
  cases rounds with
  | nil => simp [sendNext, requestsOf, SendProgress.reserved]
  | cons batch rest =>
      rw [sendNext.eq_def]
      dsimp only
      split
      · -- the first batch is requested, the others are reserved
        simp +contextual [requestsOf, nextRequest, SendProgress.reserved, Sending.reserved]
      · simp +contextual [requestsOf, nextRequest, SendProgress.reserved]
      · simp [requestsOf, SendProgress.reserved, Sending.reserved]
      · simp [requestsOf, SendProgress.reserved]

/-- The holder of the lock requests and reserves what it has reserved. -/
theorem resumeSend_symbols (sending : Sending) (outcome : Except PyExc ℚ) :
    (∀ request ∈ requestsOf (client.resumeSend category sending outcome).effects,
        ∀ symbol ∈ request.symbols, symbol ∈ sending.reserved) ∧
      ∀ symbol ∈ (client.resumeSend category sending outcome).progress.reserved,
        symbol ∈ sending.reserved := by
  obtain ⟨reqId, batch, rest⟩ := sending
  cases outcome with
  | ok now =>
      cases reqId with
      | some reqId => exact sendNext_symbols .subscribe rest
      | none =>
          obtain ⟨hrequests, hreserved⟩ := @sendNext_unsubscribe_symbols
            { client with subscribed := client.subscribed \ batch.toFinset } category now rest
          rw [resumeSend]
          dsimp only
          rw [hrequests, hreserved]
          simp
  | error exc =>
      cases reqId with
      | none => simp [resumeSend, requestsOf, SendProgress.reserved]
      | some reqId =>
          rw [resumeSend]
          dsimp only
          split
          · simp [requestsOf, SendProgress.reserved]
          · simp [requestsOf, SendProgress.reserved]

end BybitWebSocketClient

/-- Only a synchronisation changes what is desired. -/
theorem StreamMove.desired_eq {config : Settings} {category : String} {s t : StreamState}
    {action : Action} {effects : List Effect}
    (hmove : StreamMove config category s action effects t)
    (hcall : ∀ symbols, action ≠ .sync symbols) :
    t.client.desiredSymbols = s.client.desiredSymbols := by
  have hloops (u : StreamState) (hto : s.LoopsTo u) :
      u.client.desiredSymbols = s.client.desiredSymbols := hto.bystands.same.desired_eq
  cases hmove with
  | sync hidle => exact absurd rfl (hcall _)
  | acquire hfree henter =>
      rw [StreamState.follow_client]
      rcases StreamState.enter_cases henter with ⟨rfl, -⟩ | ⟨-, symbols, rfl⟩
      · exact BybitWebSocketClient.sendNext_desired _ _
      · exact BybitWebSocketClient.sendNext_desired _ _
  | sent hheld =>
      rw [StreamState.follow_client]
      exact BybitWebSocketClient.resumeSend_desired _ _
  | callback htask => exact hloops _ (StreamState.loopsTo_callbackReturned _)
  | timeout htask =>
      refine hloops _ (StreamState.loopsTo_checkWatchdogs ?_)
      split
      · exact .awaits rfl
      · exact StreamState.loopsTo_loopHead
  | @pinged sentAt ended htask =>
      exact (@StreamState.loopsTo_loopHead
        { s with client := { s.client with lastPingAt := sentAt } }).bystands.same.desired_eq
  | pingFailed htask => exact hloops _ (StreamState.loopsTo_leave _)
  | @receive noted ackCheck tickerCheck ended raised raw arrival inbox htask hinbox =>
      have hto := @StreamState.loopsTo_receiveFrame { s with inbox } config category raw
        noted ackCheck tickerCheck raised
      exact hto.bystands.same.desired_eq.trans
        (BybitWebSocketClient.handleRaw_desired raw noted raised)
  | recvFailed htask => exact hloops _ (StreamState.loopsTo_leave _)
  | _ => rfl

namespace RequestsWanted

variable {config : Settings} {category : String} {events : List StreamEvent}
  {s t : StreamState} {action : Action} {effects : List Effect}

theorem start (clock : ℚ) : RequestsWanted [] (StreamState.start clock) := by
  constructor
  · simp [StreamState.start]
  · simp [StreamState.start, StreamState.reserved]
  · simp [effectsOf, requestsOf]

/-- A step desires no more than it is told to, and requests and reserves no more than what was
reserved or desired. -/
theorem snoc (h : RequestsWanted events s)
    (hdesired : ∀ symbol ∈ t.client.desiredSymbols,
      symbol ∈ s.client.desiredSymbols ∨ ∃ symbols, action = .sync symbols ∧ symbol ∈ symbols)
    (hreserved : ∀ symbol ∈ t.reserved, symbol ∈ s.reserved ∨ symbol ∈ s.client.desiredSymbols)
    (hrequested : ∀ request ∈ requestsOf effects, ∀ symbol ∈ request.symbols,
      symbol ∈ s.reserved ∨ symbol ∈ s.client.desiredSymbols) :
    RequestsWanted (events ++ [(action, effects)]) t := by
  have hbefore (symbol : String) (hmem : symbol ∈ s.reserved ∨ symbol ∈ s.client.desiredSymbols) :
      Wanted (events ++ [(action, effects)]) symbol := by
    rcases hmem with hmem | hmem
    · exact (h.reserved symbol hmem).append _
    · exact (h.desired symbol hmem).append _
  constructor
  · intro symbol hmem
    rcases hdesired symbol hmem with hold | ⟨symbols, rfl, hsymbol⟩
    · exact (h.desired symbol hold).append _
    · exact ⟨symbols, effects, List.mem_append_right _ (List.mem_singleton_self _), hsymbol⟩
  · exact fun symbol hmem => hbefore symbol (hreserved symbol hmem)
  · intro request hmem symbol hsymbol
    rw [effectsOf_append, requestsOf_append] at hmem
    rcases List.mem_append.mp hmem with hold | hnew
    · exact (h.requested request hold symbol hsymbol).append _
    · exact hbefore symbol (hrequested request hnew symbol hsymbol)

/-- A task in the critical section requests and reserves what it has to send. -/
theorem follow (h : RequestsWanted events s) {task : TaskName} {sendRun : SendRun}
    {symbols : List String} (hdesired : sendRun.client.desiredSymbols = s.client.desiredSymbols)
    (hsends : (∀ request ∈ requestsOf sendRun.effects, ∀ symbol ∈ request.symbols,
        symbol ∈ symbols) ∧ ∀ symbol ∈ sendRun.progress.reserved, symbol ∈ symbols)
    (hsymbols : ∀ symbol ∈ symbols, symbol ∈ s.reserved ∨ symbol ∈ s.client.desiredSymbols) :
    RequestsWanted (events ++ [(action, sendRun.effects)]) (s.follow task sendRun) := by
  refine h.snoc (fun symbol hmem => ?_) (fun symbol hmem => ?_)
    fun request hmem symbol hsymbol => ?_
  · rw [StreamState.follow_client, hdesired] at hmem
    exact Or.inl hmem
  · rw [StreamState.follow_reserved] at hmem
    exact hsymbols symbol (hsends.2 symbol hmem)
  · exact hsymbols symbol (hsends.1 request hmem symbol hsymbol)

/-- Every move keeps the invariant. -/
theorem move (h : RequestsWanted events s)
    (hmove : StreamMove config category s action effects t) :
    RequestsWanted (events ++ [(action, effects)]) t := by
  -- most moves leave the lock alone and request nothing
  have hquiet (hcall : ∀ symbols, action ≠ .sync symbols) (hlock : t.lock = s.lock)
      (hnone : requestsOf effects = []) : RequestsWanted (events ++ [(action, effects)]) t := by
    refine h.snoc (fun symbol hmem => Or.inl ?_) (fun symbol hmem => Or.inl ?_) ?_
    · rwa [hmove.desired_eq hcall] at hmem
    · rwa [StreamState.reserved, hlock] at hmem
    · simp [hnone]
  cases hmove with
  | sync hidle =>
      refine h.snoc (fun symbol hmem => Or.inr ⟨_, rfl, hmem⟩) (fun symbol hmem => Or.inl hmem) ?_
      simp [requestsOf]
  | @acquire task now sendRun hfree henter =>
      rcases StreamState.enter_cases henter with ⟨rfl, -⟩ | ⟨-, symbols, rfl⟩
      · refine h.follow (BybitWebSocketClient.sendNext_desired _ _)
          (BybitWebSocketClient.sendNext_symbols _ _) fun symbol hmem => Or.inr ?_
        -- what is missing is desired
        have hmissing := List.flatten_slices_prefix.subset hmem
        exact (Finset.mem_sdiff.mp (Finset.mem_sdiff.mp (PyText.mem_sorted.mp hmissing)).1).1
      · obtain ⟨hrequests, hreserved⟩ := @BybitWebSocketClient.sendNext_unsubscribe_symbols
          s.client category now (BybitWebSocketClient.batches config
            (PyText.sorted (symbols ∩ s.client.subscribed)))
        refine @follow events s _ h task _ [] (BybitWebSocketClient.sendNext_desired _ _) ?_
          (by simp)
        rw [BybitWebSocketClient.unsubscribe, hrequests, hreserved]
        simp
  | @sent task sending outcome hheld =>
      refine h.follow (BybitWebSocketClient.resumeSend_desired _ _)
        (BybitWebSocketClient.resumeSend_symbols _ _) fun symbol hmem => Or.inl ?_
      rwa [StreamState.reserved, hheld]
  | callback htask =>
      exact hquiet (by simp) (StreamState.loopsTo_callbackReturned _).continues.lock_eq rfl
  | timeout htask =>
      refine hquiet (by simp) (StreamState.LoopsTo.continues
        (StreamState.loopsTo_checkWatchdogs ?_)).lock_eq rfl
      split
      · exact .awaits rfl
      · exact StreamState.loopsTo_loopHead
  | pinged htask => exact hquiet (by simp) StreamState.loopsTo_loopHead.continues.lock_eq rfl
  | @receive noted ackCheck tickerCheck ended raised raw arrival inbox htask hinbox =>
      exact hquiet (by simp) (StreamState.loopsTo_receiveFrame _ _ _ _ _ _ _).continues.lock_eq
        (BybitWebSocketClient.handleRaw_requests raw noted raised)
  | _ => exact hquiet (by simp) rfl rfl

end RequestsWanted

/-- Every run requests what was wanted. -/
theorem StreamRun.requestsWanted {config : AdmittedSettings} {category : String} {clock : ℚ}
    {events : List StreamEvent} {s : StreamState} (h : StreamRun config category clock events s) :
    RequestsWanted events s := by
  refine Trace.invariant (RequestsWanted.start clock) (fun events s event s' _ hs hstep => ?_) h
  obtain ⟨-, t, hmove, rfl⟩ := StreamStep.move hstep
  obtain ⟨hdesired, hreserved, hrequested⟩ := hs.move hmove
  exact ⟨hdesired, hreserved, hrequested⟩

/-- If every synchronisation takes its symbols from a registry, then every topic that a stream
requests belongs to a market that is traded and enabled in the registry of an earlier
synchronisation. -/
theorem requested_supported {config : AdmittedSettings} {category : String} {clock : ℚ}
    {events : List StreamEvent} {s : StreamState}
    (hstream : category = "spot" ∨ category = "linear")
    (h : StreamRun config category clock events s)
    (hsyncs : ∀ symbols effects, (.sync symbols, effects) ∈ events → ∃ instruments,
      symbols = WebSocketManager.desired config.toSettings category instruments) :
    ∀ request ∈ requestsOf (effectsOf events), ∀ symbol ∈ request.symbols,
      ∃ instruments effects,
        (.sync (WebSocketManager.desired config.toSettings category instruments), effects) ∈
          events ∧
        ∃ instrument ∈ instruments, instrument.identity = (category, symbol) ∧
          MomentumEvaluator.isSupported config.toSettings instrument = true := by
  intro request hrequest symbol hsymbol
  obtain ⟨symbols, effects, hmem, hwanted⟩ := h.requestsWanted.requested request hrequest symbol
    hsymbol
  obtain ⟨instruments, rfl⟩ := hsyncs symbols effects hmem
  exact ⟨instruments, effects, hmem, (WebSocketManager.mem_desired hstream).mp hwanted⟩

/-- The registry of a synchronisation in which one of two markets is traded. -/
def oneTraded : List Instrument :=
  [{ category := "spot", symbol := "BTCUSDT", baseCoin := "BTC" },
    { category := "spot", symbol := "OLDUSDT", baseCoin := "OLD", status := "Closed" }]

/-- A connection on which `oneTraded` is synchronised. -/
def syncOneTraded : List Action :=
  [.connect, .connected 0 0, .acquire .run 0, .callback (.ok ()),
    .sync (WebSocketManager.desired AdmittedSettings.default.toSettings "spot" oneTraded),
    .acquire .sync 1]

theorem requested_supported_oneTraded :
    (∀ request ∈ requestsOf (effectsOf (perform .default "spot" 0 syncOneTraded).1),
      ∀ symbol ∈ request.symbols, ∃ instruments effects,
        (.sync (WebSocketManager.desired AdmittedSettings.default.toSettings "spot" instruments),
          effects) ∈ (perform .default "spot" 0 syncOneTraded).1 ∧
        ∃ instrument ∈ instruments, instrument.identity = ("spot", symbol) ∧
          MomentumEvaluator.isSupported AdmittedSettings.default.toSettings instrument = true) ∧
    (requestsOf (effectsOf (perform .default "spot" 0 syncOneTraded).1)).map
      PendingSubscription.symbols = [["BTCUSDT"]] := by
  have hactions : ∀ action ∈ syncOneTraded, ∀ symbols, action = .sync symbols →
      symbols = WebSocketManager.desired AdmittedSettings.default.toSettings "spot" oneTraded := by
    simp [syncOneTraded]
  have hsyncs : ∀ event ∈ (perform .default "spot" 0 syncOneTraded).1, ∀ symbols,
      event.1 = .sync symbols →
        symbols =
          WebSocketManager.desired AdmittedSettings.default.toSettings "spot" oneTraded := by
    refine Trace.exec_labels (fun s action haction event s' h => ?_) (by simp)
    rw [(StreamState.next_step h).1]
    exact hactions action haction
  refine ⟨requested_supported (Or.inl rfl) (run_perform .default "spot" 0 syncOneTraded)
    fun symbols effects hmem => ⟨oneTraded, hsyncs _ hmem symbols rfl⟩, by decide +kernel⟩

end BybitMonitor
