import Mathlib
import BybitMonitor.Bybit.WebSocket
import BybitMonitor.Market.DeltaMerge
import BybitMonitor.ToMathlib.Trace

/-!
# The ingestion of prices

The runs of a price engine that is fed by REST polls and by the frames of both streams, through the
message handler of `WebSocketManager`.

* `PriceEngine.Sound`: every entry is under its own identity, which has a symbol, and has no price
  below zero.
* `PriceStep`: one poll or one frame.
* `PriceEngine.ingest_frame`: a frame feeds the engine with the messages of its client.
* `price_store_sound_iff`: when all steps of a run keep the store sound and frames stay local.
-/

namespace BybitMonitor

/-- The message that `_handle_raw` passes on for a frame, if it passes one. -/
def BybitWebSocketClient.messageOf (category : String) (raw : RawJson) : Option TickerMessage :=
  match raw with
  | some (.object data) =>
      match topicOf data with
      | .error _ => none
      | .ok topic =>
          if (Json.get data "op").isString "subscribe" then none
          else if (Json.get data "op").isString "pong" then none
          else if isTickerTopic topic then some (tickerMessage category topic data)
          else none
  | _ => none

/-- `message_handler(category)`. -/
def WebSocketManager.messageHandler (str : Json → String) (category : String)
    (self : PriceEngine) (payload : TickerMessage) : Except PyExc Unit × PriceEngine :=
  if payload.type.isString "snapshot" then
    match Normalizer.parseTicker str category payload.data payload.ts with
    | .error exc => (.error exc, self)
    | .ok ticker => (.ok (), self.applySnapshot ticker)
  else self.updateFromDelta category payload.symbol payload.data payload.ts

/-- What feeds the engine. -/
inductive Ingestion
  /-- The rows of a poll, with their categories. -/
  | poll (rows : List (String × Json))
  /-- A frame of the stream of `category`. -/
  | frame (category : String) (raw : RawJson)

namespace PriceEngine

/-- A poll parses its rows, which raises if one of them does, and then updates the tickers. -/
def ingestRows (str : Json → String) (self : PriceEngine) (rows : List (String × Json)) :
    PriceEngine :=
  match rows.mapM fun (category, raw) => Normalizer.parseTicker str category raw .null with
  | .error _ => self
  | .ok tickers => (self.updateTickers tickers).2

/-- The engine after a poll or a frame. What a frame raises is logged by the listen loop. -/
def ingest (str : Json → String) (self : PriceEngine) : Ingestion → PriceEngine
  | .poll rows => self.ingestRows str rows
  | .frame category raw =>
      match BybitWebSocketClient.messageOf category raw with
      | none => self
      | some payload => (WebSocketManager.messageHandler str category self payload).2

end PriceEngine

/-- The engine after an effect of a client: `on_message` hands the message to the engine. -/
def PriceEngine.afterEffect (str : Json → String) (category : String) (self : PriceEngine) :
    Effect → PriceEngine
  | .message payload => (WebSocketManager.messageHandler str category self payload).2
  | _ => self

/-- An acknowledgement is no message. -/
theorem PriceEngine.foldl_handleSubscribeAck (str : Json → String) (category : String)
    (engine : PriceEngine) (client : BybitWebSocketClient) (data : List (String × Json)) :
    (client.handleSubscribeAck data).effects.foldl (afterEffect str category) engine = engine := by
  rw [BybitWebSocketClient.handleSubscribeAck]
  dsimp only
  split
  · rfl
  · rfl
  · split <;> rfl

/-- A frame feeds the engine with what the client passes on of it, in whatever state the client
is. -/
theorem PriceEngine.ingest_frame (str : Json → String) (engine : PriceEngine)
    (client : BybitWebSocketClient) (category : String) (raw : RawJson) (noted : ℚ)
    (raised : Option PyExc) :
    engine.ingest str (.frame category raw) =
      (client.handleRaw category raw noted raised).effects.foldl (afterEffect str category)
        engine := by
  rw [ingest, BybitWebSocketClient.messageOf.eq_def, BybitWebSocketClient.handleRaw]
  cases raw with
  | none => rfl
  | some value =>
      cases value with
      | object data =>
          dsimp only [RawJson.loads]
          cases BybitWebSocketClient.topicOf data with
          | error exc => rfl
          | ok topic =>
              dsimp only
              by_cases hack : (Json.get data "op").isString "subscribe" = true
              · rw [if_pos hack, if_pos hack, foldl_handleSubscribeAck]
              · rw [if_neg hack, if_neg hack]
                split_ifs <;> rfl
      | _ => rfl

/-- The entry of the store that an ingestion may change. -/
def Ingestion.Touches (event : Ingestion) (category symbol : String) : Prop :=
  match event with
  | .poll _ => True
  | .frame stream raw => ∃ payload, BybitWebSocketClient.messageOf stream raw = some payload ∧
      category = stream ∧ symbol = payload.symbol

/-- A price that is absent or not below zero. -/
def NonNegative (price : Option PyFloat) : Prop := ∀ x, price = some x → PyFloat.le 0 x = true

/-- Every entry is under its own identity, which has a symbol, and has no price below zero. -/
def PriceEngine.Sound (self : PriceEngine) : Prop :=
  ∀ entry ∈ self.latest,
    entry.2.identity = entry.1 ∧ entry.2.symbol ≠ "" ∧ NonNegative entry.2.lastPrice

/-- One poll or one frame. -/
def PriceStep (str : Json → String) (engine : PriceEngine) (event : Ingestion)
    (engine' : PriceEngine) : Prop :=
  engine' = engine.ingest str event

/-- A step leaves a sound store, and a frame changes no other entry than its own. -/
def KeepsSound (engine : PriceEngine) (event : Ingestion) (engine' : PriceEngine) : Prop :=
  engine'.Sound ∧ ∀ category symbol, ¬ event.Touches category symbol →
    engine'.get category symbol = engine.get category symbol

/-- A ticker of a snapshot for `symbol` has a symbol, which is this one, unless the ticker is
rejected or stored already. -/
def PriceEngine.AdmitsSnapshot (self : PriceEngine) (symbol : String) (ticker : Ticker) : Prop :=
  ticker.symbol ≠ "" ∧ (PriceEngine.accept ticker = true →
    ticker.symbol = symbol ∨ self.get ticker.category ticker.symbol = some ticker)

/-- A delta whose conversions return has no price that is below zero or not a number. -/
def AdmitsDelta (data tsMs : Json) : Prop :=
  ∀ fields, data = .object fields → DeltaReturns fields tsMs →
    ∀ x, TelegramClient.floatOf (Json.get fields "lastPrice") = .ok x → PyFloat.le 0 x = true

/-- The engine takes an ingestion without harm: snapshots for their own symbol, and no delta with a
bad price for a market that is stored. -/
def PriceEngine.Admits (str : Json → String) (self : PriceEngine) : Ingestion → Prop
  | .poll _ => True
  | .frame category raw => ∀ payload, BybitWebSocketClient.messageOf category raw = some payload →
      if payload.type.isString "snapshot" then
        ∀ ticker, Normalizer.parseTicker str category payload.data payload.ts = .ok ticker →
          self.AdmitsSnapshot payload.symbol ticker
      else self.get category payload.symbol ≠ none → AdmitsDelta payload.data payload.ts

namespace PriceEngine

variable {str : Json → String} {engine : PriceEngine} {ticker : Ticker}

/-- What is set is sound if the ticker is. -/
theorem Sound.set {key : String × String} (h : engine.Sound) (hidentity : ticker.identity = key)
    (hsymbol : ticker.symbol ≠ "") (hprice : NonNegative ticker.lastPrice) {engine' : PriceEngine}
    (hlatest : engine'.latest = Dict.set engine.latest key ticker) : engine'.Sound := by
  intro entry hentry
  rw [hlatest] at hentry
  rcases Dict.mem_set.mp hentry with rfl | ⟨hold, -⟩
  · exact ⟨hidentity, hsymbol, hprice⟩
  · exact h entry hold

/-- A sound store has the ticker that is set. -/
theorem Sound.of_set {key : String × String} {engine' : PriceEngine} (h : engine'.Sound)
    (hlatest : engine'.latest = Dict.set engine.latest key ticker) :
    ticker.identity = key ∧ ticker.symbol ≠ "" ∧ NonNegative ticker.lastPrice :=
  h (key, ticker) (hlatest ▸ Dict.mem_set.mpr (Or.inl rfl))

/-- A ticker with a finite price that is accepted has a symbol and no price below zero. -/
theorem of_accept (haccept : accept ticker = true)
    (hfinite : ∀ price, ticker.lastPrice = some price → ∃ x, price = .finite x) :
    ticker.symbol ≠ "" ∧ NonNegative ticker.lastPrice := by
  rw [accept] at haccept
  split_ifs at haccept with hsymbol hprice
  refine ⟨hsymbol, fun price heq => ?_⟩
  obtain ⟨x, rfl⟩ := hfinite price heq
  rw [heq] at hprice
  rw [PyFloat.le_eq_not_lt (by intro h; cases h) (by intro h; cases h)]
  simpa using hprice

/-- Updating parsed tickers leaves the store sound. -/
theorem Sound.updateTickers {tickers : List Ticker} (h : engine.Sound)
    (hfinite : ∀ ticker ∈ tickers, ∀ price, ticker.lastPrice = some price →
      ∃ x, price = .finite x) : (engine.updateTickers tickers).2.Sound := by
  -- the tickers that were counted as updated do not matter
  rw [PriceEngine.updateTickers]
  generalize ([] : TickerStore) = updated
  induction tickers generalizing engine updated with
  | nil => exact h
  | cons ticker rest ih =>
      rw [List.foldl_cons]
      have hrest := fun other hmem => hfinite other (List.mem_cons_of_mem _ hmem)
      dsimp only
      split
      · rename_i haccept
        obtain ⟨hsymbol, hprice⟩ := of_accept haccept (hfinite ticker List.mem_cons_self)
        exact ih (h.set (Eq.refl ticker.identity) hsymbol hprice rfl) hrest _
      · -- a rejected ticker is only counted
        have hcounted : PriceEngine.Sound { engine with
            received := engine.received + 1, rejected := engine.rejected + 1 } := h
        exact ih hcounted hrest _

/-- What is parsed comes from a row. -/
theorem mem_of_mapM {α β : Type} {f : α → Except PyExc β} {rows : List α} {results : List β}
    (h : rows.mapM f = .ok results) : ∀ result ∈ results, ∃ row ∈ rows, f row = .ok result := by
  induction rows generalizing results with
  | nil =>
      cases h
      simp
  | cons row rest ih =>
      rw [List.mapM_cons] at h
      obtain ⟨first, hfirst, h⟩ := PyExc.bind_eq_ok.mp h
      obtain ⟨others, hothers, h⟩ := PyExc.bind_eq_ok.mp h
      cases h
      intro result hresult
      rcases List.mem_cons.mp hresult with rfl | hmem
      · exact ⟨row, List.mem_cons_self, hfirst⟩
      · obtain ⟨other, hother, hparsed⟩ := ih hothers result hmem
        exact ⟨other, List.mem_cons_of_mem _ hother, hparsed⟩

/-- A poll leaves the store sound. -/
theorem Sound.ingestRows (h : engine.Sound) (rows : List (String × Json)) :
    (engine.ingestRows str rows).Sound := by
  rw [PriceEngine.ingestRows]
  split
  · exact h
  · -- the prices of a poll were parsed, so they are finite
    rename_i tickers htickers
    refine h.updateTickers fun ticker hticker price hprice => ?_
    obtain ⟨row, -, hparsed⟩ := mem_of_mapM htickers ticker hticker
    exact Normalizer.parseTicker_finite_lastPrice hparsed hprice

section

variable {category symbol : String} {raw : RawJson} {payload : TickerMessage}

/-- A frame that changes nothing. -/
theorem Sound.keeps_self (h : engine.Sound) (event : Ingestion) {engine' : PriceEngine}
    (hlatest : engine'.latest = engine.latest) : KeepsSound engine event engine' := by
  refine ⟨fun entry hentry => h entry (hlatest ▸ hentry), fun category symbol _ => ?_⟩
  rw [get, get, hlatest]

/-- The entry that a frame may change. -/
theorem not_touches_frame (hpayload : BybitWebSocketClient.messageOf category raw = some payload)
    {category' symbol' : String} :
    ¬ (Ingestion.frame category raw).Touches category' symbol' ↔
      (category', symbol') ≠ (category, payload.symbol) := by
  rw [Ingestion.Touches, hpayload, ne_eq, Prod.mk.injEq]
  refine not_congr ⟨?_, fun h => ⟨payload, rfl, h⟩⟩
  rintro ⟨other, heq, h⟩
  obtain rfl := Option.some.inj heq
  exact h

/-- A snapshot keeps the store sound if and only if it is admitted. -/
theorem Sound.keeps_snapshot_iff (h : engine.Sound)
    (hpayload : BybitWebSocketClient.messageOf category raw = some payload)
    (hparsed : Normalizer.parseTicker str category payload.data payload.ts = .ok ticker) :
    KeepsSound engine (.frame category raw) (engine.applySnapshot ticker) ↔
      engine.AdmitsSnapshot payload.symbol ticker := by
  have hfinite (price : PyFloat) (hprice : ticker.lastPrice = some price) :
      ∃ x, price = .finite x := Normalizer.parseTicker_finite_lastPrice hparsed hprice
  have hcategory : ticker.category = category := by
    obtain ⟨fields, heq⟩ := Normalizer.parseTicker_object hparsed
    rw [heq] at hparsed
    exact (Normalizer.parseTicker_spec hparsed).1
  by_cases hrejected : (ticker.symbol ≠ "" && ticker.lastPrice.any fun price => price.lt 0) = true
  · -- the price is below zero
    obtain ⟨hsymbol, hprice⟩ := Bool.and_eq_true_iff.mp hrejected
    refine iff_of_true (h.keeps_self _ ?_) ⟨of_decide_eq_true hsymbol, fun haccept => ?_⟩
    · rw [applySnapshot, if_pos hrejected]
    · rw [accept, if_neg (of_decide_eq_true hsymbol), if_pos hprice] at haccept
      cases haccept
  -- a ticker that is stored goes under its own symbol, whatever the topic was
  have hlatest : (engine.applySnapshot ticker).latest =
      Dict.set engine.latest ticker.identity ticker := by
    rw [applySnapshot, if_neg hrejected]
    rfl
  have hstored : (engine.applySnapshot ticker).get ticker.category ticker.symbol = some ticker := by
    rw [get, hlatest]
    exact Dict.get_set
  constructor
  · rintro ⟨hsound, hothers⟩
    refine ⟨(hsound.of_set hlatest).2.1, fun _ => or_iff_not_imp_left.mpr fun hne => ?_⟩
    -- an entry of another symbol is left, so it had this ticker already
    rw [← hothers ticker.category ticker.symbol ((not_touches_frame hpayload).mpr fun heq => ?_)]
    · exact hstored
    · exact hne (Prod.mk.inj heq).2
  · rintro ⟨hsymbol, hadmits⟩
    have haccept : accept ticker = true := by
      rw [accept, if_neg hsymbol, if_neg]
      simpa [hsymbol] using hrejected
    obtain ⟨-, hprice⟩ := of_accept haccept hfinite
    refine ⟨h.set rfl hsymbol hprice hlatest, fun category' symbol' htouches => ?_⟩
    have hne := (not_touches_frame hpayload).mp htouches
    -- the entry of the ticker is that of the frame, or had the ticker before
    by_cases hself : (category', symbol') = ticker.identity
    · obtain ⟨rfl, rfl⟩ := Prod.mk.inj hself
      rw [hstored]
      refine ((hadmits haccept).resolve_left fun hsame => hne ?_).symm
      rw [hcategory, hsame]
    · rw [get, get, hlatest]
      exact Dict.get_set_of_ne hself

/-- A delta keeps the store sound if and only if it is admitted, or its market is not stored. -/
theorem Sound.keeps_delta_iff (h : engine.Sound)
    (hpayload : BybitWebSocketClient.messageOf category raw = some payload) :
    KeepsSound engine (.frame category raw)
        (engine.updateFromDelta category payload.symbol payload.data payload.ts).2 ↔
      (engine.get category payload.symbol ≠ none → AdmitsDelta payload.data payload.ts) := by
  cases hget : engine.get category payload.symbol with
  | none =>
      rw [updateFromDelta, hget]
      exact iff_of_true (h.keeps_self _ rfl) fun hne => absurd rfl hne
  | some stored =>
      obtain ⟨hidentity, hsymbol, hprice⟩ := h _ (Dict.mem_of_get hget)
      rw [updateFromDelta_eq hget]
      -- a delta whose conversions raise changes nothing
      cases hmerge : mergeDelta stored payload.data payload.ts with
      | error exc =>
          refine iff_of_true (h.keeps_self _ rfl) fun _ fields heq hreturns => ?_
          obtain ⟨latest, hlatest⟩ :=
            (@mergeDelta_returns_iff stored fields payload.ts).mpr hreturns
          rw [heq, hlatest] at hmerge
          cases hmerge
      | ok latest =>
          obtain ⟨fields, hfields⟩ := mergeDelta_object hmerge
          rw [hfields] at hmerge
          have hlast := lastPrice_of_mergeDelta hmerge
          obtain ⟨⟨hcategory', hsymbol'⟩, -⟩ := mergeDelta_eq_ok_iff.mp hmerge
          constructor
          · rintro ⟨hsound, -⟩ - fields' heq - x hx
            obtain rfl := Json.object.inj (hfields.symm.trans heq)
            refine (@Sound.of_set engine _ _ _ hsound rfl).2.2 x ?_
            -- the price of the merged ticker is that of the delta, if it has one
            rcases hlast with ⟨hnull, -⟩ | ⟨y, hy, hlast⟩
            · rw [hnull] at hx
              cases hx
            · cases hx.symm.trans hy
              exact hlast
          · -- the merged ticker has the identity of the stored one
            intro hadmits
            have hnew : NonNegative latest.lastPrice := by
              intro x hx
              rcases hlast with ⟨-, hkept⟩ | ⟨y, hy, hlast⟩
              · exact hprice x (hkept ▸ hx)
              · cases hlast.symm.trans hx
                exact hadmits (by simp) fields hfields
                  (mergeDelta_returns_iff.mp ⟨latest, hmerge⟩) x hy
            refine ⟨@Sound.set _ _ (category, payload.symbol) h ?_ ?_ hnew _ rfl,
              fun category' symbol' htouches => ?_⟩
            · have hsame : latest.identity = stored.identity := by
                rw [Ticker.identity, Ticker.identity, hcategory', hsymbol']
              exact hsame.trans hidentity
            · rwa [hsymbol']
            · exact Dict.get_set_of_ne ((not_touches_frame hpayload).mp htouches)

end

/-- A step keeps a sound store sound and stays local if and only if it is admitted. -/
theorem Sound.keeps_iff (h : engine.Sound) (event : Ingestion) :
    KeepsSound engine event (engine.ingest str event) ↔ engine.Admits str event := by
  cases event with
  | poll rows => exact iff_of_true ⟨h.ingestRows rows, fun _ _ hno => absurd trivial hno⟩ trivial
  | frame category raw =>
      rw [ingest, Admits]
      cases hpayload : BybitWebSocketClient.messageOf category raw with
      | none => exact iff_of_true (h.keeps_self _ rfl) fun payload heq => by cases heq
      | some payload =>
          simp only [Option.some.injEq, forall_eq', WebSocketManager.messageHandler]
          split
          · cases hparsed : Normalizer.parseTicker str category payload.data payload.ts with
            | error exc =>
                exact iff_of_true (h.keeps_self _ rfl) fun ticker heq => by cases heq
            | ok ticker =>
                simp only [Except.ok.injEq, forall_eq']
                exact h.keeps_snapshot_iff hpayload hparsed
          · exact h.keeps_delta_iff hpayload

end PriceEngine

/-- A run of an engine that starts empty. -/
def PriceRun (str : Json → String) (events : List Ingestion) (engine : PriceEngine) : Prop :=
  Trace (PriceStep str) {} events engine

section

variable {str : Json → String} {events : List Ingestion} {engine : PriceEngine}

/-- A run whose steps are all admitted keeps the store sound. -/
theorem PriceRun.sound (h : PriceRun str events engine)
    (hadmits : Trace.EveryStep (PriceStep str) {} events fun engine event _ =>
      engine.Admits str event) : engine.Sound := by
  induction h with
  | nil => exact fun entry hentry => nomatch hentry
  | snoc prior last ih =>
      -- the store is sound before the step, and the step is admitted
      obtain ⟨hbefore, hlast⟩ := hadmits.of_append
      obtain rfl := last
      exact ((ih hbefore).keeps_iff _).mpr (hlast _ _ prior rfl) |>.1

/-- In every run, the steps keep the store sound and the frames stay local if and only if each step
is admitted: the ticker of a snapshot has the symbol of its topic, unless it is rejected or stored
already, and a delta for a stored market has no price below zero or `NaN`. -/
theorem price_store_sound_iff (h : PriceRun str events engine) :
    Trace.EveryStep (PriceStep str) {} events KeepsSound ↔
      Trace.EveryStep (PriceStep str) {} events fun engine event _ => engine.Admits str event := by
  induction h with
  | nil => exact iff_of_true (fun k e s s' hk => by simp at hk) fun k e s s' hk => by simp at hk
  | @snoc events engine event engine' prior last ih =>
      constructor
      · intro hkeeps
        obtain ⟨hbefore, hlast⟩ := hkeeps.of_append
        -- the steps before were admitted, so the store is sound when the last one comes
        have hadmits := ih.mp hbefore
        refine hadmits.snoc fun s s' hs hstep => ?_
        obtain rfl := hstep
        exact ((PriceRun.sound hs hadmits).keeps_iff event).mp (hlast s _ hs rfl)
      · intro hadmits
        obtain ⟨hbefore, hlast⟩ := hadmits.of_append
        refine (ih.mpr hbefore).snoc fun s s' hs hstep => ?_
        obtain rfl := hstep
        exact ((PriceRun.sound hs hbefore).keeps_iff event).mpr (hlast s _ hs rfl)

end

/-- A ticker frame. -/
def tickerFrame (symbol type : String) (data : List (String × Json)) : RawJson :=
  some (.object [("topic", .string ("tickers." ++ symbol)), ("type", .string type),
    ("ts", .int 1700000001000), ("data", .object data)])

/-- A poll, a snapshot and a delta of one market. -/
def ordinaryFeed : List Ingestion :=
  [.poll [("linear", .object [("symbol", .string "BTCUSDT"), ("lastPrice", .string "65000")])],
    .frame "linear" (tickerFrame "BTCUSDT" "snapshot"
      [("symbol", .string "BTCUSDT"), ("lastPrice", .string "65001")]),
    .frame "linear" (tickerFrame "BTCUSDT" "delta" [("lastPrice", .string "65002")])]

/-- The engine after a feed. -/
def PriceEngine.feed (str : Json → String) (events : List Ingestion) : PriceEngine :=
  events.foldl (PriceEngine.ingest str) {}

theorem run_feed (str : Json → String) (events : List Ingestion) :
    PriceRun str events (PriceEngine.feed str events) := by
  induction events using List.reverseRecOn with
  | nil => exact Trace.nil
  | append_singleton events event ih =>
      refine ih.snoc ?_
      rw [PriceStep, PriceEngine.feed, List.foldl_append]
      rfl

/-- Each step of a feed, by the engine that it finds. -/
theorem everyStep_feed {str : Json → String} {events : List Ingestion}
    {P : PriceEngine → Ingestion → PriceEngine → Prop}
    (h : ∀ (k : ℕ) event, events[k]? = some event → P (PriceEngine.feed str (events.take k)) event
      ((PriceEngine.feed str (events.take k)).ingest str event)) :
    Trace.EveryStep (PriceStep str) {} events P := by
  rintro k event s s' hk hs rfl
  -- the engine before the step is the one of the feed so far
  have hdet : ∀ s e s₁ s₂, PriceStep str s e s₁ → PriceStep str s e s₂ → s₁ = s₂ :=
    fun s e s₁ s₂ h₁ h₂ => h₁.trans h₂.symm
  obtain rfl := Trace.unique hdet hs (run_feed str (events.take k))
  exact h k event hk

/-- Each step of the ordinary feed is admitted, so that the store is sound. -/
theorem price_store_sound_ordinary :
    (PriceEngine.feed (fun _ => "") ordinaryFeed).latest.map (fun entry => entry.2.lastPrice) =
        [some 65002] ∧
      (Trace.EveryStep (PriceStep fun _ => "") {} ordinaryFeed fun engine event _ =>
        engine.Admits (fun _ => "") event) ∧
      Trace.EveryStep (PriceStep fun _ => "") {} ordinaryFeed KeepsSound := by
  have hadmits : Trace.EveryStep (PriceStep fun _ => "") {} ordinaryFeed fun engine event _ =>
      engine.Admits (fun _ => "") event := by
    refine everyStep_feed fun k event hk => ?_
    match k with
    | 0 =>
        obtain rfl := Option.some.inj hk
        trivial
    | 1 =>
        obtain rfl := Option.some.inj hk
        intro payload hpayload
        obtain rfl := Option.some.inj hpayload
        intro ticker hticker
        -- the snapshot has the symbol of its topic
        have hparsed : (Normalizer.parseTicker (fun _ => "") "linear"
            (.object [("symbol", .string "BTCUSDT"), ("lastPrice", .string "65001")])
            (.int 1700000001000)).toOption.map Ticker.symbol = some "BTCUSDT" := by decide +kernel
        have hsymbol : ticker.symbol = "BTCUSDT" :=
          Option.some.inj ((congrArg (fun r => r.toOption.map Ticker.symbol) hticker).symm.trans
            hparsed)
        exact ⟨by rw [hsymbol]; decide, fun _ => Or.inl hsymbol⟩
    | 2 =>
        obtain rfl := Option.some.inj hk
        intro payload hpayload
        obtain rfl := Option.some.inj hpayload
        rintro - fields hfields - x hx
        obtain rfl := Json.object.inj hfields
        have hprice : TelegramClient.floatOf (.string "65002") = .ok 65002 := by decide +kernel
        obtain rfl := Except.ok.inj (hprice.symm.trans hx)
        decide +kernel
    | k + 3 => cases hk
  exact ⟨by decide +kernel, hadmits, (price_store_sound_iff (run_feed _ _)).mpr hadmits⟩

/-- A snapshot whose data has no symbol. -/
def namelessSnapshot : Ingestion :=
  .frame "linear" (tickerFrame "BTCUSDT" "snapshot" [("lastPrice", .string "65000")])

/-- What is parsed of it. -/
def namelessTicker : Ticker :=
  { category := "linear", symbol := "", lastPrice := some 65000, timestamp := 1700000001 }

/-- A snapshot without a symbol is stored under the empty symbol. -/
theorem price_store_nameless :
    ¬ ∀ (str : Json → String) (events : List Ingestion) (engine : PriceEngine),
      PriceRun str events engine → Trace.EveryStep (PriceStep str) {} events KeepsSound := by
  intro h
  have hstored : (PriceEngine.ingest (fun _ => "") {} namelessSnapshot).latest =
      [(namelessTicker.identity, namelessTicker)] := by decide +kernel
  obtain ⟨hsound, -⟩ := h (fun _ => "") [namelessSnapshot] _ (run_feed _ _) 0 namelessSnapshot {} _
    rfl Trace.nil rfl
  exact (hsound _ (hstored ▸ List.mem_singleton_self _)).2.1 rfl

end BybitMonitor
