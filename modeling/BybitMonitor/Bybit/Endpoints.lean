import Mathlib
import BybitMonitor.Bybit.Rest

/-!
# The endpoints of the REST client

The methods of `BybitRestClient` that list instruments and tickers, over `_request`. The transport
may fail as it likes; if it answers, the answer depends on the request only.

* `RestClient.request_serves`: a request returns what the server has, or raises.
* `RestClient.fetchInstruments_complete`: the pages fetched are those of a faultless transport.
-/

namespace BybitMonitor

/-- The paths of the endpoints. -/
def instrumentsPath : String := "/v5/market/instruments-info"

def tickersPath : String := "/v5/market/tickers"

/-- The request for a page of instruments. -/
def InstrumentsQuery.rest (self : InstrumentsQuery) : RestQuery where
  path := instrumentsPath
  params :=
    [("category", self.category), ("limit", toString self.limit)] ++
      self.status.toList.map (("status", ·)) ++ self.cursor.toList.map (("cursor", ·))

/-- The parsed rows of a payload: `result.get("list") or []`. -/
def readRows {α : Type} (parse : Json → Except PyExc α) (payload : Json) :
    Except PyExc (List α) := do
  let result := (← payload.getKey "result").orElse (.object [])
  let rawList := (← result.getKey "list").orElse (.array [])
  (← rawList.iterate).mapM parse

namespace RestClient

variable (str : Json → String) (client : RestClient)

/-- Raise what the parsers raise. -/
def parsed {α : Type} (x : Except PyExc α) : RestCall α := Program.lift (x.mapError .python)

/-- The request of `get_spot_instruments`. -/
def spotQuery : RestQuery := ⟨instrumentsPath, [("category", "spot")]⟩

/-- `get_spot_instruments`. -/
def getSpotInstruments : RestCall (List ParsedInstrument) := do
  let payload ← request str client spotQuery
  parsed (readRows (Normalizer.parseInstrument str "spot") payload)

/-- `_fetch_instruments` after the rounds with these `results`; `none` if the fuel does not cover
the pages. -/
def fetchInstruments : ℕ → InstrumentsQuery → List ParsedInstrument →
    RestCall (Option (List ParsedInstrument))
  | 0, _, _ => return none
  | fuel + 1, query, results => do
      let payload ← request str client query.rest
      let page ← parsed (readPage str query.category payload)
      match page.next with
      | none => return some (results ++ page.instruments)
      | some cursor =>
          fetchInstruments fuel { query with cursor := some cursor } (results ++ page.instruments)

/-- The first request of `get_linear_instruments`. -/
def linearQuery (status : String) : InstrumentsQuery := ⟨"linear", 1000, some status, none⟩

/-- `get_linear_instruments`. -/
def getLinearInstruments (fuel : ℕ) (status : String) :
    RestCall (Option (List ParsedInstrument)) :=
  fetchInstruments str client fuel (linearQuery status) []

/-- `_fetch_tickers`. -/
def fetchTickers (category : String) : RestCall (List Ticker) := do
  let payload ← request str client ⟨tickersPath, [("category", category)]⟩
  parsed (readRows (fun raw => Normalizer.parseTicker str category raw .null) payload)

/-! ## An unreliable transport -/

/-- The replies of a server whose payloads depend on the request only, over a transport that may
fail in any way. -/
def Serves (server : RestQuery → Json) (question : RestAwait) (reply : question.Reply) : Prop :=
  question.legal reply ∧
    match question, reply with
    | .get query, reply => ∀ payload, settle str reply = .ok payload → payload = server query
    | _, _ => True

variable {str client} {server : RestQuery → Json}

/-- The parsers ask nothing. -/
theorem parsed_meets {α γ : Type} {P : Program.Protocol RestAwait RestAwait.Reply γ} {g : γ}
    {x : Except PyExc α} {post : Except RestError α → γ → Prop} :
    (parsed x).Meets P g post ↔ post (x.mapError .python) g := Iff.rfl

/-- A request returns what the server has for it, or raises. -/
theorem request_serves (query : RestQuery) :
    (request str client query).Meets (.replying (Serves str server)) () fun outcome _ =>
      ∀ payload, outcome = .ok payload → payload = server query := by
  unfold request
  split
  · refine Program.meets_retry (fun _ _ => True) client.maxRetries.toNat ?_ (Nat.zero_add _) trivial
    intro n _ _ _
    refine Program.meets_replying_bind.mpr fun reply hreply => ?_
    cases hsettle : settle str reply with
    | ok payload =>
        intro other hother
        obtain rfl := Except.ok.inj hother
        exact hreply.2 payload hsettle
    | error error =>
        refine ⟨fun _ payload hpayload => (nomatch hpayload), fun _ _ => ?_⟩
        refine Program.meets_of_forall (fun _ _ => trivial) fun paused _ => ?_
        cases paused with
        | ok _ => trivial
        | error error' =>
            intro payload hpayload
            cases hpayload
  · intro payload hpayload
    cases hpayload

/-- A request before the rest of a call: the rest begins with the payload of the server. -/
theorem request_bind_serves {α : Type} {query : RestQuery} {next : Json → RestCall α}
    {post : Except RestError α → Unit → Prop}
    (hnext : (next (server query)).Meets (.replying (Serves str server)) () post)
    (hraise : ∀ error, post (.error error) ()) :
    (request str client query >>= next).Meets (.replying (Serves str server)) () post := by
  refine Program.meets_bind.mpr ((request_serves query).mono fun outcome _ hserves => ?_)
  cases outcome with
  | ok payload =>
      obtain rfl := hserves payload rfl
      exact hnext
  | error error => exact hraise error

/-- Whatever the transport does, the pages that are fetched are those that a faultless transport
delivers, in their order and each once, or the call raises. -/
theorem fetchInstruments_complete (fuel : ℕ) (query : InstrumentsQuery)
    (results : List ParsedInstrument) :
    (fetchInstruments str client fuel query results).Meets (.replying (Serves str server)) ()
      fun outcome _ => ∀ list, outcome = .ok (some list) →
        (BybitMonitor.fetchInstruments str (fun query => .ok (server query.rest)) fuel query
          results).outcome = some (.ok list) := by
  -- by induction on the pages, after any results
  induction fuel generalizing query results with
  | zero =>
      intro list hlist
      cases hlist
  | succ fuel ih =>
      rw [fetchInstruments]
      refine request_bind_serves ?_ fun error list hlist => (nomatch hlist)
      refine Program.meets_bind.mpr (parsed_meets.mpr ?_)
      have hround :
          ((.ok (server query.rest) : Except PyExc Json) >>= readPage str query.category) =
            readPage str query.category (server query.rest) := rfl
      rw [BybitMonitor.fetchInstruments, hround]
      cases readPage str query.category (server query.rest) with
      | error exc =>
          intro list hlist
          cases hlist
      | ok page =>
          dsimp only [Except.mapError]
          cases hnext : page.next with
          | none =>
              intro list hlist
              obtain rfl := Option.some.inj (Except.ok.inj hlist)
              simp
          | some cursor =>
              refine (ih { query with cursor := some cursor } _).mono
                fun outcome _ hrest list hlist => ?_
              simp [hrest list hlist]

/-- The rows of one payload, over any transport. -/
theorem getSpotInstruments_complete :
    (getSpotInstruments str client).Meets (.replying (Serves str server)) () fun outcome _ =>
      ∀ list, outcome = .ok list →
        readRows (Normalizer.parseInstrument str "spot") (server spotQuery) = .ok list := by
  refine request_bind_serves ?_ fun error list hlist => (nomatch hlist)
  intro list hlist
  cases hrows : readRows (Normalizer.parseInstrument str "spot") (server spotQuery) with
  | error exc =>
      rw [hrows] at hlist
      cases hlist
  | ok rows =>
      rw [hrows] at hlist
      exact congrArg Except.ok (Except.ok.inj hlist)

end RestClient

end BybitMonitor
