import Mathlib
import BybitMonitor.Bybit.Parsing
import BybitMonitor.ToMathlib.Links

/-!
# The pages of the instruments

`_fetch_instruments` follows the cursors of the pages until one has none. The only end of the loop
is a page of the server.

* `fetchInstruments_eq`: the requests are the way along the cursors.
* `fetchInstruments_ends_iff`: it ends if no cursor comes back, with the instruments of all pages.
-/

namespace BybitMonitor

/-- The parameters of a request for instruments. -/
structure InstrumentsQuery where
  category : String
  limit : ℤ
  status : Option String
  cursor : Option String
  deriving DecidableEq, Repr

/-- What the loop reads off a page; `next` is `None` if the page has no next cursor. -/
structure Page where
  instruments : List ParsedInstrument
  next : Option String
  deriving Repr

/-- What the requests so far were, and what the call has ended with, if it has. -/
structure FetchRun where
  requests : List InstrumentsQuery
  outcome : Option (Except PyExc (List ParsedInstrument))

namespace Json

/-- `value or default`. -/
def orElse (value default : Json) : Json := if value.truthy then value else default

/-- `list(value)`. -/
def iterate : Json → Except PyExc (List Json)
  | array items => .ok items
  | string text => .ok (text.toList.map fun c => string c.toString)
  | object fields => .ok (fields.map fun field => string field.1)
  | value => .error (.typeError ("'" ++ value.typeName ++ "' object is not iterable"))

end Json

open Normalizer (parseInstrument SafeInstrument parseInstrument_returns_iff mapM_returns_iff)

variable (str : Json → String)

/-- A round of the loop, from its payload on. -/
def readPage (category : String) (payload : Json) : Except PyExc Page := do
  let result := (← payload.getKey "result").orElse (.object [])
  let rawList := (← result.getKey "list").orElse (.array [])
  let instruments ← (← rawList.iterate).mapM (parseInstrument str category)
  let nextCursor ← result.getKey "nextPageCursor"
  return { instruments, next := if nextCursor.truthy then some (nextCursor.text str) else none }

/-- `_fetch_instruments` after the rounds with these `results`, for as many rounds as the fuel. -/
def fetchInstruments (request : InstrumentsQuery → Except PyExc Json) :
    ℕ → InstrumentsQuery → List ParsedInstrument → FetchRun
  | 0, _, _ => ⟨[], none⟩
  | fuel + 1, query, results =>
      match request query >>= readPage str query.category with
      | .error exc => ⟨[query], some (.error exc)⟩
      | .ok page =>
          match page.next with
          | none => ⟨[query], some (.ok (results ++ page.instruments))⟩
          | some cursor =>
              let rest := fetchInstruments request fuel { query with cursor := some cursor }
                (results ++ page.instruments)
              ⟨query :: rest.requests, rest.outcome⟩

/-- A payload with a list of objects that are parsed, and a cursor that is a string or missing. -/
def WellFormedPage (payload : Json) : Prop :=
  ∃ (fields result : List (String × Json)) (rows : List (List (String × Json))),
    payload = .object fields ∧ Json.get fields "result" = .object result ∧
    Json.get result "list" = .array (rows.map .object) ∧ (∀ row ∈ rows, SafeInstrument row) ∧
      ∀ value, Json.get result "nextPageCursor" = value →
        value = .null ∨ ∃ cursor, value = .string cursor

variable {str}

theorem orElse_object (fields : List (String × Json)) :
    (Json.object fields).orElse (.object []) = .object fields := by
  cases fields <;> rfl

theorem orElse_array (items : List Json) :
    (Json.array items).orElse (.array []) = .array items := by
  cases items <;> rfl

/-- A well-formed page is read. -/
theorem readPage_returns {category : String} {payload : Json} (h : WellFormedPage payload) :
    ∃ page, readPage str category payload = .ok page := by
  obtain ⟨fields, result, rows, rfl, hresult, hlist, hsafe, -⟩ := h
  obtain ⟨instruments, hinstruments, -⟩ :=
    (@mapM_returns_iff _ _ (parseInstrument str category) (fun _ => True)
      (rows.map .object)).mpr (by
      intro raw hraw
      obtain ⟨row, hrow, rfl⟩ := List.mem_map.mp hraw
      obtain ⟨instrument, h⟩ := parseInstrument_returns_iff.mpr (hsafe row hrow)
      exact ⟨instrument, h, trivial⟩)
  -- every value the round reads is an object, a list or a string, so no access raises
  simp only [readPage, Json.getKey, hresult, orElse_object, hlist, orElse_array, Json.iterate,
    hinstruments, PyExc.bind_eq_ok, Except.ok.injEq, exists_eq_left']
  exact ⟨_, rfl⟩

/-- Where the page that is requested with a cursor leads. -/
def nextCursor (pages : Option String → Page) (cursor : Option String) : Option (Option String) :=
  (pages cursor).next.map some

section Server

variable {category : String} {limit : ℤ} {status : Option String} {server : Option String → Json}
  {pages : Option String → Page}

/-- The requests are the way along the cursors, and the call ends when the way does. -/
theorem fetchInstruments_eq (hpages : ∀ cursor, readPage str category (server cursor) =
      .ok (pages cursor)) (fuel : ℕ) (cursor : Option String) (results : List ParsedInstrument) :
    fetchInstruments str (fun query => .ok (server query.cursor)) fuel
        ⟨category, limit, status, cursor⟩ results =
      ⟨(Links.trail (nextCursor pages) fuel cursor).map fun cursor =>
          ⟨category, limit, status, cursor⟩,
        if Links.item (nextCursor pages) fuel cursor = none then
          some (.ok (results ++ (Links.trail (nextCursor pages) fuel cursor).flatMap
            fun cursor => (pages cursor).instruments))
        else none⟩ := by
  -- by induction on the rounds, from any cursor on
  induction fuel generalizing cursor results with
  | zero => rfl
  | succ fuel ih =>
      have hread : ((.ok (server cursor) : Except PyExc Json) >>= readPage str category) =
          .ok (pages cursor) := hpages cursor
      rw [fetchInstruments, hread, Links.trail, Links.item]
      dsimp only
      cases hnext : (pages cursor).next with
      | none =>
          have hend : nextCursor pages cursor = none := by rw [nextCursor, hnext, Option.map_none]
          simp [hend]
      | some other =>
          have hlink : nextCursor pages cursor = some (some other) := by
            rw [nextCursor, hnext, Option.map_some]
          dsimp only
          rw [ih, hlink]
          simp [List.append_assoc]

/-- Whatever the server answers with, as long as its pages are read and depend on the cursor only,
which may have finitely many values: the call ends exactly if no cursor comes back. No cursor is
then requested twice, the requests follow the cursors up to a page without one, and the result is
the instruments of these pages in their order. -/
theorem fetchInstruments_ends_iff
    (hpages : ∀ cursor, readPage str category (server cursor) = .ok (pages cursor))
    (hfinite : {cursor | ∃ other, (pages other).next = some cursor}.Finite) :
    let run := fun fuel => fetchInstruments str (fun query => .ok (server query.cursor)) fuel
      ⟨category, limit, status, none⟩ []
    ((∃ fuel result, (run fuel).outcome = some result) ↔
        ¬ Links.Repeats (nextCursor pages) none) ∧
      ∀ fuel result, (run fuel).outcome = some result →
        ((run fuel).requests.map InstrumentsQuery.cursor).Nodup ∧
          (∀ i < fuel, ((run fuel).requests.map InstrumentsQuery.cursor)[i]? =
            Links.item (nextCursor pages) i none) ∧
          (∃ last, ((run fuel).requests.map InstrumentsQuery.cursor).getLast? = some last ∧
            (pages last).next = none) ∧
          result = .ok (((run fuel).requests.map InstrumentsQuery.cursor).flatMap
            fun cursor => (pages cursor).instruments) := by
  intro run
  -- finitely many cursors lead somewhere, so a way that does not end comes back
  have hlinks : {cursor | ∃ other, nextCursor pages other = some cursor}.Finite := by
    refine (hfinite.image some).subset ?_
    rintro cursor ⟨other, hother⟩
    obtain ⟨text, htext, rfl⟩ := Option.map_eq_some_iff.mp hother
    exact ⟨text, ⟨other, htext⟩, rfl⟩
  have hrequests (fuel : ℕ) : (run fuel).requests.map InstrumentsQuery.cursor =
      Links.trail (nextCursor pages) fuel none := by
    simp only [run, fetchInstruments_eq hpages, List.map_map]
    exact List.map_id _
  have houtcome (fuel : ℕ) (result : Except PyExc (List ParsedInstrument)) :
      (run fuel).outcome = some result ↔
        Links.item (nextCursor pages) fuel none = none ∧
          result = .ok ((Links.trail (nextCursor pages) fuel none).flatMap
            fun cursor => (pages cursor).instruments) := by
    simp only [run, fetchInstruments_eq hpages, List.nil_append]
    split
    · simp [*, eq_comm]
    · simp [*]
  have hends : (∃ fuel result, (run fuel).outcome = some result) ↔
      Links.Ends (nextCursor pages) none := by
    simp only [houtcome, exists_and_left, exists_eq, and_true]
    rfl
  refine ⟨hends.trans (Links.ends_iff_not_repeats hlinks), fun fuel result hresult => ?_⟩
  have hfresh := (Links.ends_iff_not_repeats hlinks).mp (hends.mp ⟨fuel, result, hresult⟩)
  obtain ⟨hend, heq⟩ := (houtcome fuel result).mp hresult
  rw [hrequests]
  refine ⟨Links.nodup_trail hfresh fuel, fun i hi => Links.getElem?_trail hi, ?_, heq⟩
  -- the last cursor of a way that ends is the one that leads nowhere
  obtain ⟨last, hlast, hnone⟩ := Links.getLast?_trail hend
  exact ⟨last, hlast, Option.map_eq_none_iff.mp hnone⟩

end Server

/-- A payload with the given rows and cursor. -/
def pagePayload (rows : List (List (String × Json))) (cursor : String) : Json :=
  .object [("retCode", .int 0),
    ("result", .object [("list", .array (rows.map .object)), ("nextPageCursor", .string cursor)])]

/-- Two pages, and a cursor that no page has. -/
def twoPages : Option String → Json
  | none => pagePayload [[("symbol", .string "BTCUSDT")]] "page2"
  | some _ => pagePayload [[("symbol", .string "ETHUSDT")]] ""

theorem fetchInstruments_ends_iff_two :
    let run := fun fuel => fetchInstruments (fun _ => "") (fun query => .ok (twoPages query.cursor))
      fuel ⟨"linear", 1000, some "Trading", none⟩ []
    (∃ fuel result, (run fuel).outcome = some result) ∧
      ((run 2).requests.map InstrumentsQuery.cursor).Nodup := by
  have hpage (cursor : Option String) :
      ∃ page, readPage (fun _ => "") "linear" (twoPages cursor) = .ok page ∧
        page.next = match cursor with | none => some "page2" | some _ => none := by
    cases cursor <;> exact ⟨_, rfl, rfl⟩
  choose pages hpages hnext using hpage
  have hfinite : {cursor | ∃ other, (pages other).next = some cursor}.Finite := by
    refine (Set.finite_singleton "page2").subset ?_
    rintro cursor ⟨other, hother⟩
    rw [hnext] at hother
    cases other with
    | none => exact (Option.some.inj hother).symm
    | some _ => cases hother
  obtain ⟨hends, hresult⟩ := @fetchInstruments_ends_iff (fun _ => "") "linear" 1000 (some "Trading")
    twoPages pages hpages hfinite
  exact ⟨⟨2, _, rfl⟩, (hresult 2 _ rfl).1⟩

/-- A page whose cursor leads to itself is requested for ever. -/
theorem fetchInstruments_loops :
    let server : Option String → Json := fun _ => pagePayload [] "A"
    (∀ cursor, WellFormedPage (server cursor)) ∧
      ∀ fuel, (fetchInstruments (fun _ => "") (fun query => .ok (server query.cursor)) fuel
        ⟨"linear", 1000, some "Trading", none⟩ []).outcome = none := by
  refine ⟨fun _ => ⟨_, _, [], rfl, rfl, rfl, by simp, ?_⟩, fun fuel => ?_⟩
  · rintro value rfl
    exact Or.inr ⟨"A", rfl⟩
  · have hpages (cursor : Option String) :
        readPage (fun _ => "") "linear" (pagePayload [] "A") = .ok ⟨[], some "A"⟩ := rfl
    -- the second page is the third one again
    have hrepeats : Links.Repeats (nextCursor fun _ => ⟨[], some "A"⟩) none :=
      ⟨1, 2, some "A", by omega, rfl, rfl⟩
    rw [fetchInstruments_eq hpages, if_neg fun hend => hrepeats.not_ends ⟨fuel, hend⟩]

end BybitMonitor
