import Mathlib
import BybitMonitor.Application
import BybitMonitor.Persistence.Outbox

/-!
# The booking of deliveries

What a delivery leaves in the outbox, when the operations of the database succeed: Telegram may
reply anything, and other tasks may insert rows meanwhile. The handler of a failed send computes
with the delay that Telegram asks for, outside any `try`.

* `TelegramClient.sendMessage_telegram`: what `send_message` raises.
* `watched`: the environment of the worker, with the log of what was asked and replied.
* `AlertDispatcher.deliver_watched`: a delivery books its row and returns, unless it is told to wait
  for a time that is no number.
* `deliveries_booked_iff`: so it is for a delivery and for a batch of due rows.
-/

namespace BybitMonitor

/-- A question with its reply. -/
structure Exchange where
  question : Await
  reply : question.Reply

/-- The world, and the log of the worker. -/
structure Watch where
  world : World
  log : List Exchange := []

/-- Flood control with a delay that is no finite number. -/
def HttpReply.unschedulable : HttpReply → Bool
  | response received =>
      received.statusCode = 429 &&
        match TelegramClient.parseRetryAfter received with
        | .ok (some seconds) => !seconds.isFinite
        | _ => false
  | _ => false

/-- An exception that carries such a delay. -/
def Raised.unschedulable : Raised → Bool
  | telegramSendError _ (some seconds) => !seconds.isFinite
  | _ => false

/-- A reply of Telegram with such a delay. -/
def Exchange.floods : Exchange → Bool
  | ⟨.post _, reply⟩ => HttpReply.unschedulable reply
  | _ => false

/-- Telegram has asked for a delay that is no finite number. -/
def Flooded (log : List Exchange) : Prop := ∃ exchange ∈ log, exchange.floods = true

/-- Database operations succeed, and a request ends in a response or an error. -/
def Await.Succeeds : (question : Await) → question.Reply → Prop
  | .store _, reply => ∃ result, reply = .ok result
  | .post _, reply => ∀ exc, reply = .raised exc → exc.isException = true
  | _, _ => True

/-- What other tasks do to the outbox: they insert rows, under new ids. -/
structure World.Grows (world world' : World) : Prop where
  outgoing : ∃ added, world'.store.outgoing = world.store.outgoing ++ added
  wellKeyed : world'.store.tables.WellKeyed

/-- The environment of the worker. -/
def watched : Program.Protocol Await Await.Reply Watch where
  Allows _ _ := True
  Moves g question reply g' :=
    g'.log = g.log ++ [⟨question, reply⟩] ∧ question.Succeeds reply ∧
      ∃ between, g.world.Grows between ∧ between.Serves question reply g'.world

/-- What the row of a delivery has become. -/
inductive Booked (row : OutgoingNotification) (log : List Exchange)
    (booked : OutgoingNotification) : Prop
  | sent (hnote : ⟨.note (.delivered row.id row.message), ()⟩ ∈ log)
      (hstatus : booked.status = .sent)
  /-- The send failed for good. -/
  | dead (hnote : ⟨.note (.refused row.id), ()⟩ ∈ log) (hstatus : booked.status = .dead)
  /-- The send failed; `now` is the reading of the clock in the handler. -/
  | retry {now next : ℤ} (hnote : [⟨.note (.failed row.id), ()⟩, ⟨.clock, now⟩] <:+: log)
      (hstatus : booked.status = .retry) (hattempts : booked.attemptCount = row.attemptCount + 1)
      (hnext : booked.nextAttemptAt = some next)
      (hdelay : now + retryDelayFor (row.attemptCount + 1) ≤ next)
      (hleast : now + 10 ≤ now + retryDelayFor (row.attemptCount + 1))

/-- The row was handed to `send_message`, and is booked. -/
structure RowSettled (row : OutgoingNotification) (g : Watch) : Prop where
  attempted : ⟨.note (.delivering row.id row.message), ()⟩ ∈ g.log
  booked : ∃ booked ∈ g.world.store.outgoing, booked.id = row.id ∧ Booked row g.log booked

/-- The delivery returned and has booked its row. -/
def DeliveryBooked (row : OutgoingNotification) (outcome : Except Raised Unit) (g : Watch) : Prop :=
  outcome = .ok () ∧ RowSettled row g

/-- `_process_due` returned, and every row that it has read is booked. -/
def BatchBooked (outcome : Except Raised Bool) (g : Watch) : Prop :=
  ∃ processed now rows rest, outcome = .ok processed ∧
    g.log = ⟨.clock, now⟩ :: ⟨.store (.dueNotifications now), .ok rows⟩ :: rest ∧
    ∀ row ∈ rows, RowSettled row g

/-! ## The delays -/

/-- The delays are ten seconds or more. -/
theorem le_retryDelayFor (attempts : ℕ) : 10 ≤ retryDelayFor attempts := by
  cases attempts with
  | zero => decide
  | succ attempts =>
      have hall : ∀ i < retryDelays.length, 10 ≤ retryDelays.getD i 3600 := by decide
      refine hall _ (Nat.lt_of_le_of_lt (Nat.min_le_right _ _) ?_)
      decide

/-- The delay of a failed send, unless it cannot be computed. -/
theorem AlertDispatcher.retryDelay_cases (row : OutgoingNotification) (exc : Raised) :
    (exc.unschedulable = true ∧ ∃ error, retryDelay row exc = .error error ∧
        error.isException = true) ∨
      (exc.unschedulable = false ∧ ∃ delay, retryDelay row exc = .ok delay ∧
        retryDelayFor (row.attemptCount + 1) ≤ delay) := by
  cases exc with
  | telegramSendError message retryAfter =>
      cases retryAfter with
      | none => exact Or.inr ⟨rfl, _, rfl, le_rfl⟩
      | some seconds =>
          cases seconds with
          -- `int` raises on an infinity and on what is no number
          | nan => exact Or.inl ⟨rfl, _, rfl, rfl⟩
          | inf negative => exact Or.inl ⟨rfl, _, rfl, rfl⟩
          | finite x => exact Or.inr ⟨rfl, _, rfl, le_max_left _ _⟩
  | telegramPermanentError message => exact Or.inr ⟨rfl, _, rfl, le_rfl⟩
  | python exc => exact Or.inr ⟨rfl, _, rfl, le_rfl⟩

/-! ## What goes on around a question -/

theorem flooded_append {log : List Exchange} {exchange : Exchange} :
    Flooded (log ++ [exchange]) ↔ Flooded log ∨ exchange.floods = true := by
  simp [Flooded, or_and_right, exists_or]

theorem World.Grows.refl {world : World} (h : world.store.tables.WellKeyed) : world.Grows world :=
  ⟨⟨[], (List.append_nil _).symm⟩, h⟩

theorem World.Grows.trans {a b c : World} (h : a.Grows b) (h' : b.Grows c) : a.Grows c := by
  obtain ⟨added, hadded⟩ := h.outgoing
  obtain ⟨more, hmore⟩ := h'.outgoing
  refine ⟨⟨added ++ more, ?_⟩, h'.wellKeyed⟩
  rw [hmore, hadded, List.append_assoc]

theorem World.Grows.mem {world world' : World} (h : world.Grows world')
    {row : OutgoingNotification} (hrow : row ∈ world.store.outgoing) :
    row ∈ world'.store.outgoing := by
  obtain ⟨added, hadded⟩ := h.outgoing
  rw [hadded]
  exact List.mem_append_left _ hrow

/-- A later watch of the same worker, during which it has changed no row. -/
structure Watch.Follows (g g' : Watch) : Prop where
  log : g.log <+: g'.log
  grows : g.world.Grows g'.world

/-- And Telegram has not asked for an impossible delay since. -/
structure Watch.Passes (g g' : Watch) : Prop extends Watch.Follows g g' where
  flooded : Flooded g'.log ↔ Flooded g.log

theorem Watch.Follows.trans {a b c : Watch} (h : a.Follows b) (h' : b.Follows c) : a.Follows c :=
  ⟨h.log.trans h'.log, h.grows.trans h'.grows⟩

theorem Watch.Follows.refl {g : Watch} (h : g.world.store.tables.WellKeyed) : g.Follows g :=
  ⟨List.prefix_refl _, .refl h⟩

theorem Watch.Passes.trans {a b c : Watch} (h : a.Passes b) (h' : b.Passes c) : a.Passes c :=
  ⟨h.toFollows.trans h'.toFollows, h'.flooded.trans h.flooded⟩

theorem Watch.Passes.refl {g : Watch} (h : g.world.store.tables.WellKeyed) : g.Passes g :=
  ⟨.refl h, Iff.rfl⟩

section

variable {α : Type} {g : Watch} {question : Await}

/-- A question that is no operation of the database. -/
theorem ask_watched {post : Except Raised question.Reply → Watch → Prop}
    (hquestion : ∀ op, question ≠ .store op)
    (hpost : ∀ reply g', question.Succeeds reply → g.Follows g' →
      g'.log = g.log ++ [⟨question, reply⟩] → post (.ok reply) g') :
    (Coroutine.ask question).Meets watched g post := by
  refine ⟨trivial, fun reply g' hmove => ?_⟩
  obtain ⟨hlog, hsucceeds, between, hgrows, hserves⟩ := hmove
  have hstore := hserves.store_eq hquestion
  refine hpost reply g' hsucceeds ⟨hlog ▸ List.prefix_append _ _, ?_, ?_⟩ hlog
  · rw [hstore]
    exact hgrows.outgoing
  · rw [hstore]
    exact hgrows.wellKeyed

/-- A question that Telegram does not answer. -/
theorem pass_watched {post : Except Raised question.Reply → Watch → Prop}
    (hquiet : question.isQuiet = true ∨ ∃ note, question = .note note)
    (hpost : ∀ reply g', g.Passes g' → g'.log = g.log ++ [⟨question, reply⟩] →
      post (.ok reply) g') :
    (Coroutine.ask question).Meets watched g post := by
  have hquestion (op : StoreOp) : question ≠ .store op := by
    rintro rfl
    rcases hquiet with hquiet | ⟨note, hnote⟩
    · cases hquiet
    · cases hnote
  refine ask_watched hquestion fun reply g' _ hfollows hlog => ?_
  refine hpost reply g' ⟨hfollows, ?_⟩ hlog
  rw [hlog, flooded_append, or_iff_left]
  rcases hquiet with hquiet | ⟨note, rfl⟩
  · cases question with
    | post text => cases hquiet
    | _ => exact Bool.false_ne_true
  · exact Bool.false_ne_true

end

/-! ## What `send_message` raises -/

/-- What Telegram replies, and whether it has asked for an impossible delay. -/
def telegram : Program.Protocol Await Await.Reply Bool where
  Allows _ question := ∀ op, question ≠ .store op
  Moves flooded question reply flooded' :=
    question.Succeeds reply ∧ flooded' = (flooded || Exchange.floods ⟨question, reply⟩)

/-- What a part of `send_message` has ended with: it carries an impossible delay if Telegram has
asked for one. -/
def Reports {α : Type} (outcome : Except Raised α) (flooded : Bool) : Prop :=
  match outcome with
  | .ok _ => flooded = false
  | .error e => e.isException = true ∧ e.unschedulable = flooded

namespace TelegramClient

open Program

variable {flooded : Bool}

/-- A computation that raises, if at all, an `Exception`. -/
def RaisesExceptions {α : Type} (x : Except PyExc α) : Prop :=
  ∀ exc, x = .error exc → exc.isException = true

theorem RaisesExceptions.bind {α β : Type} {x : Except PyExc α} {f : α → Except PyExc β}
    (hx : RaisesExceptions x) (hf : ∀ a, RaisesExceptions (f a)) :
    RaisesExceptions (x >>= f) := by
  cases x with
  | ok a => exact hf a
  | error raised =>
      intro exc h
      obtain rfl : raised = exc := Except.error.inj h
      exact hx raised rfl

theorem raisesExceptions_ok {α : Type} (a : α) : RaisesExceptions (.ok a) :=
  fun _ h => nomatch h

theorem raisesExceptions_error {α : Type} {raised : PyExc} (h : raised.isException = true) :
    RaisesExceptions (.error raised : Except PyExc α) :=
  fun _ heq => Except.error.inj heq ▸ h

theorem retryAfterField_raises (body : RawJson) : RaisesExceptions (retryAfterField body) := by
  rw [retryAfterField.eq_def]
  split
  · exact raisesExceptions_ok _
  · split
    · exact raisesExceptions_ok _
    · exact raisesExceptions_ok _
    · exact raisesExceptions_error rfl
  · exact raisesExceptions_error rfl

theorem ofInt_raises (n : ℤ) : RaisesExceptions (PyFloat.ofInt n) := by
  rw [PyFloat.ofInt]
  split
  · exact raisesExceptions_ok _
  · exact raisesExceptions_error rfl

theorem floatOf_raises (value : Json) : RaisesExceptions (floatOf value) := by
  rw [floatOf.eq_def]
  split
  · exact raisesExceptions_ok _
  · exact ofInt_raises _
  · exact raisesExceptions_ok _
  · split
    · exact raisesExceptions_ok _
    · exact raisesExceptions_error rfl
  · exact raisesExceptions_error rfl

/-- A delay that cannot be read raises an `Exception`. -/
theorem parseRetryAfter_raises (response : HttpResponse) :
    RaisesExceptions (parseRetryAfter response) := by
  refine (retryAfterField_raises response.body).bind fun value => ?_
  split
  · exact raisesExceptions_ok _
  · exact (floatOf_raises value).bind fun seconds => raisesExceptions_ok _

/-- A question that Telegram does not answer. -/
theorem ask_telegram {question : Await} {post : Except Raised question.Reply → Bool → Prop}
    (hquiet : question.isQuiet = true) (hpost : ∀ reply, post (.ok reply) flooded) :
    (Coroutine.ask question).Meets telegram flooded post := by
  refine ⟨?_, fun reply flooded' hmove => ?_⟩
  · rintro op rfl
    cases hquiet
  · obtain rfl : flooded' = flooded := by
      rw [hmove.2]
      cases question with
      | post text => cases hquiet
      | _ => exact Bool.or_false flooded
    exact hpost reply

theorem recordFailure_telegram (errorType : String) {post : Except Raised Unit → Bool → Prop}
    (hpost : post (.ok ()) flooded) : (recordFailure errorType).Meets telegram flooded post := by
  refine meets_bind.mpr (ask_telegram rfl fun now => ?_)
  exact ask_telegram rfl fun _ => hpost

/-- A failure is recorded before an exception is raised. -/
theorem recordFailure_throw_telegram {α : Type} (errorType : String) {e : Raised}
    {post : Except Raised α → Bool → Prop} (hpost : post (.error e) flooded) :
    (recordFailure errorType >>= fun _ => throw e).Meets telegram flooded post :=
  meets_bind.mpr (recordFailure_telegram errorType hpost)

/-- The statements on a response pass on an impossible delay. -/
theorem handleResponse_telegram (response : HttpResponse)
    (hflooded : flooded = (HttpReply.response response).unschedulable) :
    (handleResponse response).Meets telegram flooded Reports := by
  have hother (hstatus : response.statusCode ≠ 429) : flooded = false := by
    rw [hflooded, HttpReply.unschedulable, decide_eq_false hstatus, Bool.false_and]
  rw [handleResponse]
  split_ifs with h429 h500 h400
  · have hdelay : flooded = match parseRetryAfter response with
        | .ok (some seconds) => !seconds.isFinite
        | _ => false := by
      rw [hflooded, HttpReply.unschedulable, decide_eq_true h429, Bool.true_and]
    rw [hdelay]
    refine meets_bind.mpr ?_
    cases hparse : parseRetryAfter response with
    | error exc => exact ⟨parseRetryAfter_raises response exc hparse, rfl⟩
    | ok retryAfter =>
        refine recordFailure_throw_telegram _ ⟨rfl, ?_⟩
        cases retryAfter <;> rfl
  · exact hother h429
  · exact recordFailure_throw_telegram _ ⟨rfl, (hother h429).symm⟩
  · rw [hother h429]
    refine meets_bind.mpr ?_
    cases response.body with
    | none => exact ⟨rfl, rfl⟩
    | some value =>
        cases value with
        | object fields =>
            show Meets _ (ite _ _ _) _ _
            split_ifs with hok
            · refine meets_bind.mpr (ask_telegram rfl fun now => ?_)
              exact meets_bind.mpr (ask_telegram rfl fun _ => rfl)
            · exact recordFailure_throw_telegram _ ⟨rfl, rfl⟩
        | _ => exact ⟨rfl, rfl⟩

/-- One request. -/
theorem requestChunk_telegram (text : String) :
    (requestChunk text).Meets telegram false Reports := by
  refine meets_bind.mpr ⟨nofun, fun reply flooded hmove => ?_⟩
  obtain ⟨hsucceeds, hflooded⟩ := hmove
  have hreply : flooded = HttpReply.unschedulable reply := hflooded.trans (Bool.false_or _)
  cases reply with
  | httpError name => exact hreply
  | raised exc => exact ⟨hsucceeds exc rfl, hreply.symm⟩
  | response response => exact handleResponse_telegram response hreply

/-- The attempts for a chunk. -/
theorem sendChunkFrom_telegram (text : String) (left : ℕ) :
    ∀ attempt, (sendChunkFrom text attempt left).Meets telegram false Reports := by
  induction left with
  | zero =>
      intro attempt
      refine meets_bind.mpr ((requestChunk_telegram text).mono fun outcome flooded hreport => ?_)
      cases outcome with
      | error e => exact hreport
      | ok retried =>
          cases retried with
          | none => exact hreport
          | some name =>
              -- the retries are used up
              obtain rfl : flooded = false := hreport
              refine meets_bind.mpr (recordFailure_telegram _ ?_)
              exact recordFailure_throw_telegram _ ⟨rfl, rfl⟩
  | succ left ih =>
      intro attempt
      refine meets_bind.mpr ((requestChunk_telegram text).mono fun outcome flooded hreport => ?_)
      cases outcome with
      | error e => exact hreport
      | ok retried =>
          cases retried with
          | none => exact hreport
          | some name =>
              obtain rfl : flooded = false := hreport
              refine meets_bind.mpr (recordFailure_telegram _ (meets_bind.mpr ?_))
              cases hpower : PyFloat.ofInt (2 ^ (attempt + 1)) with
              | error exc => exact ⟨ofInt_raises _ exc hpower, rfl⟩
              | ok power => exact meets_bind.mpr (ask_telegram rfl fun _ => ih (attempt + 1))

/-- The chunks of a message, up to the first that is not accepted. -/
theorem sendMessage_telegram (config : Settings) (text : String) :
    (sendMessage config text).Meets telegram false Reports := by
  refine meets_forM (fun _ flooded => flooded = false) ?_ (fun _ h => h) rfl
  rintro chunk rest flooded rfl
  refine (sendChunkFrom_telegram chunk _ 0).mono fun outcome flooded hreport => ?_
  cases outcome with
  | ok _ => exact hreport
  | error e => exact hreport

/-- `sendMessage_telegram` in the environment of the worker. -/
theorem sendMessage_watched {g : Watch} (config : Settings) (text : String)
    (hkeyed : g.world.store.tables.WellKeyed) (hcalm : ¬ Flooded g.log) :
    (sendMessage config text).Meets watched g fun outcome g' => g.Follows g' ∧
      ∃ flooded, Reports outcome flooded ∧ (flooded = true ↔ Flooded g'.log) := by
  have hstart : g.Follows g ∧ (false = true ↔ Flooded g.log) :=
    ⟨.refl hkeyed, iff_of_false Bool.false_ne_true hcalm⟩
  refine (sendMessage_telegram config text).along
    (S := fun flooded g' => g.Follows g' ∧ (flooded = true ↔ Flooded g'.log)) hstart
    (fun _ _ _ _ _ => trivial) ?_ fun outcome flooded g' hrel hreport =>
      ⟨hrel.1, flooded, hreport, hrel.2⟩
  rintro flooded g₁ question reply g₂ ⟨hfollows, hflooded⟩ hquestion
    ⟨hlog, hsucceeds, between, hgrows, hserves⟩
  have hstore := hserves.store_eq hquestion
  refine ⟨_, ⟨hsucceeds, rfl⟩, hfollows.trans ⟨hlog ▸ List.prefix_append _ _, ?_, ?_⟩, ?_⟩
  · rw [hstore]
    exact hgrows.outgoing
  · rw [hstore]
    exact hgrows.wellKeyed
  · rw [hlog, flooded_append, Bool.or_eq_true, hflooded]

end TelegramClient

/-! ## The update of a row -/

/-- A later watch, during which the worker has written `booked` for the row. -/
structure Watch.Updates (row booked : OutgoingNotification) (g g' : Watch) : Prop where
  log : g.log <+: g'.log
  flooded : Flooded g'.log ↔ Flooded g.log
  wellKeyed : g'.world.store.tables.WellKeyed
  mem : booked ∈ g'.world.store.outgoing
  others : ∀ other ∈ g.world.store.outgoing, other.id ≠ row.id →
    other ∈ g'.world.store.outgoing

/-- An operation that updates a row of the outbox. -/
theorem update_watched {g : Watch} {op : StoreOp} {row : OutgoingNotification}
    {f : OutgoingNotification → OutgoingNotification} (hrow : row ∈ g.world.store.outgoing)
    (hnotice : ∀ old : OutgoingNotification, old.SameNotice (f old))
    (hdoes : ∀ store result store', op.Does store result store' →
      store'.tables = (store.updateOutgoing row.id f).tables)
    {post : Except Raised op.Result → Watch → Prop}
    (hpost : ∀ result g', g.Updates row (f row) g' → post (.ok result) g') :
    (Coroutine.store op).Meets watched g post := by
  refine Coroutine.meets_store.mpr ⟨trivial, fun reply g' hmove => ?_⟩
  obtain ⟨hlog, ⟨result, rfl⟩, between, hgrows, hserves⟩ := hmove
  rcases hserves.does with ⟨exc, herror, -⟩ | ⟨done, hok, hdone, -⟩
  · cases herror
  · obtain rfl := Except.ok.inj hok
    have htables := hdoes _ _ _ hdone
    have hmem (new : OutgoingNotification) : new ∈ g'.world.store.outgoing ↔
        new ∈ (between.store.updateOutgoing row.id f).outgoing := by
      rw [Store.outgoing, htables]
      exact Iff.rfl
    refine hpost result g' ⟨hlog ▸ List.prefix_append _ _, ?_, ?_, ?_, ?_⟩
    · rw [hlog, flooded_append, or_iff_left]
      exact Bool.false_ne_true
    · rw [htables]
      refine Store.wellKeyed_mapOutgoing (fun old => ?_) hgrows.wellKeyed
      split
      · exact hnotice old
      · exact .refl old
    · exact (hmem _).mpr (Store.mem_mapOutgoing.mpr ⟨row, hgrows.mem hrow, if_pos rfl⟩)
    · -- the other rows are not touched
      intro other hother hne
      exact (hmem _).mpr (Store.mem_mapOutgoing.mpr ⟨other, hgrows.mem hother, if_neg hne⟩)

/-! ## The delivery of a row -/

/-- What a delivery has done. -/
structure Delivers (row : OutgoingNotification) (g : Watch) (outcome : Except Raised Unit)
    (g' : Watch) : Prop where
  log : g.log <+: g'.log
  wellKeyed : g'.world.store.tables.WellKeyed
  others : ∀ other ∈ g.world.store.outgoing, other.id ≠ row.id →
    other ∈ g'.world.store.outgoing
  /-- It has settled its row, or was asked for an impossible delay and has raised. -/
  ends : (outcome = .ok () ∧ ¬ Flooded g'.log ∧ RowSettled row g') ∨
    (outcome ≠ .ok () ∧ Flooded g'.log)

namespace AlertDispatcher

open Program

variable {g g₁ : Watch} {row : OutgoingNotification}

/-- An update after what the delivery has done before. -/
theorem Delivers.of_update {booked : OutgoingNotification} {g' : Watch} (hfollows : g.Follows g₁)
    (hcalm : ¬ Flooded g₁.log) (hupdates : g₁.Updates row booked g')
    (hattempted : ⟨.note (.delivering row.id row.message), ()⟩ ∈ g₁.log)
    (hid : booked.id = row.id) (hbooked : Booked row g'.log booked) :
    Delivers row g (.ok ()) g' where
  log := hfollows.log.trans hupdates.log
  wellKeyed := hupdates.wellKeyed
  others other hother hne := hupdates.others other (hfollows.grows.mem hother) hne
  ends := Or.inl ⟨rfl, fun h => hcalm (hupdates.flooded.mp h),
    hupdates.log.subset hattempted, booked, hupdates.mem, hid, hbooked⟩

/-- The bookkeeping after a delivery. -/
theorem confirm_watched (hrow : row ∈ g.world.store.outgoing) (hfollows : g.Follows g₁)
    (hcalm : ¬ Flooded g₁.log)
    (hattempted : ⟨.note (.delivering row.id row.message), ()⟩ ∈ g₁.log)
    (hdelivered : ⟨.note (.delivered row.id row.message), ()⟩ ∈ g₁.log) :
    (confirm row).Meets watched g₁ fun outcome g' =>
      outcome = .ok () ∧ Delivers row g (.ok ()) g' := by
  have hsent {op : StoreOp} {g₂ : Watch} (now : ℤ) (hclock : g₁.Passes g₂)
      (hdoes : ∀ store result store', op.Does store result store' →
        store'.tables = (store.markNotificationSent row.id now).tables)
      {post : Except Raised op.Result → Watch → Prop}
      (hpost : ∀ result g', Delivers row g (.ok ()) g' → post (.ok result) g') :
      (Coroutine.store op).Meets watched g₂ post := by
    have hbefore := hfollows.trans hclock.toFollows
    refine update_watched (f := fun old => { old with status := .sent, sentAt := some now })
      (hbefore.grows.mem hrow) (fun _ => ⟨rfl, rfl, rfl, rfl, rfl, rfl, rfl⟩) hdoes
      fun result g' hupdates => hpost result g' ?_
    refine Delivers.of_update hbefore (fun h => hcalm (hclock.flooded.mp h)) hupdates
      (hclock.log.subset hattempted) rfl (.sent ?_ rfl)
    exact hupdates.log.subset (hclock.log.subset hdelivered)
  rw [confirm]
  cases row.listingKey with
  | none =>
      refine meets_bind.mpr (pass_watched (Or.inl rfl) fun now g₂ hclock _ => ?_)
      refine hsent now hclock (fun store result store' hdoes => ?_) fun _ _ h => ⟨rfl, h⟩
      exact congrArg Store.tables (show store' = store.markNotificationSent row.id now from hdoes)
  | some eventKey =>
      refine meets_bind.mpr (pass_watched (Or.inl rfl) fun now g₂ hclock _ => ?_)
      refine hsent now hclock (fun store result store' hdoes => ?_) fun _ _ h => ⟨rfl, h⟩
      -- the flag of the listing event is in another table
      rw [show store' = (store.markNotificationSent row.id now).markListingSent eventKey from hdoes]
      rfl

/-- The branch of a permanent error. -/
theorem bury_watched (exc : Raised) (hrow : row ∈ g.world.store.outgoing)
    (hfollows : g.Follows g₁) (hcalm : ¬ Flooded g₁.log)
    (hattempted : ⟨.note (.delivering row.id row.message), ()⟩ ∈ g₁.log) :
    (bury row exc).Meets watched g₁ (Delivers row g) := by
  refine meets_bind.mpr (pass_watched (Or.inr ⟨_, rfl⟩) fun _ g₂ hnoted hlog => ?_)
  have hbefore := hfollows.trans hnoted.toFollows
  refine @update_watched g₂ (.markNotificationDead row.id exc.describe) row
    (fun old => { old with status := .dead, error := some (Store.errorText exc.describe) })
    (hbefore.grows.mem hrow) (fun _ => ⟨rfl, rfl, rfl, rfl, rfl, rfl, rfl⟩)
    (fun store result store' hdoes => congrArg Store.tables
      (show store' = store.markNotificationDead row.id exc.describe from hdoes))
    _ fun result g' hupdates => ?_
  refine Delivers.of_update hbefore (fun h => hcalm (hnoted.flooded.mp h)) hupdates
    (hnoted.log.subset hattempted) rfl (.dead (hupdates.log.subset ?_) rfl)
  rw [hlog]
  exact List.mem_append_right _ (List.mem_singleton_self _)

/-- The branch of any other exception: the delay is computed before anything is booked. -/
theorem reschedule_watched (exc : Raised) (hrow : row ∈ g.world.store.outgoing)
    (hfollows : g.Follows g₁) (hflooded : exc.unschedulable = true ↔ Flooded g₁.log)
    (hattempted : ⟨.note (.delivering row.id row.message), ()⟩ ∈ g₁.log) :
    (reschedule row exc).Meets watched g₁ (Delivers row g) := by
  refine meets_bind.mpr (pass_watched (Or.inr ⟨_, rfl⟩) fun _ g₂ hnoted hlog => ?_)
  have hbefore := hfollows.trans hnoted.toFollows
  refine meets_bind.mpr ?_
  rcases retryDelay_cases row exc with ⟨hbad, error, herror, -⟩ | ⟨hgood, delay, hdelay, hle⟩
  · rw [herror]
    refine ⟨hbefore.log, hbefore.grows.wellKeyed, fun other hother _ => hbefore.grows.mem hother,
      Or.inr ⟨nofun, ?_⟩⟩
    exact hnoted.flooded.mpr (hflooded.mp hbad)
  · rw [hdelay]
    have hcalm : ¬ Flooded g₁.log := by
      rw [← hflooded, hgood]
      exact Bool.false_ne_true
    refine meets_bind.mpr (pass_watched (Or.inl rfl) fun now g₃ hnow hlog' => ?_)
    refine meets_bind.mpr (pass_watched (Or.inl rfl) fun attemptAt g₄ hattempt _ => ?_)
    have hpasses := (hnoted.trans hnow).trans hattempt
    have hupto := hfollows.trans hpasses.toFollows
    refine @update_watched g₄
      (.markNotificationRetry row.id exc.describe (now + delay) attemptAt) row
      (fun old => { old with
        status := .retry
        error := some (Store.errorText exc.describe)
        attemptCount := old.attemptCount + 1
        lastAttemptAt := some attemptAt
        nextAttemptAt := some (now + delay) })
      (hupto.grows.mem hrow) (fun _ => ⟨rfl, rfl, rfl, rfl, rfl, rfl, rfl⟩)
      (fun store result store' hdoes => congrArg Store.tables (show store' =
        store.markNotificationRetry row.id exc.describe (now + delay) attemptAt from hdoes))
      _ fun result g' hupdates => ?_
    refine Delivers.of_update hupto (fun h => hcalm (hpasses.flooded.mp h)) hupdates
      (hpasses.log.subset hattempted) rfl
      (@Booked.retry row _ _ now _ ?_ rfl rfl rfl ?_ ?_)
    · -- the handler reads the clock right after it was entered
      have hhere : [⟨.note (.failed row.id), ()⟩, ⟨.clock, now⟩] <:+: g₃.log :=
        ⟨g₁.log, [], by rw [hlog', hlog]; simp⟩
      exact hhere.trans (hattempt.log.trans hupdates.log).isInfix
    · exact Int.add_le_add_left hle now
    · exact Int.add_le_add_left (le_retryDelayFor _) now

/-- How the `try` of a delivery ends. -/
inductive Tried (row : OutgoingNotification) (g : Watch) : Except Raised Unit → Watch → Prop
  | returned {g₁ : Watch} (hdelivers : Delivers row g (.ok ()) g₁) : Tried row g (.ok ()) g₁
  | raised {e : Raised} {g₁ : Watch} (hfollows : g.Follows g₁) (hexception : e.isException = true)
      (hflooded : e.unschedulable = true ↔ Flooded g₁.log)
      (hattempted : ⟨.note (.delivering row.id row.message), ()⟩ ∈ g₁.log) :
      Tried row g (.error e) g₁

/-- The handlers of a delivery book what its `try` has raised. -/
theorem handler_watched {e : Raised} (hrow : row ∈ g.world.store.outgoing)
    (h : Tried row g (.error e) g₁) :
    (match e with
      | .telegramPermanentError _ => bury row e
      | _ => if e.isException then reschedule row e else throw e).Meets watched g₁
      (Delivers row g) := by
  cases h with
  | raised hfollows hexception hflooded hattempted =>
      cases e with
      | telegramPermanentError message =>
          refine bury_watched _ hrow hfollows (fun h => ?_) hattempted
          cases hflooded.mpr h
      | telegramSendError message retryAfter =>
          exact reschedule_watched _ hrow hfollows hflooded hattempted
      | python exc =>
          show (ite _ _ _ : Coroutine Unit).Meets _ _ _
          rw [if_pos hexception]
          exact reschedule_watched _ hrow hfollows hflooded hattempted

/-- A delivery settles its row and returns, unless Telegram asks for a delay that is no finite
number. -/
theorem deliver_watched (config : Settings) (hrow : row ∈ g.world.store.outgoing)
    (hcalm : ¬ Flooded g.log) :
    (deliver config row).Meets watched g (Delivers row g) := by
  refine meets_tryCatch.mpr (Meets.mono (show Meets _ _ _ (Tried row g) from ?_) ?_)
  · refine meets_bind.mpr (pass_watched (Or.inr ⟨_, rfl⟩) fun _ g₁ hnoted hlog => ?_)
    have hattempted : ⟨.note (.delivering row.id row.message), ()⟩ ∈ g₁.log := by
      rw [hlog]
      exact List.mem_append_right _ (List.mem_singleton_self _)
    refine meets_bind.mpr ((TelegramClient.sendMessage_watched config row.message
      hnoted.grows.wellKeyed fun h => hcalm (hnoted.flooded.mp h)).mono fun outcome g₂ h => ?_)
    obtain ⟨hfollows, flooded, hreport, hflooded⟩ := h
    have hbefore := hnoted.toFollows.trans hfollows
    cases outcome with
    | error e =>
        refine .raised hbefore hreport.1 ?_ (hfollows.log.subset hattempted)
        rw [hreport.2, hflooded]
    | ok _ =>
        have hcalm' : ¬ Flooded g₂.log := by
          rw [← hflooded, show flooded = false from hreport]
          exact Bool.false_ne_true
        refine meets_bind.mpr (pass_watched (Or.inr ⟨_, rfl⟩) fun _ g₃ hdelivered hlog' => ?_)
        refine (confirm_watched hrow (hbefore.trans hdelivered.toFollows)
          (fun h => hcalm' (hdelivered.flooded.mp h)) ?_ ?_).mono fun outcome g' h => ?_
        · exact hdelivered.log.subset (hfollows.log.subset hattempted)
        · rw [hlog']
          exact List.mem_append_right _ (List.mem_singleton_self _)
        · obtain ⟨rfl, hdelivers⟩ := h
          exact .returned hdelivers
  · intro outcome g₁ htried
    cases outcome with
    | ok _ =>
        cases htried with
        | returned hdelivers => exact hdelivers
    | error e => exact handler_watched hrow htried

/-! ## A batch of due rows -/

/-- The rows of a query are rows of the outbox, each once. -/
theorem dueNotifications_rows {store : Store} (hkeyed : store.tables.WellKeyed) (now : ℤ) :
    (∀ row ∈ store.dueNotifications now, row ∈ store.outgoing) ∧
      (store.dueNotifications now).Pairwise fun row later => row.id ≠ later.id := by
  have hsub : (store.dueNotifications now).Sublist store.outgoing :=
    (List.take_sublist _ _).trans List.filter_sublist
  exact ⟨fun row hrow => hsub.subset hrow,
    (hkeyed.ids_increase.sublist hsub).imp fun hlt => Nat.ne_of_lt hlt⟩

/-- What the loop of `_process_due` keeps, with `rest` before it. -/
structure Batch (before : List Exchange) (rows rest : List OutgoingNotification) (g : Watch) :
    Prop where
  log : before <+: g.log
  calm : ¬ Flooded g.log
  wellKeyed : g.world.store.tables.WellKeyed
  waiting : ∀ row ∈ rest, row ∈ g.world.store.outgoing
  distinct : rest.Pairwise fun row later => row.id ≠ later.id
  /-- The rows before are settled and are not touched again. -/
  settled : ∀ row ∈ rows, row ∈ rest ∨ (RowSettled row g ∧ ∀ later ∈ rest, row.id ≠ later.id)

/-- One delivery of the loop. -/
theorem Batch.next {before : List Exchange} {rows rest : List OutgoingNotification} {g' : Watch}
    (h : Batch before rows (row :: rest) g) (hdelivers : Delivers row g (.ok ()) g') :
    Batch before rows rest g' := by
  obtain ⟨hfirst, hdistinct⟩ := List.pairwise_cons.mp h.distinct
  obtain ⟨hcalm, hsettled⟩ : ¬ Flooded g'.log ∧ RowSettled row g' := by
    rcases hdelivers.ends with ⟨-, hcalm, hsettled⟩ | ⟨hraised, -⟩
    · exact ⟨hcalm, hsettled⟩
    · exact absurd rfl hraised
  refine ⟨h.log.trans hdelivers.log, hcalm, hdelivers.wellKeyed, ?_, hdistinct, ?_⟩
  · intro later hlater
    exact hdelivers.others later (h.waiting later (List.mem_cons_of_mem _ hlater))
      (hfirst later hlater).symm
  · intro other hother
    rcases h.settled other hother with hwaiting | ⟨⟨hattempted, booked, hmem, hid, hbooked⟩, hapart⟩
    · rcases List.mem_cons.mp hwaiting with rfl | hrest
      · exact Or.inr ⟨hsettled, hfirst⟩
      · exact Or.inl hrest
    · -- an earlier row stays as it was booked
      refine Or.inr ⟨⟨hdelivers.log.subset hattempted, booked, ?_, hid, ?_⟩,
        fun later hlater => hapart later (List.mem_cons_of_mem _ hlater)⟩
      · refine hdelivers.others booked hmem ?_
        rw [hid]
        exact hapart row List.mem_cons_self
      · cases hbooked with
        | sent hnote hstatus => exact .sent (hdelivers.log.subset hnote) hstatus
        | dead hnote hstatus => exact .dead (hdelivers.log.subset hnote) hstatus
        | retry hnote hstatus hattempts hnext hdelay hleast =>
            exact .retry (hnote.trans hdelivers.log.isInfix) hstatus hattempts hnext hdelay hleast

/-- A batch settles all its rows and returns, unless Telegram asks for a delay that is no finite
number. -/
theorem processDue_watched (config : Settings) {world : World} :
    (processDue config).Meets watched ⟨world, []⟩ fun outcome g =>
      (BatchBooked outcome g ∧ ¬ Flooded g.log) ∨
        ((∀ processed, outcome ≠ .ok processed) ∧ Flooded g.log) := by
  refine meets_bind.mpr (pass_watched (Or.inl rfl) fun now g₁ hclock hlog => ?_)
  refine meets_bind.mpr (Coroutine.meets_store.mpr ⟨trivial, fun reply g₂ hmove => ?_⟩)
  obtain ⟨hlog', ⟨rows, rfl⟩, between, hgrows, hserves⟩ := hmove
  rcases hserves.does with ⟨exc, herror, -⟩ | ⟨result, hok, ⟨hrows, hstore⟩, -⟩
  · cases herror
  obtain rfl : rows = result := Except.ok.inj hok
  obtain ⟨hmem, hdistinct⟩ := dueNotifications_rows hgrows.wellKeyed now
  rw [← hrows] at hmem hdistinct
  set before : List Exchange :=
    [⟨.clock, now⟩, ⟨.store (.dueNotifications now), .ok rows⟩] with hbefore
  have hstart : Batch before rows rows g₂ := by
    have hall : g₂.log = before := by rw [hlog', hlog, hbefore]; rfl
    refine ⟨hall ▸ List.prefix_refl _, ?_, ?_, ?_, hdistinct, fun row hrow => Or.inl hrow⟩
    · rw [hall]
      rintro ⟨exchange, hexchange, hfloods⟩
      rcases List.mem_cons.mp hexchange with rfl | hlast
      · cases hfloods
      · rw [List.mem_singleton.mp hlast] at hfloods
        cases hfloods
    · rw [hstore]
      exact hgrows.wellKeyed
    · rw [hstore]
      exact hmem
  -- the loop has its rows before it; a delivery that raises ends it
  refine meets_bind.mpr (meets_forM (Batch before rows) ?_ ?_ hstart)
  · intro row rest g hbatch
    refine (deliver_watched config (hbatch.waiting row List.mem_cons_self) hbatch.calm).mono
      fun outcome g' hdelivers => ?_
    cases outcome with
    | ok _ => exact hbatch.next hdelivers
    | error e =>
        rcases hdelivers.ends with ⟨hreturned, -⟩ | ⟨-, hflooded⟩
        · cases hreturned
        · exact Or.inr ⟨nofun, hflooded⟩
  · intro g hend
    obtain ⟨rest, hrest⟩ := hend.log
    refine Or.inl ⟨⟨_, now, rows, rest, rfl, hrest.symm, fun row hrow => ?_⟩, hend.calm⟩
    rcases hend.settled row hrow with hnone | ⟨hsettled, -⟩
    · cases hnone
    · exact hsettled

end AlertDispatcher

/-- A delivery returns and books its row exactly if Telegram does not ask for a delay that is no
finite number, and so does a batch for every row that it has read. -/
theorem deliveries_booked_iff (config : Settings) (world : World) :
    (∀ row ∈ world.store.outgoing,
      (AlertDispatcher.deliver config row).Meets watched ⟨world, []⟩ fun outcome g =>
        DeliveryBooked row outcome g ↔ ¬ Flooded g.log) ∧
      (AlertDispatcher.processDue config).Meets watched ⟨world, []⟩ fun outcome g =>
        BatchBooked outcome g ↔ ¬ Flooded g.log := by
  constructor
  · intro row hrow
    have hcalm : ¬ Flooded ([] : List Exchange) := by simp [Flooded]
    refine (AlertDispatcher.deliver_watched config (g := ⟨world, []⟩) hrow hcalm).mono
      fun outcome g h => ?_
    rcases h.ends with ⟨hreturned, hcalm', hsettled⟩ | ⟨hraised, hflooded⟩
    · exact iff_of_true ⟨hreturned, hsettled⟩ hcalm'
    · exact iff_of_false (fun hbooked => hraised hbooked.1) (not_not.mpr hflooded)
  · refine (AlertDispatcher.processDue_watched config).mono fun outcome g h => ?_
    rcases h with ⟨hbooked, hcalm⟩ | ⟨hraised, hflooded⟩
    · exact iff_of_true hbooked hcalm
    · refine iff_of_false (fun hbooked => ?_) (not_not.mpr hflooded)
      obtain ⟨processed, now, rows, rest, hreturned, -⟩ := hbooked
      exact hraised processed hreturned

/-- Two rows that are due. -/
def twoDue : World where
  store := { tables := {
    outgoing := [{ id := 1, messageTag := "alert", message := "first", createdAt := 0 },
      { id := 2, messageTag := "alert", message := "second", createdAt := 0 }]
    outgoingSequence := 2 } }

theorem twoDue_wellKeyed : twoDue.store.tables.WellKeyed :=
  ⟨by decide, by decide, by decide⟩

/-- Flood control with an infinite delay. -/
def infiniteDelay : HttpReply := .response ⟨429, none, some "inf"⟩

/-- The first row of two ends the batch, unbooked, when Telegram asks for an infinite delay. -/
theorem deliveries_booked_flooded :
    ¬ ∀ (config : Settings) (world : World),
      (∀ row ∈ world.store.outgoing,
        (AlertDispatcher.deliver config row).Meets watched ⟨world, []⟩ fun outcome g =>
          DeliveryBooked row outcome g) ∧
        (AlertDispatcher.processDue config).Meets watched ⟨world, []⟩ fun outcome g =>
          BatchBooked outcome g := by
  intro h
  have hself := World.Grows.refl twoDue_wellKeyed
  -- the questions of the worker, one after the other
  obtain ⟨-, hbatch⟩ := h AdmittedSettings.default.toSettings twoDue
  obtain ⟨-, hbatch⟩ := hbatch
  replace hbatch := hbatch (100 : ℤ) ⟨twoDue, _⟩ ⟨rfl, trivial, twoDue, hself, rfl⟩
  obtain ⟨-, hbatch⟩ := hbatch
  replace hbatch := hbatch (.ok (twoDue.store.dueNotifications 100)) ⟨twoDue, _⟩
    ⟨rfl, ⟨_, rfl⟩, twoDue, hself, {}, _, rfl, rfl⟩
  obtain ⟨-, hbatch⟩ := hbatch
  replace hbatch := hbatch () ⟨twoDue, _⟩ ⟨rfl, trivial, twoDue, hself, rfl⟩
  obtain ⟨-, hbatch⟩ := hbatch
  replace hbatch := hbatch infiniteDelay ⟨twoDue, _⟩ ⟨rfl, nofun, twoDue, hself, rfl⟩
  -- the handler of the client records the failure, and the handler of the dispatcher is entered
  obtain ⟨-, hbatch⟩ := hbatch
  replace hbatch := hbatch (100 : ℤ) ⟨twoDue, _⟩ ⟨rfl, trivial, twoDue, hself, rfl⟩
  obtain ⟨-, hbatch⟩ := hbatch
  replace hbatch := hbatch () ⟨_, _⟩ ⟨rfl, trivial, twoDue, hself, rfl⟩
  obtain ⟨-, hbatch⟩ := hbatch
  replace hbatch := hbatch () ⟨_, _⟩ ⟨rfl, trivial, _, .refl twoDue_wellKeyed, rfl⟩
  obtain ⟨processed, now, rows, rest, hreturned, -⟩ := hbatch
  cases hreturned

end BybitMonitor
