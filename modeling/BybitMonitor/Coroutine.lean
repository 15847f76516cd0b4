import Mathlib
import BybitMonitor.Python.Json
import BybitMonitor.Python.Number
import BybitMonitor.Persistence.Store
import BybitMonitor.ToMathlib.Program

/-!
# Coroutines

A coroutine of the application is a program that asks the event loop: for the clock, for a request
to Telegram, for an operation of the database. Whatever else the application does happens between
two questions. A coroutine that is cancelled or whose process dies is dropped where it stands.

* `Coroutine.meets_store`: the protocol of a database operation, which may raise.
-/

namespace BybitMonitor

/-- A response of the Bot API: the status, the body as `response.json()` reads it, and the header
`Retry-After`. -/
structure HttpResponse where
  statusCode : ℕ
  body : RawJson
  retryAfter : Option String := none
  deriving Repr

/-- What a request ends with. -/
inductive HttpReply
  | response (response : HttpResponse)
  /-- A subclass of `httpx.HTTPError`. -/
  | httpError (name : String)
  /-- Any other exception. -/
  | raised (exc : PyExc)

/-- What a coroutine may raise. -/
inductive Raised
  | python (exc : PyExc)
  | telegramSendError (message : String) (retryAfter : Option PyFloat)
  | telegramPermanentError (message : String)
  deriving DecidableEq, Repr

/-- `f"{type(exc).__name__}: {exc}"`, without the text of an exception that carries none. -/
def PyExc.describe : PyExc → String
  | valueError message => "ValueError: " ++ message
  | overflowError message => "OverflowError: " ++ message
  | osError message => "OSError: " ++ message
  | zeroDivisionError => "ZeroDivisionError: "
  | typeError message => "TypeError: " ++ message
  | attributeError message => "AttributeError: " ++ message
  | runtimeError message => "RuntimeError: " ++ message
  | jsonDecodeError => "JSONDecodeError: "
  | integrityError => "IntegrityError: "
  | databaseError => "DatabaseError: "
  | connectionError => "ConnectionClosed: "
  | bybitError => "BybitError: "
  | subscriptionAckError message => "SubscriptionAckError: " ++ message
  | cancelledError => "CancelledError: "
  | other name => name ++ ": "

/-- `f"{type(exc).__name__}: {exc}"`. -/
def Raised.describe : Raised → String
  | python exc => exc.describe
  | telegramSendError message _ => "TelegramSendError: " ++ message
  | telegramPermanentError message => "TelegramPermanentError: " ++ message

/-- Whether `except Exception` catches it. -/
def Raised.isException : Raised → Bool
  | python exc => exc.isException
  | _ => true

/-- What the client and the worker keep in memory for the health monitor. -/
inductive DeliveryFact
  | sendSucceeded (time : ℤ)
  | sendFailed (time : ℤ) (errorType : String)
  | loopFailed (time : ℤ)
  | loopCompleted (time : ℤ)
  deriving DecidableEq, Repr

/-- The places of `_deliver` that a run is observed at. -/
inductive DeliveryNote
  /-- The row is handed to `send_message`. -/
  | delivering (id : ℕ) (message : String)
  /-- `send_message` has returned. -/
  | delivered (id : ℕ) (message : String)
  /-- The branch of `TelegramPermanentError` is entered. -/
  | refused (id : ℕ)
  /-- The branch of any other exception is entered. -/
  | failed (id : ℕ)
  deriving DecidableEq, Repr

/-- What a coroutine asks. -/
inductive Await
  /-- `int(time.time())`. -/
  | clock
  | note (note : DeliveryNote)
  /-- `POST .../sendMessage`. -/
  | post (text : String)
  | remember (fact : DeliveryFact)
  /-- `asyncio.sleep`. -/
  | sleep
  /-- `self._stop.is_set()`. -/
  | stopIsSet
  /-- `self._wake.wait()` with the poll interval as timeout. -/
  | wake
  | store (op : StoreOp)

/-- The reply to a question. -/
abbrev Await.Reply : Await → Type
  | clock => ℤ
  | note _ => Unit
  | post _ => HttpReply
  | remember _ => Unit
  | sleep => Unit
  | stopIsSet => Bool
  | wake => Unit
  | store op => Except PyExc op.Result

/-- A coroutine. -/
abbrev Coroutine (α : Type) : Type := Program Await Await.Reply Raised α

namespace Coroutine

variable {α γ : Type}

/-- Raise what is not caught before. -/
def ofExcept (x : Except PyExc α) : Coroutine α := Program.lift (x.mapError Raised.python)

/-- Ask one question. -/
def ask (question : Await) : Coroutine question.Reply := Program.perform question

/-- Await an operation of the database. -/
def store (op : StoreOp) : Coroutine op.Result := do
  ofExcept (← ask (.store op))

/-- An operation is asked once; it returns or raises what it replies. -/
theorem meets_store {P : Program.Protocol Await Await.Reply γ} {op : StoreOp} {g : γ}
    {post : Except Raised op.Result → γ → Prop} :
    (store op).Meets P g post ↔ P.Allows g (.store op) ∧
      ∀ (reply : Except PyExc op.Result) g', P.Moves g (.store op) reply g' →
        post (reply.mapError Raised.python) g' := Iff.rfl

/-- A question before the rest of a coroutine. -/
theorem meets_ask_bind {P : Program.Protocol Await Await.Reply γ} {question : Await}
    {next : question.Reply → Coroutine α} {g : γ} {post : Except Raised α → γ → Prop} :
    (ask question >>= next).Meets P g post ↔ P.Allows g question ∧
      ∀ reply g', P.Moves g question reply g' → (next reply).Meets P g' post := Iff.rfl

/-- A value before the rest of a coroutine. -/
theorem meets_ok_bind {β : Type} {P : Program.Protocol Await Await.Reply γ} {b : β}
    {next : β → Coroutine α} {g : γ} {post : Except Raised α → γ → Prop} :
    (ofExcept (.ok b) >>= next).Meets P g post ↔ (next b).Meets P g post := Iff.rfl

end Coroutine

end BybitMonitor
