import Mathlib.Data.Nat.Notation

/-!
# Python exceptions

The exception classes that the modelled code raises, catches or lets pass, and the exceptions
of the libraries below it that a run may inject.
-/

namespace BybitMonitor

/-- A raised exception, by its class. -/
inductive PyExc
  | valueError (message : String)
  | overflowError (message : String)
  | osError (message : String)
  | zeroDivisionError
  | typeError (message : String)
  | attributeError (message : String)
  | runtimeError (message : String)
  | jsonDecodeError
  /-- `sqlite3.IntegrityError`. -/
  | integrityError
  /-- Any other `sqlite3.Error`. -/
  | databaseError
  /-- `websockets.ConnectionClosed` and the other failures of a socket operation. -/
  | connectionError
  /-- `BybitError` and its subclasses. -/
  | bybitError
  /-- `SubscriptionAckError`. -/
  | subscriptionAckError (message : String)
  /-- `asyncio.CancelledError`, which is no `Exception`. -/
  | cancelledError
  /-- Any other subclass of `Exception`. -/
  | other (name : String)
  deriving DecidableEq, Repr

namespace PyExc

/-- Whether `except Exception` catches the exception. -/
def isException : PyExc → Bool
  | cancelledError => false
  | _ => true

/-- Whether `except ValueError` catches the exception. -/
def isValueError : PyExc → Bool
  | valueError _ | jsonDecodeError => true
  | _ => false

/-- Whether `except (TypeError, ValueError)` catches the exception. -/
def isTypeOrValueError : PyExc → Bool
  | typeError _ | valueError _ | jsonDecodeError => true
  | _ => false

/-- A computation succeeds if its first part and its continuation do. -/
theorem bind_eq_ok {α β : Type} {x : Except PyExc α} {f : α → Except PyExc β} {b : β} :
    (x >>= f) = .ok b ↔ ∃ a, x = .ok a ∧ f a = .ok b := by
  cases x with
  | ok a => exact ⟨fun h => ⟨a, rfl, h⟩, fun ⟨_, ha, h⟩ => by cases ha; exact h⟩
  | error e => exact ⟨fun h => (nomatch h), fun ⟨_, ha, _⟩ => (nomatch ha)⟩

/-- `PyExc.bind_eq_ok` for a check that returns nothing. -/
theorem check_bind_eq_ok {β : Type} {x : Except PyExc Unit} {f : Unit → Except PyExc β} {b : β} :
    (x >>= f) = .ok b ↔ x = .ok () ∧ f () = .ok b := by
  rw [bind_eq_ok]
  exact ⟨fun ⟨(), hx, hf⟩ => ⟨hx, hf⟩, fun ⟨hx, hf⟩ => ⟨(), hx, hf⟩⟩

/-- The computation returns. -/
def Returns {α : Type} (x : Except PyExc α) : Prop := ∃ a, x = .ok a

theorem returns_pure {α : Type} (a : α) : Returns (pure a : Except PyExc α) := ⟨a, rfl⟩

theorem returns_ite {α : Type} {c : Prop} [Decidable c] {x y : Except PyExc α}
    (hx : c → Returns x) (hy : ¬ c → Returns y) : Returns (if c then x else y) := by
  split
  · exact hx ‹c›
  · exact hy ‹¬ c›

theorem returns_bind {α β : Type} {x : Except PyExc α} {f : α → Except PyExc β} {a : α}
    (hx : x = .ok a) (hf : Returns (f a)) : Returns (x >>= f) := by
  rw [hx]
  exact hf

end PyExc

/-- A database statement or a socket operation that may be made to raise. -/
def raiseIf : Option PyExc → Except PyExc Unit
  | none => .ok ()
  | some exc => .error exc

end BybitMonitor
