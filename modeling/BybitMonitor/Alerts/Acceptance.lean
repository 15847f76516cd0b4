import Mathlib
import BybitMonitor.Alerts.OutboxRun

/-!
# Accepted chunks

Which chunks Telegram has accepted in a run. Delivery and bookkeeping share one `try`, so that a row
goes back to the queue when its bookkeeping raises, and so does a row of which some chunks were
accepted.

* `AppEvent.Reopens`: the steps that let a row with an accepted chunk be handed over again.
* `chunks_accepted_once`: without such a step no chunk is accepted twice.
* `chunks_accepted_twice`: a failed commit is enough for a second acceptance.
-/

namespace BybitMonitor

/-- A row that was handed to `send_message`, and the number of its chunks accepted since. -/
structure Attempt where
  id : ℕ
  message : String
  next : ℕ
  deriving DecidableEq, Repr

/-- The latest attempt, and the accepted chunks by row and index. -/
structure Deliveries where
  current : Option Attempt := none
  accepted : List (ℕ × ℕ) := []

/-- What a step adds. -/
def Deliveries.after (self : Deliveries) : AppEvent → Deliveries
  | .workerAsked (.note (.delivering id message)) _ =>
      { self with current := some ⟨id, message, 0⟩ }
  | .workerAsked (.post _) reply =>
      match self.current with
      | none => self
      | some attempt =>
          if HttpReply.accepted reply then
            { current := some { attempt with next := attempt.next + 1 }
              accepted := self.accepted ++ [(attempt.id, attempt.next)] }
          else self
  | _ => self

/-- The deliveries of a history. -/
def deliveries (events : List AppEvent) : Deliveries := events.foldl Deliveries.after {}

theorem deliveries_append (events : List AppEvent) (event : AppEvent) :
    deliveries (events ++ [event]) = (deliveries events).after event :=
  List.foldl_append

/-- A step hands over no row that was delivered before, and sends no chunk that was accepted
before. -/
def AppEvent.SendsNew (history : List AppEvent) : AppEvent → Prop
  | .workerAsked (.note (.delivering id _)) _ => ∀ message, ¬ Noted history (.delivered id message)
  | .workerAsked (.post text) _ =>
      ∃ attempt ∈ (deliveries history).current,
        (splitMessage attempt.message)[attempt.next]? = some text ∧
          (attempt.id, attempt.next) ∉ (deliveries history).accepted
  | _ => True

/-- A step lets a row with an accepted chunk be handed over again: it enters the branch that
reschedules the row, or the branch that buries it raises. -/
def AppEvent.Reopens (history : List AppEvent) : AppEvent → Prop
  | .workerAsked (.note (.failed _)) _ => ∃ attempt ∈ (deliveries history).current, 0 < attempt.next
  | .workerAsked (.store (.markNotificationDead _ _)) (.error _) =>
      ∃ attempt ∈ (deliveries history).current, 0 < attempt.next
  | _ => False

/-- Whether a process has died. -/
def AppEvent.isRestart : AppEvent → Bool
  | .restarted _ => true
  | _ => false

/-! ## The chunks and the stage of the worker -/

/-- The attempt of the row that the worker is at, between its hand-over and its booking. -/
def WorkerStage.attempt : WorkerStage → Option Attempt
  | sending row accepted _ | refused row accepted _ => some ⟨row.id, row.message, accepted⟩
  | delivered row _ => some ⟨row.id, row.message, (splitMessage row.message).length⟩
  | _ => none

theorem WorkerStage.attempt_eq_none_iff {stage : WorkerStage} :
    stage.attempt = none ↔ stage.isSettled = true := by
  cases stage <;> simp [attempt, isSettled]

namespace Deliveries

/-- No chunk of an open row was accepted. -/
def Untouched (d : Deliveries) (store : Store) : Prop :=
  ∀ row ∈ store.outgoing, row.status.isOpen = true → ∀ chunk, (row.id, chunk) ∉ d.accepted

/-- The accepted chunks of the row at hand are its first ones, and no other open row has any. -/
structure Follows (d : Deliveries) (stage : WorkerStage) (store : Store) : Prop where
  current : ∀ attempt ∈ stage.attempt, d.current = some attempt
  chunks : ∀ attempt ∈ stage.attempt, ∀ chunk,
    (attempt.id, chunk) ∈ d.accepted ↔ chunk < attempt.next
  others : ∀ row ∈ store.outgoing, row.status.isOpen = true → ∀ chunk,
    (row.id, chunk) ∈ d.accepted → ∃ attempt ∈ stage.attempt, attempt.id = row.id

variable {d : Deliveries} {stage stage' : WorkerStage} {store store' : Store}

theorem Follows.untouched (h : d.Follows stage store) (hsettled : stage.isSettled = true) :
    d.Untouched store := by
  intro row hrow hopen chunk hchunk
  obtain ⟨attempt, hattempt, -⟩ := h.others row hrow hopen chunk hchunk
  rw [WorkerStage.attempt_eq_none_iff.mpr hsettled] at hattempt
  cases hattempt

theorem Untouched.follows (h : d.Untouched store) (hsettled : stage.isSettled = true) :
    d.Follows stage store := by
  have hnone := WorkerStage.attempt_eq_none_iff.mpr hsettled
  refine ⟨fun attempt hattempt => ?_, fun attempt hattempt => ?_, fun row hrow hopen chunk hchunk =>
    absurd hchunk (h row hrow hopen chunk)⟩
  · rw [hnone] at hattempt
    cases hattempt
  · rw [hnone] at hattempt
    cases hattempt

/-- An open row of a later outbox was open before, or its id is new. -/
theorem open_of_advances (hadvances : store.Advances store') {row' : OutgoingNotification}
    (hrow' : row' ∈ store'.outgoing) (hopen : row'.status.isOpen = true) :
    (∃ row ∈ store.outgoing, row.id = row'.id ∧ row.status.isOpen = true) ∨
      ∀ row ∈ store.outgoing, row.id ≠ row'.id := by
  -- a row does not become open again
  rcases hadvances.added row' hrow' with ⟨row, hrow, hmoves⟩ | ⟨-, hnew⟩
  · refine Or.inl ⟨row, hrow, hmoves.notice.id_eq.symm, ?_⟩
    rcases hmoves.status with hsame | ⟨hwas, -⟩
    · rwa [← hsame]
    · exact hwas
  · exact Or.inr fun row hrow => Nat.ne_of_lt (hnew row hrow)

/-- The rows that accepted chunks belong to. -/
def Known (d : Deliveries) (store : Store) : Prop :=
  ∀ entry ∈ d.accepted, ∃ row ∈ store.outgoing, row.id = entry.1

theorem Known.advances (h : d.Known store) (hadvances : store.Advances store') :
    d.Known store' := by
  intro entry hentry
  obtain ⟨row, hrow, hid⟩ := h entry hentry
  obtain ⟨row', hrow', hmoves⟩ := hadvances.kept row hrow
  exact ⟨row', hrow', hmoves.notice.id_eq.trans hid⟩

theorem Follows.advances (h : d.Follows stage store) (hknown : d.Known store)
    (hadvances : store.Advances store') : d.Follows stage store' := by
  refine ⟨h.current, h.chunks, fun row' hrow' hopen chunk hchunk => ?_⟩
  rcases open_of_advances hadvances hrow' hopen with ⟨row, hrow, hid, hopen'⟩ | hnew
  · rw [← hid] at hchunk ⊢
    exact h.others row hrow hopen' chunk hchunk
  · -- the chunks belong to rows that were there before
    obtain ⟨row, hrow, hid⟩ := hknown _ hchunk
    exact absurd hid (hnew row hrow)

theorem Untouched.advances (h : d.Untouched store) (hknown : d.Known store)
    (hadvances : store.Advances store') : d.Untouched store' :=
  have hidle : d.Follows .idle store := h.follows rfl
  (hidle.advances hknown hadvances).untouched rfl

/-- Booking the row at hand leaves only rows of which no chunk was accepted. -/
theorem Follows.booked (h : d.Follows stage store) {attempt : Attempt}
    (hattempt : stage.attempt = some attempt)
    {f : OutgoingNotification → OutgoingNotification}
    (hclosed : ∀ row, (f row).status.isOpen = false)
    (hrows : store'.outgoing = (store.updateOutgoing attempt.id f).outgoing) :
    d.Untouched store' := by
  intro row' hrow' hopen chunk hchunk
  rw [hrows] at hrow'
  obtain ⟨row, hrow, rfl⟩ := Store.mem_mapOutgoing.mp hrow'
  -- the booked row is closed, and the chunks of the others are not those of the attempt
  by_cases hid : row.id = attempt.id
  · rw [if_pos hid, hclosed] at hopen
    cases hopen
  · rw [if_neg hid] at hopen hchunk
    obtain ⟨attempt', hattempt', hid'⟩ := h.others row hrow hopen chunk hchunk
    rw [hattempt] at hattempt'
    obtain rfl := Option.some.inj hattempt'
    exact hid hid'.symm

/-- An attempt whose chunks were all refused leaves its row untouched. -/
theorem Follows.refused (h : d.Follows stage store) {attempt : Attempt}
    (hattempt : stage.attempt = some attempt) (hnext : attempt.next = 0) : d.Untouched store := by
  intro row hrow hopen chunk hchunk
  obtain ⟨attempt', hattempt', hid⟩ := h.others row hrow hopen chunk hchunk
  obtain rfl : attempt = attempt' := Option.some.inj (hattempt.symm.trans hattempt')
  rw [← hid, h.chunks attempt hattempt chunk, hnext] at hchunk
  exact absurd hchunk (Nat.not_lt_zero _)

theorem Follows.of_attempt (h : d.Follows stage store) (hattempt : stage'.attempt = stage.attempt) :
    d.Follows stage' store :=
  ⟨hattempt ▸ h.current, hattempt ▸ h.chunks, hattempt ▸ h.others⟩

end Deliveries

/-- What holds of the accepted chunks after every run. -/
structure DeliveryInvariant (events : List AppEvent) (s : Application) : Prop where
  follows : ∀ worker ∈ s.worker, (deliveries events).Follows (.of events) s.store
  known : (deliveries events).Known s.store
  delivered : ∀ id message, Noted events (.delivered id message) →
    ∃ chunk, (id, chunk) ∈ (deliveries events).accepted
  nodup : (deliveries events).accepted.Nodup

namespace DeliveryInvariant

variable {events : List AppEvent} {event : AppEvent} {s s' : Application} {config : Settings}
  {stage : WorkerStage} {row : OutgoingNotification} {rest : List OutgoingNotification}
  {accepted : ℕ}

/-- A step that accepts nothing and delivers nothing. -/
theorem of_same (hs : DeliveryInvariant events s) (hadvances : s.store.Advances s'.store)
    (hsame : (deliveries events).after event = deliveries events)
    (hnote : ∀ id message, event = .workerAsked (.note (.delivered id message)) () →
      ∃ chunk, (id, chunk) ∈ (deliveries events).accepted)
    (hfollows : ∀ worker ∈ s'.worker,
      (deliveries events).Follows (event.stageAfter (.of events)) s'.store) :
    DeliveryInvariant (events ++ [event]) s' := by
  have hdeliveries : deliveries (events ++ [event]) = deliveries events := by
    rw [deliveries_append, hsame]
  refine ⟨?_, ?_, fun id message hnoted => ?_, ?_⟩
  · rw [hdeliveries, WorkerStage.of_append]
    exact hfollows
  · rw [hdeliveries]
    exact hs.known.advances hadvances
  · rw [hdeliveries]
    rcases List.mem_append.mp hnoted with hold | hnew
    · exact hs.delivered id message hold
    · exact hnote id message (List.mem_singleton.mp hnew).symm
  · rw [hdeliveries]
    exact hs.nodup

/-- The row that is handed over has no accepted chunk. -/
theorem delivering (hs : DeliveryInvariant events s) {next : Coroutine Unit}
    (hof : WorkerStage.of events = .batch (row :: rest))
    (hlinked : (WorkerStage.batch (row :: rest)).Linked events s.store)
    (hfollows : (deliveries events).Follows (.batch (row :: rest)) s.store) :
    DeliveryInvariant (events ++ [.workerAsked (.note (.delivering row.id row.message)) ()])
        { s with worker := some next } ∧
      ∀ message, ¬ Noted events (.delivered row.id message) := by
  have huntouched := hfollows.untouched rfl
  obtain ⟨current, hcurrent, hsame, hopen⟩ := hlinked.current row List.mem_cons_self
  have hnone (chunk : ℕ) : (row.id, chunk) ∉ (deliveries events).accepted :=
    hsame.id_eq ▸ huntouched current hcurrent hopen chunk
  refine ⟨⟨?_, ?_, fun id message hnoted => ?_, ?_⟩, fun message hnoted => ?_⟩
  · intro worker _
    rw [deliveries_append, WorkerStage.of_append, hof]
    refine ⟨fun attempt hattempt => hattempt, fun attempt hattempt chunk => ?_,
      fun other hother hopen' chunk hchunk => absurd hchunk (huntouched other hother hopen' chunk)⟩
    obtain rfl := Option.some.inj hattempt
    exact iff_of_false (hnone chunk) (Nat.not_lt_zero _)
  · rw [deliveries_append]
    exact hs.known
  · rw [deliveries_append]
    rcases List.mem_append.mp hnoted with hold | hnew
    · exact hs.delivered id message hold
    · cases List.mem_singleton.mp hnew
  · rw [deliveries_append]
    exact hs.nodup
  · obtain ⟨chunk, hchunk⟩ := hs.delivered row.id message hnoted
    exact hnone chunk hchunk

/-- The chunk that is sent was not accepted before. -/
theorem posted (hs : DeliveryInvariant events s) {text : String} {reply : HttpReply}
    {next : Coroutine Unit} (hof : WorkerStage.of events = .sending row accepted rest)
    (hallows : (WorkerStage.sending row accepted rest).Allows config (.post text))
    (hlinked : (WorkerStage.sending row accepted rest).Linked events s.store)
    (hfollows : (deliveries events).Follows (.sending row accepted rest) s.store) :
    DeliveryInvariant (events ++ [.workerAsked (.post text) reply])
        { s with worker := some next } ∧
      AppEvent.SendsNew events (.workerAsked (.post text) reply) := by
  have hcurrent := hfollows.current _ rfl
  have hchunks := hfollows.chunks _ rfl
  have hfresh : (row.id, accepted) ∉ (deliveries events).accepted := fun hmem =>
    Nat.lt_irrefl _ ((hchunks accepted).mp hmem)
  refine ⟨?_, _, hcurrent, hallows, hfresh⟩
  -- the count of the accepted chunks grows only with an accepted chunk
  by_cases hreply : reply.accepted = true
  · have hafter : (deliveries events).after (.workerAsked (.post text) reply) =
        { current := some ⟨row.id, row.message, accepted + 1⟩
          accepted := (deliveries events).accepted ++ [(row.id, accepted)] } := by
      rw [Deliveries.after, hcurrent]
      exact if_pos hreply
    have hstage : (WorkerStage.sending row accepted rest).after (.post text) reply =
        .sending row (accepted + 1) rest := by
      rw [WorkerStage.after, if_pos hreply]
    refine ⟨?_, ?_, fun id message hnoted => ?_, ?_⟩
    · intro worker _
      rw [deliveries_append, hafter, WorkerStage.of_append, hof, AppEvent.stageAfter, hstage]
      refine ⟨fun attempt hattempt => hattempt, fun attempt hattempt chunk => ?_,
        fun other hother hopen chunk hchunk => ?_⟩
      · obtain rfl := Option.some.inj hattempt
        show (row.id, chunk) ∈ _ ++ _ ↔ chunk < accepted + 1
        rw [List.mem_append, hchunks chunk, List.mem_singleton, Prod.mk.injEq]
        show chunk < accepted ∨ row.id = row.id ∧ chunk = accepted ↔ chunk < accepted + 1
        omega
      · refine ⟨_, rfl, ?_⟩
        -- every accepted chunk of an open row is of the row at hand
        rcases List.mem_append.mp hchunk with hold | hnew
        · obtain ⟨attempt, hattempt, hid⟩ := hfollows.others other hother hopen chunk hold
          obtain rfl := Option.some.inj hattempt
          exact hid
        · exact (congrArg Prod.fst (List.mem_singleton.mp hnew)).symm
    · rw [deliveries_append, hafter]
      intro entry hentry
      rcases List.mem_append.mp hentry with hold | hnew
      · exact hs.known entry hold
      · obtain ⟨current, hmem, hsame, -⟩ := hlinked.current row List.mem_cons_self
        rw [List.mem_singleton.mp hnew]
        exact ⟨current, hmem, hsame.id_eq⟩
    · rw [deliveries_append, hafter]
      rcases List.mem_append.mp hnoted with hold | hnew
      · obtain ⟨chunk, hchunk⟩ := hs.delivered id message hold
        exact ⟨chunk, List.mem_append_left _ hchunk⟩
      · cases List.mem_singleton.mp hnew
    · rw [deliveries_append, hafter]
      -- the new entry is the next chunk, which was not accepted yet
      refine List.nodup_append.mpr ⟨hs.nodup, List.nodup_singleton _, ?_⟩
      rintro old hold new hnew rfl
      exact hfresh (List.mem_singleton.mp hnew ▸ hold)
  · have hafter : (deliveries events).after (.workerAsked (.post text) reply) =
        deliveries events := by
      rw [Deliveries.after, hcurrent]
      exact if_neg hreply
    refine hs.of_same (.of_eq rfl) hafter (fun id message h => nomatch h) fun worker _ => ?_
    rw [hof, AppEvent.stageAfter, WorkerStage.after, if_neg hreply]
    exact hfollows

/-- The row at hand leaves the delivery, or fails without an accepted chunk. -/
theorem noted (hs : DeliveryInvariant events s) {note : DeliveryNote} {next : Coroutine Unit}
    (hof : WorkerStage.of events = stage) (hallows : stage.Allows config (.note note))
    (hlinked : stage.Linked events s.store)
    (hfollows : (deliveries events).Follows stage s.store)
    (hbooked : ¬ AppEvent.Reopens events (.workerAsked (.note note) ())) :
    DeliveryInvariant (events ++ [.workerAsked (.note note) ()])
        { s with worker := some next } ∧
      AppEvent.SendsNew events (.workerAsked (.note note) ()) := by
  -- a failure leaves a row of which no chunk was accepted
  have hfailed {attempt : Attempt} (hattempt : stage.attempt = some attempt)
      (hnote : note = .failed attempt.id)
      (hsettled : (stage.after (.note note) ()).isSettled = true) :
      DeliveryInvariant (events ++ [.workerAsked (.note note) ()])
          { s with worker := some next } ∧
        AppEvent.SendsNew events (.workerAsked (.note note) ()) := by
    subst hnote
    have hnext : attempt.next = 0 := by
      refine Nat.eq_zero_of_not_pos fun hpos => hbooked ?_
      exact ⟨attempt, hfollows.current attempt hattempt, hpos⟩
    refine ⟨hs.of_same (.of_eq rfl) rfl (fun id message h => nomatch h) fun worker _ => ?_, trivial⟩
    rw [hof]
    exact (hfollows.refused hattempt hnext).follows hsettled
  -- the stage of the worker says which note it may make
  cases stage with
  | batch rows =>
      cases rows with
      | nil => cases note <;> exact False.elim hallows
      | cons row rest =>
          cases note with
          | delivering id message =>
              obtain ⟨rfl, rfl⟩ := hallows
              exact hs.delivering hof hlinked hfollows
          | _ => exact False.elim hallows
  | sending row accepted rest =>
      cases note with
      | delivering id message => exact False.elim hallows
      | delivered id message =>
          obtain ⟨rfl, rfl, rfl⟩ := hallows
          refine ⟨hs.of_same (.of_eq rfl) rfl (fun id message h => ?_) fun worker _ => ?_, trivial⟩
          · -- a message has a first chunk
            cases h
            refine ⟨0, (hfollows.chunks _ rfl 0).mpr ?_⟩
            exact List.length_pos_iff.mpr (splitMessage_ne_nil row.message)
          · rw [hof]
            exact hfollows.of_attempt rfl
      | refused id =>
          refine ⟨hs.of_same (.of_eq rfl) rfl (fun id message h => nomatch h) fun worker _ => ?_,
            trivial⟩
          rw [hof]
          exact hfollows.of_attempt rfl
      | failed id =>
          obtain rfl : id = row.id := hallows
          exact hfailed rfl rfl rfl
  | delivered row rest =>
      cases note with
      | failed id =>
          obtain rfl : id = row.id := hallows
          exact hfailed rfl rfl rfl
      | _ => exact False.elim hallows
  | _ => cases note <;> exact False.elim hallows

/-- An operation of the worker closes the row at hand, or leaves its stage. -/
theorem stored (hs : DeliveryInvariant events s) {op : StoreOp} {reply : Except PyExc op.Result}
    {next : Coroutine Unit} {world' : World} (hof : WorkerStage.of events = stage)
    (hallows : stage.Allows config (.store op)) (hserves : s.world.Serves (.store op) reply world')
    (hadvances : s.store.Advances world'.store)
    (hfollows : (deliveries events).Follows stage s.store)
    (hbooked : ¬ AppEvent.Reopens events (.workerAsked (.store op) reply)) :
    DeliveryInvariant (events ++ [.workerAsked (.store op) reply])
      { s with world := world', worker := some next } := by
  refine hs.of_same hadvances rfl (fun id message h => nomatch h) fun worker _ => ?_
  rw [hof]
  show (deliveries events).Follows (stage.after (.store op) reply) world'.store
  -- between two deliveries no open row has an accepted chunk
  have hsettled {stage' : WorkerStage} (h : stage.isSettled = true)
      (h' : stage'.isSettled = true) : (deliveries events).Follows stage' world'.store :=
    ((hfollows.untouched h).advances hs.known hadvances).follows h'
  have hoperates := WorkerStage.operates_of_allows hallows
  rcases hserves.does with ⟨exc, rfl, rfl⟩ | ⟨result, rfl, hdoes, -⟩
  · cases hoperates with
    | bury =>
        -- a row that could not be buried stays open, so nothing of it may be accepted
        refine ((hfollows.refused rfl ?_).follows rfl)
        refine Nat.eq_zero_of_not_pos fun hpos => hbooked ?_
        exact ⟨_, hfollows.current _ rfl, hpos⟩
    | _ => exact hfollows
  · cases hoperates with
    | expire => exact hsettled rfl rfl
    | query => exact hsettled rfl rfl
    | reschedule => exact hsettled rfl rfl
    | confirm =>
        exact (hfollows.booked rfl (fun _ => rfl) (congrArg Store.outgoing hdoes)).follows rfl
    | @confirmListing row rest eventKey now hkey =>
        have hrows : world'.store.outgoing =
            (s.store.markNotificationSent row.id now).outgoing := by
          rw [show world'.store = (s.store.markNotificationSent row.id now).markListingSent eventKey
            from hdoes]
          rfl
        exact (hfollows.booked rfl (fun _ => rfl) hrows).follows rfl
    | bury => exact (hfollows.booked rfl (fun _ => rfl) (congrArg Store.outgoing hdoes)).follows rfl

/-- A step that does not reopen a row keeps the invariant, and sends only what is new. -/
theorem step (hs : DeliveryInvariant events s) (ho : OutboxInvariant events s)
    (h : AppStep s event s') (hlives : event.isRestart = false)
    (hbooked : ¬ event.Reopens events) :
    DeliveryInvariant (events ++ [event]) s' ∧ event.SendsNew events := by
  have hadvances := (ho.step h).2
  -- a step outside the worker only lets the rows move on
  have hother (hworker : s'.worker = s.worker)
      (hsame : (deliveries events).after event = deliveries events)
      (hstage : event.stageAfter (.of events) = .of events)
      (hnote : ∀ id message, event ≠ .workerAsked (.note (.delivered id message)) ()) :
      DeliveryInvariant (events ++ [event]) s' := by
    refine hs.of_same hadvances hsame (fun id message h => absurd h (hnote id message)) ?_
    intro worker hmem
    rw [hstage]
    exact (hs.follows worker (hworker ▸ hmem)).advances hs.known hadvances
  cases h with
  | restarted config => cases hlives
  | cycled hcycle => exact ⟨hother rfl rfl rfl fun _ _ => nofun, trivial⟩
  | began entry => exact ⟨hother rfl rfl rfl fun _ _ => nofun, trivial⟩
  | callAsked hcalls hserves => exact ⟨hother rfl rfl rfl fun _ _ => nofun, trivial⟩
  | callEnded hcalls => exact ⟨hother rfl rfl rfl fun _ _ => nofun, trivial⟩
  | stopRequested => exact ⟨hother rfl rfl rfl fun _ _ => nofun, trivial⟩
  | @looped outcome hworker =>
      refine ⟨hs.of_same hadvances rfl (fun id message h => nomatch h) fun worker hmem => ?_,
        trivial⟩
      -- the loop goes on only after a body that was not cancelled
      have hends : WorkerStage.Ends outcome (.of events) := (ho.worker _ hworker).1
      have hsettled : (WorkerStage.of events).isSettled = true := by
        cases outcome with
        | ok _ => exact hends.settled
        | error e =>
            change worker ∈ (ite _ _ _ : Option (Coroutine Unit)) at hmem
            rw [if_pos (by simp [Except.isOk, Except.toBool])] at hmem
            cases hmem
      exact ((hs.follows _ hworker).untouched hsettled).follows rfl
  | @workerAsked question next reply world' hworker hserves =>
      obtain ⟨hmeets, hlinked⟩ := ho.worker _ hworker
      have hfollows := hs.follows _ hworker
      have hquiet (h : question.isQuiet = true)
          (hsends : (AppEvent.workerAsked question reply).SendsNew events)
          (hsame : (deliveries events).after (.workerAsked question reply) = deliveries events)
          (hnote : ∀ id message, AppEvent.workerAsked question reply ≠
            .workerAsked (.note (.delivered id message)) ()) :
          DeliveryInvariant (events ++ [.workerAsked question reply])
              { s with world := world', worker := some (next reply) } ∧
            (AppEvent.workerAsked question reply).SendsNew events := by
        refine ⟨hs.of_same hadvances hsame (fun id message h => absurd h (hnote id message))
          fun worker _ => ?_, hsends⟩
        rw [AppEvent.stageAfter, WorkerStage.after_of_isQuiet h]
        exact hfollows.advances hs.known hadvances
      cases question with
      | note note =>
          obtain rfl : world' = s.world := hserves
          exact hs.noted rfl hmeets.1 hlinked hfollows hbooked
      | post text =>
          obtain rfl : world' = s.world := hserves
          have hallows : (WorkerStage.of events).Allows s.config.toSettings (.post text) := hmeets.1
          generalize hof : WorkerStage.of events = stage at hallows hlinked hfollows
          cases stage with
          | sending row accepted rest => exact hs.posted hof hallows hlinked hfollows
          | batch rows => cases rows <;> exact False.elim hallows
          | _ => exact False.elim hallows
      | store op => exact ⟨hs.stored rfl hmeets.1 hserves hadvances hfollows hbooked, trivial⟩
      | _ => exact hquiet rfl trivial rfl fun _ _ => nofun

theorem start (config : AdmittedSettings) :
    DeliveryInvariant [] (Application.start config {} 0) where
  follows _ _ := Deliveries.Untouched.follows (fun _ hrow => nomatch hrow) rfl
  known _ hentry := nomatch hentry
  delivered _ _ hnoted := nomatch hnoted
  nodup := List.nodup_nil

end DeliveryInvariant

/-- In a run without a restart, whose steps do not reopen a row with an accepted chunk, Telegram
accepts each chunk of a row at most once: no accepted chunk is sent again, and no delivered row is
handed over again. -/
theorem chunks_accepted_once {config : AdmittedSettings} {events : List AppEvent} {s : Application}
    (h : AppRun config events s) (hlives : ∀ event ∈ events, event.isRestart = false)
    (hbooked : Trace.EveryLabel events fun history event => ¬ event.Reopens history) :
    (deliveries events).accepted.Nodup ∧
      Trace.EveryLabel events fun history event => event.SendsNew history := by
  have hinvariant : DeliveryInvariant events s ∧
      Trace.EveryLabel events fun history event => event.SendsNew history := by
    induction h with
    | nil => exact ⟨DeliveryInvariant.start config, Trace.everyLabel_nil⟩
    | @snoc events s event s' prior last ih =>
        obtain ⟨hbefore, hlast⟩ := Trace.everyLabel_snoc.mp hbooked
        obtain ⟨hs, hsends⟩ := ih (fun e he => hlives e (List.mem_append_left _ he)) hbefore
        have hlive := hlives event (List.mem_append_right _ (List.mem_singleton_self event))
        obtain ⟨hs', hnew⟩ := hs.step (AppRun.outboxInvariant prior) last hlive hlast
        exact ⟨hs', Trace.everyLabel_snoc.mpr ⟨hsends, hnew⟩⟩
  exact ⟨hinvariant.1.nodup, hinvariant.2⟩

instance (history : List AppEvent) (event : AppEvent) : Decidable (event.Reopens history) := by
  unfold AppEvent.Reopens
  split <;> infer_instance

/-- A notification that is enqueued, meets flood control and is accepted at its second attempt. -/
def acceptedInputs : List AppInput :=
  let limited : HttpReply := .response ⟨429, some (.object []), some "5"⟩
  let accepted : HttpReply := .response ⟨200, some (.object [("ok", .bool true)]), none⟩
  .begin (.enqueue "text" "test" none none none) :: List.replicate 2 (.call 1 { now := 100 }) ++
    List.replicate 14 (.worker { now := 100, http := limited }) ++
    .loop :: List.replicate 11 (.worker { now := 200, http := accepted })

theorem chunks_accepted_once_accepted :
    (deliveries (performAll .default acceptedInputs).1).accepted = [(1, 0)] ∧
      Trace.EveryLabel (performAll .default acceptedInputs).1
        fun history event => event.SendsNew history := by
  exact ⟨by decide +kernel, (chunks_accepted_once (run_performAll .default acceptedInputs)
    (by decide +kernel) (by decide +kernel)).2⟩

/-- The commit of a delivered notification fails, and the worker goes on. -/
def failedCommitInputs : List AppInput :=
  let accepted : HttpReply := .response ⟨200, some (.object [("ok", .bool true)]), none⟩
  .begin (.enqueue "text" "test" none none none) :: List.replicate 2 (.call 1 { now := 100 }) ++
    List.replicate 10 (.worker { now := 100, http := accepted }) ++
    .worker { now := 100, faults := { commit := some .databaseError } } ::
    List.replicate 6 (.worker { now := 100 }) ++
    .loop :: List.replicate 11 (.worker { now := 200, http := accepted })

/-- A failed commit after the delivery is enough for a second acceptance. -/
theorem chunks_accepted_twice :
    ¬ ∀ config events s, AppRun config events s → (∀ event ∈ events, event.isRestart = false) →
      (deliveries events).accepted.Nodup ∧
        Trace.EveryLabel events fun history event => event.SendsNew history := by
  intro hclaim
  obtain ⟨honce, -⟩ := hclaim _ _ _ (run_performAll .default failedCommitInputs) (by decide +kernel)
  have htwice : (deliveries (performAll .default failedCommitInputs).1).accepted =
      [(1, 0), (1, 0)] := by decide +kernel
  rw [htwice] at honce
  exact (List.nodup_cons.mp honce).1 List.mem_cons_self

end BybitMonitor
