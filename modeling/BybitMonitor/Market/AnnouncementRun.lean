import Mathlib
import BybitMonitor.Market.Announcement
import BybitMonitor.Market.Interruption

/-!
# Announcements over a run

The calls of `handle_announcements` among all that runs in the application.

* `AppRun.announced`: an announced symbol is one of a call.
* `AnnouncementsKept.step`: what one step keeps of the calls.
* `announcements_recorded`: the announced symbols are those that the announcements name.
-/

namespace BybitMonitor

open Program

/-- The key of the event of a symbol that is announced. -/
def announcedKey (symbol : String) : String := eventKeyFor none symbol .announced

/-- A call with the number and the symbols has begun. -/
def Polled (events : List AppEvent) (number : ℕ) (symbols : List (List String)) : Prop :=
  .began number (.handleAnnouncements symbols) ∈ events

theorem polled_append {events : List AppEvent} {event : AppEvent} {number : ℕ}
    {symbols : List (List String)} : Polled (events ++ [event]) number symbols ↔
      Polled events number symbols ∨ event = .began number (.handleAnnouncements symbols) := by
  simp [Polled, eq_comm]

/-! ## What a call may record -/

/-- An event that is announced is one of a symbol with the property, under the key of the symbol. -/
def ListingEvent.AnnouncedAmong (P : String → Prop) (self : ListingEvent) : Prop :=
  self.eventType = .announced →
    self.category = none ∧ self.eventKey = announcedKey self.symbol ∧ P self.symbol

/-- A record of an announced event is one of a symbol with the property, under its key. -/
def Await.Announces (P : String → Prop) : Await → Prop
  | .store (.record eventKey category symbol eventType _) => eventType = .announced →
      category = none ∧ eventKey = announcedKey symbol ∧ P symbol
  | _ => True

/-- The symbols of a call. -/
def EntryPoint.symbols : EntryPoint → List String
  | handleAnnouncements announcements => announcements.flatten
  | _ => []

section Calls

variable {P : String → Prop} {tracker : ListingTracker}

theorem recordAndNotify_announces {category : Option String} {symbol : String}
    {eventType : ListingEventType} {now : ℤ}
    (h : eventType = .announced → category = none ∧ P symbol) :
    (tracker.recordAndNotify category symbol eventType now).Asks (Await.Announces P) := by
  have hrecord : (Await.store (.record (eventKeyFor category symbol eventType) category symbol
      eventType now)).Announces P := by
    rintro rfl
    obtain ⟨rfl, hsymbol⟩ := h rfl
    exact ⟨rfl, rfl, hsymbol⟩
  refine asks_bind (asks_store hrecord) fun recorded => ?_
  cases recorded with
  | none => trivial
  | some recorded => exact asks_bind (asks_notify trivial (fun _ => trivial) _ _) fun _ => trivial

/-- The registry announces nothing. -/
theorem eventTypeFor_ne_announced (event : RegistryEvent) :
    ListingTracker.eventTypeFor event ≠ some .announced := by
  rw [ListingTracker.eventTypeFor.eq_def]
  split
  · simp
  · split_ifs <;> simp
  · split_ifs <;> simp

theorem handleRegistry_announces (result : DiscoveryResult) :
    (tracker.handleRegistry result).Asks (Await.Announces P) := by
  refine asks_bind (asks_ask trivial) fun now => ?_
  split
  · trivial
  · refine asks_gather (fun event => ?_) _
    rw [ListingTracker.handleEvent]
    split
    · trivial
    · rename_i eventType htype
      refine recordAndNotify_announces fun hannounced => ?_
      exact absurd (hannounced ▸ htype) (eventTypeFor_ne_announced event)

/-- A call announces its symbols only. -/
theorem EntryPoint.announces (entry : EntryPoint) (h : ∀ symbol ∈ entry.symbols, P symbol) :
    (entry.coroutine tracker).Asks (Await.Announces P) := by
  cases entry with
  | handleRegistry result => exact asks_bind (handleRegistry_announces result) fun _ => trivial
  | handleAnnouncements announcements =>
      refine asks_bind (asks_bind (asks_ask trivial) fun now => ?_) fun _ => trivial
      refine asks_gather_of_mem fun symbol hsymbol => ?_
      exact recordAndNotify_announces fun _ => ⟨rfl, h symbol hsymbol⟩
  | reconcileUnsent =>
      refine asks_bind ?_ fun _ => trivial
      exact asks_reconcileUnsent trivial (fun _ => trivial) (fun _ => trivial) (fun _ => trivial)
        trivial tracker
  | discoverOnce fetched =>
      refine asks_bind (asks_bind (asks_ask trivial) fun now => ?_) fun _ => trivial
      refine asks_bind (asks_ofExcept _) fun fetched => ?_
      refine asks_bind ?_ fun result => ?_
      · refine asks_bind (asks_store trivial) fun current => ?_
        refine asks_bind (asks_store trivial) fun _ => ?_
        exact asks_bind (asks_store trivial) fun _ => trivial
      · exact asks_bind (handleRegistry_announces result) fun _ => trivial
  | enqueue text tag dedupeKey originType originKey =>
      exact asks_bind (asks_enqueue trivial (fun _ => trivial) _ _ _ _ _) fun _ => trivial

/-- A call that returns has recorded the events of all its symbols. -/
theorem handleAnnouncements_records (announcements : List (List String)) :
    (tracker.handleAnnouncements announcements).Meets CycleProgress.protocol {}
      fun outcome progress => outcome.isOk = true →
        ∀ symbol ∈ announcements.flatten, announcedKey symbol ∈ progress.recorded := by
  refine meets_bind.mpr ⟨trivial, fun now reached hreached => ?_⟩
  obtain rfl : reached = {} := hreached
  -- a symbol without an event is still to come
  refine meets_gather (fun rest (progress : CycleProgress) => ∀ symbol ∈ announcements.flatten,
    announcedKey symbol ∈ progress.recorded ∨ symbol ∈ rest) ?_ ?_ fun symbol => Or.inr
  · intro symbol rest progress hrest
    refine (recordAndNotify_progress _ _ _ _).mono fun outcome progress' hend => ?_
    cases outcome with
    | error e =>
        intro h
        cases h
    | ok _ =>
        obtain ⟨-, hrecorded⟩ := hend rfl
        intro other hother
        rw [hrecorded]
        rcases hrest other hother with hold | hmem
        · exact Or.inl (List.mem_append_left _ hold)
        · rcases List.mem_cons.mp hmem with rfl | hmem
          · exact Or.inl (List.mem_append_right _ (List.mem_singleton_self _))
          · exact Or.inr hmem
  · exact fun _ progress hrest _ symbol hsymbol =>
      (hrest symbol hsymbol).resolve_right List.not_mem_nil

end Calls

/-! ## What is announced -/

/-- A row of the listing events after an operation is an old one, but for its flag, or the one that
is recorded. -/
theorem StoreOp.Does.mem_listingEvents {op : StoreOp} {store store' : Store} {result : op.Result}
    (h : op.Does store result store') {event : ListingEvent}
    (hevent : event ∈ store'.listingEvents) :
    (∃ old ∈ store.listingEvents, event = { old with telegramSent := event.telegramSent }) ∨
      ∃ now, op = .record event.eventKey event.category event.symbol event.eventType now := by
  rcases h.listingEvents with hsame | ⟨eventKey, hflag⟩ | ⟨_, _, _, _, now, added, rfl, -⟩
  · exact Or.inl ⟨event, hsame ▸ hevent, rfl⟩
  · rw [hflag] at hevent
    obtain ⟨old, hold, rfl⟩ := Store.mem_updateListing.mp hevent
    refine Or.inl ⟨old, hold, ?_⟩
    split <;> rfl
  · have h : ite _ _ _ := h
    split at h
    · rw [h.2] at hevent
      exact Or.inl ⟨event, hevent, rfl⟩
    · rw [h.2] at hevent
      rcases List.mem_append.mp hevent with hold | hadded
      · exact Or.inl ⟨event, hold, rfl⟩
      · rw [List.mem_singleton.mp hadded]
        exact Or.inr ⟨now, rfl⟩

/-- A question that announces only symbols with a property keeps them the only ones. -/
theorem World.Serves.announced {P : String → Prop} {world world' : World} {question : Await}
    {reply : question.Reply} (h : world.Serves question reply world')
    (hasks : question.Announces P)
    (hevents : ∀ event ∈ world.store.listingEvents, event.AnnouncedAmong P) :
    ∀ event ∈ world'.store.listingEvents, event.AnnouncedAmong P := by
  cases question with
  | store op =>
      rcases h.does with ⟨exc, -, rfl⟩ | ⟨result, -, hdoes, -⟩
      · exact hevents
      · intro event hevent
        rcases hdoes.mem_listingEvents hevent with ⟨old, hold, heq⟩ | ⟨now, rfl⟩
        · rw [heq]
          exact hevents old hold
        · exact hasks
  | _ =>
      rw [h.store_eq fun op => nofun]
      exact hevents

/-- The worker announces nothing. -/
theorem WorkerStage.Operates.announces {config : Settings} {stage : WorkerStage} {op : StoreOp}
    (h : stage.Operates config op) (P : String → Prop) : (Await.store op).Announces P := by
  cases h <;> trivial

section Runs

variable {config : AdmittedSettings} {events : List AppEvent} {event : AppEvent}
  {s s' : Application}

/-- If the calls have symbols with a property only, then only such symbols are announced, and the
calls in progress announce only such symbols. -/
theorem AppRun.announced {P : String → Prop} (h : AppRun config events s)
    (hP : ∀ number symbols, Polled events number symbols → ∀ symbol ∈ symbols.flatten, P symbol) :
    (∀ call ∈ s.calls, call.2.Asks (Await.Announces P)) ∧
      ∀ event ∈ s.store.listingEvents, event.AnnouncedAmong P := by
  induction h with
  | nil => exact ⟨fun call hcall => (nomatch hcall), fun event hevent => (nomatch hevent)⟩
  | @snoc events s event s' prior last ih =>
      have hrun : AppRun config events s := prior
      obtain ⟨hcalls, hevents⟩ := ih fun number symbols hpolled =>
        hP number symbols (polled_append.mpr (Or.inl hpolled))
      cases last with
      | restarted config => exact ⟨fun call hcall => (nomatch hcall), hevents⟩
      | cycled hcycle => exact ⟨hcalls, hevents⟩
      | began entry =>
          refine ⟨fun call hcall => ?_, hevents⟩
          rcases List.mem_append.mp hcall with hold | hadded
          · exact hcalls call hold
          · rw [List.mem_singleton.mp hadded]
            refine entry.announces fun symbol hsymbol => ?_
            cases entry with
            | handleAnnouncements announcements =>
                exact hP _ _ (polled_append.mpr (Or.inr rfl)) symbol hsymbol
            | _ => cases hsymbol
      | @workerAsked question next reply world' hworker hserves =>
          refine ⟨hcalls, hserves.announced ?_ hevents⟩
          cases question with
          | store op =>
              have hmeets := (hrun.outboxInvariant.worker _ hworker).1
              exact (WorkerStage.operates_of_allows hmeets.1).announces P
          | _ => trivial
      | @callAsked number before rest question next reply world' heq hserves =>
          have hasks := hcalls _ (heq ▸ List.mem_append_cons_self)
          refine ⟨fun call hcall => ?_, hserves.announced hasks.1 hevents⟩
          rcases mem_middle.mp hcall with rfl | hother
          · exact hasks.2 reply
          · exact hcalls call (heq ▸ mem_middle.mpr (Or.inr hother))
      | callEnded heq =>
          exact ⟨fun call hcall => hcalls call (heq ▸ mem_middle.mpr (Or.inr hcall)), hevents⟩
      | looped hworker => exact ⟨hcalls, hevents⟩
      | stopRequested => exact ⟨hcalls, hevents⟩

/-! ## What is recorded -/

/-- The call that an event is about. -/
def AppEvent.callNumber : AppEvent → Option ℕ
  | .began number _ | .callAsked number _ _ | .callEnded number _ => some number
  | _ => none

/-- The numbers of calls are those of the calls that have begun. -/
theorem AppRun.callNumber_le (h : AppRun config events s) :
    ∀ event ∈ events, ∀ number, event.callNumber = some number → number ≤ s.begun := by
  induction h with
  | nil =>
      intro event hevent
      cases hevent
  | @snoc events s event s' prior last ih =>
      have hrun : AppRun config events s := prior
      have hbegun : s.begun ≤ s'.begun := by
        cases last <;> first | exact le_rfl | exact Nat.le_succ _
      intro other hother number hnumber
      rcases List.mem_append.mp hother with hold | hnew
      · exact (ih other hold number hnumber).trans hbegun
      · obtain rfl := List.mem_singleton.mp hnew
        have hle {m : ℕ} {before rest : List (ℕ × Coroutine Unit)} {p : Coroutine Unit}
            (heq : s.calls = before ++ (m, p) :: rest) : m ≤ s.begun :=
          hrun.number_le (m, p) (heq ▸ List.mem_append_cons_self)
        cases last with
        | began entry => exact (Option.some.inj hnumber).ge
        | callAsked heq hserves => exact Option.some.inj hnumber ▸ hle heq
        | callEnded heq => exact Option.some.inj hnumber ▸ hle heq
        | _ => cases hnumber

/-- A call that no event is about has done nothing. -/
theorem CycleProgress.of_eq_empty {number : ℕ} (events : List AppEvent)
    (h : ∀ event ∈ events, event.callNumber ≠ some number) :
    CycleProgress.of number events = {} := by
  induction events using List.reverseRecOn with
  | nil => rfl
  | append_singleton events event ih =>
      rw [CycleProgress.of_append, ih fun other hother => h other (List.mem_append_left _ hother)]
      have hother := h event (List.mem_append_right _ (List.mem_singleton_self _))
      cases event with
      | callAsked asker question reply => exact if_neg fun heq => hother (congrArg some heq)
      | _ => rfl

/-- The calls in progress go on to record their symbols, and what a call has recorded is in the
table. -/
structure AnnouncementsKept (events : List AppEvent) (s : Application) : Prop where
  calls : ∀ call ∈ s.calls, ∀ symbols, Polled events call.1 symbols →
    call.2.Meets CycleProgress.protocol (.of call.1 events) fun outcome progress =>
      outcome.isOk = true → ∀ symbol ∈ symbols.flatten, announcedKey symbol ∈ progress.recorded
  recorded : ∀ number, ∀ key ∈ (CycleProgress.of number events).recorded, s.store.HasEvent key
  returned : ∀ number symbols, Polled events number symbols →
    .callEnded number (.ok ()) ∈ events →
      ∀ symbol ∈ symbols.flatten, s.store.HasEvent (announcedKey symbol)

namespace AnnouncementsKept

/-- A step that is none of a call keeps the invariant. -/
theorem of_same (h : AnnouncementsKept events s) (hgrows : s.store.Grows s'.store)
    (hnumber : event.callNumber = none) (hcalls : ∀ call ∈ s'.calls, call ∈ s.calls) :
    AnnouncementsKept (events ++ [event]) s' := by
  have hprogress (number : ℕ) :
      CycleProgress.of number (events ++ [event]) = .of number events := by
    rw [CycleProgress.of_append]
    cases event with
    | callAsked asker question reply => cases hnumber
    | _ => rfl
  have hpolled {number : ℕ} {symbols : List (List String)}
      (h : Polled (events ++ [event]) number symbols) : Polled events number symbols := by
    refine (polled_append.mp h).resolve_right ?_
    rintro rfl
    cases hnumber
  refine ⟨fun call hcall symbols hsymbols => ?_, fun number key hkey => ?_,
    fun number symbols hsymbols hended symbol hsymbol => ?_⟩
  · rw [hprogress]
    exact h.calls call (hcalls call hcall) symbols (hpolled hsymbols)
  · rw [hprogress] at hkey
    exact (h.recorded number key hkey).grows hgrows
  · have hended : AppEvent.callEnded number (.ok ()) ∈ events := by
      refine (List.mem_append.mp hended).resolve_right fun hnew => ?_
      rw [← List.mem_singleton.mp hnew] at hnumber
      cases hnumber
    exact (h.returned number symbols (hpolled hsymbols) hended symbol hsymbol).grows hgrows

/-- A new call begins with its symbols to record. -/
theorem began (hrun : AppRun config events s) (h : AnnouncementsKept events s)
    (entry : EntryPoint) : AnnouncementsKept (events ++ [.began (s.begun + 1) entry])
      { s with
        calls := s.calls ++ [(s.begun + 1, entry.coroutine s.tracker)]
        begun := s.begun + 1 } := by
  have hnumbers := hrun.callNumber_le
  have hprogress (number : ℕ) :=
    CycleProgress.of_append number events (.began (s.begun + 1) entry)
  have hfresh : CycleProgress.of (s.begun + 1) events = {} :=
    CycleProgress.of_eq_empty events fun event hevent hnumber =>
      Nat.not_succ_le_self _ (hnumbers event hevent _ hnumber)
  have hold {number : ℕ} {symbols : List (List String)} (hle : number ≤ s.begun)
      (h : Polled (events ++ [.began (s.begun + 1) entry]) number symbols) :
      Polled events number symbols := by
    refine (polled_append.mp h).resolve_right fun heq => ?_
    obtain ⟨rfl, -⟩ := AppEvent.began.inj heq
    exact Nat.not_succ_le_self _ hle
  refine ⟨fun call hcall symbols hsymbols => ?_, fun number key hkey => ?_,
    fun number symbols hsymbols hended => ?_⟩
  · rw [hprogress]
    rcases List.mem_append.mp hcall with hmem | hadded
    · exact h.calls call hmem symbols (hold (hrun.number_le call hmem) hsymbols)
    · rw [List.mem_singleton.mp hadded] at hsymbols ⊢
      show (entry.coroutine s.tracker).Meets _ (CycleProgress.of (s.begun + 1) events) _
      rcases polled_append.mp hsymbols with hbefore | heq
      · exact absurd (hnumbers _ hbefore _ rfl) (Nat.not_succ_le_self _)
      · obtain ⟨-, rfl⟩ := AppEvent.began.inj heq
        rw [hfresh]
        refine meets_bind.mpr ((handleAnnouncements_records symbols).mono ?_)
        intro outcome progress hrecords
        cases outcome with
        | error e =>
            intro h
            cases h
        | ok _ => exact hrecords
  · rw [hprogress] at hkey
    exact h.recorded number key hkey
  · -- a call that has just begun has not ended
    have hended : AppEvent.callEnded number (.ok ()) ∈ events := by
      refine (List.mem_append.mp hended).resolve_right fun hnew => ?_
      cases List.mem_singleton.mp hnew
    exact h.returned number symbols (hold (hnumbers _ hended _ rfl) hsymbols) hended

/-- A call asks a question: its progress goes on, and that of the others stays. -/
theorem callAsked (hrun : AppRun config events s) (h : AnnouncementsKept events s) {number : ℕ}
    {before rest : List (ℕ × Coroutine Unit)} {question : Await}
    {next : question.Reply → Coroutine Unit} {reply : question.Reply} {world' : World}
    (heq : s.calls = before ++ (number, Program.ask question next) :: rest)
    (hserves : s.world.Serves question reply world') (hgrows : s.store.Grows world'.store) :
    AnnouncementsKept (events ++ [.callAsked number question reply])
      { s with world := world', calls := before ++ (number, next reply) :: rest } := by
  obtain ⟨hnumbers, hnodup⟩ := hrun.ongoing_eq
  have hprogress (m : ℕ) :=
    CycleProgress.of_append m events (.callAsked number question reply)
  have hown : CycleProgress.of number (events ++ [.callAsked number question reply]) =
      (CycleProgress.of number events).after question reply :=
    (hprogress number).trans (if_pos rfl)
  have hother {m : ℕ} (hne : number ≠ m) :
      CycleProgress.of m (events ++ [.callAsked number question reply]) = .of m events :=
    (hprogress m).trans (if_neg hne)
  -- the numbers of calls are distinct, so that the reply is part of one progress only
  have hdistinct : ∀ call ∈ before ++ rest, number ≠ call.1 := by
    rw [← hnumbers, heq, List.map_append, List.map_cons] at hnodup
    rintro call hcall rfl
    refine (List.nodup_cons.mp (List.nodup_middle.mp hnodup)).1 ?_
    rw [← List.map_append]
    exact List.mem_map.mpr ⟨call, hcall, rfl⟩
  have hpolled {m : ℕ} {symbols : List (List String)}
      (h : Polled (events ++ [.callAsked number question reply]) m symbols) :
      Polled events m symbols := by
    refine (polled_append.mp h).resolve_right ?_
    intro heq
    cases heq
  refine ⟨fun call hcall symbols hsymbols => ?_, fun m key hkey => ?_,
    fun m symbols hsymbols hended symbol hsymbol => ?_⟩
  · rcases mem_middle.mp hcall with rfl | hothers
    · have hmeets := h.calls (number, Program.ask question next)
        (heq ▸ List.mem_append_cons_self) symbols (hpolled hsymbols)
      rw [hown]
      exact hmeets.2 reply _ rfl
    · rw [hother (hdistinct call hothers)]
      exact h.calls call (heq ▸ mem_middle.mpr (Or.inr hothers)) symbols (hpolled hsymbols)
  · by_cases hm : number = m
    · subst hm
      rw [hown] at hkey
      rcases hserves.recorded hkey with hold | hnew
      · exact (h.recorded number key hold).grows hgrows
      · exact hnew
    · rw [hother hm] at hkey
      exact (h.recorded m key hkey).grows hgrows
  · have hended : AppEvent.callEnded m (.ok ()) ∈ events := by
      refine (List.mem_append.mp hended).resolve_right fun hnew => ?_
      cases List.mem_singleton.mp hnew
    exact (h.returned m symbols (hpolled hsymbols) hended symbol hsymbol).grows hgrows

/-- A call that returns has recorded its symbols. -/
theorem callEnded (h : AnnouncementsKept events s) {number : ℕ}
    {before rest : List (ℕ × Coroutine Unit)} {outcome : Except Raised Unit}
    (heq : s.calls = before ++ (number, Program.done outcome) :: rest) :
    AnnouncementsKept (events ++ [.callEnded number outcome])
      { s with calls := before ++ rest } := by
  have hprogress (m : ℕ) := CycleProgress.of_append m events (.callEnded number outcome)
  have hpolled {m : ℕ} {symbols : List (List String)}
      (h : Polled (events ++ [.callEnded number outcome]) m symbols) :
      Polled events m symbols := by
    refine (polled_append.mp h).resolve_right ?_
    intro heq
    cases heq
  refine ⟨fun call hcall symbols hsymbols => ?_, fun m key hkey => ?_,
    fun m symbols hsymbols hended symbol hsymbol => ?_⟩
  · rw [hprogress]
    exact h.calls call (heq ▸ mem_middle.mpr (Or.inr hcall)) symbols (hpolled hsymbols)
  · rw [hprogress] at hkey
    exact h.recorded m key hkey
  · rcases List.mem_append.mp hended with hbefore | hnew
    · exact h.returned m symbols (hpolled hsymbols) hbefore symbol hsymbol
    · obtain ⟨rfl, rfl⟩ := AppEvent.callEnded.inj (List.mem_singleton.mp hnew)
      have hdone := h.calls _ (heq ▸ List.mem_append_cons_self) symbols (hpolled hsymbols)
      exact h.recorded m _ (hdone rfl symbol hsymbol)

/-- One step keeps the invariant. -/
theorem step (hrun : AppRun config events s) (h : AnnouncementsKept events s)
    (hstep : AppStep s event s') : AnnouncementsKept (events ++ [event]) s' := by
  have hgrows := hstep.grows hrun.outboxInvariant
  cases hstep with
  | restarted config => exact h.of_same hgrows rfl fun call hcall => nomatch hcall
  | cycled hcycle => exact h.of_same hgrows rfl fun call hcall => hcall
  | began entry => exact began hrun h entry
  | workerAsked hworker hserves => exact h.of_same hgrows rfl fun call hcall => hcall
  | callAsked heq hserves => exact callAsked hrun h heq hserves hgrows
  | callEnded heq => exact h.callEnded heq
  | looped hworker => exact h.of_same hgrows rfl fun call hcall => hcall
  | stopRequested => exact h.of_same hgrows rfl fun call hcall => hcall

end AnnouncementsKept

theorem AppRun.announcementsKept (h : AppRun config events s) : AnnouncementsKept events s := by
  induction h with
  | nil => exact ⟨fun call hcall => (nomatch hcall), fun _ key hkey => (nomatch hkey),
      fun _ _ hpolled => (nomatch hpolled)⟩
  | snoc prior last ih =>
      have hprior : AppRun config _ _ := prior
      exact ih.step hprior last

/-- The symbols of a call are those of the announcements of a page, each set in the order in which
it is iterated. -/
def IsPage (isAlnum : Char → Bool) (page : List Announcement) (symbols : List (List String)) :
    Prop :=
  List.Forall₂ (fun (announcement : Announcement) (order : List String) =>
    (order : Multiset String) = (symbolsFromAnnouncement isAlnum announcement).val) page symbols

theorem IsPage.mem_flatten {isAlnum : Char → Bool} {page : List Announcement}
    {symbols : List (List String)} {symbol : String} (h : IsPage isAlnum page symbols) :
    symbol ∈ symbols.flatten ↔
      ∃ announcement ∈ page, symbol ∈ symbolsFromAnnouncement isAlnum announcement := by
  induction h with
  | nil => simp
  | @cons announcement order page symbols horder _ ih =>
      have hmem : symbol ∈ order ↔ symbol ∈ symbolsFromAnnouncement isAlnum announcement := by
        rw [← Multiset.mem_coe, horder, Finset.mem_val]
      simp [ih, hmem]

/-- The symbol is one of an announcement on a page that was handled. -/
def IsNamed (isAlnum : Char → Bool) (events : List AppEvent) (symbol : String) : Prop :=
  ∃ number symbols page, Polled events number symbols ∧ IsPage isAlnum page symbols ∧
    ∃ announcement ∈ page, symbol ∈ symbolsFromAnnouncement isAlnum announcement

/-- **Announcements are recorded.** In every run of the application, with any interleaving of its
tasks, any failures and any restarts, a symbol is recorded as announced only if an announcement on a
page that was handled names it; and once the handling of a page has returned, every symbol that the
page names is recorded. -/
theorem announcements_recorded (isAlnum : Char → Bool) (h : AppRun config events s)
    (hpages : ∀ number symbols, Polled events number symbols →
      ∃ page, IsPage isAlnum page symbols) :
    (∀ event ∈ s.store.listingEvents, event.eventType = .announced →
      event.category = none ∧ event.eventKey = announcedKey event.symbol ∧
        IsNamed isAlnum events event.symbol) ∧
    ∀ number symbols page, Polled events number symbols → IsPage isAlnum page symbols →
      .callEnded number (.ok ()) ∈ events →
        ∀ announcement ∈ page, ∀ symbol ∈ symbolsFromAnnouncement isAlnum announcement,
          s.store.HasEvent (announcedKey symbol) := by
  constructor
  · have hnamed : ∀ number symbols, Polled events number symbols →
        ∀ symbol ∈ symbols.flatten, IsNamed isAlnum events symbol := by
      intro number symbols hpolled symbol hsymbol
      obtain ⟨page, hpage⟩ := hpages number symbols hpolled
      exact ⟨number, symbols, page, hpolled, hpage, hpage.mem_flatten.mp hsymbol⟩
    exact (h.announced hnamed).2
  · intro number symbols page hpolled hpage hended announcement hmem symbol hsymbol
    refine h.announcementsKept.returned number symbols hpolled hended symbol ?_
    exact hpage.mem_flatten.mpr ⟨announcement, hmem, hsymbol⟩

end Runs

/-- The call of `handle_announcements` that an event begins. -/
def AppEvent.announcements : AppEvent → Option (ℕ × List (List String))
  | .began number (.handleAnnouncements symbols) => some (number, symbols)
  | _ => none

theorem polled_iff {events : List AppEvent} {number : ℕ} {symbols : List (List String)} :
    Polled events number symbols ↔
      (number, symbols) ∈ events.filterMap AppEvent.announcements := by
  rw [Polled, List.mem_filterMap]
  constructor
  · exact fun h => ⟨_, h, rfl⟩
  · rintro ⟨event, hevent, hcall⟩
    obtain rfl : event = .began number (.handleAnnouncements symbols) := by
      unfold AppEvent.announcements at hcall
      split at hcall
      · cases hcall
        rfl
      · cases hcall
    exact hevent

/-- The announcement of one market. -/
def newListing : Announcement where
  id := "1"
  title := "New Listing: ABCUSDT"
  description := ""
  typeKey := .string "new_crypto"
  typeTitle := .null
  tags := []
  timestamp := 0
  announcementType := .string "new_crypto"
  metadata := []

/-- A page with the announcement is handled. -/
def newListingInputs : List AppInput :=
  .begin (.handleAnnouncements [["ABCUSDT"]]) :: List.replicate 5 (.call 1 { now := 100 }) ++
    [.finish 1]

/-- The market is recorded, and it is the only one. -/
theorem announcements_recorded_newListing :
    let run := performAll .default newListingInputs
    run.2.store.HasEvent "announcement:ABCUSDT:announced" ∧
      ∀ event ∈ run.2.store.listingEvents, event.eventType = .announced →
        IsNamed (fun _ => false) run.1 event.symbol := by
  intro run
  have hcalls : run.1.filterMap AppEvent.announcements = [(1, [["ABCUSDT"]])] := by
    decide +kernel
  have hpage : IsPage (fun _ => false) [newListing] [["ABCUSDT"]] :=
    .cons (by decide +kernel) .nil
  have hrecorded := announcements_recorded (fun _ => false)
    (run_performAll .default newListingInputs) (by
      intro number symbols hpolled
      have hcall := polled_iff.mp hpolled
      rw [hcalls] at hcall
      cases List.mem_singleton.mp hcall
      exact ⟨_, hpage⟩)
  have hpolled : Polled run.1 1 [["ABCUSDT"]] :=
    polled_iff.mpr (hcalls ▸ List.mem_singleton_self _)
  have hended : AppEvent.callEnded 1 (.ok ()) ∈ run.1 := by
    have hreturned : 1 ∈ run.1.filterMap AppEvent.returnedCall := by decide +kernel
    obtain ⟨event, hevent, hcall⟩ := List.mem_filterMap.mp hreturned
    exact AppEvent.eq_of_returnedCall hcall ▸ hevent
  refine ⟨?_, fun event hevent htype => (hrecorded.1 event hevent htype).2.2⟩
  exact hrecorded.2 1 _ _ hpolled hpage hended newListing (List.mem_singleton_self _) "ABCUSDT"
    (by decide +kernel)

end BybitMonitor
