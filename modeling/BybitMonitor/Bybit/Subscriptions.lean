import Mathlib
import BybitMonitor.Bybit.Stream
import BybitMonitor.ToMathlib.Exclusive

/-!
# The subscriptions of a stream

A symbol is reserved by a batch that is not sent yet, then pending, then confirmed. The lock admits
one task at a time to the reservations; a reconnect empties the other two stages from outside the
lock, and acknowledgements move symbols between them.

* `Tracks`: what ties the subscriptions of a client to the effects of its run.
* `StreamRun.tracks`: every run keeps it.
* `subscriptions_sound`: the stages share no symbol, no request id is used twice, every
  confirmed symbol was acknowledged on the current connection, and the first acknowledgement of a
  request finds it.
-/

namespace BybitMonitor

/-! ## The effects of a run -/

/-- The effects of a run, in their order. -/
def effectsOf (events : List StreamEvent) : List Effect := events.flatMap Prod.snd

theorem effectsOf_append (events : List StreamEvent) (event : StreamEvent) :
    effectsOf (events ++ [event]) = effectsOf events ++ event.2 := by
  simp [effectsOf]

/-- The registered requests. -/
def requestsOf (history : List Effect) : List PendingSubscription :=
  history.filterMap fun effect =>
    match effect with
    | .requested _ request => some request
    | _ => none

/-- The requests whose frames were handed to a connection. -/
def requestsOn (connection : ℕ) (history : List Effect) : List PendingSubscription :=
  history.filterMap fun effect =>
    match effect with
    | .requested (some n) request => if n = connection then some request else none
    | _ => none

theorem requestsOf_append (history effects : List Effect) :
    requestsOf (history ++ effects) = requestsOf history ++ requestsOf effects :=
  List.filterMap_append

theorem requestsOn_append (connection : ℕ) (history effects : List Effect) :
    requestsOn connection (history ++ effects) =
      requestsOn connection history ++ requestsOn connection effects :=
  List.filterMap_append

theorem mem_requestsOn {connection : ℕ} {history : List Effect} {request : PendingSubscription} :
    request ∈ requestsOn connection history ↔ .requested (some connection) request ∈ history := by
  rw [requestsOn, List.mem_filterMap]
  constructor
  · rintro ⟨effect, hmem, heq⟩
    split at heq
    · split at heq
      · rename_i hn
        cases heq
        exact hn ▸ hmem
      · cases heq
    · cases heq
  · exact fun hmem => ⟨_, hmem, if_pos rfl⟩

/-- The requests on one connection are among all requests, in the same order. -/
theorem requestsOn_sublist (connection : ℕ) (history : List Effect) :
    (requestsOn connection history).Sublist (requestsOf history) := by
  -- a request counts on at most one connection
  induction history with
  | nil => exact List.Sublist.refl _
  | cons effect history ih =>
      cases effect with
      | requested n request =>
          cases n with
          | none => exact ih.cons request
          | some n =>
              by_cases hn : n = connection
              · simpa [requestsOn, requestsOf, hn] using ih
              · simpa [requestsOn, requestsOf, hn] using ih.cons request
      | _ => exact ih

/-! ## Request ids -/

/-- Different numbers make different request ids. -/
theorem subscriptionReqId_injective (category : String) :
    Function.Injective (subscriptionReqId category) := by
  intro n m h
  have hchars := congrArg String.toList h
  simp only [subscriptionReqId, String.toList_append] at hchars
  exact Nat.repr_injective (String.toList_inj.mp (List.append_cancel_left hchars))

/-- The first ids that a client of the category uses. -/
def reqIdsUpTo (category : String) (sequence : ℕ) : List String :=
  (List.range sequence).map fun n => subscriptionReqId category (n + 1)

theorem reqIdsUpTo_nodup (category : String) (sequence : ℕ) :
    (reqIdsUpTo category sequence).Nodup :=
  List.nodup_range.map fun _ _ h => Nat.succ.inj (subscriptionReqId_injective category h)

theorem reqIdsUpTo_succ (category : String) (sequence : ℕ) :
    reqIdsUpTo category (sequence + 1) =
      reqIdsUpTo category sequence ++ [subscriptionReqId category (sequence + 1)] := by
  rw [reqIdsUpTo, List.range_succ, List.map_append]
  rfl

/-- The next id is a new one. -/
theorem subscriptionReqId_not_mem (category : String) (sequence : ℕ) :
    subscriptionReqId category (sequence + 1) ∉ reqIdsUpTo category sequence := by
  have hnodup := reqIdsUpTo_nodup category (sequence + 1)
  rw [reqIdsUpTo_succ] at hnodup
  exact fun hmem => (List.nodup_append'.mp hnodup).2.2 hmem (List.mem_singleton_self _)

/-! ## The invariant -/

/-- What ties the subscriptions of a client to the effects of its run: `connection` is the current
connection, and `reserved` are the symbols that the holder of the lock has still to request. -/
structure Tracks (category : String) (history : List Effect) (connection : ℕ)
    (client : BybitWebSocketClient) (reserved : List String) : Prop where
  exclusive : Exclusive client.subscribed
    (client.pendingSubscriptions.map PendingSubscription.symbols) reserved
  numbered : (requestsOf history).map PendingSubscription.reqId =
    reqIdsUpTo category client.sequence
  /-- Connections are numbered upwards. -/
  bounded : ∀ n request, .requested (some n) request ∈ history → n ≤ connection
  pending_sublist : client.pendingSubscriptions.Sublist (requestsOn connection history)
  confirmed : ∀ symbol ∈ client.subscribed, ∃ request,
    .requested (some connection) request ∈ history ∧ symbol ∈ request.symbols ∧
      .acknowledged (some connection) request.reqId true ∈ history
  /-- A request is pending until its send fails or it is acknowledged. -/
  awaits : ∀ request, .requested (some connection) request ∈ history →
    .sendFailed request.reqId ∉ history →
    (∀ success, .acknowledged (some connection) request.reqId success ∉ history) →
    request ∈ client.pendingSubscriptions

namespace Tracks

variable {category : String} {history effects : List Effect} {connection : ℕ}
  {client other : BybitWebSocketClient} {reserved reserved' : List String}

theorem start : Tracks category [] 0 {} [] where
  exclusive := Exclusive.empty
  numbered := rfl
  bounded := by simp
  pending_sublist := List.Sublist.refl _
  confirmed := by simp
  awaits := by simp

/-- The invariant depends on the subscriptions only. -/
theorem congr (h : Tracks category history connection client reserved)
    (hagrees : client.Agrees other) : Tracks category history connection other reserved := by
  obtain ⟨-, hsubscribed, hpending, hsequence⟩ := hagrees
  constructor
  · rw [hsubscribed, hpending]
    exact h.exclusive
  · rw [hsequence]
    exact h.numbered
  · exact h.bounded
  · rw [hpending]
    exact h.pending_sublist
  · rw [hsubscribed]
    exact h.confirmed
  · rw [hpending]
    exact h.awaits

/-- Confirmed symbols stay acknowledged. -/
theorem confirmed_append (h : Tracks category history connection client reserved)
    (effects : List Effect) : ∀ symbol ∈ client.subscribed, ∃ request,
      .requested (some connection) request ∈ history ++ effects ∧ symbol ∈ request.symbols ∧
        .acknowledged (some connection) request.reqId true ∈ history ++ effects := by
  intro symbol hsymbol
  obtain ⟨request, hrequest, hmem, hack⟩ := h.confirmed symbol hsymbol
  exact ⟨request, List.mem_append_left _ hrequest, hmem, List.mem_append_left _ hack⟩

/-- An earlier request that has neither failed nor been acknowledged is still pending. -/
theorem awaits_append (h : Tracks category history connection client reserved)
    (effects : List Effect) {request : PendingSubscription}
    (hrequest : .requested (some connection) request ∈ history)
    (hfailed : .sendFailed request.reqId ∉ history ++ effects)
    (hacks : ∀ success,
      .acknowledged (some connection) request.reqId success ∉ history ++ effects) :
    request ∈ client.pendingSubscriptions := by
  refine h.awaits request hrequest ?_ fun success => ?_
  · exact fun hmem => hfailed (List.mem_append_left _ hmem)
  · exact fun hmem => hacks success (List.mem_append_left _ hmem)

/-- Effects that register no request. -/
theorem extend (h : Tracks category history connection client reserved)
    (hnone : requestsOf effects = []) :
    Tracks category (history ++ effects) connection client reserved := by
  have hnot (n : Option ℕ) (request : PendingSubscription) :
      .requested n request ∈ history ++ effects → .requested n request ∈ history := by
    intro hmem
    rcases List.mem_append.mp hmem with hold | hnew
    · exact hold
    · have hrequest : request ∈ requestsOf effects := List.mem_filterMap.mpr ⟨_, hnew, rfl⟩
      rw [hnone] at hrequest
      cases hrequest
  -- without a new request every part of the invariant only looks further back
  constructor
  · exact h.exclusive
  · rw [requestsOf_append, hnone, List.append_nil]
    exact h.numbered
  · exact fun n request hmem => h.bounded n request (hnot _ _ hmem)
  · rw [requestsOn_append]
    exact h.pending_sublist.trans (List.sublist_append_left _ _)
  · exact h.confirmed_append effects
  · exact fun request hrequest => h.awaits_append effects (hnot _ _ hrequest)

/-- The reservations may be dropped. -/
theorem release (h : Tracks category history connection client reserved)
    (hsub : reserved'.Sublist reserved) : Tracks category history connection client reserved' :=
  { h with exclusive := h.exclusive.withdraw (List.Sublist.refl _) hsub }

/-- Symbols that are neither confirmed nor pending may be reserved. -/
theorem reserve (h : Tracks category history connection client []) (hnodup : reserved.Nodup)
    (hfree : ∀ symbol ∈ reserved, symbol ∉ client.subscribed ∧ symbol ∉ client.pendingSymbols) :
    Tracks category history connection client reserved := by
  refine { h with exclusive := h.exclusive.reserve hnodup fun symbol hmem => ?_ }
  refine ⟨(hfree symbol hmem).1, fun hpending => (hfree symbol hmem).2 ?_⟩
  rw [BybitWebSocketClient.pendingSymbols, List.mem_toFinset, List.flatMap_def]
  exact hpending

/-- A reconnect keeps only what the holder of the lock has still to request. -/
theorem established (h : Tracks category history connection client reserved)
    (connectedAt pingAt : ℚ) :
    Tracks category history (connection + 1)
      (client.established (connection + 1) connectedAt pingAt) reserved where
  -- the reservations of a send in progress survive the reset
  exclusive := h.exclusive.clear
  numbered := h.numbered
  bounded := fun n request hmem => Nat.le_succ_of_le (h.bounded n request hmem)
  pending_sublist := List.nil_sublist _
  confirmed := by simp [BybitWebSocketClient.established]
  -- no request has been made on the new connection yet
  awaits := fun request hmem => absurd (h.bounded _ request hmem) (Nat.not_succ_le_self _)

/-- The end of a connection keeps the subscriptions until the next. -/
theorem cleanUp (h : Tracks category history connection client reserved) :
    Tracks category history connection client.cleanUp reserved :=
  ⟨h.exclusive, h.numbered, h.bounded, h.pending_sublist, h.confirmed, h.awaits⟩

/-- A registered request takes its symbols from the reservations. -/
theorem register {batch : List String} {now : ℚ}
    (h : Tracks category history connection client (batch ++ reserved)) :
    Tracks category
      (history ++ [.requested (some connection) (client.nextRequest category batch now)])
      connection (client.register (client.nextRequest category batch now)) reserved := by
  set request := client.nextRequest category batch now with hrequest
  have honNew : requestsOn connection [.requested (some connection) request] = [request] := by
    simp [requestsOn]
  -- the new request is the last one, in the history as in the map
  constructor
  · have hlots : (client.register request).pendingSubscriptions.map PendingSubscription.symbols =
        client.pendingSubscriptions.map PendingSubscription.symbols ++ [batch] := by
      simp [BybitWebSocketClient.register, hrequest, BybitWebSocketClient.nextRequest]
    rw [hlots]
    exact h.exclusive.submit
  · rw [requestsOf_append, List.map_append, h.numbered]
    exact (reqIdsUpTo_succ category client.sequence).symm
  · intro n other hmem
    rcases List.mem_append.mp hmem with hold | hnew
    · exact h.bounded n other hold
    · cases List.mem_singleton.mp hnew
      exact Nat.le_refl _
  · rw [requestsOn_append, honNew]
    exact h.pending_sublist.append (List.Sublist.refl _)
  · exact h.confirmed_append _
  · intro r hr hfailed hacks
    rcases List.mem_append.mp hr with hold | hnew
    · exact List.mem_append_left _ (h.awaits_append _ hold hfailed hacks)
    · cases List.mem_singleton.mp hnew
      exact List.mem_append_right _ (List.mem_singleton_self _)

/-- A pending request has an id that was used. -/
theorem reqId_mem (h : Tracks category history connection client reserved)
    {pending : PendingSubscription} (hmem : pending ∈ client.pendingSubscriptions) :
    pending.reqId ∈ reqIdsUpTo category client.sequence := by
  rw [← h.numbered]
  exact List.mem_map_of_mem
    ((requestsOn_sublist connection history).subset (h.pending_sublist.subset hmem))

/-- Pending requests have different ids. -/
theorem reqIds_nodup (h : Tracks category history connection client reserved) :
    (client.pendingSubscriptions.map PendingSubscription.reqId).Nodup := by
  have hsub := (h.pending_sublist.trans (requestsOn_sublist connection history)).map
    PendingSubscription.reqId
  rw [h.numbered] at hsub
  exact (reqIdsUpTo_nodup category client.sequence).sublist hsub

/-- A request that is registered without a connection is withdrawn at once. -/
theorem registerUnsent {batch : List String} {now : ℚ}
    (h : Tracks category history connection client reserved) :
    Tracks category
      (history ++ [.requested none (client.nextRequest category batch now),
        .sendFailed (client.nextRequest category batch now).reqId])
      connection
      ((client.register (client.nextRequest category batch now)).dropPending
        (client.nextRequest category batch now).reqId) reserved := by
  set request := client.nextRequest category batch now with hrequest
  -- the filter that withdraws the new request keeps the others, whose ids differ
  have hkeep : ((client.register request).dropPending request.reqId).pendingSubscriptions =
      client.pendingSubscriptions := by
    simp only [BybitWebSocketClient.dropPending, BybitWebSocketClient.register,
      List.filter_append]
    rw [List.filter_eq_self.mpr]
    · simp
    · intro pending hmem
      have hused := h.reqId_mem hmem
      refine decide_eq_true fun heq => subscriptionReqId_not_mem category client.sequence ?_
      rwa [heq] at hused
  have hon : requestsOn connection [.requested none request, .sendFailed request.reqId] = [] := rfl
  constructor
  · rw [hkeep]
    exact h.exclusive
  · rw [requestsOf_append, List.map_append, h.numbered]
    exact (reqIdsUpTo_succ category client.sequence).symm
  · intro n other hmem
    refine h.bounded n other ?_
    simpa using hmem
  · rw [hkeep, requestsOn_append, hon, List.append_nil]
    exact h.pending_sublist
  · exact h.confirmed_append _
  · intro r hr
    rw [hkeep]
    exact h.awaits_append _ (by simpa using hr)

/-- A failed send withdraws its own request. -/
theorem sendFailed (h : Tracks category history connection client reserved) (reqId : String) :
    Tracks category (history ++ [.sendFailed reqId]) connection (client.dropPending reqId)
      reserved := by
  have hextended : Tracks category (history ++ [.sendFailed reqId]) connection client reserved :=
    h.extend rfl
  refine { hextended with
    exclusive := h.exclusive.withdraw (List.filter_sublist.map _) (List.Sublist.refl _)
    pending_sublist := List.filter_sublist.trans hextended.pending_sublist
    awaits := fun request hrequest hfailed hacks => ?_ }
  refine List.mem_filter.mpr ⟨hextended.awaits request hrequest hfailed hacks, ?_⟩
  -- the withdrawn request is the one whose send has failed
  refine decide_eq_true fun heq => hfailed ?_
  rw [heq]
  exact List.mem_append_right _ (List.mem_singleton_self _)

/-- An acknowledgement resolves its own request. -/
theorem acknowledge (h : Tracks category history connection client reserved) {reqId : String}
    {pending : PendingSubscription} (success : Bool)
    (hfind : client.pendingSubscriptions.find? (fun p => p.reqId = reqId) = some pending) :
    Tracks category (history ++ [.acknowledged (some connection) pending.reqId success]) connection
      (if success then
        { client.dropPending pending.reqId with
          subscribed := client.subscribed ∪ pending.symbols.toFinset }
      else client.dropPending pending.reqId) reserved := by
  have hmem : pending ∈ client.pendingSubscriptions := List.mem_of_find?_eq_some hfind
  have hextended : Tracks category
      (history ++ [.acknowledged (some connection) pending.reqId success]) connection client
      reserved := h.extend rfl
  -- a request that is still awaited has another id
  have hawaits (request : PendingSubscription)
      (hrequest : .requested (some connection) request ∈
        history ++ [.acknowledged (some connection) pending.reqId success])
      (hfailed : .sendFailed request.reqId ∉
        history ++ [.acknowledged (some connection) pending.reqId success])
      (hacks : ∀ success', .acknowledged (some connection) request.reqId success' ∉
        history ++ [.acknowledged (some connection) pending.reqId success]) :
      request ∈ (client.dropPending pending.reqId).pendingSubscriptions := by
    refine List.mem_filter.mpr ⟨hextended.awaits request hrequest hfailed hacks, ?_⟩
    refine decide_eq_true fun heq => hacks success ?_
    rw [heq]
    exact List.mem_append_right _ (List.mem_singleton_self _)
  have hdropped : (client.dropPending pending.reqId).pendingSubscriptions.Sublist
      (requestsOn connection
        (history ++ [.acknowledged (some connection) pending.reqId success])) :=
    List.filter_sublist.trans hextended.pending_sublist
  cases success with
  | false =>
      exact { hextended with
        exclusive := h.exclusive.withdraw (List.filter_sublist.map _) (List.Sublist.refl _)
        pending_sublist := hdropped
        awaits := hawaits }
  | true =>
      refine { hextended with
        exclusive := ?_
        pending_sublist := hdropped
        confirmed := fun symbol hsymbol => ?_
        awaits := hawaits }
      · -- no other pending request has the id, so exactly this lot is settled
        obtain ⟨before, after, hsplit⟩ := List.append_of_mem hmem
        have hothers : (client.dropPending pending.reqId).pendingSubscriptions =
            before ++ after := by
          have hnodup := h.reqIds_nodup
          rw [hsplit, List.map_append, List.map_cons, List.nodup_middle, List.nodup_cons,
            ← List.map_append] at hnodup
          have hne (p : PendingSubscription) (hp : p ∈ before ++ after) :
              p.reqId ≠ pending.reqId :=
            fun heq => hnodup.1 (heq ▸ List.mem_map_of_mem hp)
          rw [BybitWebSocketClient.dropPending, hsplit, List.filter_append, List.filter_cons,
            if_neg (by simp), ← List.filter_append]
          exact List.filter_eq_self.mpr fun p hp => decide_eq_true (hne p hp)
        have hexclusive := h.exclusive
        rw [hsplit, List.map_append, List.map_cons] at hexclusive
        simp only [if_true, hothers, List.map_append]
        exact hexclusive.settle
      · rcases Finset.mem_union.mp hsymbol with hold | hnew
        · exact hextended.confirmed symbol hold
        · refine ⟨pending, ?_, List.mem_toFinset.mp hnew, ?_⟩
          · exact List.mem_append_left _ (mem_requestsOn.mp (h.pending_sublist.subset hmem))
          · exact List.mem_append_right _ (List.mem_singleton_self _)

/-- Unsubscribed symbols are no longer confirmed. -/
theorem unsubscribed (h : Tracks category history connection client reserved)
    (symbols : Finset String) :
    Tracks category history connection { client with subscribed := client.subscribed \ symbols }
      reserved :=
  { h with
    exclusive := h.exclusive.forget Finset.sdiff_subset
    confirmed := fun symbol hsymbol => h.confirmed symbol (Finset.sdiff_subset hsymbol) }

end Tracks

/-! ## The lock -/

/-- The symbols that the batch loop has still to request after the send it awaits. -/
def Sending.reserved (self : Sending) : List String :=
  if self.reqId.isSome then self.rest.flatten else []

def SendProgress.reserved : SendProgress → List String
  | .sending state => state.reserved
  | .returned _ => []

/-- The reservations of the holder of the lock. -/
def StreamState.reserved (s : StreamState) : List String :=
  match s.lock with
  | some (_, sending) => sending.reserved
  | none => []

namespace Tracks

variable {category : String} {history effects : List Effect} {connection : ℕ}
  {client : BybitWebSocketClient} {reserved : List String} {now : ℚ}

/-- A round of a subscribing batch loop turns reservations into a pending request. -/
theorem sendNext_subscribe {rounds : List (List String)}
    (h : Tracks category history connection client rounds.flatten)
    (hws : ∀ n, client.ws = some n → n = connection) :
    Tracks category (history ++ (client.sendNext category .subscribe now rounds).effects) connection
      (client.sendNext category .subscribe now rounds).client
      (client.sendNext category .subscribe now rounds).progress.reserved := by
  cases rounds with
  | nil => simpa [BybitWebSocketClient.sendNext, SendProgress.reserved] using h
  | cons batch rest =>
      rw [BybitWebSocketClient.sendNext.eq_def]
      cases hconnection : client.ws with
      | some n =>
          obtain rfl : n = connection := hws n hconnection
          exact h.register
      -- without a connection the send raises, and the rest of the batches is dropped
      | none => exact (h.release (List.nil_sublist _)).registerUnsent

/-- An unsubscribing batch loop reserves nothing. -/
theorem sendNext_unsubscribe (h : Tracks category history connection client [])
    (rounds : List (List String)) :
    Tracks category (history ++ (client.sendNext category .unsubscribe now rounds).effects)
      connection (client.sendNext category .unsubscribe now rounds).client
      (client.sendNext category .unsubscribe now rounds).progress.reserved := by
  cases rounds with
  | nil => simpa [BybitWebSocketClient.sendNext, SendProgress.reserved] using h
  | cons batch rest =>
      rw [BybitWebSocketClient.sendNext.eq_def]
      cases client.ws with
      | some n => exact h.extend rfl
      | none => exact h.extend rfl

/-- `resubscribe` reserves what is neither confirmed nor pending. -/
theorem resubscribe (h : Tracks category history connection client [])
    (hws : ∀ n, client.ws = some n → n = connection) (config : Settings) :
    Tracks category (history ++ (client.resubscribe config category now).effects) connection
      (client.resubscribe config category now).client
      (client.resubscribe config category now).progress.reserved := by
  refine sendNext_subscribe ((h.reserve ?_ ?_).release
    (List.flatten_slices_prefix (l := PyText.sorted
      ((client.desiredSymbols \ client.subscribed) \ client.pendingSymbols))).sublist) hws
  · exact PyText.nodup_sorted _
  · intro symbol hmem
    obtain ⟨hmissing, hpending⟩ := Finset.mem_sdiff.mp (PyText.mem_sorted.mp hmem)
    exact ⟨(Finset.mem_sdiff.mp hmissing).2, hpending⟩

/-- The holder of the lock goes on after its send. -/
theorem resumeSend {sending : Sending}
    (h : Tracks category history connection client sending.reserved)
    (hws : ∀ n, client.ws = some n → n = connection) (outcome : Except PyExc ℚ) :
    Tracks category (history ++ (client.resumeSend category sending outcome).effects) connection
      (client.resumeSend category sending outcome).client
      (client.resumeSend category sending outcome).progress.reserved := by
  obtain ⟨reqId, batch, rest⟩ := sending
  -- a send that returned goes on to the next batch, one that raised ends the loop
  cases outcome with
  | ok now =>
      cases reqId with
      | some reqId => exact h.sendNext_subscribe hws
      | none => exact (h.unsubscribed batch.toFinset).sendNext_unsubscribe rest
  | error exc =>
      have hreleased := h.release (List.nil_sublist _)
      cases reqId with
      | none => simpa [BybitWebSocketClient.resumeSend, SendProgress.reserved] using hreleased
      | some reqId =>
          rw [BybitWebSocketClient.resumeSend]
          dsimp only
          split
          · exact hreleased.sendFailed reqId
          · simpa [SendProgress.reserved] using hreleased

/-- A frame with `op` equal to `subscribe` resolves at most one request. -/
theorem handleSubscribeAck (h : Tracks category history connection client reserved)
    (hws : client.ws = some connection) (data : List (String × Json)) :
    Tracks category (history ++ (client.handleSubscribeAck data).effects) connection
      (client.handleSubscribeAck data).client reserved := by
  rw [BybitWebSocketClient.handleSubscribeAck]
  dsimp only
  split
  · simpa using h
  · exact h.extend rfl
  · rename_i pending hlookup
    obtain ⟨reqId, -, hfind⟩ := BybitWebSocketClient.lookupPending_some hlookup
    rw [hws]
    split
    · exact h.acknowledge true hfind
    · exact h.acknowledge false hfind

/-- A received frame resolves at most one request. -/
theorem handleRaw (h : Tracks category history connection client reserved)
    (hws : client.ws = some connection) (raw : RawJson) (noted : ℚ) (raised : Option PyExc) :
    Tracks category (history ++ (client.handleRaw category raw noted raised).effects) connection
      (client.handleRaw category raw noted raised).client reserved := by
  rcases @BybitWebSocketClient.handleRaw_cases client category raw noted raised with
    ⟨noticed, data, hagrees, heq⟩ | ⟨hagrees, hmessages⟩
  · rw [heq]
    exact (h.congr hagrees).handleSubscribeAck (hagrees.ws_eq.trans hws) data
  · refine (h.extend ?_).congr hagrees
    refine List.filterMap_eq_nil_iff.mpr fun effect hmem => ?_
    obtain ⟨payload, rfl⟩ := hmessages effect hmem
    rfl

end Tracks

theorem StreamState.follow_reserved (s : StreamState) (task : TaskName) (sendRun : SendRun) :
    (s.follow task sendRun).reserved = sendRun.progress.reserved := by
  rw [follow]
  split
  · rename_i state hprogress
    rw [hprogress]
    rfl
  · rename_i outcome hprogress
    rw [reserved, opReturned_lock, hprogress]
    rfl

/-! ## Runs -/

/-- The invariant of a stream and the effects of its run. -/
def StreamState.Tracked (category : String) (history : List Effect) (s : StreamState) : Prop :=
  Tracks category history s.connections s.client s.reserved

section

variable {config : Settings} {category : String} {history effects : List Effect}
  {s t : StreamState} {action : Action}

/-- The run task goes on. -/
theorem StreamState.Continues.tracked (hcont : s.Continues t) (h : s.Tracked category history) :
    t.Tracked category history := by
  rw [StreamState.Tracked, StreamState.reserved, hcont.connections_eq, hcont.lock_eq]
  exact Tracks.congr h hcont.agrees

/-- A task in the critical section goes on. -/
theorem StreamState.follow_tracked {task : TaskName} {sendRun : SendRun}
    (h : Tracks category history s.connections sendRun.client sendRun.progress.reserved) :
    (s.follow task sendRun).Tracked category history := by
  rw [StreamState.Tracked, StreamState.follow_reserved, StreamState.follow_client,
    StreamState.follow_connections]
  exact h

/-- What a task does when it enters its critical section. -/
theorem StreamState.Tracked.enter (h : s.Tracked category history) (hs : StreamInvariant s)
    {task : TaskName} {now : ℚ} {sendRun : SendRun} (hfree : s.lock = none)
    (henter : s.enter config category now task = some sendRun) :
    (s.follow task sendRun).Tracked category (history ++ sendRun.effects) := by
  have htracks : Tracks category history s.connections s.client [] := by
    have hnone : s.reserved = [] := by rw [StreamState.reserved, hfree]
    exact hnone ▸ h
  have hws (n : ℕ) : s.client.ws = some n → n = s.connections := hs.ws_current
  refine StreamState.follow_tracked ?_
  rcases StreamState.enter_cases henter with ⟨rfl, -⟩ | ⟨-, symbols, rfl⟩
  · exact htracks.resubscribe hws config
  · exact htracks.sendNext_unsubscribe _

/-- Every move keeps the invariant. -/
theorem StreamState.Tracked.move (h : s.Tracked category history) (hs : StreamInvariant s)
    (hmove : StreamMove config category s action effects t) :
    t.Tracked category (history ++ effects) := by
  have hws (n : ℕ) : s.client.ws = some n → n = s.connections := hs.ws_current
  have hquiet : s.Tracked category (history ++ []) := (List.append_nil history).symm ▸ h
  -- most moves leave the subscriptions alone and have no effects
  cases hmove with
  | requestStop => exact hquiet
  | sync hidle => exact hquiet.congr (BybitWebSocketClient.agrees_setSymbols _)
  | acquire hfree henter => exact h.enter hs hfree henter
  | @sent task sending outcome hheld =>
      refine StreamState.follow_tracked (Tracks.resumeSend ?_ hws outcome)
      have hreserved : s.reserved = sending.reserved := by rw [StreamState.reserved, hheld]
      exact hreserved ▸ h
  | cancelBackoff htask => exact hquiet
  | cancelClosing htask => exact hquiet.cleanUp
  | cancelWaiting htask hwaits => exact hquiet
  | cancelSync hwaits => exact hquiet
  | stopped htask hstop => exact hquiet
  | connect htask hstop => exact hquiet.congr (BybitWebSocketClient.agrees_setStatus _)
  | connectFailed htask => exact hquiet.cleanUp
  | connected htask => exact hquiet.established _ _
  | callback htask => exact (StreamState.loopsTo_callbackReturned _).continues.tracked hquiet
  | deliver => exact hquiet
  | timeout htask =>
      refine (StreamState.loopsTo_checkWatchdogs ?_).continues.tracked hquiet
      split
      · exact .awaits rfl
      · exact StreamState.loopsTo_loopHead
  | pinged htask =>
      exact StreamState.loopsTo_loopHead.continues.tracked (hquiet.congr ⟨rfl, rfl, rfl, rfl⟩)
  | pingFailed htask => exact (StreamState.loopsTo_leave _).continues.tracked hquiet
  | @receive noted ackCheck tickerCheck ended raised raw arrival inbox htask hinbox =>
      refine (StreamState.loopsTo_receiveFrame _ _ _ _ _ _ _).continues.tracked ?_
      exact Tracks.handleRaw h (hs.ws_connected (by rw [htask]; rfl)) raw noted raised
  | recvFailed htask => exact (StreamState.loopsTo_leave _).continues.tracked hquiet
  | closed htask => exact hquiet.cleanUp

end

/-- Every run keeps the invariant. -/
theorem StreamRun.tracks {config : AdmittedSettings} {category : String} {clock : ℚ}
    {events : List StreamEvent} {s : StreamState} (h : StreamRun config category clock events s) :
    s.Tracked category (effectsOf events) := by
  refine @Trace.invariant _ _ _ _ _ _ (fun events s => s.Tracked category (effectsOf events))
    Tracks.start (fun events s event s' prior hs hstep => ?_) h
  obtain ⟨-, t, hmove, rfl⟩ := StreamStep.move hstep
  rw [effectsOf_append]
  have hmoved := hs.move (StreamRun.invariant prior) hmove
  exact hmoved

/-! ## Acknowledgements -/

/-- A step classifies an acknowledgement as unknown only if it is on the current connection and no
pending request has its id. -/
theorem StreamMove.unknownAck {config : Settings} {category : String} {s t : StreamState}
    {action : Action} {effects : List Effect}
    (hmove : StreamMove config category s action effects t) {connection : Option ℕ} {reqId : Json}
    (h : .unknownAck connection reqId ∈ effects) :
    connection = s.client.ws ∧ s.client.lookupPending reqId = .ok none := by
  -- only received frames are classified
  cases hmove with
  | @acquire task now sendRun hfree henter =>
      refine absurd h ?_
      rcases StreamState.enter_cases henter with ⟨rfl, -⟩ | ⟨-, symbols, rfl⟩
      · exact BybitWebSocketClient.sendNext_not_unknown _ _ _ _ _
      · exact BybitWebSocketClient.sendNext_not_unknown _ _ _ _ _
  | sent hheld => exact absurd h (BybitWebSocketClient.resumeSend_not_unknown _ _ _ _)
  | receive htask hinbox => exact BybitWebSocketClient.handleRaw_unknown h
  | _ => cases h

/-- What the subscriptions of a stream satisfy after the run `events`. -/
structure SubscriptionsSound (events : List StreamEvent) (s : StreamState) : Prop where
  pending_disjoint : s.client.pendingSubscriptions.Pairwise fun p q => p.symbols.Disjoint q.symbols
  confirmed_disjoint : ∀ p ∈ s.client.pendingSubscriptions, ∀ symbol ∈ p.symbols,
    symbol ∉ s.client.subscribed
  /-- No request id is used twice, also across connections. -/
  reqIds_nodup : ((requestsOf (effectsOf events)).map PendingSubscription.reqId).Nodup
  /-- Every confirmed symbol is in a request that succeeded on the current connection. -/
  confirmed_acknowledged : ∀ symbol ∈ s.client.subscribed, ∃ request,
    .requested (some s.connections) request ∈ effectsOf events ∧ symbol ∈ request.symbols ∧
      .acknowledged (some s.connections) request.reqId true ∈ effectsOf events
  /-- An acknowledgement on the connection of a request whose send has not failed is unknown only
  if an earlier one has resolved the request. -/
  first_ack_known : ∀ k event connection request, events[k]? = some event →
    .unknownAck (some connection) (.string request.reqId) ∈ event.2 →
    .requested (some connection) request ∈ effectsOf (events.take k) →
    .sendFailed request.reqId ∉ effectsOf (events.take k) →
    ∃ success, .acknowledged (some connection) request.reqId success ∈ effectsOf (events.take k)

/-- Every run keeps the subscriptions sound. -/
theorem subscriptions_sound {config : AdmittedSettings} {category : String} {clock : ℚ}
    {events : List StreamEvent} {s : StreamState} (h : StreamRun config category clock events s) :
    SubscriptionsSound events s where
  pending_disjoint := List.pairwise_map.mp h.tracks.exclusive.pairwise_disjoint
  confirmed_disjoint := fun p hp symbol hsymbol =>
    h.tracks.exclusive.disjoint_settled (List.mem_map_of_mem hp) hsymbol
  reqIds_nodup := by
    rw [h.tracks.numbered]
    exact reqIdsUpTo_nodup category s.client.sequence
  confirmed_acknowledged := h.tracks.confirmed
  first_ack_known := by
    intro k event connection request hk hunknown hrequest hfailed
    obtain ⟨s₁, s₂, hrun, hstep, -⟩ := Trace.step_at h hk
    obtain ⟨-, t, hmove, -⟩ := StreamStep.move hstep
    obtain ⟨hws, hlookup⟩ := hmove.unknownAck hunknown
    have hbefore : StreamRun config category clock (events.take k) s₁ := hrun
    have hcurrent : connection = s₁.connections := hbefore.invariant.ws_current hws.symm
    subst hcurrent
    by_contra hnone
    -- the request would still be pending, so that its id finds one
    have hpending := hbefore.tracks.awaits request hrequest hfailed (not_exists.mp hnone)
    have hused := hbefore.tracks.reqId_mem hpending
    obtain ⟨n, -, hn⟩ := List.mem_map.mp hused
    have hne : request.reqId ≠ "" := by
      rw [← hn]
      exact fun hempty => absurd (congrArg String.toList hempty) (by simp [subscriptionReqId])
    rw [BybitWebSocketClient.lookupPending_string hne] at hlookup
    have hmissing := List.find?_eq_none.mp (Except.ok.inj hlookup) request hpending
    simp at hmissing

/-- A subscribe request on an open connection, whose acknowledgement arrives before its send
returns, and then a second copy of the acknowledgement. -/
def ackDuringSend : List Action :=
  let ack : Json := .object
    [("op", .string "subscribe"), ("success", .bool true), ("req_id", .string "sub-spot-1")]
  [.connect, .connected 0 0, .acquire .run 0, .callback (.ok ()), .sync {"BTCUSDT"},
    .acquire .sync 1, .deliver (some ack) 1, .deliver (some ack) 1, .receive 1 1 1 1 none,
    .receive 1 1 1 1 none, .sent (.ok 2)]

theorem subscriptions_sound_ackDuringSend :
    SubscriptionsSound (perform .default "spot" 0 ackDuringSend).1
      (perform .default "spot" 0 ackDuringSend).2 ∧
    (perform .default "spot" 0 ackDuringSend).2.client.subscribed = {"BTCUSDT"} ∧
    (perform .default "spot" 0 ackDuringSend).2.lock = none :=
  ⟨subscriptions_sound (run_perform .default "spot" 0 ackDuringSend), by decide +kernel,
    by decide +kernel⟩

end BybitMonitor
