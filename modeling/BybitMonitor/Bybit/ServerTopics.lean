import Mathlib
import BybitMonitor.Bybit.Batching

/-!
# The topics on the server

What the server of a connection may stream follows from the frames that reach it: a subscribe
request adds its topics, a rejection or a failed send takes them back, and an unsubscribe frame ends
them. The client keeps no table of topics, only its pending requests and its confirmed symbols.

* `hear`: what an effect of the client changes for the server.
* `Known`: the client still knows every topic that the server may stream.
* `StreamRun.known`: every run keeps it.
* `server_topics_known`: so no topic is forgotten, and none is requested twice.
-/

namespace BybitMonitor

/-- The topics that a server may stream, each with the id of the request that it came with. -/
abbrev HeldTopics := List (String × String)

/-- What the server of `connection` may stream after an effect of the client. An unsubscribe frame
counts when it is handed over; if its send then fails, its topics are still those of confirmed
symbols. -/
def hear (connection : ℕ) (held : HeldTopics) : Effect → HeldTopics
  | .requested (some n) request =>
      if n = connection then held ++ request.topics.map fun topic => (request.reqId, topic)
      else held
  | .unsubscribed n topics =>
      if n = connection then held.filter fun entry => entry.2 ∉ topics else held
  | .sendFailed reqId => held.filter fun entry => entry.1 ≠ reqId
  | .acknowledged (some n) reqId false =>
      if n = connection then held.filter fun entry => entry.1 ≠ reqId else held
  | _ => held

/-- What the server of `connection` may stream after the effects of a run. -/
def heldOn (connection : ℕ) (history : List Effect) : HeldTopics :=
  history.foldl (hear connection) []

theorem heldOn_append (connection : ℕ) (history effects : List Effect) :
    heldOn connection (history ++ effects) =
      effects.foldl (hear connection) (heldOn connection history) :=
  List.foldl_append

theorem tickerTopic_injective : Function.Injective tickerTopic := by
  intro symbol other h
  have hchars := congrArg String.toList h
  simp only [tickerTopic, String.toList_append] at hchars
  exact String.toList_inj.mp (List.append_cancel_left hchars)

/-- Only a request on the connection adds to what its server may stream. -/
theorem hear_subset {connection : ℕ} {held : HeldTopics} {effect : Effect}
    (hnone : ∀ request, effect ≠ .requested (some connection) request) :
    (hear connection held effect).Sublist held := by
  unfold hear
  split
  · split
    · rename_i hn
      exact absurd rfl (hn ▸ hnone _)
    · exact List.Sublist.refl _
  · split
    · exact List.filter_sublist
    · exact List.Sublist.refl _
  · exact List.filter_sublist
  · split
    · exact List.filter_sublist
    · exact List.Sublist.refl _
  · exact List.Sublist.refl _

theorem foldl_hear_subset {connection : ℕ} {effects : List Effect}
    (hnone : ∀ request, .requested (some connection) request ∉ effects) (held : HeldTopics) :
    (effects.foldl (hear connection) held).Sublist held := by
  induction effects generalizing held with
  | nil => exact List.Sublist.refl _
  | cons effect effects ih =>
      refine (ih (fun request hmem => hnone request (List.mem_cons_of_mem _ hmem)) _).trans ?_
      exact hear_subset fun request heq => hnone request (heq ▸ List.mem_cons_self)

/-- A server that received no request streams nothing. -/
theorem heldOn_eq_nil {connection : ℕ} {history : List Effect}
    (hnone : ∀ request, .requested (some connection) request ∉ history) :
    heldOn connection history = [] :=
  List.sublist_nil.mp (foldl_hear_subset hnone [])

/-! ## The invariant -/

/-- The symbols of the unsubscribe frame that the batch loop is sending. -/
def Sending.leaving (self : Sending) : List String := if self.reqId.isSome then [] else self.batch

def SendProgress.leaving : SendProgress → List String
  | .sending state => state.leaving
  | .returned _ => []

/-- The symbols of the unsubscribe frame that the holder of the lock is sending. -/
def StreamState.leaving (s : StreamState) : List String :=
  match s.lock with
  | some (_, sending) => sending.leaving
  | none => []

/-- The client knows the topics that the server may stream: each is awaited under the id of its
request, or confirmed. -/
structure Known (held : HeldTopics) (client : BybitWebSocketClient) (leaving : List String) :
    Prop where
  known : ∀ entry ∈ held,
    (∃ pending ∈ client.pendingSubscriptions, pending.reqId = entry.1 ∧
        entry.2 ∈ pending.topics) ∨
      ∃ symbol ∈ client.subscribed, entry.2 = tickerTopic symbol
  /-- No topic is streamed twice. -/
  nodup : (held.map Prod.snd).Nodup
  /-- What is being unsubscribed is no longer streamed, although it is still confirmed. -/
  left : ∀ symbol ∈ leaving, ∀ entry ∈ held, entry.2 ≠ tickerTopic symbol
  topics_eq : ∀ pending ∈ client.pendingSubscriptions,
    pending.topics = pending.symbols.map tickerTopic

namespace Known

variable {category : String} {connection : ℕ} {held held' : HeldTopics}
  {client other : BybitWebSocketClient} {leaving : List String} {now : ℚ}

theorem empty (htopics : ∀ pending ∈ client.pendingSubscriptions,
    pending.topics = pending.symbols.map tickerTopic) : Known [] client leaving := by
  constructor
  · simp
  · exact List.nodup_nil
  · simp
  · exact htopics

/-- The server may stream less. -/
theorem shrink (h : Known held client leaving) (hsub : held'.Sublist held) :
    Known held' client leaving where
  known := fun entry hmem => h.known entry (hsub.subset hmem)
  nodup := h.nodup.sublist (hsub.map _)
  left := fun symbol hsymbol entry hmem => h.left symbol hsymbol entry (hsub.subset hmem)
  topics_eq := h.topics_eq

/-- Nothing is being unsubscribed any more. -/
theorem settle (h : Known held client leaving) : Known held client [] :=
  { h with left := by simp }

/-- The knowledge is in the subscriptions. -/
theorem congr (h : Known held client leaving)
    (hsubscribed : other.subscribed = client.subscribed)
    (hpending : other.pendingSubscriptions = client.pendingSubscriptions) :
    Known held other leaving := by
  constructor
  · rw [hsubscribed, hpending]
    exact h.known
  · exact h.nodup
  · exact h.left
  · rw [hpending]
    exact h.topics_eq

/-- A topic that the server may stream belongs to a covered symbol. -/
theorem covered (h : Known held client leaving) {entry : String × String} (hmem : entry ∈ held) :
    ∃ symbol ∈ client.covered, entry.2 = tickerTopic symbol := by
  rcases h.known entry hmem with ⟨pending, hpending, -, htopic⟩ | ⟨symbol, hsymbol, htopic⟩
  · rw [h.topics_eq pending hpending] at htopic
    obtain ⟨symbol, hsymbol, heq⟩ := List.mem_map.mp htopic
    exact ⟨symbol, BybitWebSocketClient.mem_covered.mpr (Or.inl ⟨pending, hpending, hsymbol⟩),
      heq.symm⟩
  · exact ⟨symbol, BybitWebSocketClient.mem_covered.mpr (Or.inr hsymbol), htopic⟩

/-- The server may stream the topics of a new request, whose symbols are not covered. -/
theorem register (h : Known held client []) {batch : List String} (hnodup : batch.Nodup)
    (hfree : ∀ symbol ∈ batch, symbol ∉ client.covered) :
    Known (hear connection held
        (.requested (some connection) (client.nextRequest category batch now)))
      (client.register (client.nextRequest category batch now)) [] := by
  set request := client.nextRequest category batch now with hrequest
  have htopics : request.topics = batch.map tickerTopic := rfl
  have hheld : hear connection held (.requested (some connection) request) =
      held ++ request.topics.map fun topic => (request.reqId, topic) := if_pos rfl
  rw [hheld]
  constructor
  · intro entry hmem
    rcases List.mem_append.mp hmem with hold | hnew
    · -- the earlier requests are still pending
      rcases h.known entry hold with ⟨pending, hpending, hentry⟩ | hconfirmed
      · exact Or.inl ⟨pending, List.mem_append_left _ hpending, hentry⟩
      · exact Or.inr hconfirmed
    · obtain ⟨topic, htopic, rfl⟩ := List.mem_map.mp hnew
      exact Or.inl ⟨request, List.mem_append_right _ (List.mem_singleton_self _), rfl, htopic⟩
  · -- the topics that were streamed belong to symbols that are covered
    rw [List.map_append, List.nodup_append']
    refine ⟨h.nodup, ?_, fun topic hold hnew => ?_⟩
    · rw [List.map_map]
      show (request.topics.map id).Nodup
      rw [List.map_id, htopics]
      exact hnodup.map tickerTopic_injective
    · obtain ⟨entry, hentry, rfl⟩ := List.mem_map.mp hold
      obtain ⟨symbol, hsymbol, heq⟩ := h.covered hentry
      rw [List.map_map] at hnew
      obtain ⟨topic, htopic, htopic_eq⟩ := List.mem_map.mp hnew
      obtain ⟨fresh, hfresh, rfl⟩ := List.mem_map.mp (htopics ▸ htopic)
      have hsame : fresh = symbol := tickerTopic_injective (htopic_eq.trans heq)
      exact hfree fresh hfresh (hsame ▸ hsymbol)
  · simp
  · intro pending hmem
    rcases List.mem_append.mp hmem with hold | hnew
    · exact h.topics_eq pending hold
    · cases List.mem_singleton.mp hnew
      exact htopics

/-- A request that is withdrawn is streamed no more. -/
theorem withdraw (h : Known held client leaving) (reqId : String) :
    Known (held.filter fun entry => entry.1 ≠ reqId) (client.dropPending reqId) leaving where
  known := by
    intro entry hmem
    obtain ⟨hheld, hne⟩ := List.mem_filter.mp hmem
    rcases h.known entry hheld with ⟨pending, hpending, hid, htopic⟩ | hconfirmed
    · refine Or.inl ⟨pending, ?_, hid, htopic⟩
      exact BybitWebSocketClient.mem_dropPending.mpr ⟨hpending, hid ▸ of_decide_eq_true hne⟩
    · exact Or.inr hconfirmed
  nodup := h.nodup.sublist (List.filter_sublist.map _)
  left := fun symbol hsymbol entry hmem => h.left symbol hsymbol entry (List.mem_filter.mp hmem).1
  topics_eq := fun pending hmem =>
    h.topics_eq pending (BybitWebSocketClient.mem_dropPending.mp hmem).1

/-- A request that is confirmed stays known by its symbols. -/
theorem confirm (h : Known held client leaving) (hnumbered : client.Numbered category)
    {pending : PendingSubscription} (hmem : pending ∈ client.pendingSubscriptions) :
    Known held (client.confirm pending) leaving where
  known := by
    intro entry hentry
    rcases h.known entry hentry with ⟨request, hrequest, hid, htopic⟩ | ⟨symbol, hsymbol, heq⟩
    · by_cases hsame : request.reqId = pending.reqId
      · -- the confirmed request is the only one with its id
        cases hnumbered.eq_of_reqId hrequest hmem hsame
        rw [h.topics_eq pending hmem] at htopic
        obtain ⟨symbol, hsymbol, heq⟩ := List.mem_map.mp htopic
        exact Or.inr ⟨symbol, Finset.mem_union_right _ (List.mem_toFinset.mpr hsymbol), heq.symm⟩
      · refine Or.inl ⟨request, ?_, hid, htopic⟩
        exact BybitWebSocketClient.mem_dropPending.mpr ⟨hrequest, hsame⟩
    · exact Or.inr ⟨symbol, Finset.mem_union_left _ hsymbol, heq⟩
  nodup := h.nodup
  left := h.left
  topics_eq := fun request hrequest =>
    h.topics_eq request (BybitWebSocketClient.mem_dropPending.mp hrequest).1

/-- An unsubscribe frame ends its topics. -/
theorem leave (h : Known held client []) (batch : List String) :
    Known (hear connection held (.unsubscribed connection (batch.map tickerTopic))) client
      batch := by
  have hheld : hear connection held (.unsubscribed connection (batch.map tickerTopic)) =
      held.filter fun entry => entry.2 ∉ batch.map tickerTopic := if_pos rfl
  rw [hheld]
  refine { h.shrink List.filter_sublist with left := fun symbol hsymbol entry hmem heq => ?_ }
  have hkept := of_decide_eq_true (List.mem_filter.mp hmem).2
  exact hkept (heq ▸ List.mem_map_of_mem hsymbol)

/-- What was unsubscribed may be forgotten. -/
theorem forget (h : Known held client leaving) :
    Known held { client with subscribed := client.subscribed \ leaving.toFinset } [] where
  known := by
    intro entry hmem
    rcases h.known entry hmem with hpending | ⟨symbol, hsymbol, heq⟩
    · exact Or.inl hpending
    · refine Or.inr ⟨symbol, Finset.mem_sdiff.mpr ⟨hsymbol, fun hleft => ?_⟩, heq⟩
      exact h.left symbol (List.mem_toFinset.mp hleft) entry hmem heq
  nodup := h.nodup
  left := by simp
  topics_eq := h.topics_eq

/-! ### The methods of the client -/

/-- A round of a subscribing batch loop, whose symbols are reserved. -/
theorem sendNext_subscribe {history : List Effect} {rounds : List (List String)}
    (h : Known held client []) (htracks : Tracks category history connection client rounds.flatten)
    (hws : ∀ n, client.ws = some n → n = connection) :
    Known ((client.sendNext category .subscribe now rounds).effects.foldl (hear connection) held)
      (client.sendNext category .subscribe now rounds).client
      (client.sendNext category .subscribe now rounds).progress.leaving := by
  cases rounds with
  | nil => exact h
  | cons batch rest =>
      rw [BybitWebSocketClient.sendNext.eq_def]
      cases hconnection : client.ws with
      | some n =>
          obtain rfl : n = connection := hws n hconnection
          have hexclusive := htracks.exclusive
          have hreserved : batch.Sublist (batch ++ rest.flatten) := List.sublist_append_left _ _
          refine h.register ?_ fun symbol hsymbol hcovered => ?_
          · exact (List.nodup_append'.mp hexclusive.nodup).2.1.sublist hreserved
          · have hmem := hreserved.subset hsymbol
            rcases BybitWebSocketClient.mem_covered.mp hcovered with ⟨pending, hpending, hin⟩ | hin
            · refine (List.nodup_append'.mp hexclusive.nodup).2.2 ?_ hmem
              exact List.mem_flatten.mpr ⟨pending.symbols, List.mem_map_of_mem hpending, hin⟩
            · exact hexclusive.unsettled symbol (List.mem_append_right _ hmem) hin
      | none =>
          -- the request never reached a server
          refine (h.shrink List.filter_sublist).congr rfl ?_
          exact htracks.numbered_client.dropPending_register batch now

/-- A round of an unsubscribing batch loop. -/
theorem sendNext_unsubscribe (h : Known held client [])
    (hws : ∀ n, client.ws = some n → n = connection) (rounds : List (List String)) :
    Known ((client.sendNext category .unsubscribe now rounds).effects.foldl (hear connection) held)
      (client.sendNext category .unsubscribe now rounds).client
      (client.sendNext category .unsubscribe now rounds).progress.leaving := by
  cases rounds with
  | nil => exact h
  | cons batch rest =>
      rw [BybitWebSocketClient.sendNext.eq_def]
      cases hconnection : client.ws with
      | some n =>
          obtain rfl : n = connection := hws n hconnection
          exact h.leave batch
      | none => exact h

/-- The holder of the lock goes on after its send. -/
theorem resumeSend {history : List Effect} {sending : Sending}
    (h : Known held client sending.leaving)
    (htracks : Tracks category history connection client sending.reserved)
    (hws : ∀ n, client.ws = some n → n = connection) (outcome : Except PyExc ℚ) :
    Known ((client.resumeSend category sending outcome).effects.foldl (hear connection) held)
      (client.resumeSend category sending outcome).client
      (client.resumeSend category sending outcome).progress.leaving := by
  obtain ⟨reqId, batch, rest⟩ := sending
  -- only the return of an unsubscribe frame lets the client forget symbols
  cases outcome with
  | ok now =>
      cases reqId with
      | some reqId => exact h.sendNext_subscribe htracks hws
      | none => exact h.forget.sendNext_unsubscribe hws rest
  | error exc =>
      cases reqId with
      | none => exact h.settle
      | some reqId =>
          rw [BybitWebSocketClient.resumeSend]
          dsimp only
          split
          · exact h.settle.withdraw reqId
          · exact h.settle

/-- A received frame resolves at most one request, for the client as for the server. -/
theorem handleRaw (h : Known held client leaving) (hnumbered : client.Numbered category)
    (hws : client.ws = some connection) (raw : RawJson) (noted : ℚ) (raised : Option PyExc) :
    Known ((client.handleRaw category raw noted raised).effects.foldl (hear connection) held)
      (client.handleRaw category raw noted raised).client leaving := by
  rcases @BybitWebSocketClient.handleRaw_cases client category raw noted raised with
    ⟨noticed, data, hagrees, heq⟩ | ⟨hagrees, hmessages⟩
  · rw [heq, BybitWebSocketClient.handleSubscribeAck]
    have hnoticed : Known held noticed leaving :=
      h.congr hagrees.subscribed_eq hagrees.pending_eq
    have hids : noticed.Numbered category := by
      constructor
      · rw [hagrees.pending_eq]
        exact hnumbered.nodup
      · rw [hagrees.pending_eq, hagrees.sequence_eq]
        exact hnumbered.used
    dsimp only
    split
    · exact hnoticed
    · exact hnoticed
    · rename_i pending hlookup
      obtain ⟨reqId, -, hfind⟩ := BybitWebSocketClient.lookupPending_some hlookup
      rw [hagrees.ws_eq, hws]
      split
      · exact hnoticed.confirm hids (List.mem_of_find?_eq_some hfind)
      · -- the rejected request is streamed no more
        have hheld : hear connection held (.acknowledged (some connection) pending.reqId false) =
            held.filter fun entry => entry.1 ≠ pending.reqId := if_pos rfl
        simp only [List.foldl_cons, List.foldl_nil, hheld]
        exact hnoticed.withdraw pending.reqId
  · refine (h.shrink (foldl_hear_subset (fun request hmem => ?_) held)).congr
      hagrees.subscribed_eq hagrees.pending_eq
    obtain ⟨payload, hpayload⟩ := hmessages _ hmem
    cases hpayload

end Known

/-! ## Runs -/

theorem StreamState.follow_leaving (s : StreamState) (task : TaskName) (sendRun : SendRun) :
    (s.follow task sendRun).leaving = sendRun.progress.leaving := by
  rw [follow]
  split
  · rename_i state hprogress
    rw [hprogress]
    rfl
  · rename_i outcome hprogress
    rw [leaving, opReturned_lock, hprogress]
    rfl

/-- The invariant of a stream and the effects of its run. -/
def StreamState.KnowsTopics (history : List Effect) (s : StreamState) : Prop :=
  Known (heldOn s.connections history) s.client s.leaving

section

variable {config : Settings} {category : String} {history effects : List Effect}
  {s t : StreamState} {action : Action}

/-- A step around the lock that leaves the subscriptions alone. -/
theorem StreamState.KnowsTopics.congr (h : s.KnowsTopics history)
    (hconnections : t.connections = s.connections) (hagrees : s.client.Agrees t.client)
    (hlock : t.lock = s.lock) : t.KnowsTopics history := by
  rw [KnowsTopics, hconnections, leaving, hlock]
  exact Known.congr h hagrees.subscribed_eq hagrees.pending_eq

theorem StreamState.KnowsTopics.continues (h : s.KnowsTopics history) (hcont : s.Continues t) :
    t.KnowsTopics history :=
  h.congr hcont.connections_eq hcont.agrees hcont.lock_eq

/-- A task in the critical section goes on. -/
theorem StreamState.follow_knowsTopics {task : TaskName} {sendRun : SendRun}
    (h : Known (sendRun.effects.foldl (hear s.connections) (heldOn s.connections history))
      sendRun.client sendRun.progress.leaving) :
    (s.follow task sendRun).KnowsTopics (history ++ sendRun.effects) := by
  rw [KnowsTopics, follow_connections, follow_client, follow_leaving, heldOn_append]
  exact h

/-- What a task does when it enters its critical section. -/
theorem StreamState.KnowsTopics.enter (h : s.KnowsTopics history)
    (htracks : s.Tracked category history) (hs : StreamInvariant s) {task : TaskName} {now : ℚ}
    {sendRun : SendRun} (hfree : s.lock = none)
    (henter : s.enter config category now task = some sendRun) :
    (s.follow task sendRun).KnowsTopics (history ++ sendRun.effects) := by
  have hknown : Known (heldOn s.connections history) s.client [] := Known.settle h
  have hnone : Tracks category history s.connections s.client [] := by
    have hreserved : s.reserved = [] := by rw [reserved, hfree]
    exact hreserved ▸ htracks
  have hws (n : ℕ) : s.client.ws = some n → n = s.connections := hs.ws_current
  refine follow_knowsTopics ?_
  rcases enter_cases henter with ⟨rfl, -⟩ | ⟨-, symbols, rfl⟩
  · -- what is missing is reserved first
    refine hknown.sendNext_subscribe ((hnone.reserve ?_ ?_).release
      (List.flatten_slices_prefix (l := PyText.sorted
        ((s.client.desiredSymbols \ s.client.subscribed) \ s.client.pendingSymbols))).sublist) hws
    · exact PyText.nodup_sorted _
    · intro symbol hmem
      obtain ⟨hmissing, hpending⟩ := Finset.mem_sdiff.mp (PyText.mem_sorted.mp hmem)
      exact ⟨(Finset.mem_sdiff.mp hmissing).2, hpending⟩
  · exact hknown.sendNext_unsubscribe hws _

/-- Every move keeps the invariant. -/
theorem StreamState.KnowsTopics.move (h : s.KnowsTopics history)
    (htracks : s.Tracked category history) (hs : StreamInvariant s)
    (hmove : StreamMove config category s action effects t) :
    t.KnowsTopics (history ++ effects) := by
  have hws (n : ℕ) : s.client.ws = some n → n = s.connections := hs.ws_current
  have hquiet : s.KnowsTopics (history ++ []) := (List.append_nil history).symm ▸ h
  -- the end of a connection keeps the subscriptions until the next
  have hended (cancelled : Bool) : (s.attemptEnded cancelled).KnowsTopics (history ++ []) :=
    Known.congr hquiet rfl rfl
  cases hmove with
  | requestStop => exact hquiet
  | sync hidle => exact hquiet.congr rfl (BybitWebSocketClient.agrees_setSymbols _) rfl
  | acquire hfree henter => exact h.enter htracks hs hfree henter
  | @sent task sending outcome hheld =>
      have hleaving : s.leaving = sending.leaving := by rw [StreamState.leaving, hheld]
      have hreserved : s.reserved = sending.reserved := by rw [StreamState.reserved, hheld]
      have hknown : Known (heldOn s.connections history) s.client sending.leaving := hleaving ▸ h
      have htrack : Tracks category history s.connections s.client sending.reserved :=
        hreserved ▸ htracks
      exact StreamState.follow_knowsTopics (hknown.resumeSend htrack hws outcome)
  | cancelBackoff htask => exact hquiet
  | cancelClosing htask => exact hended true
  | cancelWaiting htask hwaits => exact hquiet
  | cancelSync hwaits => exact hquiet
  | stopped htask hstop => exact hquiet
  | connect htask hstop => exact hquiet.congr rfl (BybitWebSocketClient.agrees_setStatus _) rfl
  | connectFailed htask => exact hended _
  | connected htask =>
      -- no request has been made on the new connection yet
      have hnil : heldOn (s.connections + 1) (history ++ []) = [] := by
        refine heldOn_eq_nil fun request hmem => ?_
        rw [List.append_nil] at hmem
        exact absurd (htracks.bounded _ request hmem) (Nat.not_succ_le_self _)
      rw [StreamState.KnowsTopics, hnil]
      exact Known.empty (by simp [BybitWebSocketClient.established])
  | callback htask => exact hquiet.continues (StreamState.loopsTo_callbackReturned _).continues
  | deliver => exact hquiet
  | timeout htask =>
      refine hquiet.continues (StreamState.loopsTo_checkWatchdogs ?_).continues
      split
      · exact .awaits rfl
      · exact StreamState.loopsTo_loopHead
  | @pinged sentAt ended htask =>
      have hnoted : StreamState.KnowsTopics (history ++ [])
          { s with client := { s.client with lastPingAt := sentAt } } :=
        hquiet.congr rfl ⟨rfl, rfl, rfl, rfl⟩ rfl
      exact hnoted.continues StreamState.loopsTo_loopHead.continues
  | pingFailed htask => exact hquiet.continues (StreamState.loopsTo_leave _).continues
  | @receive noted ackCheck tickerCheck ended raised raw arrival inbox htask hinbox =>
      have hhandled : StreamState.KnowsTopics
          (history ++ (s.client.handleRaw category raw noted raised).effects)
          { s with client := (s.client.handleRaw category raw noted raised).client, inbox } := by
        rw [StreamState.KnowsTopics, heldOn_append]
        refine Known.handleRaw h htracks.numbered_client ?_ raw noted raised
        exact hs.ws_connected (by rw [htask]; rfl)
      exact hhandled.continues (StreamState.loopsTo_receiveFrame config category raw noted
        ackCheck tickerCheck raised (s := { s with inbox })).continues
  | recvFailed htask => exact hquiet.continues (StreamState.loopsTo_leave _).continues
  | closed htask => exact hended _

end

/-- Every run keeps the invariant. -/
theorem StreamRun.knowsTopics {config : AdmittedSettings} {category : String} {clock : ℚ}
    {events : List StreamEvent} {s : StreamState} (h : StreamRun config category clock events s) :
    s.KnowsTopics (effectsOf events) := by
  refine @Trace.invariant _ _ _ _ _ _ (fun events s => s.KnowsTopics (effectsOf events))
    (Known.empty (by simp [StreamState.start])) (fun events s event s' prior hs hstep => ?_) h
  obtain ⟨-, t, hmove, rfl⟩ := StreamStep.move hstep
  rw [effectsOf_append]
  have hmoved := hs.move (StreamRun.tracks prior) (StreamRun.invariant prior) hmove
  exact hmoved

/-- After every run the topics that the server of the current connection may stream are different,
and each is in the pending request that it came with or belongs to a confirmed symbol. -/
theorem server_topics_known {config : AdmittedSettings} {category : String} {clock : ℚ}
    {events : List StreamEvent} {s : StreamState} (h : StreamRun config category clock events s) :
    ((heldOn s.connections (effectsOf events)).map Prod.snd).Nodup ∧
      ∀ reqId topic, (reqId, topic) ∈ heldOn s.connections (effectsOf events) →
        (∃ pending ∈ s.client.pendingSubscriptions, pending.reqId = reqId ∧
            topic ∈ pending.topics) ∨
          ∃ symbol ∈ s.client.subscribed, topic = tickerTopic symbol :=
  ⟨h.knowsTopics.nodup, fun reqId topic hmem => h.knowsTopics.known (reqId, topic) hmem⟩

/-- A confirmed symbol is replaced by another one, up to the send of the unsubscribe frame. -/
def replaceSymbol : List Action :=
  let ack : Json := .object
    [("op", .string "subscribe"), ("success", .bool true), ("req_id", .string "sub-spot-1")]
  [.connect, .connected 0 0, .acquire .run 0, .callback (.ok ()), .sync {"BTCUSDT"},
    .acquire .sync 1, .sent (.ok 1), .acquire .sync 1, .deliver (some ack) 1,
    .receive 1 1 1 1 none, .sync {"ETHUSDT"}, .acquire .sync 2, .sent (.ok 2), .acquire .sync 2]

/-- The server has dropped the topic that the client still counts as confirmed. -/
theorem server_topics_known_replaceSymbol :
    ((∃ pending ∈ (perform .default "spot" 0 replaceSymbol).2.client.pendingSubscriptions,
        pending.reqId = "sub-spot-2" ∧ "tickers.ETHUSDT" ∈ pending.topics) ∨
      ∃ symbol ∈ (perform .default "spot" 0 replaceSymbol).2.client.subscribed,
        "tickers.ETHUSDT" = tickerTopic symbol) ∧
    heldOn 1 (effectsOf (perform .default "spot" 0 replaceSymbol).1) =
      [("sub-spot-2", "tickers.ETHUSDT")] ∧
    (perform .default "spot" 0 replaceSymbol).2.client.subscribed = {"BTCUSDT"} := by
  have hheld : heldOn 1 (effectsOf (perform .default "spot" 0 replaceSymbol).1) =
      [("sub-spot-2", "tickers.ETHUSDT")] := by decide +kernel
  have hconnection : (perform .default "spot" 0 replaceSymbol).2.connections = 1 := by
    decide +kernel
  refine ⟨(server_topics_known (run_perform .default "spot" 0 replaceSymbol)).2 _ _ ?_, hheld,
    by decide +kernel⟩
  rw [hconnection, hheld]
  exact List.mem_singleton_self _

end BybitMonitor
