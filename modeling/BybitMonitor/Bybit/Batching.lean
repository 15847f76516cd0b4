import Mathlib
import BybitMonitor.Bybit.Subscriptions

/-!
# The batches of a resubscription

One call of `resubscribe`, from the grant of the lock to the next call on the same connection.
Between its steps the listen loop may receive any frames but rejections, so that an acknowledgement
may resolve a batch before the send of the batch returns.

* `BatchingStep`: the steps of the call and of the client around it.
* `BatchingStep.batched`: every step keeps `Batched`, which says where the call stands.
* `resubscribe_batches`: the call sends what is missing in sorted batches, and after a failed send
  exactly the failed and the later batches are missing.
* `StreamRun.resubscribe_batched`: so it is for the calls in every run of a stream.
-/

namespace BybitMonitor

/-- The subscribe frames handed to a connection, as the requests that they carry. -/
def framesOf (effects : List Effect) : List PendingSubscription :=
  effects.filterMap fun effect =>
    match effect with
    | .requested (some _) request => some request
    | _ => none

theorem framesOf_append (effects more : List Effect) :
    framesOf (effects ++ more) = framesOf effects ++ framesOf more :=
  List.filterMap_append

/-- The request was acknowledged with success. -/
def Acked (reqId : String) (effects : List Effect) : Prop :=
  ∃ connection, .acknowledged connection reqId true ∈ effects

namespace BybitWebSocketClient

variable {client other : BybitWebSocketClient} {category : String}

/-- The symbols that are pending or confirmed. -/
def covered (self : BybitWebSocketClient) : Finset String := self.pendingSymbols ∪ self.subscribed

/-- What `resubscribe` finds missing. -/
def unmet (self : BybitWebSocketClient) : Finset String :=
  (self.desiredSymbols \ self.subscribed) \ self.pendingSymbols

theorem unmet_eq (client : BybitWebSocketClient) :
    client.unmet = client.desiredSymbols \ client.covered := by
  rw [unmet, covered, sdiff_sdiff_left, Finset.union_comm]
  rfl

theorem mem_covered {symbol : String} :
    symbol ∈ client.covered ↔
      (∃ pending ∈ client.pendingSubscriptions, symbol ∈ pending.symbols) ∨
        symbol ∈ client.subscribed := by
  rw [covered, Finset.mem_union, pendingSymbols, List.mem_toFinset, List.mem_flatMap]

/-- The pending requests are kept under different ids that were used. -/
structure Numbered (category : String) (client : BybitWebSocketClient) : Prop where
  nodup : (client.pendingSubscriptions.map PendingSubscription.reqId).Nodup
  used : ∀ pending ∈ client.pendingSubscriptions,
    pending.reqId ∈ reqIdsUpTo category client.sequence

/-- Two states that agree in what is desired and in the subscriptions. -/
structure SameSubscriptions (client other : BybitWebSocketClient) : Prop where
  desired_eq : other.desiredSymbols = client.desiredSymbols
  subscribed_eq : other.subscribed = client.subscribed
  pending_eq : other.pendingSubscriptions = client.pendingSubscriptions
  sequence_eq : other.sequence = client.sequence

theorem SameSubscriptions.refl (client : BybitWebSocketClient) : client.SameSubscriptions client :=
  ⟨rfl, rfl, rfl, rfl⟩

theorem SameSubscriptions.covered_eq (h : client.SameSubscriptions other) :
    other.covered = client.covered := by
  simp only [covered, pendingSymbols, h.pending_eq, h.subscribed_eq]

/-- Withdrawing a request leaves the same. -/
theorem SameSubscriptions.dropPending (h : client.SameSubscriptions other) (reqId : String) :
    (client.dropPending reqId).SameSubscriptions (other.dropPending reqId) := by
  refine ⟨h.desired_eq, h.subscribed_eq, ?_, h.sequence_eq⟩
  simp only [BybitWebSocketClient.dropPending, h.pending_eq]

theorem SameSubscriptions.numbered (h : client.SameSubscriptions other)
    (hnumbered : client.Numbered category) : other.Numbered category := by
  constructor
  · rw [h.pending_eq]
    exact hnumbered.nodup
  · rw [h.pending_eq, h.sequence_eq]
    exact hnumbered.used

/-- What a successful acknowledgement of `pending` makes of the subscriptions. -/
def confirm (self : BybitWebSocketClient) (pending : PendingSubscription) :
    BybitWebSocketClient :=
  { self.dropPending pending.reqId with
    subscribed := self.subscribed ∪ pending.symbols.toFinset }

/-! ### The requests by their ids -/

theorem mem_dropPending {reqId : String} {pending : PendingSubscription} :
    pending ∈ (client.dropPending reqId).pendingSubscriptions ↔
      pending ∈ client.pendingSubscriptions ∧ pending.reqId ≠ reqId := by
  rw [dropPending, List.mem_filter, decide_eq_true_iff]

/-- Withdrawing an id that is not pending changes nothing. -/
theorem dropPending_of_not_mem {reqId : String}
    (h : ∀ pending ∈ client.pendingSubscriptions, pending.reqId ≠ reqId) :
    client.dropPending reqId = client := by
  have hkeep : (client.pendingSubscriptions.filter fun p => p.reqId ≠ reqId) =
      client.pendingSubscriptions :=
    List.filter_eq_self.mpr fun pending hmem => decide_eq_true (h pending hmem)
  rw [dropPending, hkeep]

theorem Numbered.dropPending (h : client.Numbered category) (reqId : String) :
    (client.dropPending reqId).Numbered category := by
  constructor
  · exact h.nodup.sublist (List.filter_sublist.map PendingSubscription.reqId)
  · exact fun pending hmem => h.used pending (mem_dropPending.mp hmem).1

/-- Two pending requests with the same id are the same. -/
theorem Numbered.eq_of_reqId (h : client.Numbered category) {p q : PendingSubscription}
    (hp : p ∈ client.pendingSubscriptions) (hq : q ∈ client.pendingSubscriptions)
    (heq : p.reqId = q.reqId) : p = q :=
  List.inj_on_of_nodup_map h.nodup hp hq heq

/-- A pending request covers its own symbols, and the others cover the rest. -/
theorem Numbered.covered_eq (h : client.Numbered category) {pending : PendingSubscription}
    (hmem : pending ∈ client.pendingSubscriptions) :
    client.covered = (client.dropPending pending.reqId).covered ∪ pending.symbols.toFinset := by
  ext symbol
  rw [Finset.mem_union, mem_covered, mem_covered, List.mem_toFinset]
  constructor
  · rintro (⟨p, hp, hsymbol⟩ | hsymbol)
    · -- the symbols of the withdrawn request are its own, by the ids
      by_cases heq : p.reqId = pending.reqId
      · cases h.eq_of_reqId hp hmem heq
        exact Or.inr hsymbol
      · exact Or.inl (Or.inl ⟨p, mem_dropPending.mpr ⟨hp, heq⟩, hsymbol⟩)
    · exact Or.inl (Or.inr hsymbol)
  · rintro ((⟨p, hp, hsymbol⟩ | hsymbol) | hsymbol)
    · exact Or.inl ⟨p, (mem_dropPending.mp hp).1, hsymbol⟩
    · exact Or.inr hsymbol
    · exact Or.inl ⟨pending, hmem, hsymbol⟩

/-- A successful acknowledgement moves symbols from pending to confirmed. -/
theorem Numbered.covered_confirm (h : client.Numbered category) {pending : PendingSubscription}
    (hmem : pending ∈ client.pendingSubscriptions) :
    (client.confirm pending).covered = client.covered := by
  rw [h.covered_eq hmem, covered, covered, Finset.union_assoc]
  rfl

theorem Numbered.confirm (h : client.Numbered category) (pending : PendingSubscription) :
    (client.confirm pending).Numbered category := by
  have hdropped := h.dropPending pending.reqId
  exact ⟨hdropped.nodup, hdropped.used⟩

/-! ### Registration -/

/-- The next request has an id that is not pending. -/
theorem Numbered.fresh (h : client.Numbered category) (batch : List String) (now : ℚ) :
    ∀ pending ∈ client.pendingSubscriptions,
      pending.reqId ≠ (client.nextRequest category batch now).reqId := by
  intro pending hmem heq
  have hused := h.used pending hmem
  rw [heq] at hused
  exact subscriptionReqId_not_mem category client.sequence hused

theorem Numbered.register (h : client.Numbered category) (batch : List String) (now : ℚ) :
    (client.register (client.nextRequest category batch now)).Numbered category := by
  have hlater : reqIdsUpTo category (client.sequence + 1) =
      reqIdsUpTo category client.sequence ++
        [(client.nextRequest category batch now).reqId] := reqIdsUpTo_succ _ _
  constructor
  · rw [BybitWebSocketClient.register, List.map_append, List.nodup_append']
    refine ⟨h.nodup, List.nodup_singleton _, fun reqId hold hnew => ?_⟩
    obtain ⟨pending, hmem, rfl⟩ := List.mem_map.mp hold
    exact h.fresh batch now pending hmem (List.mem_singleton.mp hnew)
  · intro pending hmem
    show pending.reqId ∈ reqIdsUpTo category (client.sequence + 1)
    rw [hlater, List.mem_append, List.mem_singleton]
    rcases List.mem_append.mp hmem with hold | hnew
    · exact Or.inl (h.used pending hold)
    · exact Or.inr (congrArg PendingSubscription.reqId (List.mem_singleton.mp hnew))

/-- Withdrawing the request that was just registered leaves the other requests. -/
theorem Numbered.dropPending_register (h : client.Numbered category) (batch : List String)
    (now : ℚ) :
    ((client.register (client.nextRequest category batch now)).dropPending
      (client.nextRequest category batch now).reqId).pendingSubscriptions =
      client.pendingSubscriptions := by
  simp only [BybitWebSocketClient.dropPending, BybitWebSocketClient.register, List.filter_append]
  rw [List.filter_eq_self.mpr fun pending hmem => decide_eq_true (h.fresh batch now pending hmem)]
  simp

/-! ### Received frames -/

/-- A received frame leaves the subscriptions alone, resolves one request with success, or rejects
one. -/
theorem handleRaw_subscriptions (client : BybitWebSocketClient) (category : String)
    (raw : RawJson) (noted : ℚ) (raised : Option PyExc) :
    (client.SameSubscriptions (client.handleRaw category raw noted raised).client ∧
        framesOf (client.handleRaw category raw noted raised).effects = [] ∧
        ∀ connection reqId success, .acknowledged connection reqId success ∉
          (client.handleRaw category raw noted raised).effects) ∨
      (∃ pending ∈ client.pendingSubscriptions,
        (client.confirm pending).SameSubscriptions
          (client.handleRaw category raw noted raised).client ∧
        (client.handleRaw category raw noted raised).effects =
          [.acknowledged client.ws pending.reqId true]) ∨
      (∃ connection reqId, .acknowledged connection reqId false ∈
        (client.handleRaw category raw noted raised).effects) := by
  rw [handleRaw]
  split
  · exact Or.inl ⟨.refl client, rfl, by simp⟩
  · rename_i data _
    split
    · exact Or.inl ⟨.refl client, rfl, by simp⟩
    · rename_i topic _
      -- the ticker clock is no part of the subscriptions
      obtain ⟨noticed, hnoticed, hsame, hws⟩ :
          ∃ noticed, (if isTickerTopic topic then client.noteTicker noted else client) = noticed ∧
            client.SameSubscriptions noticed ∧ noticed.ws = client.ws := by
        refine ⟨_, rfl, ?_⟩
        split
        · exact ⟨⟨rfl, rfl, rfl, rfl⟩, rfl⟩
        · exact ⟨.refl client, rfl⟩
      dsimp only
      rw [hnoticed]
      split
      · rw [handleSubscribeAck]
        dsimp only
        split
        · exact Or.inl ⟨hsame, rfl, by simp⟩
        · exact Or.inl ⟨hsame, rfl, by simp⟩
        · rename_i pending hlookup
          obtain ⟨reqId, -, hfind⟩ := lookupPending_some hlookup
          -- an acknowledgement with success confirms, the others reject
          split
          · refine Or.inr (Or.inl ⟨pending, ?_, ?_, ?_⟩)
            · rw [← hsame.pending_eq]
              exact List.mem_of_find?_eq_some hfind
            · have hdropped := hsame.dropPending pending.reqId
              refine ⟨hdropped.desired_eq, ?_, hdropped.pending_eq, hdropped.sequence_eq⟩
              show noticed.subscribed ∪ _ = client.subscribed ∪ _
              rw [hsame.subscribed_eq]
            · rw [hws]
          · exact Or.inr (Or.inr ⟨_, _, List.mem_singleton_self _⟩)
      · split
        · exact Or.inl ⟨hsame, rfl, by simp⟩
        · split
          · exact Or.inl ⟨hsame, rfl, by simp⟩
          · exact Or.inl ⟨hsame, rfl, by simp⟩
  · exact Or.inl ⟨.refl client, rfl, by simp⟩

end BybitWebSocketClient

/-! ## The call -/

/-- A step of a call of `resubscribe`, or of the client around it. -/
inductive BatchingStep (category : String) (s : SendRun) : SendRun → Prop
  /-- The listen loop handles a frame, which is no rejection. -/
  | frame {raw : RawJson} {noted : ℚ} {raised : Option PyExc}
      (haccepted : ∀ connection reqId, .acknowledged connection reqId false ∉
        (s.client.handleRaw category raw noted raised).effects) :
      BatchingStep category s { s with
        client := (s.client.handleRaw category raw noted raised).client
        effects := s.effects ++ (s.client.handleRaw category raw noted raised).effects }
  /-- Anything else that leaves the subscriptions alone. -/
  | other {client : BybitWebSocketClient} (hsame : s.client.SameSubscriptions client) :
      BatchingStep category s { s with client }
  /-- The awaited send returns or raises. -/
  | sent {sending : Sending} (hsending : s.progress = .sending sending)
      (outcome : Except PyExc ℚ) :
      BatchingStep category s { s.client.resumeSend category sending outcome with
        effects := s.effects ++ (s.client.resumeSend category sending outcome).effects }

/-- What has become of the symbols of a request whose send is awaited; `before` is what was covered
without it. -/
inductive Awaits (before : Finset String) (reqId : String) (batch : List String)
    (client : BybitWebSocketClient) (effects : List Effect) : Prop
  | pending (hpending : ∃ pending ∈ client.pendingSubscriptions,
        pending.reqId = reqId ∧ pending.symbols = batch)
      (hbefore : (client.dropPending reqId).covered = before) (hsilent : ¬ Acked reqId effects)
  | confirmed (hgone : ∀ pending ∈ client.pendingSubscriptions, pending.reqId ≠ reqId)
      (hsubscribed : ∀ symbol ∈ batch, symbol ∈ client.subscribed)
      (hcovered : client.covered = before ∪ batch.toFinset) (hacked : Acked reqId effects)

/-- What has become of the symbols of a request whose send has failed. -/
structure Withdrawn (before : Finset String) (reqId : String) (batch : List String)
    (client : BybitWebSocketClient) (effects : List Effect) : Prop where
  gone : ∀ pending ∈ client.pendingSubscriptions, pending.reqId ≠ reqId
  silent : ¬ Acked reqId effects → client.covered = before
  acked : Acked reqId effects →
    client.covered = before ∪ batch.toFinset ∧ ∀ symbol ∈ batch, symbol ∈ client.subscribed

/-- Where a call stands that has to send `rounds`; `start` was covered when it took the lock. -/
inductive Stands (start : Finset String) (rounds : List (List String))
    (client : BybitWebSocketClient) (effects : List Effect) : SendProgress → Prop
  | sending {done rest : List (List String)} {batch : List String} {reqId : String}
      (hrounds : rounds = done ++ batch :: rest)
      (hframes : (framesOf effects).map PendingSubscription.symbols = done ++ [batch])
      (hawaits : Awaits (start ∪ done.flatten.toFinset) reqId batch client effects) :
      Stands start rounds client effects (.sending { reqId := some reqId, batch, rest })
  | completed (hframes : (framesOf effects).map PendingSubscription.symbols = rounds)
      (hcovered : client.covered = start ∪ rounds.flatten.toFinset) :
      Stands start rounds client effects (.returned (.ok ()))
  | failed {done rest : List (List String)} {batch : List String} {reqId : String} {exc : PyExc}
      (hexc : exc.isException = true) (hrounds : rounds = done ++ batch :: rest)
      (hframes : (framesOf effects).map PendingSubscription.symbols = done ∨
        (framesOf effects).map PendingSubscription.symbols = done ++ [batch])
      (hfailed : .sendFailed reqId ∈ effects)
      (hwithdrawn : Withdrawn (start ∪ done.flatten.toFinset) reqId batch client effects) :
      Stands start rounds client effects (.returned (.error exc))
  /-- A cancelled send leaves its request as it is. -/
  | cancelled {done rest : List (List String)} {batch : List String} {exc : PyExc}
      (hexc : exc.isException = false) (hrounds : rounds = done ++ batch :: rest)
      (hframes : (framesOf effects).map PendingSubscription.symbols = done ++ [batch])
      (hcovered : client.covered = start ∪ (done ++ [batch]).flatten.toFinset) :
      Stands start rounds client effects (.returned (.error exc))

/-- The invariant of a call that took the lock with `start` and has to send `rounds`. -/
structure Batched (category : String) (start : BybitWebSocketClient) (rounds : List (List String))
    (s : SendRun) : Prop where
  desired_eq : s.client.desiredSymbols = start.desiredSymbols
  numbered : s.client.Numbered category
  /-- Only ids that were used are acknowledged. -/
  acked_used : ∀ reqId, Acked reqId s.effects → reqId ∈ reqIdsUpTo category s.client.sequence
  topics_eq : ∀ frame ∈ framesOf s.effects, frame.topics = frame.symbols.map tickerTopic
  stands : Stands start.covered rounds s.client s.effects s.progress

section

variable {category reqId : String} {start : BybitWebSocketClient} {before : Finset String}
  {rounds done rest : List (List String)} {batch : List String} {s t : SendRun}
  {client other : BybitWebSocketClient} {effects : List Effect} {pending : PendingSubscription}

/-! ### The symbols of one request -/

theorem not_acked_nil (reqId : String) : ¬ Acked reqId [] := by
  rintro ⟨connection, hmem⟩
  cases hmem

theorem Acked.append {more : List Effect} :
    Acked reqId (effects ++ more) ↔ Acked reqId effects ∨ Acked reqId more := by
  simp only [Acked, List.mem_append, exists_or]

/-- Whatever has become of it, an awaited request is covered. -/
theorem Awaits.covered_eq (h : Awaits before reqId batch client effects)
    (hnumbered : client.Numbered category) : client.covered = before ∪ batch.toFinset := by
  cases h with
  | pending hpending hbefore hsilent =>
      obtain ⟨pending, hmem, rfl, rfl⟩ := hpending
      rw [hnumbered.covered_eq hmem, hbefore]
  | confirmed hgone hsubscribed hcovered hacked => exact hcovered

/-- A failed send withdraws the request, if it is still pending. -/
theorem Awaits.withdrawn (h : Awaits before reqId batch client effects) :
    Withdrawn before reqId batch (client.dropPending reqId) (effects ++ [.sendFailed reqId]) := by
  have hacked : Acked reqId (effects ++ [.sendFailed reqId]) ↔ Acked reqId effects := by
    rw [Acked.append, or_iff_left]
    rintro ⟨connection, hmem⟩
    cases List.mem_singleton.mp hmem
  have hgone : ∀ pending ∈ (client.dropPending reqId).pendingSubscriptions,
      pending.reqId ≠ reqId :=
    fun pending hmem => (BybitWebSocketClient.mem_dropPending.mp hmem).2
  cases h with
  | pending hpending hbefore hsilent =>
      exact ⟨hgone, fun _ => hbefore, fun h => absurd (hacked.mp h) hsilent⟩
  | confirmed hnone hsubscribed hcovered hack =>
      -- the acknowledgement was faster: there is nothing to withdraw
      refine ⟨hgone, fun h => absurd (hacked.mpr hack) h, fun _ => ?_⟩
      rw [BybitWebSocketClient.dropPending_of_not_mem hnone]
      exact ⟨hcovered, hsubscribed⟩

/-- The successful acknowledgement of a pending request, its own or another one. -/
theorem Awaits.confirm (h : Awaits before reqId batch client effects)
    (hnumbered : client.Numbered category) (hmem : pending ∈ client.pendingSubscriptions)
    (connection : Option ℕ) :
    Awaits before reqId batch (client.confirm pending)
      (effects ++ [.acknowledged connection pending.reqId true]) := by
  have hcovered := h.covered_eq hnumbered
  have hacked : Acked reqId (effects ++ [.acknowledged connection pending.reqId true]) ↔
      Acked reqId effects ∨ reqId = pending.reqId := by
    rw [Acked.append]
    simp [Acked]
  cases h with
  | pending hpending hbefore hsilent =>
      obtain ⟨own, hown, hid, hsymbols⟩ := hpending
      -- either the acknowledgement is of this request, or of another one
      by_cases heq : pending.reqId = reqId
      · obtain rfl : pending = own := hnumbered.eq_of_reqId hmem hown (heq.trans hid.symm)
        apply Awaits.confirmed
        · rintro other hother rfl
          exact (BybitWebSocketClient.mem_dropPending.mp hother).2 hid.symm
        · intro symbol hsymbol
          rw [← hsymbols] at hsymbol
          exact Finset.mem_union_right _ (List.mem_toFinset.mpr hsymbol)
        · rw [hnumbered.covered_confirm hmem, hcovered]
        · exact hacked.mpr (Or.inr heq.symm)
      · have hother : pending ∈ (client.dropPending reqId).pendingSubscriptions :=
          BybitWebSocketClient.mem_dropPending.mpr ⟨hmem, heq⟩
        apply Awaits.pending
        · refine ⟨own, BybitWebSocketClient.mem_dropPending.mpr ⟨hown, ?_⟩, hid, hsymbols⟩
          rw [hid]
          exact Ne.symm heq
        · -- withdrawing one request and confirming another one commute
          have hswap : ((client.confirm pending).dropPending reqId).covered =
              ((client.dropPending reqId).confirm pending).covered := by
            simp only [BybitWebSocketClient.covered, BybitWebSocketClient.pendingSymbols,
              BybitWebSocketClient.confirm, BybitWebSocketClient.dropPending,
              List.filter_filter, Bool.and_comm]
          rw [hswap, (hnumbered.dropPending reqId).covered_confirm hother, hbefore]
        · rw [hacked]
          exact not_or.mpr ⟨hsilent, Ne.symm heq⟩
  | confirmed hgone hsubscribed _ hack =>
      apply Awaits.confirmed
      · exact fun other hother => hgone other (BybitWebSocketClient.mem_dropPending.mp hother).1
      · exact fun symbol hsymbol => Finset.mem_union_left _ (hsubscribed symbol hsymbol)
      · rw [hnumbered.covered_confirm hmem, hcovered]
      · exact hacked.mpr (Or.inl hack)

/-- The acknowledgement of another request after the failure. -/
theorem Withdrawn.confirm (h : Withdrawn before reqId batch client effects)
    (hnumbered : client.Numbered category) (hmem : pending ∈ client.pendingSubscriptions)
    (connection : Option ℕ) :
    Withdrawn before reqId batch (client.confirm pending)
      (effects ++ [.acknowledged connection pending.reqId true]) := by
  -- the failed request is not pending any more, so that the acknowledgement is of another one
  have hacked : Acked reqId (effects ++ [.acknowledged connection pending.reqId true]) ↔
      Acked reqId effects := by
    rw [Acked.append, or_iff_left]
    rintro ⟨other, hother⟩
    injection List.mem_singleton.mp hother with _ hid _
    exact h.gone pending hmem hid.symm
  constructor
  · exact fun other hother => h.gone other (BybitWebSocketClient.mem_dropPending.mp hother).1
  · rw [hacked, hnumbered.covered_confirm hmem]
    exact h.silent
  · rw [hacked, hnumbered.covered_confirm hmem]
    intro hack
    obtain ⟨hcovered, hsubscribed⟩ := h.acked hack
    exact ⟨hcovered, fun symbol hsymbol => Finset.mem_union_left _ (hsubscribed symbol hsymbol)⟩

/-! ### Where the call stands -/

theorem Stands.confirm {start : Finset String} {progress : SendProgress}
    (h : Stands start rounds client effects progress) (hnumbered : client.Numbered category)
    (hmem : pending ∈ client.pendingSubscriptions) (connection : Option ℕ) :
    Stands start rounds (client.confirm pending)
      (effects ++ [.acknowledged connection pending.reqId true]) progress := by
  have hframes : framesOf (effects ++ [.acknowledged connection pending.reqId true]) =
      framesOf effects := by
    rw [framesOf_append]
    exact List.append_nil _
  have hcovered := hnumbered.covered_confirm hmem
  cases h with
  | sending hrounds hold hawaits =>
      exact .sending hrounds (hframes ▸ hold) (hawaits.confirm hnumbered hmem connection)
  | completed hold hall => exact .completed (hframes ▸ hold) (hcovered.trans hall)
  | failed hexc hrounds hold hfailed hwithdrawn =>
      exact .failed hexc hrounds (hframes ▸ hold) (List.mem_append_left _ hfailed)
        (hwithdrawn.confirm hnumbered hmem connection)
  | cancelled hexc hrounds hold hall =>
      exact .cancelled hexc hrounds (hframes ▸ hold) (hcovered.trans hall)

/-- Only the subscriptions matter. -/
theorem Stands.congr {start : Finset String} {progress : SendProgress}
    (h : Stands start rounds client effects progress) (hsame : client.SameSubscriptions other)
    {more : List Effect} (hframes : framesOf more = []) (hacks : ∀ reqId, ¬ Acked reqId more) :
    Stands start rounds other (effects ++ more) progress := by
  have hkept : framesOf (effects ++ more) = framesOf effects := by
    rw [framesOf_append, hframes, List.append_nil]
  have hacked (reqId : String) : Acked reqId (effects ++ more) ↔ Acked reqId effects := by
    rw [Acked.append, or_iff_left (hacks reqId)]
  have hcovered := hsame.covered_eq
  cases h with
  | @sending done rest batch reqId hrounds hold hawaits =>
      refine .sending hrounds (hkept ▸ hold) ?_
      cases hawaits with
      | pending hpending hbefore hsilent =>
          apply Awaits.pending
          · rw [hsame.pending_eq]
            exact hpending
          · rw [(hsame.dropPending reqId).covered_eq, hbefore]
          · rwa [hacked]
      | confirmed hgone hsubscribed hall hack =>
          apply Awaits.confirmed
          · rw [hsame.pending_eq]
            exact hgone
          · rw [hsame.subscribed_eq]
            exact hsubscribed
          · rw [hcovered, hall]
          · rwa [hacked]
  | completed hold hall => exact .completed (hkept ▸ hold) (hcovered.trans hall)
  | failed hexc hrounds hold hfailed hwithdrawn =>
      refine .failed hexc hrounds (hkept ▸ hold) (List.mem_append_left _ hfailed) ?_
      constructor
      · rw [hsame.pending_eq]
        exact hwithdrawn.gone
      · rw [hacked, hcovered]
        exact hwithdrawn.silent
      · rw [hacked, hcovered, hsame.subscribed_eq]
        exact hwithdrawn.acked
  | cancelled hexc hrounds hold hall =>
      exact .cancelled hexc hrounds (hkept ▸ hold) (hcovered.trans hall)

/-- Between two batches: the next send, or the end of the call. -/
theorem Batched.sendNext (now : ℚ) (hdesired : client.desiredSymbols = start.desiredSymbols)
    (hnumbered : client.Numbered category)
    (hused : ∀ reqId, Acked reqId effects → reqId ∈ reqIdsUpTo category client.sequence)
    (htopics : ∀ frame ∈ framesOf effects, frame.topics = frame.symbols.map tickerTopic)
    (hrounds : rounds = done ++ rest)
    (hframes : (framesOf effects).map PendingSubscription.symbols = done)
    (hcovered : client.covered = start.covered ∪ done.flatten.toFinset) :
    Batched category start rounds { client.sendNext category .subscribe now rest with
      effects := effects ++ (client.sendNext category .subscribe now rest).effects } := by
  -- no round is left, or the next one is registered and sent
  cases rest with
  | nil =>
      obtain rfl : rounds = done := hrounds.trans (List.append_nil done)
      refine ⟨hdesired, hnumbered, ?_, ?_, ?_⟩
      · simpa [BybitWebSocketClient.sendNext] using hused
      · simpa [BybitWebSocketClient.sendNext] using htopics
      · exact .completed (by simpa [BybitWebSocketClient.sendNext] using hframes) hcovered
  | cons batch rest =>
      set request := client.nextRequest category batch now with hrequest
      have hfresh := hnumbered.fresh batch now
      have hregistered := hnumbered.register batch now
      -- an acknowledgement of the new id would be one of an id that was not used
      have hsilent : ¬ Acked request.reqId effects :=
        fun hack => subscriptionReqId_not_mem category client.sequence (hused _ hack)
      have hlater (reqId : String) (hack : Acked reqId effects) :
          reqId ∈ reqIdsUpTo category (client.sequence + 1) := by
        rw [reqIdsUpTo_succ]
        exact List.mem_append_left _ (hused reqId hack)
      have hdropped :
          ((client.register request).dropPending request.reqId).covered = client.covered := by
        have hkept := hnumbered.dropPending_register batch now
        simp only [BybitWebSocketClient.covered, BybitWebSocketClient.pendingSymbols]
        rw [hkept]
        rfl
      rw [BybitWebSocketClient.sendNext.eq_def]
      cases hws : client.ws with
      | some connection =>
          have hframe : framesOf (effects ++ [.requested (some connection) request]) =
              framesOf effects ++ [request] := framesOf_append _ _
          have hacked (reqId : String) :
              Acked reqId (effects ++ [.requested (some connection) request]) ↔
                Acked reqId effects := by
            rw [Acked.append]
            simp [Acked]
          refine ⟨hdesired, hregistered, ?_, ?_, ?_⟩
          · exact fun reqId hack => hlater reqId ((hacked reqId).mp hack)
          · show ∀ frame ∈ framesOf (effects ++ [.requested (some connection) request]), _
            rw [hframe]
            intro frame hmem
            rcases List.mem_append.mp hmem with hold | hnew
            · exact htopics frame hold
            · cases List.mem_singleton.mp hnew
              rfl
          · refine .sending hrounds ?_ (.pending ?_ ?_ ?_)
            · rw [hframe, List.map_append, hframes]
              rfl
            · exact ⟨request, List.mem_append_right _ (List.mem_singleton_self _), rfl, rfl⟩
            · rw [hdropped, hcovered]
            · rwa [hacked]
      | none =>
          -- without a connection the request is registered and withdrawn at once
          have hframe : framesOf (effects ++ [.requested none request,
              .sendFailed request.reqId]) = framesOf effects := by
            rw [framesOf_append]
            exact List.append_nil _
          have hacked (reqId : String) :
              Acked reqId (effects ++ [.requested none request, .sendFailed request.reqId]) ↔
                Acked reqId effects := by
            rw [Acked.append]
            simp [Acked]
          refine ⟨hdesired, hregistered.dropPending _, ?_, ?_, ?_⟩
          · exact fun reqId hack => hlater reqId ((hacked reqId).mp hack)
          · show ∀ frame ∈ framesOf (effects ++ [.requested none request, _]), _
            rw [hframe]
            exact htopics
          · refine @Stands.failed _ _ _ _ done rest batch request.reqId _ rfl hrounds ?_ ?_
              ⟨?_, ?_, ?_⟩
            · rw [hframe]
              exact Or.inl hframes
            · exact List.mem_append_right _ (List.mem_cons_of_mem _ (List.mem_singleton_self _))
            · exact fun pending hmem => (BybitWebSocketClient.mem_dropPending.mp hmem).2
            · exact fun _ => hdropped.trans hcovered
            · exact fun hack => absurd ((hacked _).mp hack) hsilent

/-- The call when it has taken the lock. -/
theorem Batched.resubscribe (config : Settings) (now : ℚ) (hnumbered : start.Numbered category) :
    Batched category start
      (BybitWebSocketClient.batches config (PyText.sorted start.unmet))
      (start.resubscribe config category now) := by
  have hfirst := @Batched.sendNext category start
    (BybitWebSocketClient.batches config (PyText.sorted start.unmet)) []
    (BybitWebSocketClient.batches config (PyText.sorted start.unmet)) start []
    now rfl hnumbered (fun reqId hack => absurd hack (not_acked_nil reqId))
    (fun frame hmem => nomatch hmem)
    rfl rfl ?_
  · exact hfirst
  · simp

/-- Every step keeps the invariant. -/
theorem BatchingStep.batched (h : BatchingStep category s t)
    (hs : Batched category start rounds s) : Batched category start rounds t := by
  obtain ⟨hdesired, hnumbered, hused, htopics, hstands⟩ := hs
  cases h with
  | other hsame =>
      have hcongr := hstands.congr hsame rfl not_acked_nil
      rw [List.append_nil] at hcongr
      refine ⟨hsame.desired_eq.trans hdesired, hsame.numbered hnumbered, ?_, htopics, hcongr⟩
      rw [hsame.sequence_eq]
      exact hused
  | @frame raw noted raised haccepted =>
      -- a frame leaves the subscriptions, confirms a request, or is excluded as a rejection
      rcases s.client.handleRaw_subscriptions category raw noted raised with
        ⟨hsame, hframes, hacks⟩ | ⟨pending, hmem, hsame, heffects⟩ | ⟨connection, reqId, hreject⟩
      · have hnone (reqId : String) : ¬ Acked reqId
            (s.client.handleRaw category raw noted raised).effects :=
          fun hack => hack.elim fun connection hmem => hacks connection reqId true hmem
        refine ⟨hsame.desired_eq.trans hdesired, hsame.numbered hnumbered, ?_, ?_,
          hstands.congr hsame hframes hnone⟩
        · intro reqId hack
          rw [hsame.sequence_eq]
          exact hused reqId ((Acked.append.mp hack).resolve_right (hnone reqId))
        · intro frame hframe
          rw [framesOf_append, hframes, List.append_nil] at hframe
          exact htopics frame hframe
      · rw [heffects]
        refine ⟨hsame.desired_eq.trans hdesired,
          hsame.numbered (hnumbered.confirm pending), ?_, ?_, ?_⟩
        · intro reqId hack
          rw [hsame.sequence_eq]
          rcases Acked.append.mp hack with hold | ⟨connection, hnew⟩
          · exact hused reqId hold
          · injection List.mem_singleton.mp hnew with _ hid _
            exact hid ▸ hnumbered.used pending hmem
        · intro frame hframe
          rw [framesOf_append] at hframe
          exact htopics frame (by simpa [framesOf] using hframe)
        · have hconfirmed := (hstands.confirm hnumbered hmem s.client.ws).congr hsame rfl
            not_acked_nil
          rwa [List.append_nil] at hconfirmed
      · exact absurd hreject (haccepted connection reqId)
  | @sent sending hsending outcome =>
      rw [hsending] at hstands
      cases hstands with
      | @sending done rest batch reqId hrounds hframes hawaits =>
          have hcovered := hawaits.covered_eq hnumbered
          have hnext : start.covered ∪ done.flatten.toFinset ∪ batch.toFinset =
              start.covered ∪ (done ++ [batch]).flatten.toFinset := by
            simp [Finset.union_assoc]
          -- the send returns and the next round follows, or it raises and ends the call
          cases outcome with
          | ok now =>
              refine Batched.sendNext now hdesired hnumbered hused htopics ?_ hframes ?_
              · rw [hrounds, List.append_assoc]
                rfl
              · rw [hcovered, hnext]
          | error exc =>
              rw [BybitWebSocketClient.resumeSend]
              dsimp only
              split
              · rename_i hexc
                have hframe : framesOf (s.effects ++ [.sendFailed reqId]) = framesOf s.effects := by
                  rw [framesOf_append]
                  exact List.append_nil _
                refine ⟨hdesired, hnumbered.dropPending reqId, ?_, ?_, ?_⟩
                · intro other hack
                  refine hused other ((Acked.append.mp hack).resolve_right ?_)
                  rintro ⟨connection, hmem⟩
                  cases List.mem_singleton.mp hmem
                · intro frame hmem
                  rw [hframe] at hmem
                  exact htopics frame hmem
                · refine .failed hexc hrounds (Or.inr (hframe ▸ hframes)) ?_ hawaits.withdrawn
                  exact List.mem_append_right _ (List.mem_singleton_self _)
              · rename_i hexc
                simp only [List.append_nil]
                refine ⟨hdesired, hnumbered, hused, htopics, ?_⟩
                exact .cancelled (Bool.eq_false_iff.mpr hexc) hrounds hframes
                  (hcovered.trans hnext)

/-- Every run of the call keeps the invariant. -/
theorem batched_of_run (hrun : Relation.ReflTransGen (BatchingStep category) s t)
    (hs : Batched category start rounds s) : Batched category start rounds t := by
  -- by induction on the run
  induction hrun with
  | refl => exact hs
  | tail _ hstep ih => exact hstep.batched ih

/-! ### What the call has sent -/

/-- The frames carry the first rounds. -/
theorem Stands.frames_prefix {start : Finset String} {progress : SendProgress}
    (h : Stands start rounds client effects progress) :
    (framesOf effects).map PendingSubscription.symbols <+: rounds := by
  have hlonger (done rest : List (List String)) (batch : List String) :
      done ++ [batch] <+: done ++ batch :: rest := ⟨rest, by simp⟩
  cases h with
  | sending hrounds hframes hawaits =>
      rw [hrounds, hframes]
      exact hlonger _ _ _
  | completed hframes hcovered => rw [hframes]
  | failed hexc hrounds hframes hfailed hwithdrawn =>
      rw [hrounds]
      rcases hframes with hframes | hframes
      · rw [hframes]
        exact List.prefix_append _ _
      · rw [hframes]
        exact hlonger _ _ _
  | cancelled hexc hrounds hframes hcovered =>
      rw [hrounds, hframes]
      exact hlonger _ _ _

/-- If the first of the missing symbols are covered, the others are missing. -/
theorem unmet_of_covered {first later : List String} (hdesired :
      client.desiredSymbols = start.desiredSymbols)
    (hsplit : PyText.sorted start.unmet = first ++ later)
    (hcovered : client.covered = start.covered ∪ first.toFinset) :
    client.unmet = later.toFinset := by
  have hnodup := PyText.nodup_sorted start.unmet
  rw [hsplit] at hnodup
  have hmem (symbol : String) : symbol ∈ start.unmet ↔ symbol ∈ first ∨ symbol ∈ later := by
    rw [← PyText.mem_sorted, hsplit, List.mem_append]
  -- what is covered in addition is not missing any more
  have hunmet : client.unmet = start.unmet \ first.toFinset := by
    rw [client.unmet_eq, start.unmet_eq, hdesired, hcovered, sdiff_sdiff_left]
    rfl
  ext symbol
  rw [hunmet, Finset.mem_sdiff, hmem, List.mem_toFinset, List.mem_toFinset]
  constructor
  · rintro ⟨hfirst | hlater, hnot⟩
    · exact absurd hfirst hnot
    · exact hlater
  · -- a symbol occurs only once among the missing ones
    exact fun hlater => ⟨Or.inr hlater, fun hfirst =>
      (List.nodup_append'.mp hnodup).2.2 hfirst hlater⟩

/-- What a failed send leaves behind: `done` are the batches before it. -/
structure FailedAt (start client : BybitWebSocketClient) (effects : List Effect)
    (done : List (List String)) (batch : List String) (rest : List (List String)) : Prop where
  frames_eq : (framesOf effects).map PendingSubscription.symbols = done ∨
    (framesOf effects).map PendingSubscription.symbols = done ++ [batch]
  /-- The batches before the failure are pending or confirmed. -/
  kept : ∀ symbol ∈ done.flatten, symbol ∈ client.pendingSymbols ∪ client.subscribed
  /-- The failed batch and the later ones are missing, unless the former was acknowledged. -/
  missing : ∃ reqId, .sendFailed reqId ∈ effects ∧
    (¬ Acked reqId effects → client.unmet = (batch ++ rest.flatten).toFinset) ∧
    (Acked reqId effects → (∀ symbol ∈ batch, symbol ∈ client.subscribed) ∧
      client.unmet = rest.flatten.toFinset)

/-- What holds of a call of `resubscribe` that found `start`, at `s`. -/
structure ResubscribeBatches (config : Settings) (category : String)
    (start : BybitWebSocketClient) (s : SendRun) : Prop where
  /-- The symbols of the frames, in their order, are strictly increasing. -/
  increasing : ((framesOf s.effects).flatMap PendingSubscription.symbols).Pairwise (· < ·)
  missing : ∀ symbol ∈ (framesOf s.effects).flatMap PendingSubscription.symbols,
    symbol ∈ start.unmet
  sized : ∀ frame ∈ framesOf s.effects, frame.topics = frame.symbols.map tickerTopic ∧
    1 ≤ frame.topics.length ∧ (frame.topics.length : ℤ) ≤ config.wsSubscribeBatchSize
  /-- If no send fails, everything missing was requested, and everything desired is pending or
  confirmed. -/
  complete : s.progress = .returned (.ok ()) →
    (framesOf s.effects).flatMap PendingSubscription.symbols = PyText.sorted start.unmet ∧
      s.client.desiredSymbols ⊆ s.client.pendingSymbols ∪ s.client.subscribed
  /-- If the send of a batch fails, what is missing is the rest. -/
  resumable : ∀ exc, s.progress = .returned (.error exc) → exc.isException = true →
    ∃ done batch rest, BybitWebSocketClient.batches config (PyText.sorted start.unmet) =
        done ++ batch :: rest ∧
      FailedAt start s.client s.effects done batch rest
  /-- A cancelled send does not withdraw its batch. -/
  interrupted : ∀ exc, s.progress = .returned (.error exc) → exc.isException = false →
    ∃ done batch rest, BybitWebSocketClient.batches config (PyText.sorted start.unmet) =
        done ++ batch :: rest ∧
      s.client.unmet = rest.flatten.toFinset
  /-- The next call on the connection requests what is missing, and nothing else. -/
  resumes : ∀ now next, Relation.ReflTransGen (BatchingStep category)
      (s.client.resubscribe config category now) next →
    (framesOf next.effects).flatMap PendingSubscription.symbols <+: PyText.sorted s.client.unmet ∧
      (next.progress = .returned (.ok ()) →
        (framesOf next.effects).flatMap PendingSubscription.symbols =
          PyText.sorted s.client.unmet)

end

/-- The symbols of the frames are a beginning of what is missing, and all of it when the call has
returned. -/
theorem Batched.frames {config : Settings} {category : String} {start : BybitWebSocketClient}
    {s : SendRun} (hsize : 1 ≤ config.wsSubscribeBatchSize)
    (h : Batched category start
      (BybitWebSocketClient.batches config (PyText.sorted start.unmet)) s) :
    (framesOf s.effects).flatMap PendingSubscription.symbols <+: PyText.sorted start.unmet ∧
      (s.progress = .returned (.ok ()) →
        (framesOf s.effects).flatMap PendingSubscription.symbols =
          PyText.sorted start.unmet) := by
  have hall : (BybitWebSocketClient.batches config (PyText.sorted start.unmet)).flatten =
      PyText.sorted start.unmet := List.flatten_slices (by omega)
  refine ⟨?_, fun hreturned => ?_⟩
  · obtain ⟨later, hlater⟩ := h.stands.frames_prefix
    rw [List.flatMap_def, ← hall, ← hlater, List.flatten_append]
    exact List.prefix_append _ _
  · have hstands := h.stands
    rw [hreturned] at hstands
    cases hstands with
    | completed hframes hcovered => rw [List.flatMap_def, hframes, hall]

/-- A call of `resubscribe` sends what is missing in sorted batches, whichever acknowledgements
arrive between its steps; after a failed send exactly the failed batch, unless it was acknowledged,
and the later ones are missing. -/
theorem resubscribe_batches {config : Settings} {category : String}
    {client : BybitWebSocketClient} {now : ℚ} {s : SendRun}
    (hsize : 1 ≤ config.wsSubscribeBatchSize) (hnumbered : client.Numbered category)
    (hrun : Relation.ReflTransGen (BatchingStep category)
      (client.resubscribe config category now) s) :
    ResubscribeBatches config category client s := by
  have hpos : 0 < config.wsSubscribeBatchSize.toNat := by omega
  have hall : (BybitWebSocketClient.batches config (PyText.sorted client.unmet)).flatten =
      PyText.sorted client.unmet := List.flatten_slices hpos
  have hbatched := batched_of_run hrun (Batched.resubscribe config now hnumbered)
  obtain ⟨hfirstRounds, hreturned⟩ := hbatched.frames hsize
  have hstands := hbatched.stands
  have hdesired := hbatched.desired_eq
  constructor
  · exact (PyText.pairwise_sorted client.unmet).sublist hfirstRounds.sublist
  · exact fun symbol hmem => PyText.mem_sorted.mp (hfirstRounds.subset hmem)
  · intro frame hmem
    have htopics := hbatched.topics_eq frame hmem
    have hround := hstands.frames_prefix.subset (List.mem_map_of_mem hmem)
    obtain ⟨hnonempty, hlength⟩ := List.length_of_mem_slices hpos hround
    rw [htopics, List.length_map]
    exact ⟨rfl, hnonempty, by omega⟩
  · intro hprogress
    refine ⟨hreturned hprogress, ?_⟩
    rw [hprogress] at hstands
    cases hstands with
    | completed hframes hcovered =>
        have hnone : s.client.unmet = ∅ :=
          unmet_of_covered hdesired (hall.symm.trans (List.append_nil _).symm) hcovered
        rw [s.client.unmet_eq] at hnone
        exact Finset.sdiff_eq_empty_iff_subset.mp hnone
  · intro exc hprogress hexc
    rw [hprogress] at hstands
    cases hstands with
    | cancelled hnot => exact absurd hexc (Bool.eq_false_iff.mp hnot)
    | @failed done rest batch reqId _ _ hrounds hframes hfailed hwithdrawn =>
        refine ⟨done, batch, rest, hrounds, hframes, fun symbol hmem => ?_, reqId, hfailed, ?_, ?_⟩
        · -- with or without the failed batch, the earlier ones are covered
          have hbefore : symbol ∈ client.covered ∪ done.flatten.toFinset :=
            Finset.mem_union_right _ (List.mem_toFinset.mpr hmem)
          show symbol ∈ s.client.covered
          by_cases hack : Acked reqId s.effects
          · rw [(hwithdrawn.acked hack).1]
            exact Finset.mem_union_left _ hbefore
          · rwa [hwithdrawn.silent hack]
        · intro hsilent
          refine unmet_of_covered hdesired ?_ (hwithdrawn.silent hsilent)
          rw [← hall, hrounds, List.flatten_append, List.flatten_cons]
        · intro hack
          obtain ⟨hcovered, hsubscribed⟩ := hwithdrawn.acked hack
          refine ⟨hsubscribed, unmet_of_covered hdesired
            (show PyText.sorted client.unmet = (done.flatten ++ batch) ++ rest.flatten from ?_) ?_⟩
          · rw [← hall, hrounds, List.flatten_append, List.flatten_cons, List.append_assoc]
          · rw [hcovered, List.toFinset_append, Finset.union_assoc]
  · intro exc hprogress hexc
    rw [hprogress] at hstands
    cases hstands with
    | failed hnot => rw [hexc] at hnot; cases hnot
    | @cancelled done rest batch _ _ hrounds hframes hcovered =>
        refine ⟨done, batch, rest, hrounds, unmet_of_covered hdesired ?_ hcovered⟩
        rw [← hall, hrounds]
        simp
  · exact fun later next hnext =>
      (batched_of_run hnext (Batched.resubscribe config later hbatched.numbered)).frames hsize

/-- Batches of one symbol. -/
def batchesOfOne : Settings := { wsSubscribeBatchSize := 1 }

/-- An open connection with three desired symbols. -/
def threeDesired : BybitWebSocketClient := { desiredSymbols := {"A", "B", "C"}, ws := some 1 }

def firstAck : RawJson := some (.object
  [("op", .string "subscribe"), ("success", .bool true), ("req_id", .string "sub-spot-1")])

/-- The first batch is acknowledged before its send returns, and the send of the second raises. -/
theorem resubscribe_batches_secondFails :
    ∃ s, ResubscribeBatches batchesOfOne "spot" threeDesired s ∧
      s.progress = .returned (.error .connectionError) ∧
      s.client.subscribed = {"A"} ∧ s.client.unmet = {"B", "C"} := by
  have hbatches : BybitWebSocketClient.batches batchesOfOne (PyText.sorted threeDesired.unmet) =
      [["A"], ["B"], ["C"]] := by decide +kernel
  have hfirst : threeDesired.resubscribe batchesOfOne "spot" 0 =
      threeDesired.sendNext "spot" .subscribe 0 [["A"], ["B"], ["C"]] :=
    congrArg (threeDesired.sendNext "spot" .subscribe 0) hbatches
  have hrun := Relation.ReflTransGen.refl (r := BatchingStep "spot")
    (a := threeDesired.resubscribe batchesOfOne "spot" 0)
  rw [hfirst] at hrun
  refine ⟨_, resubscribe_batches (by decide) ⟨by decide, by decide⟩ (hfirst ▸ ((hrun.tail
    (@BatchingStep.frame _ _ firstAck 1 none ?_)).tail (.sent rfl (.ok 2))).tail
    (.sent rfl (.error .connectionError))), rfl, by decide +kernel, by decide +kernel⟩
  intro connection reqId hmem
  have hacked : .acknowledged connection reqId false ∈
      [Effect.acknowledged (some 1) "sub-spot-1" true] := hmem
  simp at hacked

/-! ## The call in a stream -/

/-- The ids of the pending requests of a stream are numbered. -/
theorem Tracks.numbered_client {category : String} {history : List Effect} {connection : ℕ}
    {client : BybitWebSocketClient} {reserved : List String}
    (h : Tracks category history connection client reserved) : client.Numbered category :=
  ⟨h.reqIds_nodup, fun _ hmem => h.reqId_mem hmem⟩

namespace StreamState

variable {s t : StreamState}

/-- A step around the holder of the lock: the subscriptions and the lock stay as they are. -/
structure Bystands (s t : StreamState) : Prop where
  same : s.client.SameSubscriptions t.client
  lock_eq : t.lock = s.lock

theorem LoopsTo.bystands (h : s.LoopsTo t) : s.Bystands t := by
  cases h with
  | awaits hconnected => exact ⟨.refl _, rfl⟩
  | failed exit => exact ⟨⟨rfl, rfl, rfl, rfl⟩, rfl⟩

theorem bystands_attemptEnded (cancelled : Bool) : s.Bystands (s.attemptEnded cancelled) :=
  ⟨⟨rfl, rfl, rfl, rfl⟩, rfl⟩

/-- A task that goes on holds the lock for its next send, if there is one. -/
theorem follow_lock {task : TaskName} {run : SendRun} {next : Sending} :
    (s.follow task run).lock = some (task, next) ↔ run.progress = .sending next := by
  rw [follow]
  split
  · rename_i state hstate
    rw [hstate]
    simp
  · rename_i result hresult
    rw [hresult, opReturned_lock]
    simp

end StreamState

/-- No `set_symbols`, reset or rejection. -/
structure Undisturbed (action : Action) (effects : List Effect) : Prop where
  keeps_desired : ∀ symbols, action ≠ .sync symbols
  keeps_connection : ∀ connectedAt pingAt, action ≠ .connected connectedAt pingAt
  accepted : ∀ connection reqId, .acknowledged connection reqId false ∉ effects

/-- While a task holds the lock for its call, what the stream does is a step of the call. -/
theorem StreamMove.batching {config : Settings} {category : String} {s t : StreamState}
    {action : Action} {effects : List Effect} {task : TaskName} {sending : Sending} {run : SendRun}
    (h : StreamMove config category s action effects t) (hundisturbed : Undisturbed action effects)
    (hheld : s.lock = some (task, sending)) (hclient : run.client = s.client)
    (hprogress : run.progress = .sending sending) :
    ∃ later, Relation.ReflTransGen (BatchingStep category) run later ∧ later.client = t.client ∧
      later.effects = run.effects ++ effects ∧
      (∀ next, later.progress = .sending next ↔ t.lock = some (task, next)) := by
  obtain ⟨progress, client, history⟩ := run
  cases hclient
  cases hprogress
  -- most moves leave the subscriptions alone
  have hquiet (hbystands : s.Bystands t) (hnone : effects = []) :
      ∃ later, Relation.ReflTransGen (BatchingStep category)
          ⟨.sending sending, s.client, history⟩ later ∧ later.client = t.client ∧
        later.effects = history ++ effects ∧
        (∀ next, later.progress = .sending next ↔ t.lock = some (task, next)) := by
    refine ⟨⟨.sending sending, t.client, history⟩, .single (.other hbystands.same), rfl, ?_, ?_⟩
    · rw [hnone, List.append_nil]
    · intro next
      rw [hbystands.lock_eq, hheld]
      simp
  cases h with
  | requestStop => exact hquiet ⟨.refl _, rfl⟩ rfl
  | sync hidle => exact absurd rfl (hundisturbed.keeps_desired _)
  | acquire hfree henter =>
      -- the lock is held
      rw [hheld] at hfree
      cases hfree
  | @sent holder own outcome hown =>
      cases hheld.symm.trans hown
      refine ⟨_, .single (.sent rfl outcome), ?_, rfl, fun next => ?_⟩
      · exact (StreamState.follow_client _ _).symm
      · exact StreamState.follow_lock.symm
  | cancelBackoff htask => exact hquiet ⟨.refl _, rfl⟩ rfl
  | cancelClosing htask => exact hquiet (StreamState.bystands_attemptEnded true) rfl
  | cancelWaiting htask hwaits => exact hquiet (StreamState.loopsTo_leave _).bystands rfl
  | cancelSync hwaits => exact hquiet ⟨.refl _, rfl⟩ rfl
  | stopped htask hstop => exact hquiet ⟨.refl _, rfl⟩ rfl
  | connect htask hstop => exact hquiet ⟨⟨rfl, rfl, rfl, rfl⟩, rfl⟩ rfl
  | connectFailed htask => exact hquiet (StreamState.bystands_attemptEnded _) rfl
  | connected htask => exact absurd rfl (hundisturbed.keeps_connection _ _)
  | callback htask => exact hquiet (StreamState.loopsTo_callbackReturned _).bystands rfl
  | deliver => exact hquiet ⟨.refl _, rfl⟩ rfl
  | timeout htask =>
      refine hquiet (StreamState.loopsTo_checkWatchdogs ?_).bystands rfl
      split
      · exact .awaits rfl
      · exact StreamState.loopsTo_loopHead
  | @pinged sentAt ended htask =>
      obtain ⟨hsame, hlock⟩ :=
        (@StreamState.loopsTo_loopHead
          { s with client := { s.client with lastPingAt := sentAt } }).bystands
      exact hquiet
        ⟨⟨hsame.desired_eq, hsame.subscribed_eq, hsame.pending_eq, hsame.sequence_eq⟩, hlock⟩ rfl
  | pingFailed htask => exact hquiet (StreamState.loopsTo_leave _).bystands rfl
  -- first the client handles the frame, then the loop goes on
  | @receive noted ackCheck tickerCheck ended raised raw arrival inbox htask hinbox =>
      have hbystands := (@StreamState.loopsTo_receiveFrame { s with inbox } config category raw
        noted ackCheck tickerCheck raised).bystands
      refine ⟨_, .tail (.single (.frame hundisturbed.accepted)) (.other hbystands.same), rfl, rfl,
        fun next => ?_⟩
      rw [hbystands.lock_eq, hheld]
      simp
  | recvFailed htask => exact hquiet (StreamState.loopsTo_leave _).bystands rfl
  | closed htask => exact hquiet (StreamState.bystands_attemptEnded _) rfl

/-- A step that leaves the call of the holder undisturbed. -/
def HeldStep (config : Settings) (category : String) (task : TaskName) (s : StreamState)
    (event : StreamEvent) (t : StreamState) : Prop :=
  StreamStep config category s event t ∧ Undisturbed event.1 event.2 ∧
    ∃ sending, s.lock = some (task, sending)

/-- In every run of a stream a call of `resubscribe` satisfies `ResubscribeBatches`, from its grant
of the lock on. -/
theorem StreamRun.resubscribe_batched {config : AdmittedSettings} {category : String} {clock : ℚ}
    {events held : List StreamEvent} {s s' t : StreamState} {task : TaskName} {now : ℚ}
    {effects : List Effect} (hrun : StreamRun config category clock events s)
    (hstep : StreamStep config.toSettings category s (.acquire task now, effects) s')
    (hcall : s.enter config.toSettings category now task =
      some (s.client.resubscribe config.toSettings category now))
    (hheld : Trace (HeldStep config.toSettings category task) s' held t) :
    ∃ run, ResubscribeBatches config.toSettings category s.client run ∧ run.client = t.client ∧
      run.effects = effects ++ effectsOf held := by
  obtain ⟨-, entered, hmove, rfl⟩ := StreamStep.move hstep
  cases hmove with
  | @acquire _ _ sendRun hfree henter =>
      obtain rfl := Option.some.inj (henter.symm.trans hcall)
      -- the stream and the call go on in step
      have hsteps : ∃ run, Relation.ReflTransGen (BatchingStep category)
            (s.client.resubscribe config.toSettings category now) run ∧ run.client = t.client ∧
          run.effects = (s.client.resubscribe config.toSettings category now).effects ++
            effectsOf held ∧
          ∀ next, run.progress = .sending next ↔ t.lock = some (task, next) := by
        induction hheld with
        | nil =>
            refine ⟨_, .refl, (StreamState.follow_client _ _).symm, ?_, fun next => ?_⟩
            · rw [effectsOf, List.flatMap_nil, List.append_nil]
            · exact StreamState.follow_lock.symm
        | @snoc held u event u' prior last ih =>
            obtain ⟨run, hreached, hclient, heffects, hlock⟩ := ih
            obtain ⟨hnext, hundisturbed, sending, hsending⟩ := last
            obtain ⟨-, v, hmove, rfl⟩ := StreamStep.move hnext
            obtain ⟨later, hlater, hclient', heffects', hlock'⟩ :=
              hmove.batching hundisturbed hsending hclient ((hlock sending).mpr hsending)
            refine ⟨later, hreached.trans hlater, hclient', ?_, hlock'⟩
            rw [heffects', heffects, effectsOf_append, List.append_assoc]
      obtain ⟨run, hreached, hclient, heffects, -⟩ := hsteps
      exact ⟨run, resubscribe_batches config.checks.2.1 hrun.tracks.numbered_client hreached,
        hclient, heffects⟩

end BybitMonitor
