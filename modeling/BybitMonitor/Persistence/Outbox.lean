import Mathlib
import BybitMonitor.Persistence.Store

/-!
# The rows of the outbox

What the operations do to the rows: a row keeps its notice, and its status leaves `pending` and
`retry` only.

* `Store.Advances`: rows move on or are added, and none is removed.
* `StoreOp.Does.outbox`: the operations of the listing calls leave the rows or insert one.
* `Store.advances_update`: an update of one open row.
-/

namespace BybitMonitor

/-- The columns that no update writes. -/
structure OutgoingNotification.SameNotice (row row' : OutgoingNotification) : Prop where
  id_eq : row'.id = row.id
  messageTag_eq : row'.messageTag = row.messageTag
  message_eq : row'.message = row.message
  createdAt_eq : row'.createdAt = row.createdAt
  dedupeKey_eq : row'.dedupeKey = row.dedupeKey
  originType_eq : row'.originType = row.originType
  originKey_eq : row'.originKey = row.originKey

/-- A row as a later row: the status stays, or it leaves `pending` or `retry` for good or for a
retry. -/
structure OutgoingNotification.MovesTo (row row' : OutgoingNotification) : Prop where
  notice : row.SameNotice row'
  status : row'.status = row.status ∨ (row.status.isOpen = true ∧ row'.status ≠ .pending)

/-- A later outbox: no row is removed, and new rows are pending, with new ids. -/
structure Store.Advances (store store' : Store) : Prop where
  kept : ∀ row ∈ store.outgoing, ∃ row' ∈ store'.outgoing, row.MovesTo row'
  added : ∀ row' ∈ store'.outgoing, (∃ row ∈ store.outgoing, row.MovesTo row') ∨
    (row'.status = .pending ∧ ∀ row ∈ store.outgoing, row.id < row'.id)

namespace OutgoingNotification

variable {row row' row'' : OutgoingNotification}

theorem SameNotice.refl (row : OutgoingNotification) : row.SameNotice row :=
  ⟨rfl, rfl, rfl, rfl, rfl, rfl, rfl⟩

theorem SameNotice.trans (h : row.SameNotice row') (h' : row'.SameNotice row'') :
    row.SameNotice row'' where
  id_eq := h'.id_eq.trans h.id_eq
  messageTag_eq := h'.messageTag_eq.trans h.messageTag_eq
  message_eq := h'.message_eq.trans h.message_eq
  createdAt_eq := h'.createdAt_eq.trans h.createdAt_eq
  dedupeKey_eq := h'.dedupeKey_eq.trans h.dedupeKey_eq
  originType_eq := h'.originType_eq.trans h.originType_eq
  originKey_eq := h'.originKey_eq.trans h.originKey_eq

theorem MovesTo.refl (row : OutgoingNotification) : row.MovesTo row := ⟨.refl row, Or.inl rfl⟩

theorem MovesTo.trans (h : row.MovesTo row') (h' : row'.MovesTo row'') : row.MovesTo row'' where
  notice := h.notice.trans h'.notice
  status := by
    rcases h.status with hsame | ⟨hopen, hpending⟩
    · rw [← hsame]
      exact h'.status
    · rcases h'.status with hsame' | ⟨-, hpending'⟩
      · exact Or.inr ⟨hopen, hsame' ▸ hpending⟩
      · exact Or.inr ⟨hopen, hpending'⟩

/-- A sent row stays sent. -/
theorem MovesTo.sent (h : row.MovesTo row') (hsent : row.status = .sent) : row'.status = .sent := by
  rcases h.status with hsame | ⟨hopen, -⟩
  · exact hsame.trans hsent
  · rw [hsent] at hopen
    cases hopen

end OutgoingNotification

namespace Store

variable {store store' : Store}

theorem mem_mapOutgoing {f : OutgoingNotification → OutgoingNotification}
    {row : OutgoingNotification} :
    row ∈ (store.mapOutgoing f).outgoing ↔ ∃ old ∈ store.outgoing, f old = row :=
  List.mem_map

/-- An outbox with the same rows. -/
theorem Advances.of_eq (h : store'.outgoing = store.outgoing) : store.Advances store' where
  kept row hrow := ⟨row, h ▸ hrow, .refl row⟩
  added row hrow := Or.inl ⟨row, h ▸ hrow, .refl row⟩

/-- An update of the rows, each of which moves on. -/
theorem Advances.map {f : OutgoingNotification → OutgoingNotification}
    (h : ∀ row ∈ store.outgoing, row.MovesTo (f row)) : store.Advances (store.mapOutgoing f) where
  kept row hrow := ⟨f row, mem_mapOutgoing.mpr ⟨row, hrow, rfl⟩, h row hrow⟩
  added row' hrow' := by
    obtain ⟨row, hrow, rfl⟩ := mem_mapOutgoing.mp hrow'
    exact Or.inl ⟨row, hrow, h row hrow⟩

/-- An outbox with more rows. -/
theorem Advances.append {added : List OutgoingNotification}
    (hrows : store'.outgoing = store.outgoing ++ added)
    (hadded : ∀ row ∈ added, row.status = .pending ∧ ∀ old ∈ store.outgoing, old.id < row.id) :
    store.Advances store' where
  kept old hold := ⟨old, hrows ▸ List.mem_append_left _ hold, .refl old⟩
  added row' hrow' := by
    rw [hrows] at hrow'
    rcases List.mem_append.mp hrow' with hold | hnew
    · exact Or.inl ⟨row', hold, .refl row'⟩
    · exact Or.inr (hadded row' hnew)

/-- An update that keeps ids and keys keeps the tables well keyed. -/
theorem wellKeyed_mapOutgoing {f : OutgoingNotification → OutgoingNotification}
    (hf : ∀ row : OutgoingNotification, row.SameNotice (f row)) (h : store.tables.WellKeyed) :
    (store.mapOutgoing f).tables.WellKeyed where
  ids_increase := by
    refine List.pairwise_map.mpr (h.ids_increase.imp fun {row later} hlt => ?_)
    rw [(hf row).id_eq, (hf later).id_eq]
    exact hlt
  id_le row' hrow' := by
    obtain ⟨row, hrow, rfl⟩ := List.mem_map.mp hrow'
    rw [(hf row).id_eq]
    exact h.id_le row hrow
  keys_nodup := by
    have hkeys : (store.mapOutgoing f).tables.dedupeKeys = store.tables.dedupeKeys := by
      show (store.outgoing.map f).filterMap _ = store.outgoing.filterMap _
      rw [List.filterMap_map]
      exact List.filterMap_congr fun row _ => (hf row).dedupeKey_eq
    rw [hkeys]
    exact h.keys_nodup

end Store

theorem Tables.WellKeyed.ids_nodup {tables : Tables} (h : tables.WellKeyed) :
    (tables.outgoing.map OutgoingNotification.id).Nodup :=
  List.pairwise_map.mpr (h.ids_increase.imp fun hlt => Nat.ne_of_lt hlt)

/-- Rows with the same key are the same. -/
theorem Tables.WellKeyed.row_unique {tables : Tables} (h : tables.WellKeyed) {key : String}
    {row row' : OutgoingNotification} (hrow : row ∈ tables.outgoing) (hrow' : row' ∈ tables.outgoing)
    (hkey : row.dedupeKey = some key) (hkey' : row'.dedupeKey = some key) : row = row' := by
  by_contra hne
  have hpairwise := List.pairwise_filterMap.mp h.keys_nodup
  have hsymm : Std.Symm fun a b : OutgoingNotification =>
      ∀ k, a.dedupeKey = some k → ∀ k', b.dedupeKey = some k' → k ≠ k' :=
    ⟨fun _ _ hab k hk k' hk' => (hab k' hk' k hk).symm⟩
  exact hpairwise.forall hrow hrow' hne key hkey key hkey' rfl

/-- The operations of the calls, which update no row of the outbox. -/
def StoreOp.insertsOnly : StoreOp → Bool
  | insertOutgoingNotification _ | findNotificationByDedupe _ | record .. | markSent _ | unsent
  | loadAll | upsertMany .. | markRemoved .. => true
  | _ => false

theorem Store.upsertMany_tables (instruments : List Instrument) (now : ℤ) :
    ∀ store : Store, (store.upsertMany instruments now).tables = store.tables := by
  induction instruments with
  | nil => exact fun store => rfl
  | cons instrument instruments ih =>
      intro store
      refine (ih (store.upsertInstrument instrument now)).trans ?_
      rw [upsertInstrument]
      split <;> rfl

theorem Store.markRemoved_tables (keys : List (String × String)) (now : ℤ) :
    ∀ store : Store, (store.markRemoved keys now).tables = store.tables := by
  induction keys with
  | nil => exact fun store => rfl
  | cons key keys ih => exact fun store => ih (store.removeInstrument key now)

/-- An operation of a call leaves the outbox, or inserts a row whose key is new. -/
theorem StoreOp.Does.outbox {op : StoreOp} {store store' : Store} {result : op.Result}
    (hop : op.insertsOnly = true) (h : op.Does store result store') :
    store'.tables = store.tables ∨ ∃ draft, store.tables.violatesDedupe draft.dedupeKey = false ∧
      store' = store.insertOutgoing draft := by
  cases op with
  | insertOutgoingNotification draft =>
      obtain ⟨hfresh, -, rfl⟩ := h
      exact Or.inr ⟨draft, hfresh, rfl⟩
  | findNotificationByDedupe dedupeKey => exact Or.inl (congrArg Store.tables h.2)
  | record eventKey category symbol eventType now =>
      refine Or.inl ?_
      have h : ite _ _ _ := h
      split at h
      · rw [h.2]
      · rw [h.2]
        rfl
  | markSent eventKey =>
      obtain rfl : store' = store.markListingSent eventKey := h
      exact Or.inl rfl
  | unsent => exact Or.inl (congrArg Store.tables h.2)
  | loadAll => exact Or.inl (congrArg Store.tables h.2)
  | upsertMany instruments now =>
      exact Or.inl ((congrArg Store.tables h).trans (store.upsertMany_tables instruments now))
  | markRemoved keys now =>
      exact Or.inl ((congrArg Store.tables h).trans (store.markRemoved_tables keys now))
  | _ => cases hop

end BybitMonitor
