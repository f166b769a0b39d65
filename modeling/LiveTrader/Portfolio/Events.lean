/-
# `Portfolio.Events` — the append-only tables of the sleeve ledger

Scopes, accepted orders and hash-chained events, as the three tables of
`LivePortfolioLedger`.  The content of an event is a `Payload`; its level and its
event type are the ones the payload's constructor stands for.  Every public
method runs in one transaction that is rolled back when it raises, so a method
is a function from a ledger to `Result` of a ledger.

`appendEvents` is the only writer of the event table.  A group is written when
none of its event ids is taken, skipped when all of them are stored with the
same content, and refused otherwise.  Event ids are texts joined by colons, and
what the texts contain is up to the caller.

`Hashes` stands for `_hash` on the kinds of content the ledger seals.  Two
contents with one SHA-256 value are not modelled, so the UNIQUE constraint on
`event_hash` never fires and is left out.
-/
import LiveTrader.Portfolio.Plan

namespace LiveTrader.Portfolio

open Lib.Py Lib.Decimal

/-! ## Event contents -/

inductive CostStatus where
  | final
  | unknown
  deriving DecidableEq

/-- One sleeve's part of a broker fill. -/
structure FillAllocation where
  intentId : Text
  sleeveId : Text
  signedQuantity : ℤ
  price : ℚ
  fee : ℚ
  deriving DecidableEq

/-- One sleeve's part of a fee revision. -/
structure FeeAllocation where
  intentId : Text
  sleeveId : Text
  sourceSignedQuantity : ℤ
  feeDelta : ℚ
  deriving DecidableEq

structure BrokerFill where
  planId : String
  brokerOrderId : Text
  sourceEventId : Text
  side : Side
  brokerQuantity : ℕ
  price : ℚ
  fee : ℚ
  costStatus : CostStatus
  allocations : List FillAllocation
  deriving DecidableEq

structure FeeAdjustment where
  planId : String
  brokerOrderId : Text
  sourceEventId : Text
  brokerQuantity : ℕ
  price : ℚ
  previousFee : ℚ
  revisedFee : ℚ
  feeDelta : ℚ
  allocations : List FeeAllocation
  deriving DecidableEq

structure Mismatch where
  symbol : String
  ledgerQuantity : ℤ
  brokerQuantity : ℕ
  deriving DecidableEq

/-- What a reconciliation seals; the content hash comes on top. -/
structure ReconciliationPayload where
  schemaVersion : String
  scopeId : Text
  matched : Bool
  ready : Bool
  ledgerHoldings : List (String × ℤ)
  brokerHoldings : List (String × ℕ)
  externalHoldings : List (String × ℕ)
  mismatches : List Mismatch
  pendingOrders : List Text
  ledgerEventCount : ℕ
  ledgerHeadHash : String
  observedAt : ℤ
  deriving DecidableEq

inductive Payload where
  | brokerOrderAccepted (plan : SymbolNetPlan) (brokerOrderId : Text) (localOrderId : String)
  | internalCross (planId : String) (price : ℚ)
  | sleeveInternalCross (planId : String) (intentId : Text) (signedQuantity : ℤ) (price : ℚ)
  | brokerFill (fill : BrokerFill)
  | sleeveFill (planId : String) (brokerOrderId sourceEventId : Text)
      (allocation : FillAllocation) (costStatus : CostStatus)
  | feeAdjustment (adjustment : FeeAdjustment)
  | sleeveFeeAdjustment (planId : String) (brokerOrderId sourceEventId : Text)
      (allocation : FeeAllocation)
  | brokerOrderTerminal (planId : String) (brokerOrderId sourceEventId : Text) (state : String)
  | restartReconciliation (payload : ReconciliationPayload) (contentHash : String)
  deriving DecidableEq

/-- An event as the callers of `_append_events` hand it over.  `sleeveId` is
empty at portfolio level, `symbol` in a reconciliation; times are microseconds
of UTC. -/
structure Event where
  eventId : String
  scopeId : Text
  sleeveId : String
  symbol : String
  payload : Payload
  occurredAt : ℤ
  deriving DecidableEq

/-! ## Tables -/

structure EventRow extends Event where
  previousHash : String
  eventHash : String
  deriving DecidableEq

structure ScopeRow where
  scopeId : Text
  portfolioId : Text
  portfolioHash : String
  accountId : Text
  deriving DecidableEq

structure OrderRow where
  planId : String
  scopeId : Text
  brokerOrderId : Text
  localOrderId : String
  symbol : Symbol
  side : Side
  quantity : ℕ
  allocations : List SleeveAllocation
  acceptedAt : ℤ
  deriving DecidableEq

/-- The three tables; events in the order of `sequence`. -/
structure Ledger where
  scopes : List ScopeRow
  orders : List OrderRow
  events : List EventRow
  deriving DecidableEq

def Ledger.empty : Ledger := ⟨[], [], []⟩

/-- The contents of the event table. -/
def Ledger.log (l : Ledger) : List Event := l.events.map (·.toEvent)

/-- Event ids in use. -/
def Ledger.eventIds (l : Ledger) : List String := l.log.map (·.eventId)

/-- `SELECT … WHERE event_id = ?`. -/
def Ledger.stored (l : Ledger) (eventId : String) : Option Event :=
  l.log.find? (·.eventId = eventId)

/-- `SELECT … WHERE scope_id = ? ORDER BY sequence`. -/
def Ledger.eventsOf (l : Ledger) (scopeId : Text) : List EventRow :=
  l.events.filter (·.scopeId = scopeId)

def Ledger.hasScope (l : Ledger) (scopeId : Text) : Prop := ∃ row ∈ l.scopes, row.scopeId = scopeId

instance (l : Ledger) (scopeId : Text) : Decidable (l.hasScope scopeId) := by
  unfold Ledger.hasScope; infer_instance

/-! ## Hashes -/

/-- What a fee revision id seals. -/
structure Revision where
  scopeId : Text
  sourceEventId : Text
  quantity : ℕ
  price : ℚ
  previousFee : ℚ
  revisedFee : ℚ
  deriving DecidableEq

/-- `_hash`, one function for each kind of content. -/
structure Hashes where
  plan : PlanPayload → String
  revision : Revision → String
  event : Event → String → String
  reconciliation : ReconciliationPayload → String

/-- `"0" * 64`. -/
def genesis : String := "".pushn '0' 64

/-- The head of a scope's chain. -/
def Ledger.head (l : Ledger) (scopeId : Text) : String :=
  ((l.eventsOf scopeId).getLast?.map (·.eventHash)).getD genesis

/-! ## Appending -/

/-- The stored row of one event of the group, which must have the same content. -/
def storedRow (l : Ledger) (event : Event) : Result (Option Event) :=
  match l.stored event.eventId with
  | none => .ok none
  | some row => do
      require (row = event)
        (.value ("event_id collision with different content: " ++ event.eventId))
      pure (some row)

/-- The INSERT loop; `previousHash` links each row to the one before. -/
def insertEvents (H : Hashes) (scopeId : Text) : Ledger → String → List Event → Result Ledger
  | l, _, [] => .ok l
  | l, previousHash, event :: events => do
      require (event.eventId ∉ l.eventIds)
        (.integrity "UNIQUE constraint failed: live_portfolio_events_v1.event_id")
      require (l.hasScope scopeId) (.integrity "FOREIGN KEY constraint failed")
      let eventHash := H.event event previousHash
      insertEvents H scopeId
        { l with events := l.events ++ [{ event with previousHash, eventHash }] } eventHash events

/-- `_append_events`: the ledger afterwards and the number of rows written. -/
def appendEvents (H : Hashes) (l : Ledger) (events : List Event) : Result (Ledger × ℕ) :=
  match events with
  | [] => .ok (l, 0)
  | first :: _ => do
      let existing ← events.mapM (storedRow l)
      if existing.any (·.isSome) then do
        require (existing.all (·.isSome) = true)
          (.value "partial idempotent event group; reconciliation is required")
        pure (l, 0)
      else do
        require (∀ event ∈ events, event.scopeId = first.scopeId)
          (.value "an event group cannot mix scopes")
        let l' ← insertEvents H first.scopeId l (l.head first.scopeId) events
        pure (l', events.length)

/-! ## What an append does -/

/-- `l'` has the tables of `l` with the contents `new` at the end of the log. -/
structure Appended (l : Ledger) (new : List Event) (l' : Ledger) : Prop where
  scopes : l'.scopes = l.scopes
  orders : l'.orders = l.orders
  log : l'.log = l.log ++ new

theorem Appended.refl (l : Ledger) : Appended l [] l := ⟨rfl, rfl, by simp⟩

theorem Appended.trans {l l' l'' : Ledger} {new new' : List Event} (h : Appended l new l')
    (h' : Appended l' new' l'') : Appended l (new ++ new') l'' :=
  ⟨h'.scopes.trans h.scopes, h'.orders.trans h.orders, by rw [h'.log, h.log, List.append_assoc]⟩

theorem Appended.hasScope_iff {l l' : Ledger} {new : List Event} (h : Appended l new l')
    {scopeId : Text} : l'.hasScope scopeId ↔ l.hasScope scopeId := by
  unfold Ledger.hasScope; rw [h.scopes]

theorem stored_eq_none {l : Ledger} {eventId : String} :
    l.stored eventId = none ↔ eventId ∉ l.eventIds := by
  simp [Ledger.stored, Ledger.eventIds]

theorem mem_log_of_stored {l : Ledger} {eventId : String} {event : Event}
    (h : l.stored eventId = some event) : event ∈ l.log ∧ event.eventId = eventId :=
  ⟨List.mem_of_find?_eq_some h, by simpa using List.find?_some h⟩

/-- Ids that a group may write: distinct, and used by no stored event. -/
def FreshIds (l : Ledger) (ids : List String) : Prop := ids.Nodup ∧ ∀ id ∈ ids, id ∉ l.eventIds

instance (l : Ledger) (ids : List String) : Decidable (FreshIds l ids) := by
  unfold FreshIds; infer_instance

theorem FreshIds.of_append {l : Ledger} {ids ids' : List String} (h : FreshIds l (ids ++ ids')) :
    FreshIds l ids :=
  ⟨(List.nodup_append.mp h.1).1, fun id hid => h.2 id (List.mem_append_left _ hid)⟩

/-- The second half of a fresh list stays fresh when the first half is written. -/
theorem FreshIds.after {l l' : Ledger} {ids ids' : List String} {new : List Event}
    (h : FreshIds l (ids ++ ids')) (happ : Appended l new l') (hnew : new.map (·.eventId) = ids) :
    FreshIds l' ids' := by
  obtain ⟨_, hnd, hdis⟩ := List.nodup_append.mp h.1
  refine ⟨hnd, fun id hid => ?_⟩
  rw [Ledger.eventIds, happ.log, List.map_append, List.mem_append, hnew, not_or]
  exact ⟨h.2 id (List.mem_append_right _ hid), fun hid' => hdis id hid' id hid rfl⟩

/-- A group whose events are all stored with the content they have. -/
def AllStored (l : Ledger) (events : List Event) : Prop :=
  ∀ event ∈ events, l.stored event.eventId = some event

instance (l : Ledger) (events : List Event) : Decidable (AllStored l events) := by
  unfold AllStored; infer_instance

theorem insertEvents_eq_ok {H : Hashes} {scopeId : Text} : ∀ {events : List Event} {l l' : Ledger}
    {previousHash : String}, insertEvents H scopeId l previousHash events = .ok l' →
    Appended l events l' ∧ FreshIds l (events.map (·.eventId))
  | [], l, l', _, h => by
      obtain rfl : l = l' := by simpa [insertEvents] using h
      exact ⟨.refl l, by simp [FreshIds]⟩
  | event :: events, l, l', previousHash, h => by
      simp only [insertEvents, bind_eq_ok, require_eq_ok] at h
      obtain ⟨_, hnew, _, _, h⟩ := h
      obtain ⟨happ, hnd, hfresh⟩ := insertEvents_eq_ok h
      have hone : Appended l [event] { l with events := l.events ++
          [{ event with previousHash, eventHash := H.event event previousHash }] } :=
        ⟨rfl, rfl, by simp [Ledger.log]⟩
      have hids : ∀ id ∈ events.map (·.eventId), id ∉ l.eventIds ∧ id ≠ event.eventId := by
        intro id hid
        have := hfresh id hid
        simpa [Ledger.eventIds, hone.log] using this
      refine ⟨hone.trans happ, ?_, ?_⟩
      · rw [List.map_cons, List.nodup_cons]
        exact ⟨fun hid => (hids _ hid).2 rfl, hnd⟩
      · rintro id (_ | ⟨_, hid⟩)
        · exact hnew
        · exact (hids id hid).1

theorem insertEvents_ok {H : Hashes} {scopeId : Text} : ∀ {events : List Event} {l : Ledger}
    {previousHash : String}, FreshIds l (events.map (·.eventId)) → l.hasScope scopeId →
    ∃ l', insertEvents H scopeId l previousHash events = .ok l'
  | [], l, _, _, _ => ⟨l, rfl⟩
  | event :: events, l, previousHash, ⟨hnd, hfresh⟩, hs => by
      rw [List.map_cons, List.nodup_cons] at hnd
      rw [insertEvents, require_true (hfresh _ (by simp)), ok_bind, require_true hs, ok_bind]
      refine insertEvents_ok ⟨hnd.2, fun id hid => ?_⟩ hs
      have h1 := hfresh id (by simp [hid])
      have h2 : id ≠ event.eventId := fun h => hnd.1 (h ▸ hid)
      simpa [Ledger.eventIds, Ledger.log, h2] using h1

theorem storedRow_eq_ok {l : Ledger} {event : Event} {row : Option Event} :
    storedRow l event = .ok row ↔ l.stored event.eventId = row ∧ ∀ r ∈ row, r = event := by
  unfold storedRow
  cases h : l.stored event.eventId with
  | none => cases row <;> simp
  | some r =>
    simp only [bind_eq_ok, require_eq_ok, pure_eq_ok]
    constructor
    · rintro ⟨_, rfl, rfl⟩; simp
    · rintro ⟨rfl, hr⟩; exact ⟨(), hr r rfl, rfl⟩

theorem allStored_of_rows {l : Ledger} {events : List Event} {existing : List (Option Event)}
    (h : List.Forall₂ (fun event row => storedRow l event = .ok row) events existing)
    (hall : existing.all (·.isSome) = true) : AllStored l events := by
  induction h with
  | nil => simp [AllStored]
  | cons hrow _ ih =>
    obtain ⟨hs, hr⟩ := storedRow_eq_ok.mp hrow
    simp only [List.all_cons, Bool.and_eq_true] at hall
    obtain ⟨r, rfl⟩ := Option.isSome_iff_exists.mp hall.1
    rintro e (_ | ⟨_, he⟩)
    · rw [hs, hr r rfl]
    · exact ih hall.2 e he

/-- A group that went through either wrote nothing or wrote all of itself. -/
theorem appendEvents_eq_ok {H : Hashes} {l l' : Ledger} {events : List Event} {n : ℕ}
    (h : appendEvents H l events = .ok (l', n)) :
    (n = 0 ∧ l' = l ∧ AllStored l events) ∨
      (n = events.length ∧ events ≠ [] ∧ Appended l events l' ∧
        FreshIds l (events.map (·.eventId))) := by
  unfold appendEvents at h
  split at h
  case h_1 =>
    obtain ⟨rfl, rfl⟩ : l = l' ∧ 0 = n := by simpa using h
    exact .inl ⟨rfl, rfl, by simp [AllStored]⟩
  case h_2 first rest =>
    obtain ⟨existing, hex, h⟩ := bind_eq_ok.mp h
    split_ifs at h with hany
    · obtain ⟨_, hall, h⟩ := bind_eq_ok.mp h
      obtain ⟨rfl, rfl⟩ : l = l' ∧ 0 = n := by simpa using h
      exact .inl ⟨rfl, rfl, allStored_of_rows (mapM_eq_ok.mp hex) (require_eq_ok.mp hall)⟩
    · simp only [bind_eq_ok, require_eq_ok, pure_eq_ok] at h
      obtain ⟨_, _, l'', hins, h⟩ := h
      obtain ⟨rfl, rfl⟩ : l'' = l' ∧ (first :: rest).length = n := by simpa using h
      obtain ⟨happ, hfresh⟩ := insertEvents_eq_ok hins
      exact .inr ⟨rfl, by simp, happ, hfresh⟩

theorem appendEvents_fresh {H : Hashes} {l : Ledger} {events : List Event} {scopeId : Text}
    (hne : events ≠ []) (hscope : ∀ event ∈ events, event.scopeId = scopeId)
    (hs : l.hasScope scopeId) (hfresh : FreshIds l (events.map (·.eventId))) :
    ∃ l', appendEvents H l events = .ok (l', events.length) ∧ Appended l events l' := by
  cases events with
  | nil => exact absurd rfl hne
  | cons first rest =>
    have hfirst := hscope first (by simp)
    have hnone : ∀ event ∈ first :: rest, storedRow l event = .ok none := fun event he =>
      storedRow_eq_ok.mpr
        ⟨stored_eq_none.mpr (hfresh.2 _ (List.mem_map_of_mem he)), by simp⟩
    have hmap : (first :: rest).mapM (storedRow l) = .ok ((first :: rest).map fun _ => none) := by
      rw [mapM_eq_ok, List.forall₂_map_right_iff, List.forall₂_same]
      exact hnone
    obtain ⟨l', hins⟩ : ∃ l', insertEvents H first.scopeId l (l.head first.scopeId)
        (first :: rest) = .ok l' := insertEvents_ok hfresh (hfirst ▸ hs)
    refine ⟨l', ?_, (insertEvents_eq_ok hins).1⟩
    unfold appendEvents
    simp only
    rw [hmap, ok_bind, if_neg (by simp), require_true (fun e he => by rw [hscope e he, hfirst]),
      ok_bind, hins, ok_bind]
    rfl

/-- A group that is stored already is skipped. -/
theorem appendEvents_stored {H : Hashes} {l : Ledger} {events : List Event}
    (hall : AllStored l events) : appendEvents H l events = .ok (l, 0) := by
  cases events with
  | nil => rfl
  | cons first rest =>
    have hmap : (first :: rest).mapM (storedRow l) = .ok ((first :: rest).map some) := by
      rw [mapM_eq_ok, List.forall₂_map_right_iff, List.forall₂_same]
      exact fun event he => storedRow_eq_ok.mpr ⟨hall event he, by simp⟩
    unfold appendEvents
    simp only
    rw [hmap, ok_bind, if_pos (by simp), require_true (by simp), ok_bind]
    rfl

end LiveTrader.Portfolio
