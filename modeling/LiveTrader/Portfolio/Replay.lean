/-
# `Portfolio.Replay` — recording a second time

Every group of events is written once: a second call finds the group by its event ids and compares it with what it would
write now.  The comparison includes the time, so a replay has to come back to the time of the first call.
`record_accepted_order` takes it from the order row, `recover_accepted_orders` goes through `record_accepted_order`, and
`record_internal_cross` gets it from its caller.

`Recorded` says that an order row and its group are stored, `Crossed` that a cross is.  Both survive every later call,
because rows and events are only appended, and both are exactly what a replay compares.
-/
import LiveTrader.Portfolio.FillRuns
import LiveTrader.Portfolio.RoundTrip

namespace LiveTrader.Portfolio

open Lib.Py Lib.Decimal

/-! ## Groups that are stored -/

section groups

variable {l l' : Ledger}

theorem AllStored.append {events new : List Event} (h : AllStored l events) (hlog : l'.log = l.log ++ new) :
    AllStored l' events := by
  intro event he
  have hfind := h event he
  rw [Ledger.stored] at hfind ⊢
  rw [hlog, List.find?_append, hfind]
  rfl

/-- A group that was written is stored. -/
theorem Appended.allStored {events : List Event} (h : Appended l events l') (hfresh : FreshIds l (events.map (·.eventId))) :
    AllStored l' events := by
  intro event he
  have hold : l.log.find? (·.eventId = event.eventId) = none :=
    stored_eq_none.mpr (hfresh.2 event.eventId (List.mem_map_of_mem he))
  obtain ⟨stored, hfind⟩ : ∃ stored, events.find? (·.eventId = event.eventId) = some stored :=
    Option.isSome_iff_exists.mp (List.find?_isSome.mpr ⟨event, he, decide_eq_true rfl⟩)
  have hid : stored.eventId = event.eventId := by simpa using List.find?_some hfind
  obtain rfl := List.inj_on_of_nodup_map hfresh.1 (List.mem_of_find?_eq_some hfind) he hid
  rw [Ledger.stored, h.log, List.find?_append, hold, hfind]
  rfl

/-- After a call of `_append_events` its group is stored. -/
theorem appendEvents_allStored {H : Hashes} {events : List Event} {n : ℕ} (h : appendEvents H l events = .ok (l', n)) :
    AllStored l' events ∧ l'.orders = l.orders := by
  rcases appendEvents_eq_ok h with ⟨-, rfl, hall⟩ | ⟨-, -, happ, hfresh⟩
  · exact ⟨hall, rfl⟩
  · exact ⟨happ.allStored hfresh, happ.orders⟩

end groups

/-! ## What a recording leaves -/

theorem text_strip (value field : String) : text (strip value) field = text value field := by
  simp only [text, strip_strip]

/-- The order row of a plan and its group of events. -/
structure Recorded (l : Ledger) (plan : SymbolNetPlan) (brokerId : Text) (localId : String) : Prop where
  traded : 0 < plan.quantity ∧ plan.side ≠ .none
  stored : ∃ acceptedAt cross,
    l.orders.find? (·.planId = plan.planId) = some (orderRow plan brokerId localId acceptedAt) ∧
    internalCrossEvents plan acceptedAt = .ok cross ∧ AllStored l (acceptedEvent plan brokerId localId acceptedAt :: cross)

/-- The group of a zero-net cross. -/
def Crossed (l : Ledger) (plan : SymbolNetPlan) (now : ℤ) : Prop :=
  ∃ cross, internalCrossEvents plan now = .ok cross ∧ AllStored l cross

section recorded

variable {H : Hashes} {l l' : Ledger} {plan : SymbolNetPlan} {brokerId : Text} {localId : String}

/-- Rows and events at the end of the tables hide nothing before them. -/
theorem Recorded.append {rows : List OrderRow} {new : List Event} (h : Recorded l plan brokerId localId)
    (horders : l'.orders = l.orders ++ rows) (hlog : l'.log = l.log ++ new) : Recorded l' plan brokerId localId := by
  obtain ⟨acceptedAt, cross, hrow, hcross, hall⟩ := h.stored
  refine ⟨h.traded, acceptedAt, cross, ?_, hcross, hall.append hlog⟩
  rw [horders, List.find?_append, hrow]
  rfl

/-- Every committed group is appended. -/
theorem Books.appended (step : Books H l l') : ∃ rows new, l'.orders = l.orders ++ rows ∧ l'.log = l.log ++ new := by
  cases step with
  | scope horders hlog _ => exact ⟨[], [], by rw [horders, List.append_nil], by rw [hlog, List.append_nil]⟩
  | order _ _ _ _ _ _ happ => exact ⟨_, _, happ.orders, happ.log⟩
  | cross _ _ happ => exact ⟨[], _, by rw [happ.orders, List.append_nil], happ.log⟩
  | applies step =>
    cases step with
    | fill _ _ _ _ _ _ _ _ _ happ => exact ⟨[], _, by rw [happ.orders, List.append_nil], happ.log⟩
    | status _ happ => exact ⟨[], _, by rw [happ.orders, List.append_nil], happ.log⟩
    | revise _ _ happ => exact ⟨[], _, by rw [happ.orders, List.append_nil], happ.log⟩
    | quiet _ happ => exact ⟨[], _, by rw [happ.orders, List.append_nil], happ.log⟩

/-- Whatever is called later, the tables are only appended to. -/
theorem later_appended (hs : l.Sound) (h : Relation.ReflTransGen (Op H) l l') :
    ∃ rows new, l'.orders = l.orders ++ rows ∧ l'.log = l.log ++ new := by
  have hall : l'.Sound ∧ ∃ rows new, l'.orders = l.orders ++ rows ∧ l'.log = l.log ++ new := by
    induction h with
    | refl => exact ⟨hs, [], [], by rw [List.append_nil], by rw [List.append_nil]⟩
    | tail _ op ih =>
      obtain ⟨hsound, happ⟩ := ih
      have hbooks := op.books hsound
      refine ⟨books_sound hsound hbooks, ?_⟩
      clear op
      induction hbooks with
      | refl => exact happ
      | tail _ step ih =>
        obtain ⟨rows, new, horders, hlog⟩ := ih
        obtain ⟨rows', new', horders', hlog'⟩ := step.appended
        exact ⟨rows ++ rows', new ++ new', by rw [horders', horders, List.append_assoc], by rw [hlog', hlog, List.append_assoc]⟩
  exact hall.2

theorem Recorded.later (h : Recorded l plan brokerId localId) (hs : l.Sound) (hlater : Relation.ReflTransGen (Op H) l l') :
    Recorded l' plan brokerId localId := by
  obtain ⟨rows, new, horders, hlog⟩ := later_appended hs hlater
  exact h.append horders hlog

theorem Crossed.later {now : ℤ} (h : Crossed l plan now) (hs : l.Sound) (hlater : Relation.ReflTransGen (Op H) l l') :
    Crossed l' plan now := by
  obtain ⟨cross, hcross, hall⟩ := h
  obtain ⟨_, _, -, hlog⟩ := later_appended hs hlater
  exact ⟨cross, hcross, hall.append hlog⟩

/-! ### Accepted orders -/

theorem recordAcceptedOrder_recorded {brokerOrderId localOrderId : String} {time : RawTime} {created : Bool}
    (h : recordAcceptedOrder H l plan brokerOrderId localOrderId time = .ok (l', created)) :
    ∃ brokerId, text brokerOrderId "broker_order_id" = .ok brokerId ∧ Recorded l' plan brokerId (strip localOrderId) := by
  obtain ⟨_, htraded, h⟩ := bind_eq_ok.mp h
  obtain ⟨brokerId, hbroker, h⟩ := bind_eq_ok.mp h
  obtain ⟨now, _, h⟩ := bind_eq_ok.mp h
  refine ⟨brokerId, hbroker, require_eq_ok.mp htraded, ?_⟩
  split at h
  case h_1 hnone =>
    obtain ⟨_, _, h⟩ := bind_eq_ok.mp h
    obtain ⟨_, _, h⟩ := bind_eq_ok.mp h
    obtain ⟨cross, hcross, h⟩ := bind_eq_ok.mp h
    obtain ⟨⟨l'', n⟩, happ, h⟩ := bind_eq_ok.mp h
    obtain ⟨rfl, rfl⟩ := Prod.mk.inj (Except.ok.inj h)
    obtain ⟨hall, horders⟩ := appendEvents_allStored happ
    refine ⟨now, cross, ?_, hcross, hall⟩
    -- the row that was inserted is the first of its plan
    rw [horders, List.find?_append, hnone, Option.none_or, List.find?_singleton]
    exact if_pos (decide_eq_true rfl)
  case h_2 row hrow =>
    obtain ⟨_, hsame, h⟩ := bind_eq_ok.mp h
    obtain ⟨cross, hcross, h⟩ := bind_eq_ok.mp h
    obtain ⟨⟨l'', n⟩, happ, h⟩ := bind_eq_ok.mp h
    obtain ⟨rfl, rfl⟩ := Prod.mk.inj (Except.ok.inj h)
    obtain ⟨hall, horders⟩ := appendEvents_allStored happ
    refine ⟨row.acceptedAt, cross, ?_, hcross, hall⟩
    rw [horders, hrow, ← require_eq_ok.mp hsame]

/-- A recorded order is recorded again without a trace, at whatever time. -/
theorem Recorded.again (h : Recorded l plan brokerId localId) {brokerOrderId localOrderId : String}
    (hbroker : text brokerOrderId "broker_order_id" = .ok brokerId) (hlocal : strip localOrderId = localId) {time : RawTime}
    {now : ℤ} (htime : occurredAt time = .ok now) :
    recordAcceptedOrder H l plan brokerOrderId localOrderId time = .ok (l, false) := by
  obtain ⟨acceptedAt, cross, hrow, hcross, hall⟩ := h.stored
  subst hlocal
  rw [recordAcceptedOrder, require_true h.traded, ok_bind, hbroker, ok_bind, htime, ok_bind]
  simp only [hrow]
  refine bind_eq_ok.mpr ⟨(), require_true rfl, ?_⟩
  exact bind_eq_ok.mpr ⟨cross, hcross, bind_eq_ok.mpr ⟨(l, 0), appendEvents_stored hall, rfl⟩⟩

/-! ### Zero-net crosses -/

theorem recordInternalCross_crossed {price : Raw} {time : RawTime} {n : ℕ} {now : ℤ} (htime : occurredAt time = .ok now)
    (h : recordInternalCross H l plan price time = .ok (l', n)) : Crossed l' plan now ∧ ∀ {l₂ : Ledger} {time' : RawTime},
      occurredAt time' = .ok now → Crossed l₂ plan now → recordInternalCross H l₂ plan price time' = .ok (l₂, 0) := by
  obtain ⟨_, hplan, h⟩ := bind_eq_ok.mp h
  obtain ⟨fillPrice, hprice, h⟩ := bind_eq_ok.mp h
  obtain ⟨_, hzero, h⟩ := bind_eq_ok.mp h
  obtain ⟨_, hsealed, h⟩ := bind_eq_ok.mp h
  obtain ⟨now', hnow, h⟩ := bind_eq_ok.mp h
  obtain rfl : now = now' := Except.ok.inj (htime.symm.trans hnow)
  obtain ⟨cross, hcross, happ⟩ := bind_eq_ok.mp h
  refine ⟨⟨cross, hcross, (appendEvents_allStored happ).1⟩, fun htime' hcrossed => ?_⟩
  obtain ⟨cross', hcross', hall⟩ := hcrossed
  refine bind_eq_ok.mpr ⟨_, hplan, bind_eq_ok.mpr ⟨_, hprice, bind_eq_ok.mpr ⟨_, hzero, bind_eq_ok.mpr ⟨_, hsealed, ?_⟩⟩⟩⟩
  exact bind_eq_ok.mpr ⟨_, htime', bind_eq_ok.mpr ⟨_, hcross', appendEvents_stored hall⟩⟩

end recorded

end LiveTrader.Portfolio

namespace LiveTrader.Portfolio.Context

open Lib.Py Lib.Decimal

/-! ## Recovering orders from the journal -/

/-- A row of the dispatch journal as `recover_accepted_orders` reads it; an absent id is empty. -/
structure DispatchRow where
  portfolioExecution : Json
  brokerOrderId : String
  orderId : String

/-- The plan of a row whose metadata is a mapping. -/
def recoveredFields (codec : Codec) (scopeId brokerOrderId : String) (payload : Fields) : Result (Option SymbolNetPlan) :=
  if codec.text (payload.at "scopeId") ≠ scopeId then .ok none
  else if brokerOrderId = "" ∨ brokerOrderId = "-" then .ok none
  else do
    let plan ← validateSymbolNetPlanMetadata codec (.obj payload)
    require (plan.scopeId.val = scopeId) (.value "recovered portfolio order scope is invalid")
    require (plan.side ≠ .none ∧ 0 < plan.quantity) (.value "recovered portfolio order allocation is invalid")
    pure (some plan)

/-- The plan that a row has to record; a row without a plan of the scope or without a broker order is passed over. -/
def recoveredPlan (codec : Codec) (scopeId : String) (row : DispatchRow) : Result (Option SymbolNetPlan) :=
  match row.portfolioExecution with
  | .obj payload => recoveredFields codec scopeId (strip row.brokerOrderId) payload
  | _ => .ok none

/-- The loop body of `recover_accepted_orders`; `now` is the clock when the row is recovered. -/
def recoverRow (H : Hashes) (codec : Codec) (scopeId : String) (l : Ledger) (now : ℤ) (row : DispatchRow) : Result (Ledger × ℕ) := do
  let plan? ← recoveredPlan codec scopeId row
  match plan? with
  | none => pure (l, 0)
  | some plan => do
    let (l', created) ← recordAcceptedOrder H l plan (strip row.brokerOrderId) row.orderId (.absent now)
    pure (l', created.toNat)

/-- `recover_accepted_orders`: every row is recorded in a transaction of its own, so the ledger keeps what was recorded
before a row that raises. -/
def recoverAcceptedOrders (H : Hashes) (codec : Codec) (scopeId : String) : List (ℤ × DispatchRow) → Ledger → ℕ → Ledger × Result ℕ
  | [], l, recovered => (l, .ok recovered)
  | (now, row) :: rows, l, recovered =>
    match recoverRow H codec scopeId l now row with
    | .error e => (l, .error e)
    | .ok (l', created) => recoverAcceptedOrders H codec scopeId rows l' (recovered + created)

/-- One call of a method of the ledger; a raise leaves the tables as they are, except in a recovery. -/
inductive Call (H : Hashes) (codec : Codec) (l : Ledger) : Ledger → Prop
  | op {l' : Ledger} : Op H l l' → Call H codec l l'
  | recover (scopeId : String) (rows : List (ℤ × DispatchRow)) : Call H codec l (recoverAcceptedOrders H codec scopeId rows l 0).1

/-- What the row asks for is recorded. -/
def Recovered (codec : Codec) (scopeId : String) (l : Ledger) (row : DispatchRow) : Prop :=
  ∃ plan?, recoveredPlan codec scopeId row = .ok plan? ∧ ∀ plan ∈ plan?, ∃ brokerId,
    text (strip row.brokerOrderId) "broker_order_id" = .ok brokerId ∧ Recorded l plan brokerId (strip row.orderId)

section recovery

variable {H : Hashes} {codec : Codec} {scopeId : String} {l l' : Ledger}

theorem recoverRow_recovered {now : ℤ} {row : DispatchRow} {n : ℕ} (h : recoverRow H codec scopeId l now row = .ok (l', n)) :
    Recovered codec scopeId l' row ∧ Relation.ReflTransGen (Op H) l l' := by
  obtain ⟨plan?, hplan, h⟩ := bind_eq_ok.mp h
  cases plan? with
  | none =>
    obtain ⟨rfl, rfl⟩ := Prod.mk.inj (Except.ok.inj h)
    exact ⟨⟨none, hplan, fun _ hmem => by cases hmem⟩, .refl⟩
  | some plan =>
    obtain ⟨⟨l'', created⟩, hrecord, h⟩ := bind_eq_ok.mp h
    obtain ⟨rfl, rfl⟩ := Prod.mk.inj (Except.ok.inj h)
    refine ⟨⟨some plan, hplan, fun plan' hmem => ?_⟩, .single (.accept hrecord)⟩
    obtain rfl := Option.some.inj hmem
    exact recordAcceptedOrder_recorded hrecord

theorem Recovered.again {row : DispatchRow} (h : Recovered codec scopeId l row) (now : ℤ) :
    recoverRow H codec scopeId l now row = .ok (l, 0) := by
  obtain ⟨plan?, hplan, hrecorded⟩ := h
  refine bind_eq_ok.mpr ⟨plan?, hplan, ?_⟩
  cases plan? with
  | none => rfl
  | some plan =>
    obtain ⟨brokerId, hbroker, hrecorded⟩ := hrecorded plan rfl
    have hnow : occurredAt (.absent now) = .ok now := rfl
    exact bind_eq_ok.mpr ⟨(l, false), hrecorded.again hbroker rfl hnow, rfl⟩

theorem Recovered.later {row : DispatchRow} (h : Recovered codec scopeId l row) (hs : l.Sound)
    (hlater : Relation.ReflTransGen (Op H) l l') : Recovered codec scopeId l' row := by
  obtain ⟨plan?, hplan, hrecorded⟩ := h
  refine ⟨plan?, hplan, fun plan hmem => ?_⟩
  obtain ⟨brokerId, hbroker, hrecorded⟩ := hrecorded plan hmem
  exact ⟨brokerId, hbroker, hrecorded.later hs hlater⟩

theorem ops_sound (hs : l.Sound) (h : Relation.ReflTransGen (Op H) l l') : l'.Sound := by
  induction h with
  | refl => exact hs
  | tail _ op ih => exact books_sound ih (op.books ih)

theorem recoverAcceptedOrders_ops (H : Hashes) (codec : Codec) (scopeId : String) (rows : List (ℤ × DispatchRow)) (l : Ledger) (n : ℕ) :
    Relation.ReflTransGen (Op H) l (recoverAcceptedOrders H codec scopeId rows l n).1 := by
  induction rows generalizing l n with
  | nil => exact .refl
  | cons row rows ih =>
    rw [recoverAcceptedOrders]
    cases hrow : recoverRow H codec scopeId l row.1 row.2 with
    | error _ => exact .refl
    | ok next => exact (recoverRow_recovered hrow).2.trans (ih next.1 (n + next.2))

/-- After a recovery that went through, every row is recovered. -/
theorem recoverAcceptedOrders_recovered {rows : List (ℤ × DispatchRow)} {n m : ℕ} (hs : l.Sound)
    (h : recoverAcceptedOrders H codec scopeId rows l n = (l', .ok m)) : ∀ row ∈ rows, Recovered codec scopeId l' row.2 := by
  induction rows generalizing l n with
  | nil =>
    rintro row hrow
    cases hrow
  | cons row rows ih =>
    rw [recoverAcceptedOrders] at h
    cases hrow : recoverRow H codec scopeId l row.1 row.2 with
    | error _ =>
      rw [hrow] at h
      cases (Prod.mk.inj h).2
    | ok next =>
      rw [hrow] at h
      obtain ⟨hrecovered, hops⟩ := recoverRow_recovered hrow
      have hs' := ops_sound hs hops
      have hl' : l' = (recoverAcceptedOrders H codec scopeId rows next.1 (n + next.2)).1 := congrArg Prod.fst h.symm
      intro row' hrow'
      rcases List.mem_cons.mp hrow' with rfl | hrow'
      · exact hrecovered.later hs' (hl' ▸ recoverAcceptedOrders_ops H codec scopeId rows next.1 _)
      · exact ih hs' h row' hrow'

/-- Recovered rows are recovered again without a trace. -/
theorem recoverAcceptedOrders_again {rows : List (ℤ × DispatchRow)} (h : ∀ row ∈ rows, Recovered codec scopeId l row.2) (n : ℕ) :
    recoverAcceptedOrders H codec scopeId rows l n = (l, .ok n) := by
  induction rows with
  | nil => rfl
  | cons row rows ih =>
    rw [recoverAcceptedOrders, (h row List.mem_cons_self).again row.1]
    exact ih fun row' hrow' => h row' (List.mem_cons_of_mem _ hrow')

theorem Call.ops (h : Call H codec l l') : Relation.ReflTransGen (Op H) l l' := by
  cases h with
  | op h => exact .single h
  | recover scopeId rows => exact recoverAcceptedOrders_ops H codec scopeId rows l 0

theorem calls_ops (h : Relation.ReflTransGen (Call H codec) l l') : Relation.ReflTransGen (Op H) l l' := by
  induction h with
  | refl => exact .refl
  | tail _ call ih => exact ih.trans call.ops

end recovery

/-- A row that asks for one plan under the ids it was accepted with. -/
def Names (codec : Codec) (scopeId : String) (plan : SymbolNetPlan) (brokerOrderId localOrderId : String) (row : DispatchRow) :
    Prop :=
  recoveredPlan codec scopeId row = .ok (some plan) ∧ strip row.brokerOrderId = strip brokerOrderId ∧
    strip row.orderId = strip localOrderId

/-- **Recording is idempotent.**  In a ledger that any calls have made, let a recording succeed and any calls follow.
Then the recording succeeds again, reports nothing new and returns the ledger it was given:
an accepted order at whatever time and also from the journal, a recovery at whatever times and also row by row, and a
zero-net cross at its own time. -/
theorem recording_idempotent {H : Hashes} {codec : Codec} {l l₁ l₂ : Ledger}
    (hreach : Relation.ReflTransGen (Call H codec) .empty l) (hlater : Relation.ReflTransGen (Call H codec) l₁ l₂) :
    (∀ plan brokerOrderId localOrderId time created,
      recordAcceptedOrder H l plan brokerOrderId localOrderId time = .ok (l₁, created) →
        (∀ time' now, occurredAt time' = .ok now →
          recordAcceptedOrder H l₂ plan brokerOrderId localOrderId time' = .ok (l₂, false)) ∧
        ∀ scopeId rows, (∀ row ∈ rows, Names codec scopeId plan brokerOrderId localOrderId row.2) →
          recoverAcceptedOrders H codec scopeId rows l₂ 0 = (l₂, .ok 0)) ∧
    (∀ scopeId rows count, recoverAcceptedOrders H codec scopeId rows l 0 = (l₁, .ok count) →
      (∀ rows', (∀ row' ∈ rows', ∃ row ∈ rows, row.2 = row'.2) → recoverAcceptedOrders H codec scopeId rows' l₂ 0 = (l₂, .ok 0)) ∧
      ∀ row ∈ rows, ∀ plan, recoveredPlan codec scopeId row.2 = .ok (some plan) → ∀ time' now, occurredAt time' = .ok now →
        recordAcceptedOrder H l₂ plan row.2.brokerOrderId row.2.orderId time' = .ok (l₂, false)) ∧
    ∀ plan price time now count, occurredAt time = .ok now → recordInternalCross H l plan price time = .ok (l₁, count) →
      ∀ time', occurredAt time' = .ok now → recordInternalCross H l₂ plan price time' = .ok (l₂, 0) := by
  have hs : l.Sound := ops_sound .empty (calls_ops hreach)
  have hops : Relation.ReflTransGen (Op H) l₁ l₂ := calls_ops hlater
  refine ⟨?_, ?_, ?_⟩
  · intro plan brokerOrderId localOrderId time created h
    obtain ⟨brokerId, hbroker, hrecorded⟩ := recordAcceptedOrder_recorded h
    have hlast : Recorded l₂ plan brokerId (strip localOrderId) := hrecorded.later (ops_sound hs (.single (.accept h))) hops
    refine ⟨fun time' now htime => hlast.again hbroker rfl htime, fun scopeId rows hrows => ?_⟩
    refine recoverAcceptedOrders_again (fun row hrow => ?_) 0
    obtain ⟨hplan, hsameBroker, hsameLocal⟩ := hrows row hrow
    refine ⟨some plan, hplan, fun plan' hmem => ?_⟩
    obtain rfl := Option.some.inj hmem
    refine ⟨brokerId, ?_, hsameLocal ▸ hlast⟩
    rw [hsameBroker, text_strip, hbroker]
  · intro scopeId rows count h
    have hs₁ : l₁.Sound := by
      have hl₁ : l₁ = (recoverAcceptedOrders H codec scopeId rows l 0).1 := congrArg Prod.fst h.symm
      exact ops_sound hs (hl₁ ▸ recoverAcceptedOrders_ops H codec scopeId rows l 0)
    have hrecovered : ∀ row ∈ rows, Recovered codec scopeId l₂ row.2 := fun row hrow =>
      (recoverAcceptedOrders_recovered hs h row hrow).later hs₁ hops
    constructor
    · intro rows' hrows
      refine recoverAcceptedOrders_again (fun row' hrow' => ?_) 0
      obtain ⟨row, hrow, hsame⟩ := hrows row' hrow'
      exact hsame ▸ hrecovered row hrow
    · intro row hrow plan hplan time' now htime
      obtain ⟨plan?, hplan?, hrecorded⟩ := hrecovered row hrow
      obtain rfl := Except.ok.inj (hplan?.symm.trans hplan)
      obtain ⟨brokerId, hbroker, hrecorded⟩ := hrecorded plan rfl
      exact hrecorded.again (text_strip _ _ ▸ hbroker) rfl htime
  · intro plan price time now count htime h time' htime'
    obtain ⟨hcrossed, hagain⟩ := recordInternalCross_crossed htime h
    exact hagain htime' (hcrossed.later (ops_sound hs (.single (.cross h))) hops)

/-- An order, its fill, and the order a year later. -/
theorem recording_idempotent_sample : ∃ (plan : SymbolNetPlan) (l₁ l₂ : Ledger), l₁.log.length < l₂.log.length ∧
    recordAcceptedOrder sampleHashes l₂ plan "order-1" "" (.stamp 31536000000000) = .ok (l₂, false) := by
  obtain ⟨l₀, hl₀, targets, -, plan, -, l₁, haccept, l₂, hfill, hgrown⟩ : ∃ l₀, sampleScope = .ok l₀ ∧
      ∃ targets, sampleTargets = .ok targets ∧ ∃ plan, samplePlan targets = .ok plan ∧
      ∃ l₁ : Ledger × Bool, recordAcceptedOrder sampleHashes l₀ plan "order-1" "" (.stamp 0) = .ok l₁ ∧
      ∃ l₂ : Ledger × ExecutionSyncReport,
        applyExecutionEvents sampleHashes l₁.1 "scope" [sampleReport "fill-2" 2 .absent "PARTIAL"] = .ok l₂ ∧
      l₁.1.log.length < l₂.1.log.length := by
    decide +kernel
  have hreach : Relation.ReflTransGen (Call sampleHashes (digestCodec "")) .empty l₀ := .single (.op (.registerScope hl₀))
  have hlater : Relation.ReflTransGen (Call sampleHashes (digestCodec "")) l₁.1 l₂.1 := .single (.op (.apply hfill))
  exact ⟨plan, l₁.1, l₂.1, hgrown, ((recording_idempotent hreach hlater).1 plan "order-1" "" (.stamp 0) l₁.2 haccept).1
    (.stamp 31536000000000) 31536000000000 rfl⟩

end LiveTrader.Portfolio.Context
