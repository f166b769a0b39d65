/-
# `LiveOrders.Watermark` — what an event adds to the fills of an order

A broker's event may say how much of an order is filled so far: the quantity, the average price
and the fee.  Such reports are the points of one fill history (`History`), and the code books of
each only what lies beyond the amounts that it has.

An event that reports nothing beyond them changes no amount in any branch (`holds_of_quiet`).
One that does and that the fill branch takes moves the order and its managed order to the point
that it reports (`holds_of_advance`, `difference_reaches`).
-/
import LiveTrader.LiveOrders.Kept
import Mathlib.Tactic.FieldSimp
import Mathlib.Tactic.Linarith
import Mathlib.Tactic.Ring

namespace LiveTrader.LiveOrders

open Lib Lib.Py

variable {env : Env} {oms : Oms}

/-! ## Fill histories -/

/-- A point of a fill history: what is filled, what it costs and the fee. -/
structure Amounts where
  quantity : ℚ
  notional : ℚ
  fee : ℚ
  deriving DecidableEq

namespace Amounts

def zero : Amounts := ⟨0, 0, 0⟩

/-- A point from which another one is reached: by fills, or by a fee alone. -/
def Reaches (p q : Amounts) : Prop :=
  p.fee ≤ q.fee ∧ (p.quantity = q.quantity ∧ p.notional = q.notional ∨
    p.quantity < q.quantity ∧ p.notional < q.notional)

variable {p q : Amounts}

theorem Reaches.quantity_le (h : p.Reaches q) : p.quantity ≤ q.quantity := by
  rcases h.2 with hsame | hmore
  · exact hsame.1.le
  · exact hmore.1.le

end Amounts

/-- The points of one monotone fill history. -/
structure History (points : Set Amounts) : Prop where
  zero : Amounts.zero ∈ points
  first : ∀ p ∈ points, Amounts.zero.Reaches p
  ordered : ∀ p ∈ points, ∀ q ∈ points, p.Reaches q ∨ q.Reaches p

/-- The point with the larger quantity is the later one. -/
theorem History.reaches {points : Set Amounts} (h : History points) {p q : Amounts} (hp : p ∈ points) (hq : q ∈ points)
    (hlt : p.quantity < q.quantity) : p.Reaches q := by
  rcases h.ordered p hp q hq with hforth | hback
  · exact hforth
  · exact absurd hback.quantity_le (not_le.mpr hlt)

/-! ## Amounts that are booked -/

/-- What a record of an order says of its fills. -/
structure Position where
  quantity : ℚ
  average : ℚ
  fee : ℚ
  deriving DecidableEq

namespace Position

def zero : Position := ⟨0, 0, 0⟩

def amounts (b : Position) : Amounts := ⟨b.quantity, b.quantity * b.average, b.fee⟩

theorem amounts_zero : zero.amounts = .zero := by
  rw [amounts, zero, mul_zero, Amounts.zero]

/-- A fill on top. -/
def add (b : Position) (inc : Increment) : Position where
  quantity := b.quantity + inc.quantity
  average := (b.quantity * b.average + inc.quantity * inc.price) / (b.quantity + inc.quantity)
  fee := b.fee + inc.fee

end Position

/-- `filled_quantity`, `average_fill_price` and `fee` of a local order. -/
def positionOf (env : Env) (order : Fields) : Position where
  quantity := env.safeFloat (order.at "filled_quantity")
  average := env.safeFloat (order.at "average_fill_price")
  fee := env.safeFloat (order.at "fee")

def Managed.position (m : Managed) : Position := ⟨m.filledQuantity, m.averageFillPrice, m.fee⟩

/-- The order and its managed order, if any, have these amounts. -/
structure Holds (env : Env) (order : Fields) (managed : Option Managed) (b : Position) : Prop where
  order : positionOf env order = b
  managed : ∀ m, managed = some m → m.position = b

/-- Exact arithmetic: no tolerance, and a number is read as what was written. -/
structure Env.Exact (env : Env) : Prop where
  tolerance : env.tolerance = 0
  float : ∀ q, env.float (.float q) = some q

/-- Everything that is asked of an operation but its fill. -/
def Managed.SameAmounts (m m' : Managed) : Prop := m'.position = m.position ∧ m'.quantity = m.quantity

/-- What is relied on of the OMS: only a fill changes the amounts of a managed order, and one that
is not refused adds what it is given. -/
structure Oms.Counts (oms : Oms) : Prop where
  acknowledge : ∀ (m : Managed) brokerOrderId, m.SameAmounts (oms.acknowledge m brokerOrderId).1
  markUnknown : ∀ (m : Managed) reason, m.SameAmounts (oms.markUnknown m reason).1
  reconcileUnknown : ∀ (m : Managed) payload, m.SameAmounts (oms.reconcileUnknown m payload).1
  transition : ∀ (m : Managed) target reason payload, m.SameAmounts (oms.transition m target reason payload).1
  applyFill : ∀ m quantity price fee brokerOrderId, (oms.applyFill m quantity price fee brokerOrderId).2 = none →
    (oms.applyFill m quantity price fee brokerOrderId).1.position = m.position.add ⟨quantity, price, fee⟩ ∧
    (oms.applyFill m quantity price fee brokerOrderId).1.quantity = m.quantity

theorem Managed.SameAmounts.refl (m : Managed) : m.SameAmounts m := ⟨rfl, rfl⟩

theorem Managed.SameAmounts.trans {m m' m'' : Managed} (h : m.SameAmounts m') (h' : m'.SameAmounts m'') :
    m.SameAmounts m'' :=
  ⟨h'.1.trans h.1, h'.2.trans h.2⟩

/-! ## What the records keep -/

theorem positionOf_put (env : Env) (order : Fields) {key : String} (value : Json)
    (hkey : key ≠ "filled_quantity" ∧ key ≠ "average_fill_price" ∧ key ≠ "fee") :
    positionOf env (order.put key value) = positionOf env order := by
  obtain ⟨hquantity, haverage, hfee⟩ := hkey
  rw [positionOf, Fields.at_put_ne order hquantity.symm, Fields.at_put_ne order haverage.symm,
    Fields.at_put_ne order hfee.symm, positionOf]

theorem positionOf_setState (env : Env) (order : Fields) (state queueState reason : String) :
    positionOf env (setState order state queueState reason) = positionOf env order := by
  rw [setState, positionOf_put env _ _ (by decide), positionOf_put env _ _ (by decide),
    positionOf_put env _ _ (by decide)]

theorem positionOf_warn (env : Env) (order : Fields) (raised : Option String) :
    positionOf env (warn order raised) = positionOf env order := by
  cases raised with
  | none => rfl
  | some message => exact positionOf_put env _ _ (by decide)

theorem positionOf_identified (env : Env) (order : Fields) (brokerOrderId : String) :
    positionOf env (identified order brokerOrderId) = positionOf env order := by
  rw [identified]
  split
  · exact positionOf_put env _ _ (by decide)
  · rfl

theorem positionOf_conclude (env : Env) (order : Fields) (managed : Option Managed) (eventId : String) :
    positionOf env (conclude order managed eventId) = positionOf env order := by
  cases managed with
  | none => exact positionOf_put env _ _ (by decide)
  | some m => exact (positionOf_put env _ _ (by decide)).trans (positionOf_put env _ _ (by decide))

theorem safeFloat_float (h : env.Exact) (q : ℚ) : env.safeFloat (.float q) = q := by
  rw [Env.safeFloat, h.float, Option.getD_some]

/-- The three amounts as they are written last. -/
theorem positionOf_written (h : env.Exact) (order : Fields) (quantity average fee : ℚ) :
    positionOf env (((order.put "filled_quantity" (.float quantity)).put "average_fill_price" (.float average)).put
      "fee" (.float fee)) = ⟨quantity, average, fee⟩ := by
  have hquantity : (((order.put "filled_quantity" (.float quantity)).put "average_fill_price" (.float average)).put
      "fee" (.float fee)).at "filled_quantity" = .float quantity := by
    rw [Fields.at_put_ne _ (by decide), Fields.at_put_ne _ (by decide), Fields.at_put]
  have haverage : (((order.put "filled_quantity" (.float quantity)).put "average_fill_price" (.float average)).put
      "fee" (.float fee)).at "average_fill_price" = .float average := by
    rw [Fields.at_put_ne _ (by decide), Fields.at_put]
  rw [positionOf, hquantity, haverage, Fields.at_put, safeFloat_float h, safeFloat_float h, safeFloat_float h]

theorem positionOf_mirror (h : env.Exact) (order : Fields) (m : Managed) :
    positionOf env (mirror order m) = m.position :=
  positionOf_written h ..

theorem positionOf_bookFill (h : env.Exact) (order : Fields) (inc : Increment) :
    positionOf env (bookFill env order inc) = (positionOf env order).add inc := by
  rw [bookFill, positionOf_written h, Position.add, positionOf, mul_comm (env.safeFloat (order.at "average_fill_price"))]

/-! ## The managed order -/

theorem Oms.Counts.leaveUnknown (h : oms.Counts) (m : Managed) : m.SameAmounts (leaveUnknown oms m).1 := by
  rw [LiveOrders.leaveUnknown]
  split
  · exact h.markUnknown ..
  · exact .refl m

theorem Oms.Counts.acknowledgeManaged (h : oms.Counts) (m : Managed) (brokerOrderId : String) :
    m.SameAmounts (acknowledgeManaged oms m brokerOrderId).1 := by
  rw [LiveOrders.acknowledgeManaged]
  split
  · exact h.acknowledge ..
  · split
    · exact h.reconcileUnknown ..
    · exact .refl m

theorem Oms.Counts.endManaged (h : oms.Counts) (m : Managed) (name eventId : String) :
    m.SameAmounts (endManaged oms m name eventId).1 := by
  rw [LiveOrders.endManaged]
  split
  · exact .refl m
  · exact h.transition ..

theorem Oms.Counts.acknowledgeFirst (h : oms.Counts) (m : Managed) (brokerOrderId : String) :
    m.SameAmounts (if m.status = "SUBMITTING" ∧ brokerOrderId ≠ "" then oms.acknowledge m brokerOrderId
      else ((m, none) : Outcome)).1 := by
  split
  · exact h.acknowledge ..
  · exact .refl m

theorem Oms.Counts.fillManaged_quiet (h : oms.Counts) (m : Managed) (brokerOrderId : String) {inc : Increment}
    (hquiet : inc.isFill = false) : m.SameAmounts (fillManaged oms m brokerOrderId inc).1 := by
  have hfirst := h.acknowledgeFirst m brokerOrderId
  rw [LiveOrders.fillManaged]
  split
  · next m₁ message hm₁ =>
    rw [hm₁] at hfirst
    exact hfirst
  · next m₁ hm₁ =>
    rw [hm₁] at hfirst
    dsimp only
    rw [if_neg fun hfill => absurd (hquiet.symm.trans hfill.1) (by decide)]
    exact hfirst

/-- A fill that the OMS takes, and for which there is room. -/
theorem Oms.Counts.fillManaged_taken (h : oms.Counts) {m : Managed} {brokerOrderId : String} {inc : Increment}
    (hfill : inc.isFill = true) (hroom : m.filledQuantity + inc.quantity ≤ m.quantity)
    (htaken : (fillManaged oms m brokerOrderId inc).2 = none) :
    (fillManaged oms m brokerOrderId inc).1.position = m.position.add inc ∧
      (fillManaged oms m brokerOrderId inc).1.quantity = m.quantity := by
  have hfirst := h.acknowledgeFirst m brokerOrderId
  have hpositive : 0 < inc.quantity := of_decide_eq_true (Bool.and_eq_true _ _ |>.mp hfill).1
  rw [LiveOrders.fillManaged] at htaken ⊢
  split at htaken
  · exact absurd htaken (by simp only [reduceCtorEq, not_false_eq_true])
  · next m₁ hm₁ =>
    rw [hm₁] at hfirst
    obtain ⟨hposition, hquantity⟩ : m₁.position = m.position ∧ m₁.quantity = m.quantity := hfirst
    have hfilled : m₁.filledQuantity = m.filledQuantity := congrArg Position.quantity hposition
    have hremaining : min inc.quantity (max 0 (m₁.quantity - m₁.filledQuantity)) = inc.quantity := by
      refine min_eq_left (le_max_of_le_right ?_)
      rw [hfilled, hquantity]
      linarith
    dsimp only at htaken ⊢
    rw [hremaining, if_pos ⟨hfill, hpositive⟩] at htaken ⊢
    obtain ⟨hadded, hsame⟩ := h.applyFill _ _ _ _ _ htaken
    exact ⟨hadded.trans (hposition ▸ rfl), hsame.trans hquantity⟩

/-! ## The branches -/

/-- The managed order is there as before, with the same quantity to fill. -/
def SameTotal (managed managed' : Option Managed) : Prop :=
  managed'.map (·.quantity) = managed.map (·.quantity)

/-- The order of a branch with an order and a managed order whose amounts are the same. -/
theorem Holds.same {order order' : Fields} {managed managed' : Option Managed} {b : Position} (h : Holds env order managed b)
    (horder : positionOf env order' = positionOf env order)
    (hmanaged : ∀ m', managed' = some m' → ∃ m, managed = some m ∧ m.SameAmounts m') : Holds env order' managed' b := by
  refine ⟨horder.trans h.order, fun m' hm' => ?_⟩
  obtain ⟨m, hm, hsame⟩ := hmanaged m' hm'
  exact hsame.1.trans (h.managed m hm)

/-- What the fill branch leaves of the amounts, where the OMS has the order too. -/
theorem positionOf_applyFillEvent (hexact : env.Exact) (hcounts : oms.Counts) (order : Fields) (m : Managed)
    (brokerOrderId : String) (inc : Increment) (finalFill : Bool) :
    positionOf env (applyFillEvent env oms order (some m) brokerOrderId inc finalFill).1 =
        (fillManaged oms m brokerOrderId inc).1.position ∧
      ∃ m', (applyFillEvent env oms order (some m) brokerOrderId inc finalFill).2 = some m' ∧
        (fillManaged oms m brokerOrderId inc).1.SameAmounts m' := by
  simp only [applyFillEvent]
  split
  · refine ⟨?_, _, rfl, hcounts.leaveUnknown _⟩
    rw [positionOf_setState, positionOf_warn, positionOf_put env _ _ (by decide), positionOf_mirror hexact]
  · refine ⟨?_, _, rfl, .refl _⟩
    split
    · rw [positionOf_setState, positionOf_mirror hexact]
    · rw [positionOf_setState, positionOf_mirror hexact]

/-- What the fill branch leaves of the amounts, where the OMS does not have the order. -/
theorem positionOf_applyFillEvent_none (env : Env) (oms : Oms) (order : Fields) (brokerOrderId : String)
    (inc : Increment) (finalFill : Bool) :
    positionOf env (applyFillEvent env oms order none brokerOrderId inc finalFill).1 =
        positionOf env (if inc.isFill then bookFill env order inc else order) ∧
      (applyFillEvent env oms order none brokerOrderId inc finalFill).2 = none := by
  simp only [applyFillEvent, and_true]
  cases finalFill with
  | true => exact positionOf_setState ..
  | false => exact positionOf_setState ..

/-- **An event with no fill.**  No branch changes an amount. -/
theorem holds_of_quiet (hexact : env.Exact) (hcounts : oms.Counts) {order order' : Fields}
    {managed managed' : Option Managed} {name brokerOrderId eventId : String} {inc : Increment} {b : Position}
    (hholds : Holds env order managed b) (hquiet : inc.isFill = false)
    (h : applyState env oms order managed name brokerOrderId eventId inc = some (order', managed')) :
    Holds env order' managed' b ∧ SameTotal managed managed' := by
  simp only [applyState] at h
  split at h
  · -- a final fill with nothing to add
    obtain rfl := (congrArg Prod.fst (Option.some.inj h) :)
    obtain rfl := (congrArg Prod.snd (Option.some.inj h) :)
    cases managed with
    | none =>
      obtain ⟨horder, hnone⟩ := positionOf_applyFillEvent_none env oms order brokerOrderId inc
        (decide (name ∈ finalStates))
      rw [hnone]
      rw [hquiet] at horder
      exact ⟨hholds.same horder fun m' hm' => absurd hm' (by simp only [reduceCtorEq, not_false_eq_true]), rfl⟩
    | some m =>
      obtain ⟨horder, m', hm', hsame⟩ := positionOf_applyFillEvent hexact hcounts order m brokerOrderId inc
        (decide (name ∈ finalStates))
      have hall : m.SameAmounts m' := (hcounts.fillManaged_quiet m brokerOrderId hquiet).trans hsame
      rw [hm']
      refine ⟨⟨?_, fun m'' hm'' => ?_⟩, congrArg some hall.2⟩
      · exact horder.trans ((hcounts.fillManaged_quiet m brokerOrderId hquiet).1.trans (hholds.managed m rfl))
      · obtain rfl := Option.some.inj hm''
        exact hall.1.trans (hholds.managed m rfl)
  · split at h
    · -- an active snapshot
      obtain rfl := (congrArg Prod.fst (Option.some.inj h) :)
      obtain rfl := (congrArg Prod.snd (Option.some.inj h) :)
      simp only [applyAcknowledgement]
      split
      · refine ⟨hholds.same ?_ fun m' hm' => ⟨m', hm', .refl m'⟩, rfl⟩
        rw [positionOf_put env _ _ (by decide), positionOf_put env _ _ (by decide), positionOf_put env _ _ (by decide)]
      · cases managed with
        | none => exact ⟨hholds.same (positionOf_setState ..) fun m' hm' => ⟨m', hm', .refl m'⟩, rfl⟩
        | some m =>
          dsimp only
          split
          · exact ⟨hholds.same (positionOf_setState ..) fun m' hm' => ⟨m', hm', .refl m'⟩, rfl⟩
          · have hack := hcounts.acknowledgeManaged m brokerOrderId
            refine ⟨hholds.same ?_ fun m' hm' => ⟨m, rfl, Option.some.inj hm' ▸ hack⟩, congrArg some hack.2⟩
            rw [positionOf_setState, positionOf_warn]
    · split at h
      · -- an end
        obtain rfl := (congrArg Prod.fst (Option.some.inj h) :)
        obtain rfl := (congrArg Prod.snd (Option.some.inj h) :)
        simp only [applyEnd]
        split
        · refine ⟨hholds.same ?_ fun m' hm' => ⟨m', hm', .refl m'⟩, rfl⟩
          rw [positionOf_put env _ _ (by decide), positionOf_setState]
        · cases managed with
          | none => exact ⟨hholds.same (positionOf_setState ..) fun m' hm' => ⟨m', hm', .refl m'⟩, rfl⟩
          | some m =>
            have hend := hcounts.endManaged m name eventId
            refine ⟨hholds.same ?_ fun m' hm' => ⟨m, rfl, Option.some.inj hm' ▸ hend⟩, congrArg some hend.2⟩
            rw [positionOf_setState, positionOf_warn]
      · exact absurd h (by simp only [reduceCtorEq, not_false_eq_true])

/-- **A fill that is taken.**  The order and its managed order have it. -/
theorem holds_of_advance (hexact : env.Exact) (hcounts : oms.Counts) {order order' : Fields}
    {managed managed' : Option Managed} {name brokerOrderId eventId : String} {inc : Increment} {b : Position}
    (hholds : Holds env order managed b) (hname : name ∈ fillStates) (hfill : inc.isFill = true)
    (hroom : ∀ m, managed = some m → b.quantity + inc.quantity ≤ m.quantity)
    (htaken : ∀ m, managed = some m → (fillManaged oms m brokerOrderId inc).2 = none)
    (h : applyState env oms order managed name brokerOrderId eventId inc = some (order', managed')) :
    Holds env order' managed' (b.add inc) ∧ SameTotal managed managed' := by
  rw [applyState, if_pos ⟨hname, .inl hfill⟩] at h
  obtain rfl := (congrArg Prod.fst (Option.some.inj h) :)
  obtain rfl := (congrArg Prod.snd (Option.some.inj h) :)
  cases managed with
  | none =>
    obtain ⟨horder, hnone⟩ := positionOf_applyFillEvent_none env oms order brokerOrderId inc
      (decide (name ∈ finalStates))
    rw [hnone]
    rw [if_pos hfill, positionOf_bookFill hexact, hholds.order] at horder
    exact ⟨⟨horder, fun m' hm' => absurd hm' (by simp only [reduceCtorEq, not_false_eq_true])⟩, rfl⟩
  | some m =>
    obtain ⟨horder, m', hm', hsame⟩ := positionOf_applyFillEvent hexact hcounts order m brokerOrderId inc
      (decide (name ∈ finalStates))
    have hposition := hholds.managed m rfl
    have hfilled : m.filledQuantity = b.quantity := congrArg Position.quantity hposition
    obtain ⟨hadded, htotal⟩ := hcounts.fillManaged_taken hfill (hfilled ▸ hroom m rfl) (htaken m rfl)
    rw [hposition] at hadded
    rw [hm']
    refine ⟨⟨horder.trans hadded, fun m'' hm'' => ?_⟩, congrArg some (hsame.2.trans htotal)⟩
    obtain rfl := Option.some.inj hm''
    exact hsame.1.trans hadded

/-! ## The increment -/

/-- The cumulative amounts that an event reports. -/
def reported (env : Env) (event : Fields) : Amounts :=
  let read (key : String) : ℚ := max 0 (env.safeFloat (eventContractValue event (rawOf event) key))
  ⟨read "cumulative_quantity", read "cumulative_quantity" * read "cumulative_average_price", read "cumulative_fee"⟩

/-- The event says what is filled so far and the fee so far, and both are of this history. -/
structure Reports (env : Env) (points : Set Amounts) (event : Fields) : Prop where
  quantity : isGiven (eventContractValue event (rawOf event) "cumulative_quantity") = .ok true
  fee : isGiven (eventContractValue event (rawOf event) "cumulative_fee") = .ok true
  point : reported env event ∈ points

theorem Reports.uses {points : Set Amounts} {event : Fields} (h : Reports env points event) :
    usesCumulativeWatermark env event = .ok true := by
  rw [usesCumulativeWatermark]
  split
  · rfl
  · split
    · rfl
    · exact h.quantity

/-- What lies between two points of a history. -/
def difference (p q : Amounts) : Increment where
  quantity := q.quantity - p.quantity
  price := (q.notional - p.notional) / (q.quantity - p.quantity)
  fee := q.fee - p.fee

/-- The event adds what lies between the amounts that are booked and the ones it reports: its modes
are cumulative, or its own fields are that difference. -/
def AddsDifference (env : Env) (event : Fields) (b : Amounts) : Prop :=
  let p := reported env event
  (contractMode env event "quantity_mode" "delta" = "cumulative" ∨
    p.quantity - b.quantity ≤ max 0 (env.safeFloat (event.at "quantity")) ∧
      max 0 (env.safeFloat (event.at "price")) = (difference b p).price) ∧
  (contractMode env event "fee_mode" "delta" = "cumulative" ∨ p.fee - b.fee ≤ max 0 (env.safeFloat (event.at "fee")))

theorem positiveWatermarkDelta_exact (hexact : env.Exact) (total previous : ℚ) :
    positiveWatermarkDelta env total previous = max 0 (total - previous) := by
  have hzero : max env.tolerance (|total| * env.tolerance) = 0 := by
    rw [hexact.tolerance, mul_zero, max_self]
  rw [positiveWatermarkDelta]
  simp only [hzero]
  split
  · next hlt => exact (max_eq_right hlt.le).symm
  · next hle => exact (max_eq_left (not_lt.mp hle)).symm

/-- The amounts that the watermark is compared with. -/
theorem booked_of_holds {order : Fields} {managed : Option Managed} {b : Position} (h : Holds env order managed b)
    (hb : 0 ≤ b.quantity ∧ 0 ≤ b.average ∧ 0 ≤ b.fee) :
    booked env order managed (·.filledQuantity) "filled_quantity" = b.quantity ∧
      booked env order managed (·.averageFillPrice) "average_fill_price" = b.average ∧
      booked env order managed (·.fee) "fee" = b.fee := by
  obtain ⟨hquantity, haverage, hfee⟩ := hb
  cases managed with
  | none =>
    obtain rfl := h.order
    exact ⟨max_eq_right hquantity, max_eq_right haverage, max_eq_right hfee⟩
  | some m =>
    obtain rfl := h.managed m rfl
    exact ⟨max_eq_right hquantity, max_eq_right haverage, max_eq_right hfee⟩

variable {event order : Fields} {managed : Option Managed} {points : Set Amounts} {b : Position}

/-- **An event behind the watermark** adds no quantity. -/
theorem increment_of_behind (hexact : env.Exact) (hreports : Reports env points event) (hholds : Holds env order managed b)
    (hb : 0 ≤ b.quantity ∧ 0 ≤ b.average ∧ 0 ≤ b.fee) (hquantity : (reported env event).quantity ≤ b.quantity) :
    ∃ inc, executionEventIncrement env event order managed = .ok inc ∧ inc.quantity = 0 := by
  obtain ⟨hbooked, -, -⟩ := booked_of_holds hholds hb
  have hdelta : positiveWatermarkDelta env
      (max 0 (env.safeFloat (eventContractValue event (rawOf event) "cumulative_quantity"))) b.quantity = 0 := by
    rw [positiveWatermarkDelta_exact hexact]
    exact max_eq_left (sub_nonpos.mpr hquantity)
  have hfill : ∀ quantity price, 0 ≤ quantity → ∃ price',
      watermarkFill env event order managed quantity price = .ok (0, price') := by
    intro quantity price hnonneg
    rw [watermarkFill, hreports.quantity, hbooked]
    simp only [bind, Except.bind, pure, Except.pure, if_true, hdelta]
    split
    · rw [if_neg fun h => absurd h.1 (lt_irrefl 0)]
      exact ⟨_, rfl⟩
    · rw [min_eq_right hnonneg]
      exact ⟨_, rfl⟩
  have hfee : ∀ fee, ∃ fee', watermarkFee env event order managed fee = .ok fee' := by
    intro fee
    rw [watermarkFee, hreports.fee]
    exact ⟨_, rfl⟩
  obtain ⟨price, hprice⟩ := hfill (max 0 (env.safeFloat (event.at "quantity"))) (max 0 (env.safeFloat (event.at "price")))
    (le_max_left _ _)
  obtain ⟨fee, hfee⟩ := hfee (max 0 (env.safeFloat (event.at "fee")))
  refine ⟨⟨0, price, fee⟩, ?_, rfl⟩
  rw [executionEventIncrement, hreports.uses]
  simp only [bind, Except.bind, pure, Except.pure, if_true, hprice, hfee]

/-- **An event beyond the watermark** adds the difference. -/
theorem increment_of_ahead (hexact : env.Exact) (hreports : Reports env points event) (hholds : Holds env order managed b)
    (hb : 0 ≤ b.quantity ∧ 0 ≤ b.average ∧ 0 ≤ b.fee) (hreach : b.amounts.Reaches (reported env event))
    (hquantity : b.quantity < (reported env event).quantity) (hadds : AddsDifference env event b.amounts) :
    executionEventIncrement env event order managed = .ok (difference b.amounts (reported env event)) := by
  obtain ⟨hbooked, haverage, hfee⟩ := booked_of_holds hholds hb
  obtain ⟨hfill, hfees⟩ := hadds
  have hnotional : b.quantity * b.average < (reported env event).notional := by
    rcases hreach.2 with hsame | hmore
    · exact absurd hsame.1 hquantity.ne
    · exact hmore.2
  have hdelta : positiveWatermarkDelta env
      (max 0 (env.safeFloat (eventContractValue event (rawOf event) "cumulative_quantity"))) b.quantity =
      (reported env event).quantity - b.quantity := by
    rw [positiveWatermarkDelta_exact hexact]
    exact max_eq_right (sub_nonneg.mpr hquantity.le)
  have hpositive : 0 < (reported env event).quantity - b.quantity := sub_pos.mpr hquantity
  have hprice : 0 < max 0 (env.safeFloat (eventContractValue event (rawOf event) "cumulative_average_price")) := by
    by_contra hnot
    have hzero := le_antisymm (not_lt.mp hnot) (le_max_left _ _)
    have : (reported env event).notional = 0 := by
      rw [reported]
      exact mul_eq_zero_of_right _ hzero
    exact absurd (mul_nonneg hb.1 hb.2.1) (not_le.mpr (this ▸ hnotional))
  have hfilled : watermarkFill env event order managed (max 0 (env.safeFloat (event.at "quantity")))
      (max 0 (env.safeFloat (event.at "price"))) =
      .ok ((reported env event).quantity - b.quantity, (difference b.amounts (reported env event)).price) := by
    rw [watermarkFill, hreports.quantity, hbooked, haverage]
    simp only [bind, Except.bind, pure, Except.pure, if_true, hdelta]
    split
    · rw [if_pos ⟨hpositive, hprice, sub_pos.mpr hnotional⟩]
      rfl
    · next hmode =>
      obtain ⟨hless, hequal⟩ := hfill.resolve_left hmode
      have hless : (reported env event).quantity - b.quantity ≤ max 0 (env.safeFloat (event.at "quantity")) := hless
      rw [min_eq_right hless, hequal]
  have hcharged : watermarkFee env event order managed (max 0 (env.safeFloat (event.at "fee"))) =
      .ok ((reported env event).fee - b.fee) := by
    have hfeeDelta : positiveWatermarkDelta env
        (max 0 (env.safeFloat (eventContractValue event (rawOf event) "cumulative_fee"))) b.fee =
        (reported env event).fee - b.fee := by
      rw [positiveWatermarkDelta_exact hexact]
      exact max_eq_right (sub_nonneg.mpr hreach.1)
    rw [watermarkFee, hreports.fee, hfee]
    simp only [bind, Except.bind, pure, Except.pure, if_true, hfeeDelta]
    split
    · rfl
    · next hmode =>
      have hless : (reported env event).fee - b.fee ≤ max 0 (env.safeFloat (event.at "fee")) := hfees.resolve_left hmode
      rw [min_eq_right hless]
  rw [executionEventIncrement, hreports.uses]
  simp only [bind, Except.bind, pure, Except.pure, if_true, hfilled, hcharged]
  rfl

/-- The difference to a later point is a fill. -/
theorem isFill_difference {p q : Amounts} (h : p.Reaches q) (hlt : p.quantity < q.quantity) :
    (difference p q).isFill = true := by
  have hnotional : p.notional < q.notional := by
    rcases h.2 with hsame | hmore
    · exact absurd hsame.1 hlt.ne
    · exact hmore.2
  have hprice : 0 < (difference p q).price := div_pos (sub_pos.mpr hnotional) (sub_pos.mpr hlt)
  exact Bool.and_eq_true _ _ |>.mpr ⟨decide_eq_true (sub_pos.mpr hlt), decide_eq_true hprice⟩

/-- **The difference leads to the point that is reported.** -/
theorem difference_reaches {b : Position} {q : Amounts} (hb : 0 ≤ b.quantity) (hlt : b.quantity < q.quantity) :
    (b.add (difference b.amounts q)).amounts = q := by
  have hpositive : q.quantity - b.quantity ≠ 0 := (sub_pos.mpr hlt).ne'
  have hfilled : q.quantity ≠ 0 := (lt_of_le_of_lt hb hlt).ne'
  have hquantity : b.quantity + (q.quantity - b.quantity) = q.quantity := by ring
  have hcost : (q.quantity - b.quantity) * ((q.notional - b.quantity * b.average) / (q.quantity - b.quantity)) =
      q.notional - b.quantity * b.average := mul_div_cancel₀ _ hpositive
  have hfee : b.fee + (q.fee - b.fee) = q.fee := by ring
  show (⟨b.quantity + (q.quantity - b.quantity), (b.quantity + (q.quantity - b.quantity)) *
      ((b.quantity * b.average + (q.quantity - b.quantity) *
        ((q.notional - b.quantity * b.average) / (q.quantity - b.quantity))) /
        (b.quantity + (q.quantity - b.quantity))), b.fee + (q.fee - b.fee)⟩ : Amounts) = q
  rw [hquantity, hcost, hfee, add_sub_cancel, mul_div_cancel₀ _ hfilled]

/-- A position at a point of a history has no negative average. -/
theorem average_nonneg {b : Position} {q : Amounts} (hfirst : Amounts.zero.Reaches q) (hpoint : b.amounts = q)
    (hq : 0 < q.quantity) : 0 ≤ b.average := by
  have hquantity : b.quantity = q.quantity := congrArg Amounts.quantity hpoint
  have hnotional : b.quantity * b.average = q.notional := congrArg Amounts.notional hpoint
  have hcost : 0 ≤ b.quantity * b.average := by
    rw [hnotional]
    rcases hfirst.2 with hsame | hmore
    · exact hsame.2.le
    · exact hmore.2.le
  exact nonneg_of_mul_nonneg_right hcost (hquantity ▸ hq)

end LiveTrader.LiveOrders
