/-
# `Portfolio.BookedFees` — the fee that a fill carries

`balances` adds 28-digit decimals, sleeve by sleeve and then over the sleeves.
On a common decimal grid, with a total magnitude that the context can hold, no
addition rounds (`balances_exact`): the portfolio's fees and cash flow are the
plain sums of what the events of the scope say.

The fee of a fill is booked twice: at portfolio level, as the recorded fee and
its adjustments (`currentFee`), and in the sleeves, as the parts of the fill and
the deltas of every revision (`sleeveFees`).

`FeesBooked` relates the two in every reachable ledger.  An event about a fill
never precedes the fill itself, so a new fill starts with no fee in any sleeve;
until the first revision its sleeves then carry what its stored split says.
-/
import LiveTrader.Portfolio.Conservation

namespace LiveTrader.Portfolio

open Lib.Py Lib.Decimal

/-! ## Amounts of an event -/

/-- The trade value and the fee that an event books to its sleeve. -/
def Payload.amounts : Payload → ℚ × ℚ
  | .sleeveFeeAdjustment _ _ _ a => (0, a.feeDelta)
  | payload => match payload.leg with
      | some (signedQuantity, price, fee) => (signedQuantity * price, fee)
      | none => (0, 0)

/-- The events of a scope. -/
def scopeLog (log : List Event) (scopeId : Text) : List Event := log.filter (·.scopeId = scopeId)

/-- All fees booked in a scope. -/
def totalFees (log : List Event) (scopeId : Text) : ℚ :=
  ((scopeLog log scopeId).map (·.payload.amounts.2)).sum

/-- All cash moved in a scope. -/
def totalCash (log : List Event) (scopeId : Text) : ℚ :=
  ((scopeLog log scopeId).map fun e => -e.payload.amounts.1 - e.payload.amounts.2).sum

/-- The sizes of all amounts of a scope together. -/
def magnitude (log : List Event) (scopeId : Text) : ℚ :=
  ((scopeLog log scopeId).map fun e => |e.payload.amounts.1| + |e.payload.amounts.2|).sum

/-- All amounts of a scope have at most `k` decimals. -/
def AmountsOnGrid (k : ℕ) (log : List Event) (scopeId : Text) : Prop :=
  ∀ e ∈ scopeLog log scopeId, OnGrid k e.payload.amounts.1 ∧ OnGrid k e.payload.amounts.2

instance (k : ℕ) (log : List Event) (scopeId : Text) : Decidable (AmountsOnGrid k log scopeId) := by
  unfold AmountsOnGrid; infer_instance

section append

variable (log log' : List Event) (scopeId : Text)

theorem scopeLog_append : scopeLog (log ++ log') scopeId = scopeLog log scopeId ++
    scopeLog log' scopeId := by simp [scopeLog]

theorem totalFees_append :
    totalFees (log ++ log') scopeId = totalFees log scopeId + totalFees log' scopeId := by
  simp [totalFees, scopeLog_append]

theorem totalCash_append :
    totalCash (log ++ log') scopeId = totalCash log scopeId + totalCash log' scopeId := by
  simp [totalCash, scopeLog_append]

theorem magnitude_append :
    magnitude (log ++ log') scopeId = magnitude log scopeId + magnitude log' scopeId := by
  simp [magnitude, scopeLog_append]

variable {log log' scopeId}

theorem AmountsOnGrid.append {k : ℕ} (h : AmountsOnGrid k log scopeId)
    (h' : AmountsOnGrid k log' scopeId) : AmountsOnGrid k (log ++ log') scopeId := by
  intro e he
  rw [scopeLog_append, List.mem_append] at he
  exact he.elim (h e) (h' e)

theorem magnitude_nonneg (log : List Event) (scopeId : Text) : 0 ≤ magnitude log scopeId :=
  List.sum_nonneg fun x hx => by
    obtain ⟨e, _, rfl⟩ := List.mem_map.mp hx
    positivity

end append

/-! ## Exact balances -/

/-- A balance whose fees and cash flow have at most `k` decimals. -/
def Balance.Fine (k : ℕ) (b : Balance) : Prop := OnGrid k b.fees ∧ OnGrid k b.cashFlow

theorem Balance.fine_zero (k : ℕ) : Balance.zero.Fine k := ⟨.zero k, .zero k⟩

/-- The sleeves' balances are on the grid, with the given sums and no more than
the given magnitude. -/
structure ExactBalances (k : ℕ) (fees cash bound : ℚ) (sleeves : Dict String Balance) : Prop where
  grid : ∀ e ∈ sleeves, e.2.Fine k
  fees : (sleeves.map (·.2.fees)).sum = fees
  cash : (sleeves.map (·.2.cashFlow)).sum = cash
  feesBound : (sleeves.map (|·.2.fees|)).sum ≤ bound
  cashBound : (sleeves.map (|·.2.cashFlow|)).sum ≤ bound

section exact

variable {k : ℕ} {fees cash bound value fee : ℚ} {sleeves : Dict String Balance}

theorem abs_get_le {g : Balance → ℚ} (h0 : g .zero = 0) :
    ∀ (sleeves : Dict String Balance) (sleeveId : String),
    |g (sleeves.get sleeveId .zero)| ≤ (sleeves.map (|g ·.2|)).sum
  | [], _ => by simp [Dict.get, h0]
  | (k, b) :: sleeves, sleeveId => by
      have ih := abs_get_le h0 sleeves sleeveId
      have hnn : 0 ≤ (sleeves.map (|g ·.2|)).sum := (abs_nonneg _).trans ih
      simp only [List.map_cons, List.sum_cons, Dict.get]
      split
      · linarith
      · linarith [abs_nonneg (g b)]

/-- One booking: new fees and cash are the exact ones. -/
theorem ExactBalances.book (h : ExactBalances k fees cash bound sleeves) (sleeveId : String)
    (hv : OnGrid k value)
    (hf : OnGrid k fee) (turnover : ℚ) :
    ExactBalances k (fees + fee) (cash - value - fee) (bound + (|value| + |fee|))
      (sleeves.set sleeveId
        { cashFlow := (sleeves.get sleeveId .zero).cashFlow - value - fee
          fees := (sleeves.get sleeveId .zero).fees + fee, turnover }) := by
  obtain ⟨hfg, hcg⟩ : (sleeves.get sleeveId .zero).Fine k :=
    Dict.forall_get h.grid (Balance.fine_zero k)
  set old := sleeves.get sleeveId .zero
  have h1 := h.feesBound
  have h2 := h.cashBound
  have hf3 := abs_add_le old.fees fee
  have hc3 : |old.cashFlow - value - fee| ≤ |old.cashFlow| + (|value| + |fee|) := by
    have := abs_sub (old.cashFlow - value) fee
    have := abs_sub old.cashFlow value
    linarith
  refine ⟨Dict.forall_set (P := Balance.Fine k) h.grid ⟨hfg.add hf, (hcg.sub hv).sub hf⟩,
    ?_, ?_, ?_, ?_⟩
  · rw [Dict.sum_set (g := fun _ => Balance.fees) Balance.zero fun _ => rfl, h.fees]
    ring
  · rw [Dict.sum_set (g := fun _ => Balance.cashFlow) Balance.zero fun _ => rfl, h.cash]
    ring
  · have hset := Dict.sum_set (g := fun _ (b : Balance) => |b.fees|) Balance.zero
      (by simp [Balance.zero]) sleeves sleeveId
      { cashFlow := old.cashFlow - value - fee, fees := old.fees + fee, turnover }
    rw [hset]
    have := abs_nonneg value
    linarith
  · have hset := Dict.sum_set (g := fun _ (b : Balance) => |b.cashFlow|) Balance.zero
      (by simp [Balance.zero]) sleeves sleeveId
      { cashFlow := old.cashFlow - value - fee, fees := old.fees + fee, turnover }
    rw [hset]
    linarith

/-- `bookBalance` without rounding. -/
theorem bookBalance_exact {event : Event} (h : ExactBalances k fees cash bound sleeves)
    (hg : OnGrid k event.payload.amounts.1 ∧ OnGrid k event.payload.amounts.2)
    (hb : (bound + (|event.payload.amounts.1| + |event.payload.amounts.2|)) * 10 ^ k < 10 ^ 28) :
    ExactBalances k (fees + event.payload.amounts.2)
      (cash - event.payload.amounts.1 - event.payload.amounts.2)
      (bound + (|event.payload.amounts.1| + |event.payload.amounts.2|))
      (bookBalance sleeves event) := by
  obtain ⟨hfg, hcg⟩ : (sleeves.get event.sleeveId .zero).Fine k :=
    Dict.forall_get h.grid (Balance.fine_zero k)
  have hfa := (abs_get_le (g := Balance.fees) rfl sleeves event.sleeveId).trans h.feesBound
  have hca := (abs_get_le (g := Balance.cashFlow) rfl sleeves event.sleeveId).trans h.cashBound
  set old := sleeves.get event.sleeveId .zero with hold
  have hbound : 0 ≤ bound := (abs_nonneg _).trans hfa
  -- a payload with a leg books its trade value and its fee
  have hleg : ∀ signedQuantity : ℤ, ∀ price fee : ℚ,
      event.payload.amounts = (signedQuantity * price, fee) →
      ctx 28 (signedQuantity * price) = signedQuantity * price ∧
      ctx 28 (old.cashFlow + ctx 28 (-(signedQuantity * price : ℚ) - fee)) =
        old.cashFlow - signedQuantity * price - fee ∧ ctx 28 (old.fees + fee) = old.fees + fee := by
    intro signedQuantity price fee hamounts
    rw [hamounts] at hg hb
    simp only at hg hb
    have hv := abs_nonneg ((signedQuantity : ℚ) * price)
    have hf := abs_nonneg fee
    have hvalue : ctx 28 ((signedQuantity : ℚ) * price) = signedQuantity * price := by
      have h := ctx_add_of_onGrid (.zero k) hg.1 (by simp; linarith) hb
      rwa [zero_add] at h
    have hmove : ctx 28 (-(signedQuantity * price : ℚ) - fee) = -(signedQuantity * price) - fee := by
      rw [sub_eq_add_neg]
      exact ctx_add_of_onGrid hg.1.neg hg.2.neg (by rw [abs_neg, abs_neg]; linarith) hb
    refine ⟨hvalue, ?_, ctx_add_of_onGrid hfg hg.2 (by linarith) hb⟩
    rw [hmove, ctx_add_of_onGrid hcg (hg.1.neg.sub hg.2) _ hb]
    · ring
    · have := abs_sub (-(signedQuantity * price : ℚ)) fee
      rw [abs_neg] at this
      linarith
  unfold bookBalance
  cases hp : event.payload with
  | sleeveFeeAdjustment _ _ _ a =>
    rw [hp] at hg hb
    have hf := abs_nonneg a.feeDelta
    simp only [Payload.amounts, abs_zero, zero_add] at hg hb ⊢
    have hfees : ctx 28 (old.fees + a.feeDelta) = old.fees + a.feeDelta :=
      ctx_add_of_onGrid hfg hg.2 (by linarith) hb
    have hcash : ctx 28 (old.cashFlow - a.feeDelta) = old.cashFlow - a.feeDelta := by
      rw [sub_eq_add_neg]
      exact ctx_add_of_onGrid hcg hg.2.neg (by rw [abs_neg]; linarith) hb
    rw [← hold, hfees, hcash]
    simpa using h.book event.sleeveId hg.1 hg.2 old.turnover
  | sleeveInternalCross planId intentId signedQuantity price =>
    obtain ⟨h1, h2, h3⟩ := hleg signedQuantity price 0 (by rw [hp]; rfl)
    rw [hp] at hg
    simp only [Payload.leg, Payload.amounts] at hg ⊢
    rw [h1, ← hold, h2, h3]
    exact h.book _ hg.1 hg.2 _
  | sleeveFill planId brokerOrderId sourceEventId a costStatus =>
    obtain ⟨h1, h2, h3⟩ := hleg a.signedQuantity a.price a.fee (by rw [hp]; rfl)
    rw [hp] at hg
    simp only [Payload.leg, Payload.amounts] at hg ⊢
    rw [h1, ← hold, h2, h3]
    exact h.book _ hg.1 hg.2 _
  | _ => simpa [Payload.leg, Payload.amounts] using h

theorem foldl_bookBalance_exact : ∀ {events : List Event} {fees cash bound : ℚ}
    {sleeves : Dict String Balance}, ExactBalances k fees cash bound sleeves →
    (∀ e ∈ events, OnGrid k e.payload.amounts.1 ∧ OnGrid k e.payload.amounts.2) →
    (bound + (events.map fun e => |e.payload.amounts.1| + |e.payload.amounts.2|).sum) * 10 ^ k <
      10 ^ 28 →
    ExactBalances k (fees + (events.map (·.payload.amounts.2)).sum)
      (cash + (events.map fun e => -e.payload.amounts.1 - e.payload.amounts.2).sum)
      (bound + (events.map fun e => |e.payload.amounts.1| + |e.payload.amounts.2|).sum)
      (events.foldl bookBalance sleeves)
  | [], fees, cash, bound, sleeves, h, _, _ => by simpa using h
  | event :: events, fees, cash, bound, sleeves, h, hg, hb => by
      have hrest : 0 ≤ (events.map fun e => |e.payload.amounts.1| + |e.payload.amounts.2|).sum :=
        List.sum_nonneg fun x hx => by
          obtain ⟨e, _, rfl⟩ := List.mem_map.mp hx
          positivity
      simp only [List.map_cons, List.sum_cons, List.foldl_cons] at hb ⊢
      have h10 : (0 : ℚ) < 10 ^ k := by positivity
      have hone := bookBalance_exact h (hg event List.mem_cons_self)
        (lt_of_le_of_lt (mul_le_mul_of_nonneg_right (by linarith) h10.le) hb)
      have hall := foldl_bookBalance_exact hone (fun e he => hg e (List.mem_cons_of_mem _ he))
        (by rwa [add_assoc])
      have e1 : cash + (-event.payload.amounts.1 - event.payload.amounts.2 +
          (events.map fun e => -e.payload.amounts.1 - e.payload.amounts.2).sum) =
          cash - event.payload.amounts.1 - event.payload.amounts.2 +
            (events.map fun e => -e.payload.amounts.1 - e.payload.amounts.2).sum := by ring
      rw [← add_assoc, e1, ← add_assoc]
      exact hall

end exact

/-- **Exact balances.** -/
theorem balances_exact {k : ℕ} {l : Ledger} {scopeId : Text} (hg : AmountsOnGrid k l.log scopeId)
    (hb : magnitude l.log scopeId * 10 ^ k < 10 ^ 28) :
    (balances l scopeId).1.fees = totalFees l.log scopeId ∧
      (balances l scopeId).1.cashFlow = totalCash l.log scopeId := by
  have hzero : ExactBalances k 0 0 0 [] := ⟨by simp, rfl, rfl, by simp, by simp⟩
  have h := foldl_bookBalance_exact hzero hg (by simpa [magnitude] using hb)
  rw [zero_add, zero_add, zero_add] at h
  change ExactBalances k (totalFees l.log scopeId) (totalCash l.log scopeId)
    (magnitude l.log scopeId) (sleeveBalances l scopeId) at h
  have h10 : (0 : ℚ) ≤ 10 ^ k := by positivity
  have hsum : ∀ g : Balance → ℚ, (∀ e ∈ sleeveBalances l scopeId, OnGrid k (g e.2)) →
      ((sleeveBalances l scopeId).map (|g ·.2|)).sum ≤ magnitude l.log scopeId →
      ctxSum 28 ((sleeveBalances l scopeId).map (g ·.2)) =
        ((sleeveBalances l scopeId).map (g ·.2)).sum := by
    intro g hgrid hle
    have hgrid' : ∀ x ∈ (sleeveBalances l scopeId).map (g ·.2), OnGrid k x := fun x hx => by
      obtain ⟨e, he, rfl⟩ := List.mem_map.mp hx
      exact hgrid e he
    refine ctxSum_of_onGrid hgrid' ?_
    refine lt_of_le_of_lt (mul_le_mul_of_nonneg_right ?_ h10) hb
    simpa [absSum, Function.comp_def] using hle
  exact ⟨(hsum Balance.fees (fun e he => (h.grid e he).1) h.feesBound).trans h.fees,
    (hsum Balance.cashFlow (fun e he => (h.grid e he).2) h.cashBound).trans h.cash⟩

/-! ## Events about a fill -/

/-- The execution that an event is about. -/
def Payload.source : Payload → Option Text
  | .brokerFill f => some f.sourceEventId
  | .sleeveFill _ _ source _ _ => some source
  | .feeAdjustment a => some a.sourceEventId
  | .sleeveFeeAdjustment _ _ source _ => some source
  | _ => none

/-- What an event adds to the fee that the sleeves carry for an execution. -/
def Event.feeOf (scopeId source : Text) (event : Event) : ℚ :=
  if event.scopeId = scopeId ∧ event.payload.source = some source then event.payload.amounts.2
  else 0

/-- The fee that the sleeves carry for an execution. -/
def sleeveFees (log : List Event) (scopeId source : Text) : ℚ :=
  (log.map (Event.feeOf scopeId source)).sum

/-- No fee revision of an execution is recorded. -/
def Unrevised (log : List Event) (scopeId source : Text) : Prop :=
  ∀ event ∈ log, event.feeDeltaOf scopeId source = none

instance (log : List Event) (scopeId source : Text) : Decidable (Unrevised log scopeId source) := by
  unfold Unrevised; infer_instance

section fees

variable {log log' : List Event} {scopeId source : Text}

theorem sleeveFees_append (log log' : List Event) (scopeId source : Text) :
    sleeveFees (log ++ log') scopeId source =
    sleeveFees log scopeId source + sleeveFees log' scopeId source := by
  simp [sleeveFees]

theorem sleeveFees_eq_zero
    (h : ∀ event ∈ log, event.scopeId = scopeId → event.payload.source ≠ some source) :
    sleeveFees log scopeId source = 0 := by
  refine List.sum_eq_zero fun x hx => ?_
  obtain ⟨event, he, rfl⟩ := List.mem_map.mp hx
  exact if_neg fun hs => h event he hs.1 hs.2

theorem Unrevised.left (h : Unrevised (log ++ log') scopeId source) :
    Unrevised log scopeId source := fun event he => h event (List.mem_append_left _ he)

theorem Unrevised.right (h : Unrevised (log ++ log') scopeId source) :
    Unrevised log' scopeId source := fun event he => h event (List.mem_append_right _ he)

/-- The sleeves' fee of one execution is part of the scope's amounts. -/
theorem abs_sleeveFees_le (log : List Event) (scopeId source : Text) :
    |sleeveFees log scopeId source| ≤ magnitude log scopeId := by
  induction log with
  | nil => simp [sleeveFees, magnitude, scopeLog]
  | cons event log ih =>
    have h1 := sleeveFees_append [event] log scopeId source
    have h2 := magnitude_append [event] log scopeId
    rw [List.singleton_append] at h1 h2
    have hone : |sleeveFees [event] scopeId source| ≤ magnitude [event] scopeId := by
      simp only [sleeveFees, List.map_cons, List.map_nil, List.sum_singleton, Event.feeOf,
        magnitude, scopeLog]
      by_cases hs : event.scopeId = scopeId
      · have := abs_nonneg event.payload.amounts.1
        by_cases hp : event.payload.source = some source
        · simp [hs, hp]
        · simp only [hs, hp, and_false, if_false, decide_true, List.filter_cons_of_pos]
          simpa using add_nonneg this (abs_nonneg event.payload.amounts.2)
      · simp [hs]
    rw [h1, h2]
    exact (abs_add_le _ _).trans (add_le_add hone ih)

theorem onGrid_sleeveFees {k : ℕ} (h : AmountsOnGrid k log scopeId) :
    OnGrid k (sleeveFees log scopeId source) := by
  refine .list_sum fun x hx => ?_
  obtain ⟨event, he, rfl⟩ := List.mem_map.mp hx
  unfold Event.feeOf
  split_ifs with hs
  · exact (h event (List.mem_filter.mpr ⟨he, by simpa using hs.1⟩)).2
  · exact .zero k

end fees

/-! ## The groups -/

section groups

variable {H : Hashes} {order : OrderRow} {n : Notice} {active : List SleeveAllocation}
  {fees : List ℚ} {shares : List SleeveAllocation} {current : ℚ} {deltas : List ℚ}

theorem fillEvents_source {event : Event}
    (he : event ∈ fillEvents order.scopeId order n active fees) :
    event.scopeId = order.scopeId ∧ event.payload.source = some n.sourceEventId := by
  rcases List.mem_cons.mp he with rfl | he
  · exact ⟨rfl, rfl⟩
  · obtain ⟨a, _, rfl⟩ := List.mem_map.mp he
    exact ⟨rfl, rfl⟩

theorem revisionEvents_source {event : Event}
    (he : event ∈ revisionEvents H order.scopeId order n shares current deltas) :
    event.scopeId = order.scopeId ∧ event.payload.source = some n.sourceEventId := by
  obtain ⟨hscope, ⟨a, hp, hs⟩ | ⟨a, hp⟩⟩ := revisionEvents_payload he
  · exact ⟨hscope, by rw [hp, Payload.source, hs]⟩
  · exact ⟨hscope, by rw [hp]; rfl⟩

/-- The sleeves of a new fill carry its stored split. -/
theorem sleeveFees_fillEvents : sleeveFees (fillEvents order.scopeId order n active fees)
    order.scopeId n.sourceEventId = ((fillAllocations active n.price fees).map (·.fee)).sum := by
  simp [sleeveFees, fillEvents, Event.feeOf, brokerFillEvent, sleeveFillEvent, Payload.source,
    Payload.amounts, Payload.leg, Function.comp_def]

theorem revisionEvents_revise :
    ¬ Unrevised (revisionEvents H order.scopeId order n shares current deltas) order.scopeId
      n.sourceEventId := fun h => by
  have := h _ List.mem_cons_self
  simp [feeEvent, Event.feeDeltaOf] at this

end groups

/-! ## Reachable ledgers -/

/-- What a ledger says about a fill it has recorded. -/
structure RecordedFill (l : Ledger) (event : Event) (f : BrokerFill) : Prop where
  quantity : 0 < f.brokerQuantity
  fee : 0 ≤ f.fee
  weights : 0 < (f.shares.map (·.signedQuantity.natAbs)).sum
  split : Unrevised l.log event.scopeId f.sourceEventId →
    sleeveFees l.log event.scopeId f.sourceEventId = (f.allocations.map (·.fee)).sum

/-- Fees are booked for recorded fills only. -/
structure FeesBooked (l : Ledger) : Prop where
  source : ∀ event ∈ l.log, ∀ source, event.payload.source = some source →
    fillId event.scopeId source ∈ l.eventIds
  recorded : ∀ event ∈ l.log, ∀ f, event.payload = .brokerFill f → RecordedFill l event f

section booked

variable {H : Hashes} {l l' : Ledger} {new : List Event}

/-- A group keeps the invariant when it revises what it adds to a recorded fill. -/
theorem FeesBooked.append (h : FeesBooked l) (hlog : l'.log = l.log ++ new)
    (hsource : ∀ event ∈ new, ∀ source, event.payload.source = some source →
      fillId event.scopeId source ∈ l'.eventIds)
    (hfill : ∀ event ∈ new, ∀ f, event.payload = .brokerFill f → RecordedFill l' event f)
    (hold : ∀ scopeId source, fillId scopeId source ∈ l.eventIds → Unrevised new scopeId source →
      sleeveFees new scopeId source = 0) : FeesBooked l' := by
  refine ⟨fun event he source hs => ?_, fun event he f hp => ?_⟩
  · rw [hlog, List.mem_append] at he
    rcases he with he | he
    · rw [Ledger.eventIds, hlog, List.map_append, List.mem_append]
      exact .inl (h.source event he source hs)
    · exact hsource event he source hs
  · rw [hlog, List.mem_append] at he
    rcases he with he | he
    · obtain ⟨hq, hf, hw, hsplit⟩ := h.recorded event he f hp
      refine ⟨hq, hf, hw, fun hun => ?_⟩
      rw [hlog] at hun ⊢
      have hmem := h.source event he f.sourceEventId (by rw [hp]; rfl)
      rw [sleeveFees_append, hsplit hun.left, hold _ _ hmem hun.right, add_zero]
    · exact hfill event he f hp

theorem FeesBooked.append_none (h : FeesBooked l) (hlog : l'.log = l.log ++ new)
    (hnone : ∀ event ∈ new, event.payload.source = none) : FeesBooked l' := by
  refine h.append hlog (fun event he source hs => ?_) (fun event he f hp => ?_)
    fun scopeId source _ _ => ?_
  · rw [hnone event he] at hs; cases hs
  · have := hnone event he
    rw [hp] at this; cases this
  · exact sleeveFees_eq_zero fun event he _ => by rw [hnone event he]; simp

theorem Applies.feesBooked {P : Notice → Prop} (h : FeesBooked l) (step : Applies H P l l') : FeesBooked l' := by
  cases step with
  | @fill order n active fees _ _ _ _ hq hfee hnew _ hactive hfees happ =>
    have hids : fillId order.scopeId n.sourceEventId ∈ l'.eventIds := by
      rw [Ledger.eventIds, happ.log, List.map_append, List.mem_append]
      exact .inr (List.mem_map_of_mem (f := Event.eventId) List.mem_cons_self)
    refine h.append happ.log (fun event he source hs => ?_) (fun event he f hp => ?_)
      fun scopeId source hmem _ => ?_
    · obtain ⟨hscope, hsource⟩ := fillEvents_source he
      rw [hsource] at hs
      rw [hscope, ← Option.some.inj hs]
      exact hids
    · -- the fill of this group: no sleeve carried a fee for it before
      have hbefore : sleeveFees l.log order.scopeId n.sourceEventId = 0 :=
        sleeveFees_eq_zero fun e he hscope hs => hnew (hscope ▸ h.source e he _ hs)
      rcases List.mem_cons.mp he with rfl | he
      · obtain rfl := Payload.brokerFill.inj hp
        refine ⟨hq, ctx_nonneg hfee, ?_, fun _ => ?_⟩
        · have hlen : fees.length = active.length := by simpa using allocateMoney_length hfees
          rw [BrokerFill.shares, fillAllocations_shares n.price _ _ hlen]
          exact activeShares_weights hq hactive
        · show sleeveFees l'.log order.scopeId n.sourceEventId = _
          rw [happ.log, sleeveFees_append, hbefore, zero_add, sleeveFees_fillEvents]
      · obtain ⟨a, _, rfl⟩ := List.mem_map.mp he
        cases hp
    · refine sleeveFees_eq_zero fun event he hscope hs => hnew ?_
      obtain ⟨hscope', hsource⟩ := fillEvents_source he
      rw [hsource] at hs
      rw [← hscope', hscope, Option.some.inj hs]
      exact hmem
  | status _ happ =>
    refine h.append_none happ.log fun event he => ?_
    obtain rfl := List.mem_singleton.mp he
    rfl
  | @revise order n shares current deltas _ _ hstored happ =>
    have hids : fillId order.scopeId n.sourceEventId ∈ l'.eventIds := by
      rw [Ledger.eventIds, happ.log, List.map_append, List.mem_append]
      exact .inl hstored
    refine h.append happ.log (fun event he source hs => ?_) (fun event he f hp => ?_)
      fun scopeId source _ hun => ?_
    · obtain ⟨hscope, hsource⟩ := revisionEvents_source he
      rw [hsource] at hs
      rw [hscope, ← Option.some.inj hs]
      exact hids
    · exact absurd hp ((neutral_revisionEvents event he).2 f)
    · refine sleeveFees_eq_zero fun event he hscope hs => ?_
      obtain ⟨hscope', hsource⟩ := revisionEvents_source he
      rw [hsource] at hs
      obtain rfl := Option.some.inj hs
      obtain rfl : order.scopeId = scopeId := hscope'.symm.trans hscope
      exact revisionEvents_revise hun
  | quiet hq happ =>
    refine h.append_none happ.log fun event he => ?_
    obtain ⟨_, _, hp⟩ := hq event he
    rw [hp]; rfl

theorem crossEvents_source {plan : SymbolNetPlan} {now : ℤ} {cross : List Event}
    (h : internalCrossEvents plan now = .ok cross) {event : Event} (he : event ∈ cross) :
    event.payload.source = none := by
  rcases (crossEvents_payload h he).2 with ⟨_, hp⟩ | ⟨_, _, _, hp⟩ <;> rw [hp] <;> rfl

theorem Books.feesBooked (h : FeesBooked l) (step : Books H l l') : FeesBooked l' := by
  cases step with
  | scope _ hlog _ =>
    have hnil : l'.log = l.log ++ [] := by simpa using hlog
    exact h.append_none hnil (by simp)
  | order _ _ _ _ _ hcross happ =>
    refine h.append_none happ.log fun event he => ?_
    rcases List.mem_cons.mp he with rfl | he
    · rfl
    · exact crossEvents_source hcross he
  | cross _ hcross happ => exact h.append_none happ.log fun event he => crossEvents_source hcross he
  | applies step => exact step.feesBooked h

theorem Reachable.feesBooked (h : Reachable H l) : FeesBooked l := by
  refine Reachable.books_induction ⟨?_, ?_⟩ (fun _ step ih => step.feesBooked ih) h
  all_goals simp [Ledger.empty, Ledger.log]

end booked

end LiveTrader.Portfolio
