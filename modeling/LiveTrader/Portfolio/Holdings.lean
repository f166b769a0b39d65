/-
# `Portfolio.Holdings` — `sleeve_holdings` as sums over the log

`sleeve_holdings` replays the log of a scope and refuses it at the first event
that would leave a sleeve short.  It succeeds exactly on the logs whose prefixes
hold nothing negative (`sleeveHoldings_ok`), what it returns is `held`
(`sleeveHoldings_get`), and its sum over the sleeves is `netHeld`
(`sumHoldings_get`).

The events of one group touch a sleeve at most once, so within the group a
holding takes no value but the one before and the one after (`held_group_prefix`).
-/
import LiveTrader.Portfolio.Conservation

namespace LiveTrader.Portfolio

open Lib.Py Lib.Decimal

/-! ## Replaying a log -/

variable {scopeId : Text}

theorem holding_eq_zero {event : Event} (h : event.scopeId ≠ scopeId) (sleeveId symbol : String) :
    event.holding scopeId sleeveId symbol = 0 := by
  unfold Event.holding
  split
  · exact if_neg fun hs => h hs.1
  · rfl

/-- One event moves the entry of its own sleeve by what it holds. -/
theorem bookHolding_eq_ok {event : Event} {result result' : Dict (String × String) ℤ}
    (hs : event.scopeId = scopeId) (h : bookHolding result event = .ok result')
    (sleeveId symbol : String) : result'.get (sleeveId, symbol) 0 =
      result.get (sleeveId, symbol) 0 + event.holding scopeId sleeveId symbol := by
  unfold bookHolding at h
  unfold Event.holding
  split at h
  case h_1 hleg =>
    obtain rfl := Except.ok.inj h
    simp [hleg]
  case h_2 q _ _ hleg =>
    simp only [bind_eq_ok, pure_eq_ok] at h
    obtain ⟨_, _, rfl⟩ := h
    simp only [hleg, hs, Dict.get_set, Prod.mk.injEq, true_and]
    by_cases h1 : event.sleeveId = sleeveId <;> by_cases h2 : event.symbol = symbol <;> simp [h1, h2]

theorem bookHolding_ok {event : Event} {result : Dict (String × String) ℤ}
    (hs : event.scopeId = scopeId) (h : 0 ≤ result.get (event.sleeveId, event.symbol) 0 +
      event.holding scopeId event.sleeveId event.symbol) :
    ∃ result', bookHolding result event = .ok result' := by
  unfold bookHolding
  unfold Event.holding at h
  cases hleg : event.payload.leg with
  | none => exact ⟨result, rfl⟩
  | some leg =>
    simp only [hleg, hs, and_self, if_true] at h
    exact ⟨_, by simp only [require_true (not_lt.mpr h), ok_bind]; rfl⟩

theorem foldlM_bookHolding_get : ∀ {log : List Event} {result sleeves : Dict (String × String) ℤ},
    (log.filter (·.scopeId = scopeId)).foldlM bookHolding result = .ok sleeves →
    ∀ sleeveId symbol, sleeves.get (sleeveId, symbol) 0 =
      result.get (sleeveId, symbol) 0 + held log scopeId sleeveId symbol
  | [], result, sleeves, h, sleeveId, symbol => by
      obtain rfl := pure_eq_ok.mp h
      simp
  | event :: log, result, sleeves, h, sleeveId, symbol => by
      by_cases hs : event.scopeId = scopeId
      · rw [List.filter_cons_of_pos (by simpa using hs), List.foldlM_cons] at h
        obtain ⟨mid, hmid, h⟩ := bind_eq_ok.mp h
        rw [foldlM_bookHolding_get h, bookHolding_eq_ok hs hmid, held_cons, add_assoc]
      · rw [List.filter_cons_of_neg (by simpa using hs)] at h
        rw [foldlM_bookHolding_get h, held_cons, holding_eq_zero hs, zero_add]

theorem foldlM_bookHolding_ok : ∀ {log : List Event} {result : Dict (String × String) ℤ},
    (∀ pre, pre <+: log → ∀ sleeveId symbol,
      0 ≤ result.get (sleeveId, symbol) 0 + held pre scopeId sleeveId symbol) →
    ∃ sleeves, (log.filter (·.scopeId = scopeId)).foldlM bookHolding result = .ok sleeves
  | [], result, _ => ⟨result, rfl⟩
  | event :: log, result, h => by
      have hcons : ∀ pre, pre <+: log → event :: pre <+: event :: log := fun pre hp =>
        (List.prefix_cons_inj event).mpr hp
      by_cases hs : event.scopeId = scopeId
      · obtain ⟨mid, hmid⟩ : ∃ mid, bookHolding result event = .ok mid := bookHolding_ok hs (by
          simpa using h [event] (hcons [] List.nil_prefix) event.sleeveId event.symbol)
        obtain ⟨sleeves, hsleeves⟩ :
            ∃ sleeves, (log.filter (·.scopeId = scopeId)).foldlM bookHolding mid = .ok sleeves :=
          foldlM_bookHolding_ok fun pre hp sleeveId symbol => by
            have := h _ (hcons pre hp) sleeveId symbol
            rwa [held_cons, ← add_assoc, ← bookHolding_eq_ok hs hmid] at this
        refine ⟨sleeves, ?_⟩
        rw [List.filter_cons_of_pos (by simpa using hs), List.foldlM_cons, hmid, ok_bind, hsleeves]
      · rw [List.filter_cons_of_neg (by simpa using hs)]
        refine foldlM_bookHolding_ok fun pre hp sleeveId symbol => ?_
        have := h _ (hcons pre hp) sleeveId symbol
        rwa [held_cons, holding_eq_zero hs, zero_add] at this

/-- The entries of `sleeve_holdings`. -/
theorem sleeveHoldings_get {l : Ledger} {sleeves : Dict (String × String) ℤ}
    (h : sleeveHoldings l scopeId = .ok sleeves) (sleeveId symbol : String) :
    sleeves.get (sleeveId, symbol) 0 = held l.log scopeId sleeveId symbol := by
  rw [foldlM_bookHolding_get h]
  simp [Dict.get]

/-- **No prefix short, no refusal.** -/
theorem sleeveHoldings_ok {l : Ledger} (h : ∀ pre, pre <+: l.log → ∀ sleeveId symbol,
    0 ≤ held pre scopeId sleeveId symbol) : ∃ sleeves, sleeveHoldings l scopeId = .ok sleeves :=
  foldlM_bookHolding_ok fun pre hp sleeveId symbol => by
    simpa [Dict.get] using h pre hp sleeveId symbol

/-! ## All sleeves of a symbol -/

/-- What an event adds to the holdings of all sleeves. -/
def Event.netHolding (scopeId : Text) (symbol : String) (event : Event) : ℤ :=
  match event.payload.leg with
  | some (signedQuantity, _, _) =>
      if event.scopeId = scopeId ∧ event.symbol = symbol then signedQuantity else 0
  | none => 0

/-- The holdings of all sleeves after a log. -/
def netHeld (log : List Event) (scopeId : Text) (symbol : String) : ℤ :=
  (log.map (Event.netHolding scopeId symbol)).sum

@[simp] theorem netHeld_cons (event : Event) (log : List Event) (scopeId : Text) (symbol : String) :
    netHeld (event :: log) scopeId symbol =
      event.netHolding scopeId symbol + netHeld log scopeId symbol := by
  simp [netHeld]

@[simp] theorem netHeld_append (log log' : List Event) (scopeId : Text) (symbol : String) :
    netHeld (log ++ log') scopeId symbol = netHeld log scopeId symbol + netHeld log' scopeId symbol := by
  simp [netHeld]

theorem netHolding_eq_zero {event : Event} (h : event.scopeId ≠ scopeId) (symbol : String) :
    event.netHolding scopeId symbol = 0 := by
  unfold Event.netHolding
  split
  · exact if_neg fun hs => h hs.1
  · rfl

/-- The sleeves of a symbol in a table of holdings. -/
def entriesSum (sleeves : Dict (String × String) ℤ) (symbol : String) : ℤ :=
  (sleeves.map fun e => if e.1.2 = symbol then e.2 else 0).sum

theorem bookHolding_sum {event : Event} {result result' : Dict (String × String) ℤ}
    (hs : event.scopeId = scopeId) (h : bookHolding result event = .ok result') (symbol : String) :
    entriesSum result' symbol = entriesSum result symbol + event.netHolding scopeId symbol := by
  unfold bookHolding at h
  unfold Event.netHolding
  split at h
  case h_1 hleg =>
    obtain rfl := Except.ok.inj h
    simp [hleg]
  case h_2 q _ _ hleg =>
    simp only [bind_eq_ok, pure_eq_ok] at h
    obtain ⟨_, _, rfl⟩ := h
    have hset := Dict.sum_set (g := fun (key : String × String) value =>
      if key.2 = symbol then value else 0) (0 : ℤ) (by simp) result (event.sleeveId, event.symbol)
      (result.get (event.sleeveId, event.symbol) 0 + q)
    simp only [entriesSum, hset, hleg, hs, true_and]
    split <;> ring

theorem foldlM_bookHolding_sum : ∀ {log : List Event} {result sleeves : Dict (String × String) ℤ},
    (log.filter (·.scopeId = scopeId)).foldlM bookHolding result = .ok sleeves →
    ∀ symbol, entriesSum sleeves symbol = entriesSum result symbol + netHeld log scopeId symbol
  | [], result, sleeves, h, symbol => by
      obtain rfl := pure_eq_ok.mp h
      simp [netHeld]
  | event :: log, result, sleeves, h, symbol => by
      by_cases hs : event.scopeId = scopeId
      · rw [List.filter_cons_of_pos (by simpa using hs), List.foldlM_cons] at h
        obtain ⟨mid, hmid, h⟩ := bind_eq_ok.mp h
        rw [foldlM_bookHolding_sum h, bookHolding_sum hs hmid, netHeld_cons, add_assoc]
      · rw [List.filter_cons_of_neg (by simpa using hs)] at h
        rw [foldlM_bookHolding_sum h, netHeld_cons, netHolding_eq_zero hs, zero_add]

theorem foldl_sum_get (symbol : String) : ∀ (sleeves : Dict (String × String) ℤ)
    (ledger : Dict String ℤ), (sleeves.foldl (fun ledger e =>
      Dict.set ledger e.1.2 (Dict.get ledger e.1.2 0 + e.2)) ledger).get symbol 0 =
      ledger.get symbol 0 + entriesSum sleeves symbol
  | [], ledger => by simp [entriesSum]
  | e :: sleeves, ledger => by
      rw [List.foldl_cons, foldl_sum_get symbol sleeves, Dict.get_set]
      simp only [entriesSum, List.map_cons, List.sum_cons]
      split <;> simp_all [add_assoc]

/-- The sum over the sleeves that `reconcile_restart` compares with the broker. -/
theorem sumHoldings_get {l : Ledger} {sleeves : Dict (String × String) ℤ}
    (h : sleeveHoldings l scopeId = .ok sleeves) (symbol : String) :
    (sumHoldings sleeves).get symbol 0 = netHeld l.log scopeId symbol := by
  have hsum := foldlM_bookHolding_sum h symbol
  have hget := foldl_sum_get symbol sleeves []
  simp only [entriesSum, List.map_nil, List.sum_nil, zero_add, Dict.get] at hsum hget
  rw [← hsum]
  exact hget

/-! ## Groups -/

/-- No two events of the group move one sleeve. -/
def OnePerSleeve (group : List Event) : Prop :=
  group.Pairwise fun a b =>
    a.payload.leg = none ∨ b.payload.leg = none ∨ a.sleeveId ≠ b.sleeveId

theorem prefix_sum : ∀ {l pre : List ℤ}, l.Pairwise (fun a b => a = 0 ∨ b = 0) → pre <+: l →
    pre.sum = 0 ∨ pre.sum = l.sum
  | l, [], _, _ => .inl rfl
  | x :: l, y :: pre, hl, hp => by
      obtain ⟨rfl, htail⟩ := List.cons_prefix_cons.mp hp
      rw [List.pairwise_cons] at hl
      rw [List.sum_cons, List.sum_cons]
      by_cases hy : y = 0
      · rcases prefix_sum hl.2 htail with h | h
        · exact .inl (by rw [hy, h, add_zero])
        · exact .inr (by rw [h])
      · have hzero : ∀ z ∈ l, z = 0 := fun z hz => (hl.1 z hz).resolve_left hy
        have h1 : l.sum = 0 := List.sum_eq_zero hzero
        have h2 : pre.sum = 0 := List.sum_eq_zero fun z hz => hzero z (htail.subset hz)
        exact .inr (by rw [h1, h2])

/-- Within a group a sleeve stands where it stood before or where it will after. -/
theorem held_group_prefix {group pre : List Event} (h : OnePerSleeve group) (hp : pre <+: group)
    (scopeId : Text) (sleeveId symbol : String) : held pre scopeId sleeveId symbol = 0 ∨
      held pre scopeId sleeveId symbol = held group scopeId sleeveId symbol := by
  refine prefix_sum ?_ (hp.map _)
  refine List.Pairwise.map _ (fun a b hab => ?_) h
  have hzero : ∀ {event : Event}, event.payload.leg = none ∨ event.sleeveId ≠ sleeveId →
      event.holding scopeId sleeveId symbol = 0 := by
    intro event he
    unfold Event.holding
    split
    case h_1 hleg => exact if_neg fun hs => he.elim (by simp [hleg]) fun hne => hne hs.2.1
    case h_2 => rfl
  rcases hab with ha | hb | hne
  · exact .inl (hzero (.inl ha))
  · exact .inr (hzero (.inl hb))
  · by_cases hs : a.sleeveId = sleeveId
    · exact .inr (hzero (.inr fun hb => hne (hs.trans hb.symm)))
    · exact .inl (hzero (.inr hs))

/-- Events made of allocations on distinct sleeves, after one without a leg. -/
theorem onePerSleeve_map {α : Type} {head : Event} (hhead : head.payload.leg = none)
    {f : α → Event} (key : α → Text) {items : List α} (hnd : (items.map key).Nodup)
    (hf : ∀ a ∈ items, (f a).sleeveId = (key a).val) : OnePerSleeve (head :: items.map f) := by
  refine List.Pairwise.cons (fun _ _ => .inl hhead) ?_
  rw [List.pairwise_map]
  have hpair := List.pairwise_map.mp hnd
  refine hpair.imp_of_mem fun {a b} ha hb hne => .inr (.inr ?_)
  rw [hf a ha, hf b hb]
  exact fun heq => hne (Subtype.ext heq)

theorem netHeld_eq_zero {events : List Event} (h : ∀ event ∈ events, event.payload.leg = none)
    (scopeId : Text) (symbol : String) : netHeld events scopeId symbol = 0 := by
  refine List.sum_eq_zero fun x hx => ?_
  obtain ⟨event, he, rfl⟩ := List.mem_map.mp hx
  simp [Event.netHolding, h event he]

theorem netHeld_map {α : Type} (f : α → Event) (quantity : α → ℤ) {symbol : String}
    (l : List α)
    (h : ∀ a ∈ l, ∃ price fee, (f a).payload.leg = some (quantity a, price, fee) ∧
      (f a).scopeId = scopeId ∧ (f a).symbol = symbol) (scopeId' : Text) (symbol' : String) :
    netHeld (l.map f) scopeId' symbol' =
      if scopeId = scopeId' ∧ symbol = symbol' then (l.map quantity).sum else 0 := by
  induction l with
  | nil => simp [netHeld]
  | cons a l ih =>
    obtain ⟨price, fee, hleg, hscope, hsym⟩ := h a List.mem_cons_self
    rw [List.map_cons, netHeld_cons, ih fun b hb => h b (List.mem_cons_of_mem _ hb),
      Event.netHolding, hleg, hscope, hsym]
    by_cases hc : scopeId = scopeId' ∧ symbol = symbol' <;> simp [hc]

section cross

variable {plan : SymbolNetPlan} {now : ℤ} {cross : List Event}

theorem onePerSleeve_cross (h : internalCrossEvents plan now = .ok cross)
    (hnd : (plan.internalAllocations.map (·.sleeveId)).Nodup) {head : Event}
    (hhead : head.payload.leg = none) : OnePerSleeve (head :: cross) := by
  unfold internalCrossEvents at h
  split_ifs at h
  · obtain rfl := (Except.ok.inj h).symm
    exact List.pairwise_singleton _ _
  · simp only [bind_eq_ok, require_eq_ok, pure_eq_ok] at h
    obtain ⟨_, _, rfl⟩ := h
    have htail : OnePerSleeve (crossEvent plan now ::
        plan.internalAllocations.map (sleeveCrossEvent plan now)) :=
      onePerSleeve_map rfl (·.sleeveId) hnd fun _ _ => rfl
    exact List.Pairwise.cons (fun _ _ => .inl hhead) htail

/-- A cross moves shares between sleeves and creates none. -/
theorem netHeld_cross (h : internalCrossEvents plan now = .ok cross)
    (hnet : netQuantity plan.internalAllocations = 0) (scopeId : Text) (symbol : String) :
    netHeld cross scopeId symbol = 0 := by
  unfold internalCrossEvents at h
  split_ifs at h
  · obtain rfl := (Except.ok.inj h).symm
    rfl
  · simp only [bind_eq_ok, require_eq_ok, pure_eq_ok] at h
    obtain ⟨_, _, rfl⟩ := h
    rw [netHeld_cons, netHeld_map (sleeveCrossEvent plan now) (·.signedQuantity) _
      fun a _ => ⟨_, _, rfl, rfl, rfl⟩]
    unfold netQuantity at hnet
    simp [Event.netHolding, crossEvent, Payload.leg, hnet]

end cross

section fill

variable {order : OrderRow} {n : Notice} {active : List SleeveAllocation} {fees : List ℚ}

theorem onePerSleeve_fill (hlen : fees.length = active.length)
    (hnd : (active.map (·.sleeveId)).Nodup) :
    OnePerSleeve (fillEvents order.scopeId order n active fees) := by
  refine onePerSleeve_map rfl FillAllocation.sleeveId ?_ fun _ _ => rfl
  have h := congrArg (List.map (·.sleeveId)) (fillAllocations_shares n.price _ _ hlen)
  rw [List.map_map] at h
  exact (congrArg List.Nodup h).mpr hnd

theorem netHeld_fill (hlen : fees.length = active.length) (scopeId : Text) (symbol : String) :
    netHeld (fillEvents order.scopeId order n active fees) scopeId symbol =
      if order.scopeId = scopeId ∧ n.symbol.val = symbol then netQuantity active else 0 := by
  rw [fillEvents, netHeld_cons, netHeld_map (sleeveFillEvent order.scopeId order n)
    (·.signedQuantity) _ fun a _ => ⟨_, _, rfl, rfl, rfl⟩]
  have h := congrArg (List.map (·.signedQuantity)) (fillAllocations_shares n.price _ _ hlen)
  rw [List.map_map] at h
  have hmap : (fillAllocations active n.price fees).map (·.signedQuantity) =
      active.map (·.signedQuantity) := h
  simp [Event.netHolding, brokerFillEvent, Payload.leg, netQuantity, hmap]

end fill

end LiveTrader.Portfolio
