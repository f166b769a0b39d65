/-
# `Portfolio.Ready` — what a ready reconciliation says

`reconcile_restart` adds up decimals, in the context of 28 digits: the sleeves, the broker's holdings under one canonical symbol
and the fills of a plan.  Where these come to at most 10^28 shares nothing is rounded, and a reconciliation is ready exactly when
sleeves and broker agree on every symbol, no order of the scope waits for fills and nothing is held outside the managed symbols.
Beyond it a share can get lost in a sum (`lost_share_is_ready`).
-/
import LiveTrader.Portfolio.Context
import LiveTrader.Portfolio.Holdings
import LiveTrader.Portfolio.FillRuns
import Mathlib.Algebra.BigOperators.Ring.Finset

namespace LiveTrader.Portfolio

open Lib.Py Lib.Decimal

namespace Context

/-! ## `reconcile_restart`, rounded -/

/-- The loop body of `sleeve_holdings`. -/
def bookHolding (result : Dict (String × String) ℤ) (event : Event) : Result (Dict (String × String) ℤ) :=
  match event.payload.leg with
  | none => .ok result
  | some (signedQuantity, _, _) => do
      let position := whole (result.get (event.sleeveId, event.symbol) 0 + signedQuantity)
      require (¬ position < 0)
        (.value ("sleeve ledger reconstructs a short: " ++ event.sleeveId ++ "/" ++ event.symbol))
      pure (result.set (event.sleeveId, event.symbol) position)

/-- `sleeve_holdings`. -/
def sleeveHoldings (l : Ledger) (scopeId : Text) : Result (Dict (String × String) ℤ) :=
  (l.log.filter (·.scopeId = scopeId)).foldlM bookHolding []

/-- The sum of the sleeves, by symbol. -/
def sumHoldings (sleeves : Dict (String × String) ℤ) : Dict String ℤ :=
  sleeves.foldl (fun ledger e => ledger.set e.1.2 (whole (ledger.get e.1.2 0 + e.2))) []

/-- One entry of the broker's map. -/
def bookBroker (broker : Dict String ℕ) (entry : String × Raw) : Result (Dict String ℕ) := do
  let symbol ← canonicalKisSymbol entry.1
  let held ← quantity entry.2 ("broker holding " ++ symbol.val) true
  pure (broker.set symbol.val (whole ((broker.get symbol.val 0 : ℤ) + held)).toNat)

/-- The broker's holdings under canonical symbols. -/
def canonicalHoldings (brokerHoldings : List (String × Raw)) : Result (Dict String ℕ) := brokerHoldings.foldlM bookBroker []

/-- `_filled_quantities`. -/
def filledQuantities (log : List Event) (scopeId : Text) (planId : String) : ℤ :=
  total (log.map fun event => (event.fillOf scopeId planId : ℤ))

/-- An order that still waits for fills. -/
def IsPending (order : OrderRow) (log : List Event) : Prop :=
  filledQuantities log order.scopeId order.planId < order.quantity ∧ ¬ isTerminal log order.scopeId order.planId

instance (order : OrderRow) (log : List Event) : Decidable (IsPending order log) := inferInstanceAs (Decidable (_ ∧ _))

/-- `pending_orders`. -/
def pendingOrders (l : Ledger) (scopeId : Text) : List Text :=
  ((l.orders.filter (·.scopeId = scopeId)).filter fun order => IsPending order l.log).map (·.brokerOrderId)

/-- What the comparison comes to, sealed under the head of the chain. -/
def sealReconciliation (H : Hashes) (l : Ledger) (scopeId : Text) (chain : ℕ × String) (managed : List String) (ledger : Dict String ℤ)
    (broker : Dict String ℕ) (now : ℤ) : ReconciliationPayload × PortfolioReconciliation :=
  let external : Dict String ℕ := broker.filter fun item => item.1 ∉ managed ∧ item.2 ≠ 0
  let mismatches := (sortedKeys (managed ++ ledger.map Prod.fst)).filterMap (mismatchOf ledger broker)
  let pending := pendingOrders l scopeId
  let ready := decide (mismatches = [] ∧ pending = [] ∧ external = [])
  let payload : ReconciliationPayload :=
    { schemaVersion := reconciliationSchema, scopeId, matched := decide (mismatches = []), ready
      ledgerHoldings := sortedItems ledger, brokerHoldings := sortedItems broker
      externalHoldings := sortedItems external, mismatches, pendingOrders := pending
      ledgerEventCount := chain.1, ledgerHeadHash := chain.2, observedAt := now }
  (payload,
    { scopeId, matched := decide (mismatches = []), ready, ledgerHoldings := ledger, brokerHoldings := broker
      externalHoldings := external, mismatches, pendingOrders := pending, observedAt := now
      contentHash := H.reconciliation payload })

/-- `reconcile_restart`. -/
def reconcileRestart (H : Hashes) (l : Ledger) (scopeId : String) (brokerHoldings : List (String × Raw)) (managedSymbols : List String)
    (persist : Bool) (time : RawTime) : Result (Ledger × PortfolioReconciliation) := do
  let scopeId ← text scopeId "scope_id"
  let chain ← verifyHashChain H l scopeId
  let managed ← managedSymbols.mapM canonicalKisSymbol
  let sleeves ← sleeveHoldings l scopeId
  let broker ← canonicalHoldings brokerHoldings
  let now ← occurredAt time
  let (payload, result) := sealReconciliation H l scopeId chain (managed.map (·.val)) (sumHoldings sleeves) broker now
  if persist then do
    let event : Event :=
      { eventId := scopeId.val ++ ":reconcile:" ++ result.contentHash, scopeId, sleeveId := ""
        symbol := "", payload := .restartReconciliation payload result.contentHash, occurredAt := now }
    let (l', _) ← appendEvents H l [event]
    pure (l', result)
  else pure (l, result)

/-! ## What it is to say -/

/-- What an entry of the broker's map holds of a symbol. -/
def heldIn (symbol : String) (entry : String × Raw) : ℕ :=
  match canonicalKisSymbol entry.1, quantity entry.2 "" true with
  | .ok canonical, .ok held => if canonical.val = symbol then held else 0
  | _, _ => 0

/-- What the broker holds of a symbol, under any of its spellings. -/
def brokerHeld (brokerHoldings : List (String × Raw)) (symbol : String) : ℕ := (brokerHoldings.map (heldIn symbol)).sum

/-- The rows are linked to each other, and their hashes are right. -/
def Chained (H : Hashes) : String → List EventRow → Prop
  | _, [] => True
  | previous, row :: rows => row.previousHash = previous ∧ H.event row.toEvent previous = row.eventHash ∧ Chained H row.eventHash rows

/-- Ledger and broker agree. -/
structure Agrees (l : Ledger) (scopeId : Text) (brokerHoldings : List (String × Raw)) (managedSymbols : List String) : Prop where
  holdings : ∀ symbol, netHeld l.log scopeId symbol = brokerHeld brokerHoldings symbol
  settled : ∀ order ∈ l.orders, order.scopeId = scopeId → ¬ order.pending l.log
  owned : ∀ symbol, brokerHeld brokerHoldings symbol ≠ 0 →
    ∃ managed ∈ managedSymbols, ∃ canonical, canonicalKisSymbol managed = .ok canonical ∧ canonical.val = symbol

/-- What is moved between the sleeves of a scope. -/
def legOf (scopeId : Text) (event : Event) : ℤ :=
  match event.payload.leg with
  | some (signedQuantity, _, _) => if event.scopeId = scopeId then signedQuantity else 0
  | none => 0

/-- The canonical symbol of an entry. -/
def symbolOf (entry : String × Raw) : Option Symbol := (canonicalKisSymbol entry.1).toOption

/-- The shares come to at most 10^28. -/
structure Countable (l : Ledger) (scopeId : Text) (brokerHoldings : List (String × Raw)) : Prop where
  sleeves : magnitude (l.log.map (legOf scopeId)) ≤ 10 ^ 28
  fills : ∀ order ∈ l.orders, Portfolio.filledQuantities l.log scopeId order.planId ≤ 10 ^ 28
  broker : ∀ entry ∈ brokerHoldings, ∀ canonical ∈ symbolOf entry, brokerHeld brokerHoldings canonical.val ≤ 10 ^ 28

theorem countable_iff {l : Ledger} {scopeId : Text} {brokerHoldings : List (String × Raw)} : Countable l scopeId brokerHoldings ↔
    magnitude (l.log.map (legOf scopeId)) ≤ 10 ^ 28 ∧
      (∀ order ∈ l.orders, Portfolio.filledQuantities l.log scopeId order.planId ≤ 10 ^ 28) ∧
      ∀ entry ∈ brokerHoldings, ∀ canonical ∈ symbolOf entry, brokerHeld brokerHoldings canonical.val ≤ 10 ^ 28 :=
  ⟨fun h => ⟨h.sleeves, h.fills, h.broker⟩, fun h => ⟨h.1, h.2.1, h.2.2⟩⟩

instance (l : Ledger) (scopeId : Text) (brokerHoldings : List (String × Raw)) : Decidable (Countable l scopeId brokerHoldings) :=
  decidable_of_iff _ countable_iff.symm

variable {H : Hashes} {l l' : Ledger} {scopeId : Text} {brokerHoldings : List (String × Raw)} {managedSymbols : List String}

/-! ## The sleeves, exact -/

/-- The magnitude of the values of a dictionary. -/
def spread {κ : Type} (d : Dict κ ℤ) : ℤ := (d.map fun e => |e.2|).sum

theorem spread_nonneg {κ : Type} (d : Dict κ ℤ) : 0 ≤ spread d := by
  refine List.sum_nonneg fun x hx => ?_
  obtain ⟨e, -, rfl⟩ := List.mem_map.mp hx
  exact abs_nonneg e.2

theorem abs_get_le_spread {κ : Type} [DecidableEq κ] (d : Dict κ ℤ) (key : κ) : |d.get key 0| ≤ spread d := by
  refine Dict.forall_get (P := fun value => |value| ≤ spread d) (fun e he => ?_) ?_
  · refine List.single_le_sum (fun x hx => ?_) _ (List.mem_map_of_mem he)
    obtain ⟨f, -, rfl⟩ := List.mem_map.mp hx
    exact abs_nonneg f.2
  · rw [abs_zero]
    exact spread_nonneg d

/-- Adding to one value adds at most as much to the magnitude. -/
theorem spread_set_le {κ : Type} [DecidableEq κ] (d : Dict κ ℤ) (key : κ) (q : ℤ) :
    spread (d.set key (d.get key 0 + q)) ≤ spread d + |q| := by
  have hset := Dict.sum_set (g := fun (_ : κ) value => |value|) (0 : ℤ) (fun _ => abs_zero) d key (d.get key 0 + q)
  have habs := abs_add_le (d.get key 0) q
  rw [spread, spread, hset]
  omega

/-- One event, as long as nothing is rounded. -/
theorem bookHolding_eq {result : Dict (String × String) ℤ} {event : Event} (hs : event.scopeId = scopeId)
    (h : spread result + |legOf scopeId event| ≤ 10 ^ 28) : bookHolding result event = Portfolio.bookHolding result event := by
  rw [bookHolding, Portfolio.bookHolding]
  rw [legOf] at h
  cases hleg : event.payload.leg with
  | none => rfl
  | some leg =>
    obtain ⟨q, price, fee⟩ := leg
    rw [hleg] at h
    dsimp only at h
    rw [if_pos hs] at h
    have hget := abs_get_le_spread result (event.sleeveId, event.symbol)
    have hadd := abs_add_le (result.get (event.sleeveId, event.symbol) 0) q
    dsimp only
    rw [whole_eq (by omega)]

theorem spread_bookHolding {result result' : Dict (String × String) ℤ} {event : Event} (hs : event.scopeId = scopeId)
    (h : Portfolio.bookHolding result event = .ok result') : spread result' ≤ spread result + |legOf scopeId event| := by
  rw [Portfolio.bookHolding] at h
  rw [legOf]
  cases hleg : event.payload.leg with
  | none =>
    rw [hleg] at h
    obtain rfl := Except.ok.inj h
    dsimp only
    rw [abs_zero, add_zero]
  | some leg =>
    obtain ⟨q, price, fee⟩ := leg
    rw [hleg] at h
    dsimp only at h ⊢
    rw [if_pos hs]
    obtain ⟨_, -, h⟩ := bind_eq_ok.mp h
    obtain rfl := Except.ok.inj h
    exact spread_set_le result _ q

/-- The replay of the log, and what it leaves. -/
theorem foldlM_bookHolding_eq (log : List Event) : ∀ (result : Dict (String × String) ℤ),
    spread result + magnitude (log.map (legOf scopeId)) ≤ 10 ^ 28 →
    (log.filter (·.scopeId = scopeId)).foldlM bookHolding result = (log.filter (·.scopeId = scopeId)).foldlM Portfolio.bookHolding result ∧
      ∀ sleeves, (log.filter (·.scopeId = scopeId)).foldlM Portfolio.bookHolding result = .ok sleeves →
        spread sleeves ≤ spread result + magnitude (log.map (legOf scopeId)) := by
  induction log with
  | nil =>
    intro result _
    refine ⟨rfl, fun sleeves h => ?_⟩
    obtain rfl := Except.ok.inj h
    exact le_add_of_nonneg_right (magnitude_nonneg _)
  | cons event log ih =>
    intro result h
    rw [List.map_cons, magnitude, List.map_cons, List.sum_cons] at h ⊢
    have hrest : 0 ≤ magnitude (log.map (legOf scopeId)) := magnitude_nonneg _
    rw [magnitude] at hrest
    by_cases hs : event.scopeId = scopeId
    · have hhead : (event :: log).filter (·.scopeId = scopeId) = event :: log.filter (·.scopeId = scopeId) :=
        List.filter_cons_of_pos (by simpa using hs)
      rw [hhead, List.foldlM_cons, List.foldlM_cons, bookHolding_eq hs (by omega)]
      cases hmid : Portfolio.bookHolding result event with
      | error e => exact ⟨rfl, fun sleeves hsleeves => by cases hsleeves⟩
      | ok mid =>
        have hspread := spread_bookHolding hs hmid
        obtain ⟨heq, hle⟩ := ih mid (by rw [magnitude]; omega)
        refine ⟨heq, fun sleeves hsleeves => (hle sleeves hsleeves).trans ?_⟩
        rw [magnitude]
        omega
    · have htail : (event :: log).filter (·.scopeId = scopeId) = log.filter (·.scopeId = scopeId) :=
        List.filter_cons_of_neg (by simpa using hs)
      have habs := abs_nonneg (legOf scopeId event)
      rw [htail]
      obtain ⟨heq, hle⟩ := ih result (by rw [magnitude]; omega)
      refine ⟨heq, fun sleeves hsleeves => (hle sleeves hsleeves).trans ?_⟩
      rw [magnitude]
      omega

/-- The sum over the sleeves, as long as nothing is rounded. -/
theorem foldl_sumHoldings_eq {sleeves : Dict (String × String) ℤ} : ∀ {ledger : Dict String ℤ}, spread ledger + spread sleeves ≤ 10 ^ 28 →
    sleeves.foldl (fun ledger e => Dict.set ledger e.1.2 (whole (Dict.get ledger e.1.2 0 + e.2))) ledger =
      sleeves.foldl (fun ledger e => Dict.set ledger e.1.2 (Dict.get ledger e.1.2 0 + e.2)) ledger := by
  induction sleeves with
  | nil => exact fun _ => rfl
  | cons e sleeves ih =>
    intro ledger h
    rw [spread, spread, List.map_cons, List.sum_cons] at h
    have hrest : 0 ≤ spread sleeves := spread_nonneg sleeves
    have hget := abs_get_le_spread ledger e.1.2
    have hadd := abs_add_le (Dict.get ledger e.1.2 0) e.2
    have hset := spread_set_le ledger e.1.2 e.2
    rw [spread] at hrest hget hset
    rw [List.foldl_cons, List.foldl_cons, whole_eq (by omega)]
    exact ih (by rw [spread] at hset ⊢; rw [spread]; omega)

/-- **The sleeves of a symbol** are added up exactly. -/
theorem sumHoldings_get {sleeves : Dict (String × String) ℤ} (hsmall : magnitude (l.log.map (legOf scopeId)) ≤ 10 ^ 28)
    (h : sleeveHoldings l scopeId = .ok sleeves) (symbol : String) : (sumHoldings sleeves).get symbol 0 = netHeld l.log scopeId symbol := by
  have hempty : spread ([] : Dict (String × String) ℤ) = 0 := rfl
  obtain ⟨heq, hle⟩ := foldlM_bookHolding_eq l.log [] (by rwa [hempty, zero_add])
  have hexact : Portfolio.sleeveHoldings l scopeId = .ok sleeves := heq.symm.trans h
  have hspread := hle sleeves hexact
  have hsum : sumHoldings sleeves = Portfolio.sumHoldings sleeves := foldl_sumHoldings_eq (by
    show spread ([] : Dict String ℤ) + _ ≤ _
    rw [hempty, zero_add] at hspread
    exact (zero_add (spread sleeves)).trans_le (hspread.trans hsmall))
  rw [hsum, Portfolio.sumHoldings_get hexact]

/-! ## Broker and orders, exact -/

theorem quantity_field {value : Raw} {field : String} {allowZero : Bool} {q : ℕ} (h : quantity value field allowZero = .ok q)
    (field' : String) : quantity value field' allowZero = .ok q := by
  cases value with
  | number x =>
    obtain ⟨r, hr, h⟩ := bind_eq_ok.mp h
    obtain ⟨_, hden, h⟩ := bind_eq_ok.mp h
    obtain ⟨_, hzero, h⟩ := bind_eq_ok.mp h
    obtain ⟨_, hmin, hr⟩ := bind_eq_ok.mp hr
    refine bind_eq_ok.mpr ⟨r, bind_eq_ok.mpr ⟨(), require_true (require_eq_ok.mp hmin), hr⟩, ?_⟩
    exact bind_eq_ok.mpr ⟨(), require_true (require_eq_ok.mp hden), bind_eq_ok.mpr ⟨(), require_true (require_eq_ok.mp hzero), h⟩⟩
  | absent => cases h
  | junk => cases h

theorem heldIn_eq {entry : String × Raw} {canonical : Symbol} {held : ℕ} {field : String} (hsymbol : canonicalKisSymbol entry.1 = .ok canonical)
    (hheld : quantity entry.2 field true = .ok held) (symbol : String) :
    heldIn symbol entry = if canonical.val = symbol then held else 0 := by
  rw [heldIn, hsymbol, quantity_field hheld ""]

/-- **The broker's entries of a symbol** are added up exactly, under distinct keys. -/
theorem foldlM_bookBroker {entries : List (String × Raw)} : ∀ (broker : Dict String ℕ) {result : Dict String ℕ},
    (∀ symbol, broker.get symbol 0 + brokerHeld entries symbol ≤ 10 ^ 28) → (broker.map Prod.fst).Nodup →
    entries.foldlM bookBroker broker = .ok result →
    (result.map Prod.fst).Nodup ∧ ∀ symbol, result.get symbol 0 = broker.get symbol 0 + brokerHeld entries symbol := by
  induction entries with
  | nil =>
    intro broker result _ hnodup h
    obtain rfl := Except.ok.inj h
    exact ⟨hnodup, fun symbol => rfl⟩
  | cons entry entries ih =>
    intro broker result hsmall hnodup h
    rw [List.foldlM_cons] at h
    obtain ⟨mid, hmid, h⟩ := bind_eq_ok.mp h
    obtain ⟨canonical, hcanonical, hmid⟩ := bind_eq_ok.mp hmid
    obtain ⟨held, hheld, hmid⟩ := bind_eq_ok.mp hmid
    obtain rfl := Except.ok.inj hmid
    have hcons : ∀ symbol, brokerHeld (entry :: entries) symbol =
        (if canonical.val = symbol then held else 0) + brokerHeld entries symbol := fun symbol => by
      rw [brokerHeld, List.map_cons, List.sum_cons, heldIn_eq hcanonical hheld]
      rfl
    have hwhole : (whole ((broker.get canonical.val 0 : ℤ) + held)).toNat = broker.get canonical.val 0 + held := by
      have hbound := hsmall canonical.val
      rw [hcons, if_pos rfl] at hbound
      rw [whole_eq (by rw [abs_of_nonneg (by omega)]; omega)]
      omega
    rw [hwhole] at h
    have hnext : ∀ symbol, (broker.set canonical.val (broker.get canonical.val 0 + held)).get symbol 0 + brokerHeld entries symbol =
        broker.get symbol 0 + brokerHeld (entry :: entries) symbol := fun symbol => by
      rw [Dict.get_set, hcons]
      split
      · next heq =>
        rw [heq, add_assoc]
      · rw [zero_add]
    obtain ⟨hkeys, hget⟩ := ih _ (fun symbol => (hnext symbol).trans_le (hsmall symbol)) (Dict.nodup_set hnodup _ _) h
    exact ⟨hkeys, fun symbol => (hget symbol).trans (hnext symbol)⟩

theorem brokerHeld_le {bound : ℕ} (h : ∀ entry ∈ brokerHoldings, ∀ canonical ∈ symbolOf entry,
    brokerHeld brokerHoldings canonical.val ≤ bound) (symbol : String) : brokerHeld brokerHoldings symbol ≤ bound := by
  by_cases hsome : ∃ entry ∈ brokerHoldings, ∃ canonical ∈ symbolOf entry, canonical.val = symbol
  · obtain ⟨entry, hentry, canonical, hcanonical, rfl⟩ := hsome
    exact h entry hentry canonical hcanonical
  · have hzero : brokerHeld brokerHoldings symbol = 0 := by
      refine List.sum_eq_zero fun x hx => ?_
      obtain ⟨entry, hentry, rfl⟩ := List.mem_map.mp hx
      rw [heldIn]
      split
      · next canonical held hcanonical hheld =>
        refine if_neg fun heq => hsome ⟨entry, hentry, canonical, ?_, heq⟩
        rw [symbolOf, hcanonical]
        rfl
      · rfl
    rw [hzero]
    exact Nat.zero_le bound

theorem filledQuantities_eq {planId : String} (h : Portfolio.filledQuantities l.log scopeId planId ≤ 10 ^ 28) :
    filledQuantities l.log scopeId planId = Portfolio.filledQuantities l.log scopeId planId := by
  have hcast : ∀ log : List Event, (log.map fun event => (event.fillOf scopeId planId : ℤ)).sum =
      (Portfolio.filledQuantities log scopeId planId : ℤ) := fun log => by
    rw [Portfolio.filledQuantities, Nat.cast_list_sum, List.map_map]
    rfl
  have hmagnitude : magnitude (l.log.map fun event => (event.fillOf scopeId planId : ℤ)) =
      (Portfolio.filledQuantities l.log scopeId planId : ℤ) := by
    rw [← hcast, magnitude, List.map_map]
    refine congrArg List.sum (List.map_congr_left fun event _ => ?_)
    exact abs_of_nonneg (Int.natCast_nonneg _)
  rw [filledQuantities, total_eq (by rw [hmagnitude]; exact_mod_cast h), hcast]

theorem pendingOrders_eq_nil (hsmall : ∀ order ∈ l.orders, Portfolio.filledQuantities l.log scopeId order.planId ≤ 10 ^ 28) :
    pendingOrders l scopeId = [] ↔ ∀ order ∈ l.orders, order.scopeId = scopeId → ¬ order.pending l.log := by
  have hpending : ∀ order ∈ l.orders, order.scopeId = scopeId → (IsPending order l.log ↔ order.pending l.log) := by
    rintro order horder rfl
    rw [IsPending, OrderRow.pending, filledQuantities_eq (hsmall order horder), Nat.cast_lt]
  rw [pendingOrders, List.map_eq_nil_iff, List.filter_eq_nil_iff]
  constructor
  · intro h order horder hscope hwaits
    exact h order (List.mem_filter.mpr ⟨horder, decide_eq_true hscope⟩) (decide_eq_true ((hpending order horder hscope).mpr hwaits))
  · intro h order horder hwaits
    obtain ⟨horder, hscope⟩ := List.mem_filter.mp horder
    have hscope := of_decide_eq_true hscope
    exact h order horder hscope ((hpending order horder hscope).mp (of_decide_eq_true hwaits))

/-! ## The comparison -/

theorem get_eq_zero {κ ν : Type} [DecidableEq κ] [Zero ν] {d : Dict κ ν} {key : κ} (h : key ∉ d.map Prod.fst) : d.get key 0 = 0 := by
  induction d with
  | nil => rfl
  | cons e d ih =>
    obtain ⟨k, v⟩ := e
    rw [List.map_cons, List.mem_cons, not_or] at h
    rw [Dict.get, if_neg (Ne.symm h.1)]
    exact ih h.2

theorem get_of_mem {κ ν : Type} [DecidableEq κ] [Zero ν] {d : Dict κ ν} {key : κ} {value : ν} (hnodup : (d.map Prod.fst).Nodup)
    (h : (key, value) ∈ d) : d.get key 0 = value := by
  induction d with
  | nil => cases h
  | cons e d ih =>
    obtain ⟨k, v⟩ := e
    rw [List.map_cons, List.nodup_cons] at hnodup
    rw [Dict.get]
    rcases List.mem_cons.mp h with heq | hmem
    · obtain ⟨rfl, rfl⟩ := Prod.mk.inj heq
      exact if_pos rfl
    · rw [if_neg fun heq => hnodup.1 (List.mem_map.mpr ⟨_, hmem, heq.symm⟩)]
      exact ih hnodup.2 hmem

theorem mismatches_eq_nil {keys : List String} {ledger : Dict String ℤ} {broker : Dict String ℕ} :
    (sortedKeys keys).filterMap (mismatchOf ledger broker) = [] ↔ ∀ symbol ∈ keys, ledger.get symbol 0 = broker.get symbol 0 := by
  rw [List.filterMap_eq_nil_iff]
  have hmem : ∀ symbol, symbol ∈ sortedKeys keys ↔ symbol ∈ keys := fun symbol => by
    rw [sortedKeys, List.mem_insertionSort, List.mem_dedup]
  constructor
  · intro h symbol hsymbol
    by_contra hne
    have hnone := h symbol ((hmem symbol).mpr hsymbol)
    rw [mismatchOf, if_pos hne] at hnone
    cases hnone
  · intro h symbol hsymbol
    rw [mismatchOf, if_neg (not_not.mpr (h symbol ((hmem symbol).mp hsymbol)))]

theorem external_eq_nil {broker : Dict String ℕ} {managed : List String} (hnodup : (broker.map Prod.fst).Nodup) :
    (broker.filter fun item => item.1 ∉ managed ∧ item.2 ≠ 0) = [] ↔ ∀ symbol, broker.get symbol 0 ≠ 0 → symbol ∈ managed := by
  rw [List.filter_eq_nil_iff]
  constructor
  · intro h symbol hheld
    by_contra hnot
    have hkey : symbol ∈ broker.map Prod.fst := by
      by_contra hkey
      exact hheld (get_eq_zero hkey)
    obtain ⟨item, hitem, rfl⟩ := List.mem_map.mp hkey
    have hvalue : broker.get item.1 0 = item.2 := get_of_mem hnodup hitem
    exact h item hitem (decide_eq_true ⟨hnot, hvalue ▸ hheld⟩)
  · intro h item hitem houtside
    obtain ⟨hnot, hheld⟩ := of_decide_eq_true houtside
    have hvalue : broker.get item.1 0 = item.2 := get_of_mem hnodup hitem
    exact hnot (h item.1 (hvalue.symm ▸ hheld))

/-! ## The chain -/

theorem verifyRows_chained {rows : List EventRow} : ∀ {sequence : ℕ} {acc chain : ℕ × String},
    verifyRows H scopeId sequence rows acc = .ok chain → Chained H acc.2 (rows.filter (·.scopeId = scopeId)) := by
  induction rows with
  | nil => exact fun _ => trivial
  | cons row rows ih =>
    intro sequence acc chain h
    obtain ⟨count, previous⟩ := acc
    rw [verifyRows] at h
    split at h
    · next hscope =>
      obtain ⟨_, hprevious, h⟩ := bind_eq_ok.mp h
      obtain ⟨_, hhash, h⟩ := bind_eq_ok.mp h
      rw [List.filter_cons_of_pos (by simpa using hscope)]
      exact ⟨require_eq_ok.mp hprevious, require_eq_ok.mp hhash, ih h⟩
    · next hscope =>
      rw [List.filter_cons_of_neg (by simpa using hscope)]
      exact ih h

/-! ## Readiness -/

theorem mem_managed {managed : List Symbol} (h : managedSymbols.mapM canonicalKisSymbol = .ok managed) (symbol : String) :
    symbol ∈ managed.map (·.val) ↔ ∃ raw ∈ managedSymbols, ∃ canonical, canonicalKisSymbol raw = .ok canonical ∧ canonical.val = symbol := by
  constructor
  · intro hsymbol
    obtain ⟨canonical, hcanonical, rfl⟩ := List.mem_map.mp hsymbol
    obtain ⟨raw, hraw, hok⟩ := exists_of_mem_mapM h hcanonical
    exact ⟨raw, hraw, canonical, hok, rfl⟩
  · rintro ⟨raw, hraw, canonical, hok, rfl⟩
    obtain ⟨canonical', hmem, hok'⟩ := exists_mapM_of_mem h hraw
    obtain rfl := Except.ok.inj (hok.symm.trans hok')
    exact List.mem_map_of_mem hmem

/-- The comparison is ready exactly where ledger and broker agree. -/
theorem sealReconciliation_ready {chain : ℕ × String} {managed : List Symbol} {sleeves : Dict (String × String) ℤ} {broker : Dict String ℕ}
    {now : ℤ} (hsmall : Countable l scopeId brokerHoldings) (hmanaged : managedSymbols.mapM canonicalKisSymbol = .ok managed)
    (hsleeves : sleeveHoldings l scopeId = .ok sleeves) (hbroker : canonicalHoldings brokerHoldings = .ok broker) :
    (sealReconciliation H l scopeId chain (managed.map (·.val)) (sumHoldings sleeves) broker now).2.ready = true ↔
      Agrees l scopeId brokerHoldings managedSymbols := by
  have hledger := sumHoldings_get hsmall.sleeves hsleeves
  obtain ⟨hnodup, hheld⟩ := foldlM_bookBroker [] (fun symbol => (Nat.zero_add _).trans_le (brokerHeld_le hsmall.broker symbol))
    List.nodup_nil hbroker
  have hget : ∀ symbol, broker.get symbol 0 = brokerHeld brokerHoldings symbol := fun symbol => (hheld symbol).trans (Nat.zero_add _)
  show decide _ = true ↔ _
  rw [decide_eq_true_iff, mismatches_eq_nil, pendingOrders_eq_nil hsmall.fills, external_eq_nil hnodup]
  constructor
  · rintro ⟨hsame, hsettled, howned⟩
    refine ⟨fun symbol => ?_, hsettled, fun symbol hne => (mem_managed hmanaged symbol).mp (howned symbol (by rwa [hget]))⟩
    rw [← hledger, ← hget]
    by_cases hknown : symbol ∈ managed.map (·.val) ++ (sumHoldings sleeves).map Prod.fst
    · exact hsame symbol hknown
    · -- unknown to the ledger and not managed: neither holds anything
      rw [List.mem_append, not_or] at hknown
      have hzero : broker.get symbol 0 = 0 := by
        by_contra hne
        exact hknown.1 (howned symbol hne)
      rw [get_eq_zero hknown.2, hzero]
      rfl
  · intro hagrees
    refine ⟨fun symbol _ => ?_, hagrees.settled, fun symbol hne => ?_⟩
    · rw [hledger, hget]
      exact hagrees.holdings symbol
    · rw [hget] at hne
      exact (mem_managed hmanaged symbol).mpr (hagrees.owned symbol hne)

theorem reconcileRestart_eq_ok {scope : String} {persist : Bool} {time : RawTime} {result : PortfolioReconciliation}
    (h : reconcileRestart H l scope brokerHoldings managedSymbols persist time = .ok (l', result)) :
    ∃ scopeId chain managed sleeves broker now, text scope "scope_id" = .ok scopeId ∧ verifyHashChain H l scopeId = .ok chain ∧
      managedSymbols.mapM canonicalKisSymbol = .ok managed ∧ sleeveHoldings l scopeId = .ok sleeves ∧
      canonicalHoldings brokerHoldings = .ok broker ∧
      result = (sealReconciliation H l scopeId chain (managed.map (·.val)) (sumHoldings sleeves) broker now).2 := by
  obtain ⟨scopeId, hscope, h⟩ := bind_eq_ok.mp h
  obtain ⟨chain, hchain, h⟩ := bind_eq_ok.mp h
  obtain ⟨managed, hmanaged, h⟩ := bind_eq_ok.mp h
  obtain ⟨sleeves, hsleeves, h⟩ := bind_eq_ok.mp h
  obtain ⟨broker, hbroker, h⟩ := bind_eq_ok.mp h
  obtain ⟨now, -, h⟩ := bind_eq_ok.mp h
  refine ⟨scopeId, chain, managed, sleeves, broker, now, hscope, hchain, hmanaged, hsleeves, hbroker, ?_⟩
  dsimp only at h
  split at h
  · obtain ⟨⟨_, _⟩, -, h⟩ := bind_eq_ok.mp h
    exact (Prod.mk.inj (Except.ok.inj h)).2.symm
  · exact (Prod.mk.inj (Except.ok.inj h)).2.symm

/-- **A ready reconciliation** means agreement with the broker, and any difference that it is not ready. -/
theorem ready_iff_agrees {scopeId : Text} {persist : Bool} {time : RawTime} {result : PortfolioReconciliation}
    (h : reconcileRestart H l scopeId.val brokerHoldings managedSymbols persist time = .ok (l', result))
    (hsmall : Countable l scopeId brokerHoldings) :
    Chained H genesis (l.eventsOf scopeId) ∧ (result.ready = true ↔ Agrees l scopeId brokerHoldings managedSymbols) := by
  obtain ⟨scopeId', chain, managed, sleeves, broker, now, hscope, hchain, hmanaged, hsleeves, hbroker, rfl⟩ := reconcileRestart_eq_ok h
  obtain rfl : scopeId = scopeId' := Except.ok.inj ((text_val scopeId "scope_id").symm.trans hscope)
  exact ⟨verifyRows_chained hchain, sealReconciliation_ready hsmall hmanaged hsleeves hbroker⟩

/-! ## Samples -/

/-- The broker's map, with two spellings of one symbol. -/
def sampleHoldings : List (String × Raw) := [("KRX:005930", .number 2), ("005930.KS", .number 1), ("000660", .number 0)]

/-- The sample order, accepted and filled. -/
theorem sampleOrder_ready : ∃ l scopeId result,
    reconcileRestart sampleHashes l "scope" sampleHoldings ["005930"] false (.stamp 9) = .ok (l, result) ∧ result.ready = true ∧
      Agrees l scopeId sampleHoldings ["005930"] ∧ netHeld l.log scopeId "005930" = 3 := by
  obtain ⟨l₀, -, targets, -, plan, -, l₁, -, l₂, -, scopeId, hscope, ⟨l₃, result⟩, hresult, hsame, hready, hcountable, hnet⟩ :
      ∃ l₀, sampleScope = .ok l₀ ∧ ∃ targets, sampleTargets = .ok targets ∧ ∃ plan, samplePlan targets = .ok plan ∧
      ∃ l₁ : Ledger × Bool, recordAcceptedOrder sampleHashes l₀ plan "order-1" "" (.stamp 0) = .ok l₁ ∧
      ∃ l₂ : Ledger × ExecutionSyncReport, applyExecutionEvents sampleHashes l₁.1 "scope" [sampleReport "fill-3" 3 .absent "FILLED"] = .ok l₂ ∧
      ∃ scopeId, text "scope" "scope_id" = .ok scopeId ∧
      ∃ result : Ledger × PortfolioReconciliation,
        reconcileRestart sampleHashes l₂.1 scopeId.val sampleHoldings ["005930"] false (.stamp 9) = .ok result ∧ result.1 = l₂.1 ∧
      result.2.ready = true ∧ Countable l₂.1 scopeId sampleHoldings ∧ netHeld l₂.1.log scopeId "005930" = 3 := by
    decide +kernel
  obtain rfl : l₃ = l₂.1 := hsame
  have hready' := (ready_iff_agrees hresult hcountable).2.mp hready
  have hval : scopeId.val = "scope" := text_eq_ok hscope
  rw [hval] at hresult
  exact ⟨l₂.1, scopeId, result, hresult, hready, hready', hnet⟩

/-- A sleeve that is to hold 10^28 shares. -/
def wholeTarget : Result (List SleeveTarget) := do
  let a ← SleeveTarget.new "buy-a" "a" "005930" (.number (10 ^ 28))
  pure [a]

/-- **A share is lost in a sum**: the sleeve holds 10^28 shares and the broker one more. -/
theorem lost_share_is_ready : ∃ (l : Ledger) (scopeId : Text) (result : PortfolioReconciliation), Reachable sampleHashes l ∧
    reconcileRestart sampleHashes l scopeId.val [("005930", .number (10 ^ 28 + 1))] ["005930"] false (.stamp 9) = .ok (l, result) ∧
      result.ready = true ∧ ¬ Agrees l scopeId [("005930", .number (10 ^ 28 + 1))] ["005930"] := by
  obtain ⟨l₀, hl₀, targets, -, plan, -, l₁, haccept, l₂, hfill, scopeId, -, ⟨l₃, result⟩, hresult, hsame, hready, hdiffers⟩ :
      ∃ l₀, sampleScope = .ok l₀ ∧ ∃ targets, wholeTarget = .ok targets ∧ ∃ plan, samplePlan targets = .ok plan ∧
      ∃ l₁ : Ledger × Bool, recordAcceptedOrder sampleHashes l₀ plan "order-1" "" (.stamp 0) = .ok l₁ ∧
      ∃ l₂ : Ledger × ExecutionSyncReport,
        applyExecutionEvents sampleHashes l₁.1 "scope" [sampleReport "fill" (10 ^ 28) .absent "FILLED"] = .ok l₂ ∧
      ∃ scopeId, text "scope" "scope_id" = .ok scopeId ∧
      ∃ result : Ledger × PortfolioReconciliation,
        reconcileRestart sampleHashes l₂.1 scopeId.val [("005930", .number (10 ^ 28 + 1))] ["005930"] false (.stamp 9) = .ok result ∧
      result.1 = l₂.1 ∧ result.2.ready = true ∧
      ¬ netHeld l₂.1.log scopeId "005930" = brokerHeld [("005930", .number (10 ^ 28 + 1))] "005930" := by
    decide +kernel
  obtain rfl : l₃ = l₂.1 := hsame
  have hreachable : Reachable sampleHashes l₂.1 :=
    ((Relation.ReflTransGen.single (.registerScope hl₀)).tail (.accept haccept)).tail (.apply hfill)
  exact ⟨l₂.1, scopeId, result, hreachable, hresult, hready, fun h => hdiffers (h.holdings "005930")⟩

end Context

end LiveTrader.Portfolio
