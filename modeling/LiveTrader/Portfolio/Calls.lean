/-
# `Portfolio.Calls` — calls under conditions, and the groups they commit

A call is judged in the ledger it is made in: what plan it brings, how each of its execution events is read when its turn
comes, which scope it reconciles (`Conditions`).  A run of calls that meet their conditions is a run of committed groups
(`Call.commits`), and `Hands` says for each kind of group what the code had checked when it handed the group to
`_append_events`.  It tells more than `Books`: which fee was split over which shares, and from which total a revision starts.
-/
import LiveTrader.Lib.Runs
import LiveTrader.Portfolio.BookedFees
import LiveTrader.Portfolio.Runs

namespace LiveTrader.Portfolio

open Lib Lib.Py Lib.Decimal

/-! ## Calls -/

inductive Call where
  | registerScope (scopeId portfolioId portfolioHash accountId : String)
  | accept (plan : SymbolNetPlan) (brokerOrderId localOrderId : String) (time : RawTime)
  | cross (plan : SymbolNetPlan) (price : Raw) (time : RawTime)
  | apply (scopeId : String) (events : List ExecutionEvent)
  | reconcile (scopeId : String) (brokerHoldings : List (String × Raw)) (managedSymbols : List String) (persist : Bool)
      (time : RawTime)

/-- The ledger after a call. -/
def runCall (H : Hashes) (l : Ledger) : Call → Result Ledger
  | .registerScope scopeId portfolioId portfolioHash accountId => registerScope l scopeId portfolioId portfolioHash accountId
  | .accept plan brokerOrderId localOrderId time => do
      let result ← recordAcceptedOrder H l plan brokerOrderId localOrderId time
      pure result.1
  | .cross plan price time => do
      let result ← recordInternalCross H l plan price time
      pure result.1
  | .apply scopeId events => do
      let result ← applyExecutionEvents H l scopeId events
      pure result.1
  | .reconcile scopeId brokerHoldings managedSymbols persist time => do
      let result ← reconcileRestart H l scopeId brokerHoldings managedSymbols persist time
      pure result.1

/-- A call that raises is rolled back and is no step. -/
def callStep (H : Hashes) (l : Ledger) (call : Call) : Option Ledger := (runCall H l call).toOption

theorem callStep_eq_some {H : Hashes} {l l' : Ledger} {call : Call} :
    callStep H l call = some l' ↔ runCall H l call = .ok l' := by
  unfold callStep
  cases runCall H l call with
  | ok _ => simp [Except.toOption]
  | error _ => simp [Except.toOption]

/-- What is asked of a call, in the ledger before it. -/
structure Conditions where
  plan : Ledger → SymbolNetPlan → Prop
  row : Ledger → OrderRow → Notice → Prop
  scope : Text → Prop

def Call.Meets (H : Hashes) (C : Conditions) (l : Ledger) : Call → Prop
  | .registerScope .. => True
  | .accept plan .. => C.plan l plan
  | .cross plan .. => C.plan l plan
  | .apply scopeId events => ∀ scope, text scopeId "scope_id" = .ok scope → BatchMeets H C.row scope l events
  | .reconcile scopeId .. => ∀ scope, text scopeId "scope_id" = .ok scope → C.scope scope

/-! ## Groups -/

/-- The fee that is booked for the fill of a notice. -/
def bookedFee (l : Ledger) (order : OrderRow) (n : Notice) (stored : StoredFill) : ℚ :=
  currentFee l.log order.scopeId n.sourceEventId stored.fee

/-- The event that seals a reconciliation. -/
def reconciliationEvent (H : Hashes) (scopeId : Text) (payload : ReconciliationPayload) (now : ℤ) : Event :=
  { eventId := scopeId.val ++ ":reconcile:" ++ H.reconciliation payload, scopeId, sleeveId := ""
    symbol := "", payload := .restartReconciliation payload (H.reconciliation payload), occurredAt := now }

/-- A group that a call hands to `_append_events`, with the order rows that go with it. -/
inductive Hands (H : Hashes) (C : Conditions) (l : Ledger) : List OrderRow → List Event → Prop
  | accepted {plan : SymbolNetPlan} {brokerId : Text} {localId : String} {now : ℤ} {cross : List Event} :
      C.plan l plan → 0 < plan.quantity → plan.side ≠ .none → (∀ row ∈ l.orders, row.planId ≠ plan.planId) →
      (∀ row ∈ l.orders, ¬ (row.scopeId = plan.scopeId ∧ row.brokerOrderId = brokerId)) → l.hasScope plan.scopeId →
      internalCrossEvents plan now = .ok cross →
      Hands H C l [orderRow plan brokerId localId now] (acceptedEvent plan brokerId localId now :: cross)
  | crossed {plan : SymbolNetPlan} {now : ℤ} {cross : List Event} :
      C.plan l plan → plan.internalOnly → internalCrossEvents plan now = .ok cross → Hands H C l [] cross
  | fill {order : OrderRow} {n : Notice} {active : List SleeveAllocation} {fees : List ℚ} :
      order ∈ l.orders → C.row l order n → n.symbol = order.symbol → 0 < n.quantity → 0 ≤ n.fee →
      l.stored (fillId order.scopeId n.sourceEventId) = none →
      filledQuantities l.log order.scopeId order.planId + n.quantity ≤ order.quantity →
      activeShares order.allocations order.side (filledQuantities l.log order.scopeId order.planId) n.quantity = .ok active →
      allocateMoney n.fee (active.map (·.signedQuantity.natAbs)) = .ok fees →
      Hands H C l [] (fillEvents order.scopeId order n active fees)
  | revised {order : OrderRow} {n : Notice} {event : Event} {stored : StoredFill} {shares : List SleeveAllocation}
      {deltas : List ℚ} :
      order ∈ l.orders → C.row l order n → 0 ≤ n.fee → l.stored (fillId order.scopeId n.sourceEventId) = some event →
      event.payload.storedFill = some stored → stored.shares = some shares → stored.brokerQuantity = n.quantity →
      ¬ (n.fee = 0 ∧ 0 < bookedFee l order n stored) → n.fee ≠ bookedFee l order n stored →
      allocateMoney (ctx 28 (n.fee - bookedFee l order n stored)) (shares.map (·.signedQuantity.natAbs)) = .ok deltas →
      Hands H C l [] (revisionEvents H order.scopeId order n shares (bookedFee l order n stored) deltas)
  | terminal {order : OrderRow} {n : Notice} {before : Ledger} :
      order ∈ l.orders → C.row before order n → Hands H C l [] [statusEvent order.scopeId order n]
  | reconciled {scopeId : Text} {payload : ReconciliationPayload} {now : ℤ} :
      C.scope scopeId → Hands H C l [] [reconciliationEvent H scopeId payload now]

/-- One committed group, or a scope that is registered. -/
inductive Commits (H : Hashes) (C : Conditions) (l : Ledger) : Ledger → Prop
  | scope {l' : Ledger} : l'.orders = l.orders → l'.log = l.log → (∀ s, l.hasScope s → l'.hasScope s) → Commits H C l l'
  | group {rows : List OrderRow} {events : List Event} {l' : Ledger} :
      Hands H C l rows events → Appended { l with orders := l.orders ++ rows } events l' → Commits H C l l'

section calls

variable {H : Hashes} {C : Conditions} {l l' : Ledger}

theorem appended_of_nil {events : List Event} (h : Appended { l with orders := l.orders ++ [] } events l') :
    Appended l events l' := by
  rwa [List.append_nil] at h

theorem Commits.of_hands {events : List Event} (h : Hands H C l [] events) (happ : Appended l events l') : Commits H C l l' := by
  refine .group h ?_
  rw [List.append_nil]
  exact happ

theorem Commits.books (h : Commits H C l l') : Books H l l' := by
  cases h with
  | scope horders hlog hscopes => exact .scope horders hlog hscopes
  | group hands happ =>
    cases hands with
    | accepted _ hq hside hnew hbroker hscope hcross => exact .order hq hside hnew hbroker hscope hcross happ
    | crossed _ hplan hcross => exact .cross hplan hcross (appended_of_nil happ)
    | fill horder _ hsym hq hfee hnone hle hactive hfees =>
      exact .applies (.fill horder trivial hsym hq hfee (stored_eq_none.mp hnone) hle hactive hfees (appended_of_nil happ))
    | revised horder _ _ hstored _ _ _ _ _ _ =>
      refine .applies (.revise horder ?_ (appended_of_nil happ))
      by_contra hnot
      rw [stored_eq_none.mpr hnot] at hstored
      cases hstored
    | terminal horder _ => exact .applies (.status horder (appended_of_nil happ))
    | reconciled _ =>
      refine .applies (.quiet ?_ (appended_of_nil happ))
      intro event he
      obtain rfl := List.mem_singleton.mp he
      exact ⟨_, _, rfl⟩

/-! ### The loop over the rows -/

theorem reviseFee_commits {order : OrderRow} {n : Notice} {event : Event} {sync sync' : Sync} (horder : order ∈ sync.ledger.orders)
    (hC : C.row sync.ledger order n) (hfee : 0 ≤ n.fee)
    (hstored : sync.ledger.stored (fillId order.scopeId n.sourceEventId) = some event)
    (h : reviseFee H order.scopeId order n event.payload sync = .ok sync') :
    Relation.ReflTransGen (Commits H C) sync.ledger sync'.ledger := by
  simp only [reviseFee, bind_eq_ok, orRaise_eq_ok] at h
  obtain ⟨stored, hpayload, _, _, _, hsame, h⟩ := h
  obtain ⟨hquantity, _⟩ := require_eq_ok.mp hsame
  split_ifs at h with hzero hcurrent
  · obtain rfl := pure_eq_ok.mp h
    exact .refl
  · obtain rfl := pure_eq_ok.mp h
    exact .refl
  · simp only [bind_eq_ok, orRaise_eq_ok, pure_eq_ok] at h
    obtain ⟨shares, hshares, _, _, deltas, hdeltas, ⟨ledger, written⟩, happ, rfl⟩ := h
    rcases appendEvents_eq_ok happ with ⟨_, rfl, _⟩ | ⟨_, _, happ, _⟩
    · exact .refl
    · exact .single (.of_hands (.revised horder hC hfee hstored hpayload hshares hquantity hzero hcurrent hdeltas) happ)

theorem bookFill_commits {scopeId : Text} {order : OrderRow} {n : Notice} {sync sync' : Sync} (hinv : SyncInv l scopeId sync)
    (horder : order ∈ sync.ledger.orders) (hscope : order.scopeId = scopeId) (hC : C.row sync.ledger order n)
    (hsym : n.symbol = order.symbol) (hq : 0 < n.quantity) (hfee : 0 ≤ n.fee)
    (hnone : sync.ledger.stored (fillId scopeId n.sourceEventId) = none)
    (h : bookFill H scopeId order n sync = .ok sync') : Relation.ReflTransGen (Commits H C) sync.ledger sync'.ledger := by
  subst hscope
  simp only [bookFill, bind_eq_ok, require_eq_ok, rowAllocations, pure_eq_ok] at h
  obtain ⟨_, _, _, hle, _, ⟨_, _, _, _, _, _, rfl⟩, active, hactive, fees, hfees, ⟨ledger, written⟩, happ, h⟩ := h
  rw [hinv.filled] at hle hactive
  have hledger : sync'.ledger = ledger := by
    split_ifs at h <;> exact congrArg Sync.ledger (pure_eq_ok.mp h).symm
  rw [hledger]
  rcases appendEvents_eq_ok happ with ⟨_, rfl, _⟩ | ⟨_, _, happ, _⟩
  · exact .refl
  · exact .single (.of_hands (.fill horder hC hsym hq hfee hnone hle hactive hfees) happ)

theorem bookStatus_commits {order : OrderRow} {n : Notice} {before : Ledger} {sync sync' : Sync}
    (horder : order ∈ sync.ledger.orders) (hC : C.row before order n)
    (h : bookStatus H order.scopeId order n sync = .ok sync') :
    Relation.ReflTransGen (Commits H C) sync.ledger sync'.ledger := by
  unfold bookStatus at h
  split_ifs at h
  · simp only [bind_eq_ok, pure_eq_ok] at h
    obtain ⟨⟨ledger, written⟩, happ, rfl⟩ := h
    rcases appendEvents_eq_ok happ with ⟨_, rfl, _⟩ | ⟨_, _, happ, _⟩
    · exact .refl
    · exact .single (.of_hands (.terminal horder hC) happ)
  · obtain rfl := (Except.ok.inj h).symm
    exact .refl

theorem applyRow_commits {scopeId : Text} {row : Collected} {sync sync' : Sync} (hinv : SyncInv l scopeId sync)
    (horder : row.order ∈ l.orders) (hscope : row.order.scopeId = scopeId) (hmeets : RowMeets C.row sync.ledger row)
    (h : applyRow H scopeId sync row = .ok sync') : Relation.ReflTransGen (Commits H C) sync.ledger sync'.ledger := by
  subst hscope
  have hmem : row.order ∈ sync.ledger.orders := by rw [hinv.orders]; exact horder
  simp only [applyRow, bind_eq_ok] at h
  obtain ⟨n, hn, h⟩ := h
  have hC : C.row sync.ledger row.order n := by
    unfold RowMeets at hmeets
    simpa only [hn] using hmeets
  split_ifs at h with hq
  · split at h
    case h_1 event hstored => exact reviseFee_commits hmem hC (readNotice_fee hn) hstored h
    case h_2 hnone =>
      obtain ⟨mid, hmid, h⟩ := bind_eq_ok.mp h
      obtain ⟨_, hinv'⟩ := bookFill_applies (P := fun _ => True) hinv horder rfl trivial (readNotice_symbol hn) hq
        (readNotice_fee hn) hnone hmid
      have hfill := bookFill_commits hinv hmem rfl hC (readNotice_symbol hn) hq (readNotice_fee hn) hnone hmid
      exact hfill.trans (bookStatus_commits (by rw [hinv'.orders]; exact horder) hC h)
  · exact bookStatus_commits hmem hC h

theorem applyRows_commits {scopeId : Text} {rows : List Collected} {sync sync' : Sync} (hinv : SyncInv l scopeId sync)
    (hrows : ∀ row ∈ rows, row.order ∈ l.orders ∧ row.order.scopeId = scopeId)
    (hmeets : RowsMeet H C.row scopeId sync rows) (h : rows.foldlM (applyRow H scopeId) sync = .ok sync') :
    Relation.ReflTransGen (Commits H C) sync.ledger sync'.ledger := by
  induction rows generalizing sync with
  | nil =>
    obtain rfl := pure_eq_ok.mp h
    exact .refl
  | cons row rows ih =>
    rw [List.foldlM_cons] at h
    obtain ⟨mid, hmid, h⟩ := bind_eq_ok.mp h
    obtain ⟨horder, hscope⟩ := hrows row List.mem_cons_self
    unfold RowsMeet at hmeets
    obtain ⟨hrow, hrest⟩ := hmeets
    simp only [hmid] at hrest
    obtain ⟨_, hinv'⟩ := applyRow_applies (P := fun _ => True) hinv horder hscope (fun _ _ => trivial) hmid
    exact (applyRow_commits hinv horder hscope hrow hmid).trans
      (ih hinv' (fun r hr => hrows r (List.mem_cons_of_mem _ hr)) hrest h)

theorem applyExecutionEvents_commits {scopeId : String} {scope : Text} {events : List ExecutionEvent}
    {report : ExecutionSyncReport} (hscope : text scopeId "scope_id" = .ok scope) (hmeets : BatchMeets H C.row scope l events)
    (h : applyExecutionEvents H l scopeId events = .ok (l', report)) : Relation.ReflTransGen (Commits H C) l l' := by
  simp only [applyExecutionEvents, hscope, ok_bind, bind_eq_ok, pure_eq_ok, Prod.mk.injEq] at h
  obtain ⟨collected, hcol, sync, hsync, rfl, _⟩ := h
  unfold BatchMeets at hmeets
  simp only [hcol] at hmeets
  have hinv : SyncInv l scope (startSync l scope) := ⟨rfl, fun _ => rfl⟩
  refine applyRows_commits hinv (fun row hrow => ?_) hmeets hsync
  obtain ⟨horder, hrow, _⟩ := mem_collected hcol hrow
  exact ⟨horder, hrow⟩

/-! ### Whole calls -/

/-- **A call commits groups.** -/
theorem Call.commits {call : Call} (hs : l.Sound) (hmeets : call.Meets H C l) (h : runCall H l call = .ok l') :
    Relation.ReflTransGen (Commits H C) l l' := by
  cases call with
  | registerScope =>
    obtain ⟨horders, hlog, hscopes⟩ := registerScope_eq_ok h
    exact .single (.scope horders hlog hscopes)
  | accept plan brokerOrderId localOrderId time =>
    obtain ⟨⟨_, created⟩, hcall, h⟩ := bind_eq_ok.mp h
    obtain rfl := pure_eq_ok.mp h
    obtain ⟨brokerId, now, cross, haccepted⟩ := recordAcceptedOrder_eq_ok hs hcall
    cases created with
    | true =>
      obtain ⟨hnew, hids, hscope, happ⟩ := haccepted.new rfl
      exact .single (.group (.accepted hmeets haccepted.quantity haccepted.side hnew hids hscope haccepted.crossed) happ)
    | false =>
      obtain ⟨_, rfl⟩ := haccepted.replay rfl
      exact .refl
  | cross plan price time =>
    obtain ⟨⟨_, _⟩, hcall, h⟩ := bind_eq_ok.mp h
    obtain rfl := pure_eq_ok.mp h
    obtain ⟨hplan, now, cross, hcross, rfl | ⟨_, happ⟩⟩ := recordInternalCross_eq_ok hcall
    · exact .refl
    · exact .single (.of_hands (.crossed hmeets hplan hcross) happ)
  | apply scopeId events =>
    obtain ⟨⟨_, _⟩, hcall, h⟩ := bind_eq_ok.mp h
    obtain rfl := pure_eq_ok.mp h
    obtain ⟨scope, hscope, _⟩ := bind_eq_ok.mp hcall
    exact applyExecutionEvents_commits hscope (hmeets scope hscope) hcall
  | reconcile scopeId brokerHoldings managedSymbols persist time =>
    obtain ⟨⟨_, _⟩, hcall, h⟩ := bind_eq_ok.mp h
    obtain rfl := pure_eq_ok.mp h
    simp only [reconcileRestart, bind_eq_ok] at hcall
    obtain ⟨scope, hscope, _, _, _, _, _, _, _, _, now, _, hcall⟩ := hcall
    split_ifs at hcall
    · simp only [bind_eq_ok, pure_eq_ok, Prod.mk.injEq] at hcall
      obtain ⟨⟨_, _⟩, happ, rfl, _⟩ := hcall
      rcases appendEvents_eq_ok happ with ⟨_, rfl, _⟩ | ⟨_, _, happ, _⟩
      · exact .refl
      · exact .single (.of_hands (.reconciled (hmeets scope hscope)) happ)
    · obtain ⟨rfl, _⟩ : l = _ ∧ _ := by simpa using hcall
      exact .refl

/-! ### Runs -/

/-- What every committed group keeps, with the agreement of the tables, holds after any number of groups. -/
theorem commits_invariant {P : Ledger → Prop} (hstep : ∀ {l l' : Ledger}, l.Sound → FeesBooked l → Commits H C l l' → P l → P l')
    (h : Relation.ReflTransGen (Commits H C) l l') (hl : l.Sound ∧ FeesBooked l ∧ P l) : l'.Sound ∧ FeesBooked l' ∧ P l' := by
  induction h with
  | refl => exact hl
  | tail _ step ih =>
    obtain ⟨hs, hfees, hp⟩ := ih
    exact ⟨step.books.sound hs, step.books.feesBooked hfees, hstep hs hfees step hp⟩

/-- What every committed group keeps holds after every run of calls that meet their conditions. -/
theorem calls_invariant {P : Ledger → Prop} (h0 : P Ledger.empty)
    (hstep : ∀ {l l' : Ledger}, l.Sound → FeesBooked l → Commits H C l l' → P l → P l') {calls : List Call}
    (h : Runs.Run (callStep H) (fun l call => call.Meets H C l) Ledger.empty calls l) : l.Sound ∧ FeesBooked l ∧ P l := by
  refine Runs.Run.invariant (P := fun l => l.Sound ∧ FeesBooked l ∧ P l) ?_ h ⟨.empty, ?_, h0⟩
  · intro s call s' hmeets hcall hs
    exact commits_invariant hstep (call.commits hs.1 hmeets (callStep_eq_some.mp hcall)) hs
  · refine ⟨?_, ?_⟩
    all_goals simp [Ledger.empty, Ledger.log]

/-- Where a condition on rows follows from another one and what the groups keep, it holds of every row when its turn comes. -/
theorem RowsMeet.mono {P : Ledger → Prop} {row : Ledger → OrderRow → Notice → Prop}
    (hstep : ∀ {l l' : Ledger}, l.Sound → FeesBooked l → Commits H C l l' → P l → P l')
    (himp : ∀ {l order n}, l.Sound ∧ FeesBooked l ∧ P l → order ∈ l.orders → C.row l order n → row l order n) {scopeId : Text}
    {rows : List Collected} {sync : Sync} (hinv : SyncInv l scopeId sync)
    (hsync : sync.ledger.Sound ∧ FeesBooked sync.ledger ∧ P sync.ledger)
    (hrows : ∀ r ∈ rows, r.order ∈ l.orders ∧ r.order.scopeId = scopeId) (h : RowsMeet H C.row scopeId sync rows) :
    RowsMeet H row scopeId sync rows := by
  induction rows generalizing sync with
  | nil => exact trivial
  | cons r rows ih =>
    obtain ⟨hrow, hrest⟩ := h
    obtain ⟨horder, hscope⟩ := hrows r List.mem_cons_self
    refine ⟨?_, ?_⟩
    · unfold RowMeets at hrow ⊢
      cases hn : readNotice r with
      | error => exact trivial
      | ok n =>
        simp only [hn] at hrow
        exact himp hsync (by rw [hinv.orders]; exact horder) hrow
    · cases happ : applyRow H scopeId sync r with
      | error => exact trivial
      | ok mid =>
        simp only [happ] at hrest
        obtain ⟨_, hinv'⟩ := applyRow_applies (P := fun _ => True) hinv horder hscope (fun _ _ => trivial) happ
        exact ih hinv' (commits_invariant hstep (applyRow_commits hinv horder hscope hrow happ) hsync)
          (fun r' hr' => hrows r' (List.mem_cons_of_mem _ hr')) hrest

/-- Conditions that follow from others and what the groups keep, for every call. -/
theorem Call.Meets.mono {P : Ledger → Prop} {D : Conditions}
    (hstep : ∀ {l l' : Ledger}, l.Sound → FeesBooked l → Commits H C l l' → P l → P l')
    (hplan : ∀ {l plan}, l.Sound ∧ FeesBooked l ∧ P l → C.plan l plan → D.plan l plan)
    (hrow : ∀ {l order n}, l.Sound ∧ FeesBooked l ∧ P l → order ∈ l.orders → C.row l order n → D.row l order n)
    (hscope : ∀ {scope}, C.scope scope → D.scope scope) {call : Call} (hl : l.Sound ∧ FeesBooked l ∧ P l)
    (h : call.Meets H C l) : call.Meets H D l := by
  cases call with
  | registerScope => exact trivial
  | accept => exact hplan hl h
  | cross => exact hplan hl h
  | apply scopeId events =>
    intro scope hname
    have hbatch := h scope hname
    unfold BatchMeets at hbatch ⊢
    cases hcol : events.mapM (collectRow l scope) with
    | error => exact trivial
    | ok collected =>
      simp only [hcol] at hbatch
      refine RowsMeet.mono hstep hrow ⟨rfl, fun _ => rfl⟩ hl (fun r hr => ?_) hbatch
      obtain ⟨horder, hr, _⟩ := mem_collected hcol hr
      exact ⟨horder, hr⟩
  | reconcile scopeId => exact fun scope hname => hscope (h scope hname)

end calls

end LiveTrader.Portfolio
