/-
# `Portfolio.Runs` — runs of execution batches about one order

A run is a list of `apply_execution_events` batches.  Two things are said about
a run: what its events report (`Reads`, a property of every event as the ledger
reads it) and which condition its rows meet (`RunMeets`, a property of every row
in the ledger it is applied to, judged when its turn comes).

The second half reduces a batch of such events to the loop over its sorted rows
(`collect_batch`, `applyExecutionEvents_of_rows`).
-/
import LiveTrader.Portfolio.LedgerSteps

namespace LiveTrader.Portfolio

open Lib.Py Lib.Decimal

/-! ## Runs and their conditions -/

/-- The batches one after the other. -/
def applyBatches (H : Hashes) (l : Ledger) (scopeId : Text) (batches : List (List ExecutionEvent)) :
    Result Ledger :=
  batches.foldlM (fun ledger batch => do
    let (ledger', _) ← applyExecutionEvents H ledger scopeId.val batch
    pure ledger') l

/-- A condition on a row as the ledger reads it. -/
def RowMeets (condition : Ledger → OrderRow → Notice → Prop) (ledger : Ledger) (row : Collected) :
    Prop :=
  match readNotice row with
  | .error _ => True
  | .ok n => condition ledger row.order n

/-- Every row of a sorted batch meets the condition when its turn comes. -/
def RowsMeet (H : Hashes) (condition : Ledger → OrderRow → Notice → Prop) (scopeId : Text) :
    Sync → List Collected → Prop
  | _, [] => True
  | sync, row :: rows => RowMeets condition sync.ledger row ∧
      match applyRow H scopeId sync row with
      | .error _ => True
      | .ok sync' => RowsMeet H condition scopeId sync' rows

def BatchMeets (H : Hashes) (condition : Ledger → OrderRow → Notice → Prop) (scopeId : Text)
    (ledger : Ledger) (batch : List ExecutionEvent) : Prop :=
  match batch.mapM (collectRow ledger scopeId) with
  | .error _ => True
  | .ok collected => RowsMeet H condition scopeId (startSync ledger scopeId)
      ((collected.filterMap id).insertionSort collectedLe)

/-- Every batch meets the condition when its turn comes. -/
def RunMeets (H : Hashes) (condition : Ledger → OrderRow → Notice → Prop) (scopeId : Text) :
    Ledger → List (List ExecutionEvent) → Prop
  | _, [] => True
  | ledger, batch :: batches => BatchMeets H condition scopeId ledger batch ∧
      match applyExecutionEvents H ledger scopeId.val batch with
      | .error _ => True
      | .ok (ledger', _) => RunMeets H condition scopeId ledger' batches

section decidable

variable (H : Hashes) (condition : Ledger → OrderRow → Notice → Prop)
  [∀ ledger order n, Decidable (condition ledger order n)] (scopeId : Text)

instance (ledger : Ledger) (row : Collected) : Decidable (RowMeets condition ledger row) := by
  unfold RowMeets; split <;> infer_instance

instance RowsMeet.decidable : ∀ (sync : Sync) (rows : List Collected),
    Decidable (RowsMeet H condition scopeId sync rows)
  | _, [] => .isTrue trivial
  | sync, row :: rows => by
      unfold RowsMeet
      refine @instDecidableAnd _ _ _ ?_
      split
      · infer_instance
      · exact RowsMeet.decidable _ rows
  termination_by structural _ rows => rows

instance (ledger : Ledger) (batch : List ExecutionEvent) :
    Decidable (BatchMeets H condition scopeId ledger batch) := by
  unfold BatchMeets; split <;> infer_instance

instance RunMeets.decidable : ∀ (ledger : Ledger) (batches : List (List ExecutionEvent)),
    Decidable (RunMeets H condition scopeId ledger batches)
  | _, [] => .isTrue trivial
  | ledger, batch :: batches => by
      unfold RunMeets
      refine @instDecidableAnd _ _ _ ?_
      split
      · infer_instance
      · exact RunMeets.decidable _ batches
  termination_by structural _ batches => batches

end decidable

/-! ## What the events of a run report -/

/-- The event is about the order, and the ledger reads a notice with `P`. -/
def Reads (order : OrderRow) (P : Notice → Prop) (event : ExecutionEvent) : Prop :=
  lower (strip event.brokerId) = "kis" ∧ strip event.brokerOrderId = order.brokerOrderId.val ∧
    ∃ now, occurredAt event.occurredAt = .ok now ∧
      ∃ n, readNotice ⟨event, order, now⟩ = .ok n ∧ P n

instance (order : OrderRow) (P : Notice → Prop) [DecidablePred P] (event : ExecutionEvent) :
    Decidable (Reads order P event) := by
  unfold Reads; infer_instance

/-- The same for a collected row. -/
def RowReads (order : OrderRow) (P : Notice → Prop) (row : Collected) : Prop :=
  row.order = order ∧ ∃ n, readNotice row = .ok n ∧ P n

@[simp] theorem text_val (t : Text) (field : String) : text t.val field = .ok t := by
  have hs := t.2.strip_eq
  unfold text
  rw [dif_pos (by rw [hs]; exact t.2)]
  exact congrArg Except.ok (Subtype.ext hs)

theorem readNotice_source {row : Collected} {n : Notice} (h : readNotice row = .ok n) :
    n.sourceEventId.val = strip row.event.eventId := by
  simp only [readNotice, bind_eq_ok, pure_eq_ok] at h
  obtain ⟨s, hs, _, _, _, _, _, _, _, _, _, _, _, _, rfl⟩ := h
  exact text_eq_ok hs

section collect

variable {H : Hashes} {l : Ledger} {order : OrderRow} {P : Notice → Prop}

/-- A broker order id of the scope belongs to one order. -/
theorem orderOf_mem (hs : l.Sound) (ho : order ∈ l.orders) :
    l.orderOf order.scopeId order.brokerOrderId.val = some order := by
  unfold Ledger.orderOf
  cases hf : l.orders.find? fun row =>
      row.scopeId = order.scopeId ∧ row.brokerOrderId.val = order.brokerOrderId.val with
  | none =>
    have := List.find?_eq_none.mp hf order ho
    simp at this
  | some row =>
    have hrow := List.find?_some hf
    simp only [decide_eq_true_eq] at hrow
    refine congrArg some (List.inj_on_of_nodup_map hs.brokerIds (List.mem_of_find?_eq_some hf) ho ?_)
    exact Prod.ext hrow.1 (Subtype.ext hrow.2)

theorem collectRow_reads (hs : l.Sound) (ho : order ∈ l.orders) {event : ExecutionEvent}
    (h : Reads order P event) :
    ∃ row, collectRow l order.scopeId event = .ok (some row) ∧ RowReads order P row ∧
      row.event = event := by
  obtain ⟨hkis, hid, now, hnow, n, hn, hp⟩ := h
  refine ⟨⟨event, order, now⟩, ?_, ⟨rfl, n, hn, hp⟩, rfl⟩
  unfold collectRow
  rw [if_neg (by simpa using hkis), hid, orderOf_mem hs ho]
  simp only [hnow, ok_bind]
  rfl

theorem collect_batch (hs : l.Sound) (ho : order ∈ l.orders) : ∀ batch : List ExecutionEvent,
    (∀ event ∈ batch, Reads order P event) →
    ∃ rows : List Collected, batch.mapM (collectRow l order.scopeId) = .ok (rows.map some) ∧
      (∀ row ∈ rows, RowReads order P row) ∧ rows.map (·.event) = batch
  | [], _ => ⟨[], rfl, by simp, rfl⟩
  | event :: batch, h => by
      obtain ⟨row, hrow, hrep, hev⟩ := collectRow_reads hs ho (h event List.mem_cons_self)
      obtain ⟨rows, hrows, hreps, hevs⟩ := collect_batch hs ho batch
        fun e he => h e (List.mem_cons_of_mem _ he)
      refine ⟨row :: rows, ?_, ?_, by rw [List.map_cons, hev, hevs]⟩
      · rw [List.mapM_cons, hrow, ok_bind, hrows, ok_bind]
        rfl
      · rintro r (_ | ⟨_, hr⟩)
        · exact hrep
        · exact hreps r hr

variable {scopeId : Text} {batch : List ExecutionEvent} {rows : List Collected} {sync : Sync}

theorem batchMeets_rows {condition : Ledger → OrderRow → Notice → Prop}
    (h : BatchMeets H condition scopeId l batch)
    (hcol : batch.mapM (collectRow l scopeId) = .ok (rows.map some)) :
    RowsMeet H condition scopeId (startSync l scopeId) (rows.insertionSort collectedLe) := by
  unfold BatchMeets at h
  have hfilter : (rows.map some).filterMap id = rows := by simp
  simpa only [hcol, hfilter] using h

theorem applyExecutionEvents_of_rows
    (hcol : batch.mapM (collectRow l scopeId) = .ok (rows.map some))
    (hrows : (rows.insertionSort collectedLe).foldlM (applyRow H scopeId) (startSync l scopeId) =
      .ok sync) :
    applyExecutionEvents H l scopeId.val batch = .ok (sync.ledger,
      ⟨sync.appliedFills, sync.appliedStatuses, 0, sync.appliedFeeAdjustments⟩) := by
  have hfilter : (rows.map some).filterMap id = rows := by simp
  have hcount : (rows.map some).count none = 0 := by simp [List.count_eq_zero]
  simp only [applyExecutionEvents, text_val, ok_bind, hcol, hfilter, hrows, hcount]
  rfl

theorem applyBatches_cons {l' : Ledger} {report : ExecutionSyncReport}
    {batches : List (List ExecutionEvent)}
    (h : applyExecutionEvents H l scopeId.val batch = .ok (l', report)) :
    applyBatches H l scopeId (batch :: batches) = applyBatches H l' scopeId batches := by
  unfold applyBatches
  rw [List.foldlM_cons, h, ok_bind]
  rfl

end collect

/-! ## Invariants of a run

`Inv s` is an invariant whose parameter `s` follows the run by `next`. -/

section run

variable (H : Hashes) (condition : Ledger → OrderRow → Notice → Prop) (scopeId : Text) {σ : Type}

/-- What every row keeps, a sorted batch keeps. -/
theorem applyRows_run (Inv : σ → Sync → Prop) (next : σ → Collected → σ) (R : Collected → Prop)
    (step : ∀ {s sync row}, Inv s sync → R row → RowMeets condition sync.ledger row →
      ∃ sync', applyRow H scopeId sync row = .ok sync' ∧ Inv (next s row) sync') :
    ∀ {rows : List Collected} {s : σ} {sync : Sync}, Inv s sync → (∀ row ∈ rows, R row) →
    RowsMeet H condition scopeId sync rows →
    ∃ sync', rows.foldlM (applyRow H scopeId) sync = .ok sync' ∧ Inv (rows.foldl next s) sync'
  | [], s, sync, hinv, _, _ => ⟨sync, rfl, hinv⟩
  | row :: rows, s, sync, hinv, hrows, hmeet => by
      unfold RowsMeet at hmeet
      obtain ⟨sync', hsync', hinv'⟩ := step hinv (hrows row List.mem_cons_self) hmeet.1
      have hrest := hmeet.2
      simp only [hsync'] at hrest
      rw [List.foldlM_cons, hsync', ok_bind]
      exact applyRows_run Inv next R step hinv' (fun r hr => hrows r (List.mem_cons_of_mem _ hr)) hrest

/-- What every batch keeps, a run keeps. -/
theorem applyBatches_run (Inv : σ → Ledger → Prop) (next : σ → List ExecutionEvent → σ)
    (R : List ExecutionEvent → Prop)
    (step : ∀ {s l batch}, Inv s l → R batch → BatchMeets H condition scopeId l batch →
      ∃ l' report, applyExecutionEvents H l scopeId.val batch = .ok (l', report) ∧
        Inv (next s batch) l') :
    ∀ {batches : List (List ExecutionEvent)} {s : σ} {l : Ledger}, Inv s l →
    (∀ batch ∈ batches, R batch) → RunMeets H condition scopeId l batches →
    ∃ l', applyBatches H l scopeId batches = .ok l' ∧ Inv (batches.foldl next s) l'
  | [], s, l, hinv, _, _ => ⟨l, rfl, hinv⟩
  | batch :: batches, s, l, hinv, hbatches, hmeet => by
      unfold RunMeets at hmeet
      obtain ⟨l', report, hl', hinv'⟩ := step hinv (hbatches batch List.mem_cons_self) hmeet.1
      have hrest := hmeet.2
      simp only [hl'] at hrest
      obtain ⟨l'', hl'', hinv''⟩ := applyBatches_run Inv next R step hinv'
        (fun b hb => hbatches b (List.mem_cons_of_mem _ hb)) hrest
      exact ⟨l'', by rw [applyBatches_cons hl', hl''], hinv''⟩

end run

end LiveTrader.Portfolio
