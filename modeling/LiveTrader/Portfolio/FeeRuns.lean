/-
# `Portfolio.FeeRuns` — late fees of a recorded fill

A replay of a recorded fill can only revise its fee.  The revision is an event
group whose ids seal the transition from the booked fee to the revised one, and
a group whose ids are stored is taken for a replay and skipped.  So a history
that comes back to an earlier transition books nothing the second time
(`revisited_transition_is_lost`), and `FeeClear` asks of a row that the ids of
its transition are free, and of its amounts that the 28-digit context holds them.

In a run of clear replays the booked fee follows the last positive one, at
portfolio level, in the sleeves and in `balances` (`late_fees_converge`).
-/
import LiveTrader.Portfolio.BookedFees
import LiveTrader.Portfolio.FillRuns

namespace LiveTrader.Portfolio

open Lib.Py Lib.Decimal

/-! ## Replays -/

/-- The fee that an execution event carries. -/
def reportedFee (event : ExecutionEvent) : ℚ :=
  match decimal (if event.fee = .absent then event.rawFee.orZero else event.fee) "execution fee"
    (some 0) with
  | .ok fee => fee
  | .error _ => 0

theorem readNotice_reportedFee {row : Collected} {n : Notice} (h : readNotice row = .ok n) :
    n.fee = reportedFee row.event := by
  simp only [readNotice, bind_eq_ok, pure_eq_ok] at h
  obtain ⟨_, _, _, _, _, _, _, _, _, _, _, _, fee, hfee, rfl⟩ := h
  simp only [reportedFee, hfee]

theorem readNotice_occurredAt {row : Collected} {n : Notice} (h : readNotice row = .ok n) :
    n.occurredAt = row.occurredAt := by
  simp only [readNotice, bind_eq_ok, pure_eq_ok] at h
  obtain ⟨_, _, _, _, _, _, _, _, _, _, _, _, _, _, rfl⟩ := h
  rfl

/-- The last positive fee of a history, or the recorded one. -/
def lastPositive (recorded : ℚ) (fees : List ℚ) : ℚ :=
  ((fees.filter (0 < ·)).getLast?).getD recorded

@[simp] theorem lastPositive_nil (recorded : ℚ) : lastPositive recorded [] = recorded := rfl

@[simp] theorem lastPositive_cons (recorded fee : ℚ) (fees : List ℚ) :
    lastPositive recorded (fee :: fees) = lastPositive (if 0 < fee then fee else recorded) fees := by
  unfold lastPositive
  split_ifs with h
  · simp [h, List.getLast?_cons]
  · simp [h]

theorem lastPositive_append (recorded : ℚ) : ∀ fees fees' : List ℚ,
    lastPositive recorded (fees ++ fees') = lastPositive (lastPositive recorded fees) fees'
  | [], _ => rfl
  | fee :: fees, fees' => by
      rw [List.cons_append, lastPositive_cons, lastPositive_append _ fees, lastPositive_cons]

/-- The notice repeats the fill `f`, recorded at `recordedAt`. -/
def IsReplay (f : BrokerFill) (recordedAt : ℤ) (n : Notice) : Prop :=
  n.sourceEventId = f.sourceEventId ∧ n.quantity = f.brokerQuantity ∧ n.price = f.price ∧
    n.occurredAt = recordedAt

instance (f : BrokerFill) (recordedAt : ℤ) : DecidablePred (IsReplay f recordedAt) := fun n => by
  unfold IsReplay; infer_instance

/-- The event repeats the execution `eventId`, which the ledger has as `f`. -/
def Replays (order : OrderRow) (f : BrokerFill) (recordedAt : ℤ) (eventId : String)
    (event : ExecutionEvent) : Prop :=
  Reads order (IsReplay f recordedAt) event ∧ event.eventId = eventId

instance (order : OrderRow) (f : BrokerFill) (recordedAt : ℤ) (eventId : String)
    (event : ExecutionEvent) : Decidable (Replays order f recordedAt eventId event) := by
  unfold Replays; infer_instance

/-! ## Clear revisions -/

/-- The ids that a fee revision writes. -/
def revisionIds (H : Hashes) (order : OrderRow) (n : Notice) (shares : List SleeveAllocation)
    (current : ℚ) : List String :=
  (revisionPrefix H order.scopeId n current ++ ":portfolio") :: shares.map fun a =>
    revisionPrefix H order.scopeId n current ++ ":sleeve:" ++ a.sleeveId.val ++ ":" ++ a.intentId.val

/-- The row asks for no revision, or for one whose ids are free, and all amounts
fit the context with `k` decimals. -/
def FeeClear (H : Hashes) (k : ℕ) (f : BrokerFill) (ledger : Ledger) (order : OrderRow) (n : Notice) :
    Prop :=
  OnGrid k n.fee ∧ (magnitude ledger.log order.scopeId + n.fee) * 10 ^ k < 10 ^ 26 ∧
    ((n.fee = 0 ∧ 0 < currentFee ledger.log order.scopeId f.sourceEventId f.fee) ∨
      n.fee = currentFee ledger.log order.scopeId f.sourceEventId f.fee ∨
      FreshIds ledger (revisionIds H order n f.shares
        (currentFee ledger.log order.scopeId f.sourceEventId f.fee)))

instance (H : Hashes) (k : ℕ) (f : BrokerFill) (ledger : Ledger) (order : OrderRow) (n : Notice) :
    Decidable (FeeClear H k f ledger order n) := by
  unfold FeeClear; infer_instance

/-! ## The events of a revision -/

section revision

variable {H : Hashes} {order : OrderRow} {n : Notice} {shares : List SleeveAllocation} {current : ℚ}
  {deltas : List ℚ}

theorem feeAllocations_deltas : ∀ (shares : List SleeveAllocation) (deltas : List ℚ),
    deltas.length = shares.length → (∀ x ∈ deltas, decimalText x = x) →
    (feeAllocations shares deltas).map (·.feeDelta) = deltas
  | [], [], _, _ => rfl
  | a :: shares, x :: deltas, hlen, hfit => by
      have ih := feeAllocations_deltas shares deltas (by simpa using hlen)
        fun y hy => hfit y (List.mem_cons_of_mem _ hy)
      rw [feeAllocations, List.zipWith_cons_cons, List.map_cons, hfit x List.mem_cons_self]
      exact congrArg _ ih

theorem feeAllocations_keys : ∀ (shares : List SleeveAllocation) (deltas : List ℚ),
    deltas.length = shares.length →
    (feeAllocations shares deltas).map (fun a => (a.sleeveId, a.intentId)) =
      shares.map fun a => (a.sleeveId, a.intentId)
  | [], [], _ => rfl
  | a :: shares, x :: deltas, hlen => by
      have ih := feeAllocations_keys shares deltas (by simpa using hlen)
      exact congrArg _ ih

theorem revisionEvents_ids (hlen : deltas.length = shares.length) :
    (revisionEvents H order.scopeId order n shares current deltas).map (·.eventId) =
      revisionIds H order n shares current := by
  have h := congrArg (List.map fun key : Text × Text => revisionPrefix H order.scopeId n current ++
    ":sleeve:" ++ key.1.val ++ ":" ++ key.2.val) (feeAllocations_keys _ _ hlen)
  rw [List.map_map, List.map_map] at h
  rw [revisionEvents, revisionIds, List.map_cons, List.map_map]
  exact congrArg _ h

theorem scopeLog_revisionEvents :
    scopeLog (revisionEvents H order.scopeId order n shares current deltas) order.scopeId =
      revisionEvents H order.scopeId order n shares current deltas :=
  List.filter_eq_self.mpr fun event he => by simpa using (revisionEvents_source he).1

/-- The amounts of a revision are its deltas. -/
theorem revisionEvents_amounts (H : Hashes) (order : OrderRow) (n : Notice) (current : ℚ)
    (hlen : deltas.length = shares.length)
    (hfit : ∀ x ∈ deltas, decimalText x = x) :
    (revisionEvents H order.scopeId order n shares current deltas).map (·.payload.amounts) =
      (0, 0) :: deltas.map fun x => (0, x) := by
  have h := congrArg (List.map fun x : ℚ => ((0 : ℚ), x)) (feeAllocations_deltas _ _ hlen hfit)
  rw [List.map_map] at h
  rw [revisionEvents, List.map_cons, List.map_map]
  exact congrArg _ h

end revision

/-! ## The invariant of a run -/

/-- Fees of the scope that are not the fill's. -/
def feesApart (log : List Event) (scopeId source : Text) : ℚ :=
  totalFees log scopeId - sleeveFees log scopeId source

/-- Cash of the scope before the fill's fee. -/
def cashApart (log : List Event) (scopeId source : Text) : ℚ :=
  totalCash log scopeId + sleeveFees log scopeId source

/-- The fill `f` is booked with `fee`, and nothing else changed since `l₁`. -/
structure FeeRun (k : ℕ) (order : OrderRow) (event : Event) (f : BrokerFill) (l₁ : Ledger) (fee : ℚ)
    (l : Ledger) : Prop where
  order_mem : order ∈ l.orders
  sound : l.Sound
  stored : l.stored (fillId order.scopeId f.sourceEventId) = some event
  portfolio : currentFee l.log order.scopeId f.sourceEventId f.fee = fee
  sleeves : sleeveFees l.log order.scopeId f.sourceEventId = fee
  nonneg : 0 ≤ fee
  grid : AmountsOnGrid k l.log order.scopeId
  small : magnitude l.log order.scopeId * 10 ^ k < 10 ^ 28
  fees : feesApart l.log order.scopeId f.sourceEventId = feesApart l₁.log order.scopeId f.sourceEventId
  cash : cashApart l.log order.scopeId f.sourceEventId = cashApart l₁.log order.scopeId f.sourceEventId

theorem stored_append {l l' : Ledger} {new : List Event} {eventId : String} {event : Event}
    (happ : Appended l new l') (h : l.stored eventId = some event) :
    l'.stored eventId = some event := by
  unfold Ledger.stored at *
  rw [happ.log, List.find?_append, h]
  rfl

section run

variable {H : Hashes} {k : ℕ} {order : OrderRow} {event : Event} {f : BrokerFill} {l₁ : Ledger}
  {fee : ℚ} {n : Notice}

theorem FeeRun.revise {l l' : Ledger} {deltas : List ℚ} (hrun : FeeRun k order event f l₁ fee l)
    (hsource : n.sourceEventId = f.sourceEventId) (hfee : 0 ≤ n.fee)
    (hgrid : OnGrid k n.fee) (hsmall : (magnitude l.log order.scopeId + n.fee) * 10 ^ k < 10 ^ 26)
    (hlen : deltas.length = f.shares.length) (hsum : deltas.sum = n.fee - fee)
    (hdeltas : ∀ x ∈ deltas, OnGrid k x) (habs : absSum deltas ≤ 5 * |n.fee - fee|)
    (hctx : ctx 28 (n.fee - fee) = n.fee - fee)
    (happ : Appended l (revisionEvents H order.scopeId order n f.shares fee deltas) l') :
    FeeRun k order event f l₁ n.fee l' := by
  have h10 : (0 : ℚ) < 10 ^ k := by positivity
  have hfeele : fee ≤ magnitude l.log order.scopeId := by
    have := abs_sleeveFees_le l.log order.scopeId f.sourceEventId
    rw [hrun.sleeves] at this
    exact (le_abs_self fee).trans this
  have hdiff : |n.fee - fee| ≤ magnitude l.log order.scopeId + n.fee := by
    rw [abs_le]
    constructor <;> linarith [hrun.nonneg]
  have hfit : ∀ x ∈ deltas, decimalText x = x := by
    intro x hx
    refine ctx_of_onGrid (hdeltas x hx) ?_
    have h1 := (abs_le_absSum hx).trans (habs.trans (mul_le_mul_of_nonneg_left hdiff (by norm_num)))
    have := mul_le_mul_of_nonneg_right h1 h10.le
    linarith
  -- the totals of the new events
  have hamounts := revisionEvents_amounts H order n fee hlen hfit
  have hnewfees : totalFees (revisionEvents H order.scopeId order n f.shares fee deltas)
      order.scopeId = deltas.sum := by
    have := congrArg (fun l => (l.map Prod.snd).sum) hamounts
    simpa [totalFees, scopeLog_revisionEvents, Function.comp_def] using this
  have hnewcash : totalCash (revisionEvents H order.scopeId order n f.shares fee deltas)
      order.scopeId = -deltas.sum := by
    have := congrArg (fun l : List (ℚ × ℚ) => (l.map fun a => -a.1 - a.2).sum) hamounts
    rw [← negAddMonoidHom_apply, map_list_sum]
    simpa [totalCash, scopeLog_revisionEvents, Function.comp_def] using this
  have hnewmag : magnitude (revisionEvents H order.scopeId order n f.shares fee deltas)
      order.scopeId = absSum deltas := by
    have := congrArg (fun l : List (ℚ × ℚ) => (l.map fun a => |a.1| + |a.2|).sum) hamounts
    simpa [magnitude, scopeLog_revisionEvents, Function.comp_def, absSum] using this
  have hnewgrid : AmountsOnGrid k (revisionEvents H order.scopeId order n f.shares fee deltas)
      order.scopeId := by
    intro e he
    rw [scopeLog_revisionEvents] at he
    have hmem := List.mem_map_of_mem (f := fun e : Event => e.payload.amounts) he
    rw [hamounts, List.mem_cons, List.mem_map] at hmem
    rcases hmem with h | ⟨x, hx, h⟩
    · rw [h]; exact ⟨.zero k, .zero k⟩
    · rw [← h]; exact ⟨.zero k, hdeltas x hx⟩
  have hnewsleeves : sleeveFees (revisionEvents H order.scopeId order n f.shares fee deltas)
      order.scopeId f.sourceEventId = deltas.sum := by
    rw [← hnewfees, totalFees, scopeLog_revisionEvents, sleeveFees]
    refine congrArg _ (List.map_congr_left fun e he => ?_)
    obtain ⟨h1, h2⟩ := revisionEvents_source he
    rw [Event.feeOf, if_pos ⟨h1, by rw [h2, hsource]⟩]
  have hnewdelta : (revisionEvents H order.scopeId order n f.shares fee deltas).filterMap
      (Event.feeDeltaOf order.scopeId f.sourceEventId) = [n.fee - fee] := by
    rw [revisionEvents, List.filterMap_cons]
    have hhead : Event.feeDeltaOf order.scopeId f.sourceEventId
        (feeEvent H order.scopeId order n fee (feeAllocations f.shares deltas)) =
        some (n.fee - fee) := by
      simp [Event.feeDeltaOf, feeEvent, hsource, decimalText, hctx]
    rw [hhead]
    refine congrArg _ (List.filterMap_eq_nil_iff.mpr fun e he => ?_)
    obtain ⟨a, _, rfl⟩ := List.mem_map.mp he
    rfl
  have hnfee : ctx 28 n.fee = n.fee := by
    refine ctx_of_onGrid hgrid ?_
    rw [abs_of_nonneg hfee]
    have := mul_nonneg (magnitude_nonneg l.log order.scopeId) h10.le
    linarith [add_mul (magnitude l.log order.scopeId) n.fee ((10 : ℚ) ^ k)]
  have hmem : fillId order.scopeId n.sourceEventId ∈ l.eventIds := by
    rw [hsource]
    by_contra hnot
    have := hrun.stored
    rw [stored_eq_none.mpr hnot] at this
    cases this
  refine ⟨?_, ?_, stored_append happ hrun.stored, ?_, ?_, hfee, ?_, ?_, ?_, ?_⟩
  · rw [happ.orders]; exact hrun.order_mem
  · exact (Applies.revise (P := fun _ => True) hrun.order_mem hmem happ).sound hrun.sound
  · have hold := hrun.portfolio
    unfold currentFee at hold ⊢
    rw [happ.log, List.filterMap_append, List.foldl_append, hold, hnewdelta]
    simp [hnfee]
  · rw [happ.log, sleeveFees_append, hrun.sleeves, hnewsleeves, hsum]
    ring
  · rw [happ.log]; exact hrun.grid.append hnewgrid
  · rw [happ.log, magnitude_append, hnewmag]
    have := mul_le_mul_of_nonneg_right (habs.trans (mul_le_mul_of_nonneg_left hdiff (by norm_num)))
      h10.le
    have hfee' := mul_nonneg hfee h10.le
    linarith [add_mul (magnitude l.log order.scopeId) (absSum deltas) ((10 : ℚ) ^ k),
      add_mul (magnitude l.log order.scopeId) n.fee ((10 : ℚ) ^ k)]
  · have := hrun.fees
    unfold feesApart at this ⊢
    rw [happ.log, totalFees_append, sleeveFees_append, hnewfees, hnewsleeves]
    linarith
  · have := hrun.cash
    unfold cashApart at this ⊢
    rw [happ.log, totalCash_append, sleeveFees_append, hnewcash, hnewsleeves]
    linarith

/-- **A clear replay** books its fee, or leaves the ledger alone. -/
theorem reviseFee_feeRun {sync : Sync} (hrun : FeeRun k order event f l₁ fee sync.ledger)
    (hk : 8 ≤ k) (hp : event.payload = .brokerFill f) (hq : 0 < f.brokerQuantity)
    (hw : 0 < (f.shares.map (·.signedQuantity.natAbs)).sum) {recordedAt : ℤ}
    (hn : IsReplay f recordedAt n) (hfee : 0 ≤ n.fee) (hclear : FeeClear H k f sync.ledger order n) :
    ∃ sync', reviseFee H order.scopeId order n event.payload sync = .ok sync' ∧
      FeeRun k order event f l₁ (if 0 < n.fee then n.fee else fee) sync'.ledger := by
  obtain ⟨hsource, hqty, hprice, _⟩ := hn
  obtain ⟨hgrid, hsmall, hids⟩ := hclear
  have hnonneg := hrun.nonneg
  rw [hrun.portfolio] at hids
  have hstored : Payload.storedFill (.brokerFill f) =
      some ⟨f.brokerQuantity, f.price, f.fee, some f.shares⟩ := rfl
  unfold reviseFee
  rw [hp, hstored]
  simp only [orRaise, ok_bind]
  rw [require_true hq.ne', ok_bind, require_true ⟨hqty.symm, hprice.symm⟩, ok_bind, hsource,
    hrun.portfolio]
  split_ifs with h1 h2 h3 h4 h5
  · exact absurd h2 (by rw [h1.1]; exact lt_irrefl _)
  · exact ⟨sync, rfl, hrun⟩
  · exact ⟨sync, rfl, h3 ▸ hrun⟩
  · exact ⟨sync, rfl, hrun⟩
  · -- a positive fee that differs from the booked one
    have hfresh := (hids.resolve_left h1).resolve_left h3
    have h10 : (0 : ℚ) < 10 ^ k := by positivity
    have hfeele : fee ≤ magnitude sync.ledger.log order.scopeId := by
      have := abs_sleeveFees_le sync.ledger.log order.scopeId f.sourceEventId
      rw [hrun.sleeves] at this
      exact (le_abs_self fee).trans this
    have hdiff : |n.fee - fee| ≤ magnitude sync.ledger.log order.scopeId + n.fee := by
      rw [abs_le]
      constructor <;> linarith
    have hdsmall : |n.fee - fee| * 10 ^ k < 10 ^ 26 :=
      lt_of_le_of_lt (mul_le_mul_of_nonneg_right hdiff h10.le) hsmall
    have hfeegrid : OnGrid k fee := hrun.sleeves ▸ onGrid_sleeveFees hrun.grid
    have hctx : ctx 28 (n.fee - fee) = n.fee - fee :=
      ctx_of_onGrid (hgrid.sub hfeegrid) (hdsmall.trans (by norm_num))
    obtain ⟨deltas, hdeltas, hsum, hdgrid, habs⟩ :=
      allocateMoney_exact hk (hgrid.sub hfeegrid) hdsmall hw
    have hlen : deltas.length = f.shares.length := by simpa using allocateMoney_length hdeltas
    have hne : f.shares ≠ [] := by
      rintro hnil
      simp [hnil] at hw
    obtain ⟨l', happend, happ⟩ := appendEvents_fresh (H := H)
      (show revisionEvents H order.scopeId order n f.shares fee deltas ≠ [] by simp [revisionEvents])
      (fun e he => (revisionEvents_payload he).1) (hrun.sound.orderScope order hrun.order_mem)
      (by rwa [revisionEvents_ids hlen])
    rw [require_true hne, ok_bind, hctx, hdeltas, ok_bind, happend, ok_bind]
    exact ⟨_, rfl, hrun.revise hsource hfee hgrid hsmall hlen hsum hdgrid habs hctx happ⟩
  · -- a fee of zero differs from the booked one only below zero
    have h0 : n.fee = 0 := le_antisymm (not_lt.mp h5) hfee
    rcases hnonneg.lt_or_eq with hpos | hzero
    · exact absurd ⟨h0, hpos⟩ h1
    · exact absurd (h0.trans hzero) h3

/-! ### Batches -/

/-- Replays of one execution have one sort key. -/
theorem replays_sorted {recordedAt : ℤ} {eventId : String} {rows : List Collected}
    (h : ∀ row ∈ rows, RowReads order (IsReplay f recordedAt) row ∧ row.event.eventId = eventId) :
    rows.insertionSort collectedLe = rows := by
  refine List.Pairwise.insertionSort_eq (List.pairwise_of_forall_mem_list fun a ha b hb => ?_)
  obtain ⟨⟨_, n, hn, hna⟩, hida⟩ := h a ha
  obtain ⟨⟨_, m, hm, hmb⟩, hidb⟩ := h b hb
  refine .inr ⟨?_, by rw [hida, hidb]⟩
  rw [← readNotice_occurredAt hn, ← readNotice_occurredAt hm, hna.2.2.2, hmb.2.2.2]

theorem applyBatch_feeRun {l : Ledger} {batch : List ExecutionEvent} {recordedAt : ℤ}
    {eventId : String} (hrun : FeeRun k order event f l₁ fee l) (hk : 8 ≤ k)
    (hp : event.payload = .brokerFill f) (hq : 0 < f.brokerQuantity)
    (hw : 0 < (f.shares.map (·.signedQuantity.natAbs)).sum)
    (hreplays : ∀ e ∈ batch, Replays order f recordedAt eventId e)
    (hclear : BatchMeets H (FeeClear H k f) order.scopeId l batch) :
    ∃ l' report, applyExecutionEvents H l order.scopeId.val batch = .ok (l', report) ∧
      FeeRun k order event f l₁ (lastPositive fee (batch.map reportedFee)) l' := by
  obtain ⟨rows, hcol, hrows, hevents⟩ := collect_batch (l := l) hrun.sound hrun.order_mem _
    fun e he => (hreplays e he).1
  have hrows' : ∀ row ∈ rows, RowReads order (IsReplay f recordedAt) row ∧
      row.event.eventId = eventId := fun row hrow => by
    have hmem : row.event ∈ batch := hevents ▸ List.mem_map_of_mem hrow
    exact ⟨hrows row hrow, (hreplays _ hmem).2⟩
  have hmeets := batchMeets_rows hclear hcol
  rw [replays_sorted hrows'] at hmeets
  obtain ⟨sync', hsync', hrun'⟩ := applyRows_run H (FeeClear H k f) order.scopeId
    (fun fee sync => FeeRun k order event f l₁ fee sync.ledger)
    (fun fee row => if 0 < reportedFee row.event then reportedFee row.event else fee)
    (RowReads order (IsReplay f recordedAt))
    (fun {fee sync row} hinv hrow hmeets => by
      obtain ⟨horder, n, hn, hreplay⟩ := hrow
      unfold RowMeets at hmeets
      simp only [hn, horder] at hmeets
      rw [← readNotice_reportedFee hn]
      unfold applyRow
      rw [hn, ok_bind, if_pos (by rw [hreplay.2.1]; exact hq), hreplay.1, hinv.stored, horder]
      exact reviseFee_feeRun hinv hk hp hq hw hreplay (readNotice_fee hn) hmeets)
    (show FeeRun k order event f l₁ fee (startSync l order.scopeId).ledger from hrun) hrows hmeets
  have hfold : ∀ (rows : List Collected) (fee : ℚ), rows.foldl
      (fun fee row => if 0 < reportedFee row.event then reportedFee row.event else fee) fee =
      lastPositive fee ((rows.map (·.event)).map reportedFee) := by
    intro rows
    induction rows with
    | nil => intro fee; rfl
    | cons row rows ih =>
      intro fee
      rw [List.foldl_cons, ih, List.map_cons, List.map_cons, lastPositive_cons]
  rw [hfold, hevents] at hrun'
  refine ⟨_, _, applyExecutionEvents_of_rows hcol ?_, hrun'⟩
  rw [replays_sorted hrows']
  exact hsync'

end run

/-! ## The recorded split -/

/-- A fee of at most `k` decimals that the context can split. -/
def Splits (k : ℕ) (fee : ℚ) : Prop := OnGrid k fee ∧ fee * 10 ^ k < 10 ^ 26

instance (k : ℕ) (fee : ℚ) : Decidable (Splits k fee) := by unfold Splits; infer_instance

section split

variable {H : Hashes} {k : ℕ} {l l' : Ledger} {event : Event} {f : BrokerFill}

theorem fillAllocations_fees (price : ℚ) : ∀ (active : List SleeveAllocation) (fees : List ℚ),
    fees.length = active.length → (∀ x ∈ fees, decimalText x = x) →
    (fillAllocations active price fees).map (·.fee) = fees
  | [], [], _, _ => rfl
  | a :: active, x :: fees, hlen, hfit => by
      have ih := fillAllocations_fees price active fees (by simpa using hlen)
        fun y hy => hfit y (List.mem_cons_of_mem _ hy)
      rw [fillAllocations, List.zipWith_cons_cons, List.map_cons, hfit x List.mem_cons_self]
      exact congrArg _ ih

/-- A fill is recorded with a split that adds up to its fee. -/
theorem Applies.recorded_split (hk : 8 ≤ k) (step : Applies H (fun n => Splits k n.fee) l l')
    (he : event ∈ l'.log) (hp : event.payload = .brokerFill f) :
    event ∈ l.log ∨ (f.allocations.map (·.fee)).sum = f.fee := by
  have hneutral : ∀ {new : List Event}, Neutral new → Appended l new l' → event ∈ l.log := by
    intro new hnew happ
    rw [happ.log, List.mem_append] at he
    exact he.resolve_right fun he => (hnew event he).2 f hp
  cases step with
  | @fill order n active fees _ _ hP _ hq hfee _ _ hactive hfees happ =>
    rw [happ.log, List.mem_append] at he
    rcases he with he | he
    · exact .inl he
    obtain ⟨hgrid, hsmall⟩ := hP
    have h10 : (0 : ℚ) < 10 ^ k := by positivity
    have habs : |n.fee| = n.fee := abs_of_nonneg hfee
    obtain ⟨fees', hfees', hsum, hfgrid, hfsum⟩ := allocateMoney_exact hk hgrid
      (by rwa [habs]) (activeShares_weights hq hactive)
    obtain rfl : fees' = fees := Except.ok.inj (hfees'.symm.trans hfees)
    rcases List.mem_cons.mp he with rfl | he
    · obtain rfl := Payload.brokerFill.inj hp
      have hfit : ∀ x ∈ fees', decimalText x = x := by
        intro x hx
        refine ctx_of_onGrid (hfgrid x hx) ?_
        have h1 := mul_le_mul_of_nonneg_right ((abs_le_absSum hx).trans hfsum) h10.le
        rw [habs] at h1
        linarith
      have hnfee : decimalText n.fee = n.fee :=
        ctx_of_onGrid hgrid (by rw [habs]; exact hsmall.trans (by norm_num))
      have hlen : fees'.length = active.length := by simpa using allocateMoney_length hfees
      exact .inr (by rw [fillAllocations_fees n.price _ _ hlen hfit, hsum, hnfee])
    · obtain ⟨a, _, rfl⟩ := List.mem_map.mp he
      cases hp
  | status _ happ => exact .inl (hneutral (neutral_statusEvent _ _ _) happ)
  | revise _ _ happ => exact .inl (hneutral neutral_revisionEvents happ)
  | quiet hq happ => exact .inl (hneutral hq.neutral happ)

theorem recorded_split (hk : 8 ≤ k)
    (steps : Relation.ReflTransGen (Applies H fun n => Splits k n.fee) l l') (he : event ∈ l'.log)
    (hp : event.payload = .brokerFill f) :
    event ∈ l.log ∨ (f.allocations.map (·.fee)).sum = f.fee := by
  induction steps with
  | refl => exact .inl he
  | tail _ step ih => exact (step.recorded_split hk he hp).elim ih .inr

end split

/-! ## Convergence -/

/-- The fill carries `fee`, in the portfolio, in the sleeves and in `balances`,
and every other amount of the scope is that of `l₁`. -/
structure FeeConverged (scopeId : Text) (f : BrokerFill) (l₁ l₂ : Ledger) (fee : ℚ) : Prop where
  portfolio : currentFee l₂.log scopeId f.sourceEventId f.fee = fee
  sleeves : sleeveFees l₂.log scopeId f.sourceEventId = fee
  fees : (balances l₂ scopeId).1.fees = feesApart l₁.log scopeId f.sourceEventId + fee
  cash : (balances l₂ scopeId).1.cashFlow = cashApart l₁.log scopeId f.sourceEventId - fee

/-- **Late fees converge**, in every clear run of replays.  The call from `l₀`
recorded the fill, and anything but a revision may have happened since. -/
theorem late_fees_converge {H : Hashes} {l₀ l₀' l₁ : Ledger} (hreach : Reachable H l₀)
    {order : OrderRow} {recording : List ExecutionEvent} {report : ExecutionSyncReport}
    (hrecord : applyExecutionEvents H l₀ order.scopeId.val recording = .ok (l₀', report))
    (hlater : Relation.ReflTransGen (Op H) l₀' l₁) (horder : order ∈ l₁.orders) {event : Event}
    {f : BrokerFill} (hnew : event ∉ l₀.log) (hrecorded : event ∈ l₀'.log)
    (hstored : l₁.stored (fillId order.scopeId f.sourceEventId) = some event)
    (hscope : event.scopeId = order.scopeId) (hp : event.payload = .brokerFill f)
    (hunrevised : Unrevised l₁.log order.scopeId f.sourceEventId) {k : ℕ} (hk : 8 ≤ k)
    (hsplits : ∀ e ∈ recording, Splits k (reportedFee e))
    (hgrid : AmountsOnGrid k l₁.log order.scopeId)
    (hsmall : magnitude l₁.log order.scopeId * 10 ^ k < 10 ^ 28) {eventId : String}
    {batches : List (List ExecutionEvent)}
    (hreplays : ∀ batch ∈ batches, ∀ e ∈ batch, Replays order f event.occurredAt eventId e)
    (hclear : RunMeets H (FeeClear H k f) order.scopeId l₁ batches) :
    ∃ l₂, applyBatches H l₁ order.scopeId batches = .ok l₂ ∧
      FeeConverged order.scopeId f l₁ l₂ (lastPositive f.fee (batches.flatten.map reportedFee)) := by
  have hsplit : (f.allocations.map (·.fee)).sum = f.fee :=
    (recorded_split hk (applyExecutionEvents_applies (fun row hrow n hn => by
      rw [readNotice_reportedFee hn]
      exact hsplits _ hrow) hrecord) hrecorded hp).resolve_left hnew
  have hreach₁ : Reachable H l₁ := (hreach.tail (.apply hrecord)).trans hlater
  obtain ⟨hmem, _⟩ := mem_log_of_stored hstored
  obtain ⟨hq, hfee, hw, hbooked⟩ := hreach₁.feesBooked.recorded event hmem f hp
  rw [hscope] at hbooked
  have hstart : FeeRun k order event f l₁ f.fee l₁ := by
    refine ⟨horder, hreach₁.sound, hstored, ?_, (hbooked hunrevised).trans hsplit, hfee, hgrid, hsmall,
      rfl, rfl⟩
    have hnil : l₁.log.filterMap (Event.feeDeltaOf order.scopeId f.sourceEventId) = [] :=
      List.filterMap_eq_nil_iff.mpr hunrevised
    simp [currentFee, hnil]
  obtain ⟨l₂, hl₂, hrun⟩ := applyBatches_run H (FeeClear H k f) order.scopeId
    (fun fee l => FeeRun k order event f l₁ fee l)
    (fun fee batch => lastPositive fee (batch.map reportedFee))
    (fun batch => ∀ e ∈ batch, Replays order f event.occurredAt eventId e)
    (fun hinv hbatch hmeets => applyBatch_feeRun hinv hk hp hq hw hbatch hmeets) hstart hreplays hclear
  have hfold : ∀ (batches : List (List ExecutionEvent)) (fee : ℚ), batches.foldl
      (fun fee batch => lastPositive fee (batch.map reportedFee)) fee =
      lastPositive fee (batches.flatten.map reportedFee) := by
    intro batches
    induction batches with
    | nil => intro fee; rfl
    | cons batch batches ih =>
      intro fee
      rw [List.foldl_cons, ih, List.flatten_cons, List.map_append, lastPositive_append]
  rw [hfold] at hrun
  obtain ⟨hfees, hcash⟩ := balances_exact hrun.grid hrun.small
  refine ⟨l₂, hl₂, hrun.portfolio, hrun.sleeves, ?_, ?_⟩
  · have := hrun.fees
    rw [feesApart, hrun.sleeves] at this
    rw [hfees]
    linarith
  · have := hrun.cash
    rw [cashApart, hrun.sleeves] at this
    rw [hcash]
    linarith

/-! ### Two histories -/

/-- The first execution of the sample order, recorded with a fee of one. -/
def sampleRecording : List ExecutionEvent := [sampleReport "fill-2" 2 (.number 1) "PARTIAL"]

def sampleReplay (fee : ℚ) : ExecutionEvent := sampleReport "fill-2" 2 (.number fee) "PARTIAL"

/-- The sample order with its first execution recorded. -/
def sampleRecorded : Result (Ledger × OrderRow × Ledger × Event × BrokerFill) := do
  let l ← sampleScope
  let targets ← sampleTargets
  let plan ← samplePlan targets
  let (l₀, _) ← recordAcceptedOrder sampleHashes l plan "order-1" "" (.stamp 0)
  let order ← orRaise (.key "order") (l₀.orderOf plan.scopeId "order-1")
  let (l₁, _) ← applyExecutionEvents sampleHashes l₀ order.scopeId.val sampleRecording
  let event ← orRaise (.key "event") (l₁.stored (fillId plan.scopeId ⟨"fill-2", by decide⟩))
  match event.payload with
  | .brokerFill f => pure (l₀, order, l₁, event, f)
  | _ => .error (.key "fill")

/-- A fee of zero, two revisions and a repetition. -/
def sampleReplays : List (List ExecutionEvent) :=
  [[sampleReplay 0, sampleReplay 2], [sampleReplay 3, sampleReplay 3]]

theorem sampleReplays_converge : ∃ f l₁ l₂ scopeId, FeeConverged scopeId f l₁ l₂ 3 := by
  obtain ⟨⟨l₀, order, l₁, event, f⟩, hs, horder, hnew, hmem, hstored, hscope, hun, hsplits, hgrid,
      hsmall, hreplays, hclear, hlast⟩ : ∃ s, sampleRecorded = .ok s ∧ s.2.1 ∈ s.2.2.1.orders ∧
      s.2.2.2.1 ∉ s.1.log ∧ s.2.2.2.1 ∈ s.2.2.1.log ∧
      s.2.2.1.stored (fillId s.2.1.scopeId s.2.2.2.2.sourceEventId) = some s.2.2.2.1 ∧
      s.2.2.2.1.scopeId = s.2.1.scopeId ∧
      Unrevised s.2.2.1.log s.2.1.scopeId s.2.2.2.2.sourceEventId ∧
      (∀ e ∈ sampleRecording, Splits 8 (reportedFee e)) ∧
      AmountsOnGrid 8 s.2.2.1.log s.2.1.scopeId ∧
      magnitude s.2.2.1.log s.2.1.scopeId * 10 ^ 8 < 10 ^ 28 ∧
      (∀ batch ∈ sampleReplays, ∀ e ∈ batch,
        Replays s.2.1 s.2.2.2.2 s.2.2.2.1.occurredAt "fill-2" e) ∧
      RunMeets sampleHashes (FeeClear sampleHashes 8 s.2.2.2.2) s.2.1.scopeId s.2.2.1
        sampleReplays ∧
      lastPositive s.2.2.2.2.fee (sampleReplays.flatten.map reportedFee) = 3 := by
    decide +kernel
  simp only [sampleRecorded, bind_eq_ok, orRaise_eq_ok] at hs
  obtain ⟨l, hl, targets, -, plan, -, ⟨l₀', created⟩, haccept, order', horder', ⟨l₁', report⟩, hrecord,
    event', -, hs⟩ := hs
  split at hs
  case h_2 => cases hs
  case h_1 f' hp =>
    obtain ⟨rfl, rfl, rfl, rfl, rfl⟩ : l₀' = l₀ ∧ order' = order ∧ l₁' = l₁ ∧ event' = event ∧ f' = f := by
      simpa [pure_eq_ok] using hs
    obtain ⟨l₂, _, h⟩ := late_fees_converge
      ((Relation.ReflTransGen.single (.registerScope hl)).tail (.accept haccept))
      hrecord .refl horder hnew hmem hstored hscope hp hun le_rfl hsplits hgrid hsmall
      hreplays hclear
    exact ⟨f', l₁', l₂, order'.scopeId, hlast ▸ h⟩

/-- The transition from one to two comes twice, and the second time it is taken
for a replay of the first: the last word of the broker is two, the books say one. -/
theorem revisited_transition_is_lost :
    ∃ s, sampleRecorded = .ok s ∧ ∃ l₂,
      applyBatches sampleHashes s.2.2.1 s.2.1.scopeId
        [[sampleReplay 2], [sampleReplay 1], [sampleReplay 2]] = .ok l₂ ∧
      (∀ e ∈ [sampleReplay 2, sampleReplay 1, sampleReplay 2],
        Replays s.2.1 s.2.2.2.2 s.2.2.2.1.occurredAt "fill-2" e) ∧
      lastPositive s.2.2.2.2.fee ([sampleReplay 2, sampleReplay 1, sampleReplay 2].map reportedFee) = 2 ∧
      currentFee l₂.log s.2.1.scopeId s.2.2.2.2.sourceEventId s.2.2.2.2.fee = 1 ∧
      sleeveFees l₂.log s.2.1.scopeId s.2.2.2.2.sourceEventId = 1 ∧
      (balances l₂ s.2.1.scopeId).1.fees = 1 := by
  decide +kernel

end LiveTrader.Portfolio
