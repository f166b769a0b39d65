/-
# `OrderTruth.Listed` — orders at work are on the list

`Meets` says which steps lose no order, and `Sound` what every such step keeps: a dispatched order
that has not ended is on the list or its submission is under way, and no two records of a list or
of a checkpoint are of one order.  Here are the steps of a submission and the poll; restarts are in
`OrderTruth.Restarts`.
-/
import LiveTrader.OrderTruth.System
import LiveTrader.LiveOrders.Terminal

namespace LiveTrader.OrderTruth

open Lib Lib.Py Lib.Runs
open LiveOrders (Env Oms Managed World Untouched setState localState applyExecutionEvents text_str)

variable {env : Env} {oms : Oms}

/-! ## What is claimed -/

/-- The record names the order. -/
def Identified (order : Fields) (id key : String) : Prop :=
  order.at "order_id" = .str id ∧ order.at "idempotency_key" = .str key

/-- `o` is at least as far as `p`: no fill and no fee is taken back, and no end. -/
structure NotBehind (env : Env) (p o : Fields) : Prop where
  filled : env.safeFloat (p.at "filled_quantity") ≤ env.safeFloat (o.at "filled_quantity")
  fee : env.safeFloat (p.at "fee") ≤ env.safeFloat (o.at "fee")
  ended : isWorking env p = false → isWorking env o = false

/-- A restart takes no order back, and has the orders that only the journal knows. -/
structure Faithful (env : Env) (r : Restored) : Prop where
  notBehind : ∀ o ∈ r.orders, ∀ p ∈ r.checkpoint, orderIdOf env p = orderIdOf env o → NotBehind env p o
  journalOnly : ∀ row ∈ r.journal, (∀ p ∈ r.checkpoint, orderIdOf env p ≠ row.orderId) →
    dispatchOrderFromRow env row ∈ r.orders

/-- The order of a row is on the list, unless it has ended or its submission is under way. -/
def OnList (s : State) (row : Row) : Prop :=
  row.orderId ∈ s.ended ∨ (s.flights row.orderId).isSome = true ∨
    ∃ o ∈ s.orders, Identified o row.orderId row.idempotencyKey

/-! ## The condition -/

/-- The orders that a restart knows: those of the journal, and the others of the checkpoint. -/
def known (env : Env) (checkpoint : List Fields) (journal : List Row) : List Fields :=
  journal.map (dispatchOrderFromRow env) ++
    checkpoint.filter fun p => orderIdOf env p ∉ journal.map (·.orderId)

/-- Of the orders that a restart knows, no more than fifty were updated as late as this one. -/
def IsRecent (env : Env) (checkpoint : List Fields) (journal : List Row) (row : Row) : Prop :=
  (known env checkpoint journal).countP
    (fun o => recency env (dispatchOrderFromRow env row) ≤ recency env o) ≤ 50

/-- What is asked of a restart. -/
structure Restorable (env : Env) (s : State) (checkpoint : List Fields) (readable : Bool) : Prop where
  readable : readable = true
  /-- The restart reads five thousand rows. -/
  rows : s.journal.length ≤ 5000
  /-- An order that is at work, or that only the journal knows, is among the fifty. -/
  recent : ∀ row ∈ s.journal,
    row.orderId ∉ s.ended ∨ (∀ p ∈ checkpoint, orderIdOf env p ≠ row.orderId) → IsRecent env checkpoint s.journal row
  /-- The journal is not behind the checkpoint. -/
  notBehind : ∀ p ∈ checkpoint, ∀ row ∈ s.journal, orderIdOf env p = row.orderId →
    NotBehind env p (dispatchOrderFromRow env row)

/-- The steps that lose no order. -/
def Meets (env : Env) (s : State) : Label → Prop
  -- the fiftieth order, which the new one pushes off the list, is at work only where it was not sent
  | .publish _ _ => ∀ o ∈ s.orders.drop 49, isWorking env o = true → ∀ row ∈ s.journal, row.orderId ≠ orderIdOf env o
  | .abort id => ∀ flight, s.flights id = some flight → isWorking env flight.order = true →
      ∀ row ∈ s.journal, row.orderId ≠ id
  | .restore loaded readable => Restorable env s (((s.loaded loaded).map (·.orders)).getD []) readable
  | _ => True

/-! ## The invariant -/

/-- A row, as it is made. -/
structure Row.Sound (row : Row) (issued : List String) : Prop where
  issued : row.orderId ∈ issued
  orderId : row.orderId ≠ ""
  idempotencyKey : row.idempotencyKey ≠ ""
  order : Identified row.order row.orderId row.idempotencyKey

/-- A submission that is under way. -/
structure Flight.Sound (env : Env) (issued : List String) (journal : List Row) (orders : List Fields) (id : String)
    (flight : Flight) : Prop where
  issued : id ∈ issued
  orderId : id ≠ "" ∧ strip id = id
  order : ∃ key, Identified flight.order id key ∧ key ≠ "" ∧ strip key = key ∧
    ∀ row ∈ journal, row.orderId = id → row.idempotencyKey = key
  /-- The order is not on the list yet. -/
  unlisted : ∀ o ∈ orders, orderIdOf env o ≠ id

/-- A list of orders with one record for each. -/
structure Distinct (env : Env) (issued : List String) (orders : List Fields) : Prop where
  nodup : (orders.map (orderIdOf env)).Nodup
  issued : ∀ o ∈ orders, orderIdOf env o ∈ issued ∧ orderIdOf env o ≠ ""

structure Sound (env : Env) (s : State) : Prop where
  rows : ∀ row ∈ s.journal, row.Sound s.issued
  distinctRows : (s.journal.map (·.orderId)).Nodup
  flights : ∀ id flight, s.flights id = some flight →
    flight.Sound env s.issued s.journal s.orders id
  orders : Distinct env s.issued s.orders
  checkpoints : ∀ c ∈ s.checkpoints, Distinct env s.issued c.orders
  /-- A terminal order of the list is known to have ended. -/
  ended : ∀ o ∈ s.orders, isWorking env o = false → orderIdOf env o ∈ s.ended
  down : s.up = false → ∀ id, s.flights id = none
  listed : s.up = true → ∀ row ∈ s.journal, OnList s row
  faithful : ∀ r ∈ s.restores, Faithful env r

/-! ## Records -/

theorem Identified.orderIdOf (env : Env) {order : Fields} {id key : String} (h : Identified order id key) :
    orderIdOf env order = id := by
  rw [OrderTruth.orderIdOf, h.1, text_str]

theorem Identified.keyOf (env : Env) {order : Fields} {id key : String} (h : Identified order id key) :
    keyOf env order = key := by
  rw [OrderTruth.keyOf, h.2, text_str]

theorem Identified.put {order : Fields} {id key : String} (h : Identified order id key) {field : String}
    (hfield : field ∉ identityKeys) (value : Json) : Identified (order.put field value) id key := by
  have hid : "order_id" ≠ field := fun heq => hfield (heq ▸ by decide)
  have hkey : "idempotency_key" ≠ field := fun heq => hfield (heq ▸ by decide)
  exact ⟨(Fields.at_put_ne order hid value).trans h.1, (Fields.at_put_ne order hkey value).trans h.2⟩

theorem Identified.setState {order : Fields} {id key : String} (h : Identified order id key)
    (state queueState reason : String) : Identified (setState order state queueState reason) id key :=
  ((h.put (by decide) _).put (by decide) _).put (by decide) _

theorem Identified.update {order : Fields} {id key : String} (h : Identified order id key) {patch : Fields}
    (hpatch : patch.all (fun e => e.1 ∉ identityKeys) = true) : Identified (update order patch) id key := by
  induction patch generalizing order with
  | nil => exact h
  | cons e patch ih =>
    rw [List.all_cons, Bool.and_eq_true] at hpatch
    exact ih (h.put (of_decide_eq_true hpatch.1) e.2) hpatch.2

theorem identified_newOrder (id key : String) (rest : Fields) : Identified (newOrder id key rest) id key :=
  ⟨(Fields.at_put_ne _ (by decide) _).trans (Fields.at_put _ _ _), Fields.at_put _ _ _⟩

theorem Identified.pending {order : Fields} {id key : String} (h : Identified order id key) (brokerId : String)
    (request : Json) (now : String) : Identified (pendingOrder order brokerId request now) id key :=
  (((h.put (by decide) _).put (by decide) _).setState _ _ _).put (by decide) _

theorem Row.Sound.record {row : Row} {issued : List String} (h : row.Sound issued) (env : Env) :
    Identified (dispatchOrderFromRow env row) row.orderId row.idempotencyKey :=
  ⟨at_dispatchOrderFromRow h.order.1 (by simp only [ne_eq, reduceCtorEq, not_false_eq_true]) (by decide) (by decide),
    at_dispatchOrderFromRow h.order.2 (by simp only [ne_eq, reduceCtorEq, not_false_eq_true]) (by decide) (by decide)⟩

/-! ## The journal -/

variable {s : State} {id : String} {order : Fields}

theorem checkpointOrderDispatch_created {journal journal' : List Row} {key now : String}
    (hidentified : Identified order id key) (hid : id ≠ "" ∧ strip id = id) (hkey : key ≠ "" ∧ strip key = key)
    (h : checkpointOrderDispatch env journal order now = .ok (true, journal')) :
    (∀ row ∈ journal, row.orderId ≠ id) ∧
      ∃ row, journal' = journal ++ [row] ∧ row.orderId = id ∧ row.idempotencyKey = key ∧ row.order = order := by
  simp only [checkpointOrderDispatch, bind, Except.bind, require, hidentified.orderIdOf env, hidentified.keyOf env,
    hid.2, hkey.2] at h
  split at h
  · exact absurd h (by simp only [reduceCtorEq, not_false_eq_true])
  · split at h
    · simp only [pure, Except.pure, Except.ok.injEq, Prod.mk.injEq, Bool.false_eq_true, false_and] at h
    · next hnew =>
      simp only [pure, Except.pure, Except.ok.injEq, Prod.mk.injEq, true_and] at h
      refine ⟨fun row hrow heq => hnew ?_, _, h.symm, rfl, rfl, rfl⟩
      exact List.any_eq_true.mpr ⟨row, hrow, Bool.or_eq_true _ _ |>.mpr (.inl (decide_eq_true heq))⟩

theorem updateOrderDispatch_rows (env : Env) (journal : List Row) {key : String} (now : String) (hidentified : Identified order id key)
    (hid : id ≠ "" ∧ strip id = id) (hkey : key ≠ "" ∧ strip key = key) :
    ∃ f : Row → Row, (updateOrderDispatch env journal order now).2 = journal.map f ∧
      ∀ row, (f row).orderId = row.orderId ∧ (f row).idempotencyKey = row.idempotencyKey ∧
        ((f row).order = row.order ∨ (row.orderId = id ∧ row.idempotencyKey = key ∧ (f row).order = order)) := by
  rw [updateOrderDispatch]
  simp only [hidentified.orderIdOf env, hidentified.keyOf env, hid.2, hkey.2]
  rw [if_neg (not_or.mpr ⟨hid.1, hkey.1⟩)]
  refine ⟨_, rfl, fun row => ?_⟩
  split
  · next howns =>
    obtain ⟨horder, hkeys⟩ := Bool.and_eq_true _ _ |>.mp howns
    exact ⟨rfl, rfl, .inr ⟨of_decide_eq_true horder, of_decide_eq_true hkeys, rfl⟩⟩
  · exact ⟨rfl, rfl, .inl rfl⟩

/-! ## Submissions -/

theorem Row.Sound.mono {row : Row} {issued issued' : List String} (h : row.Sound issued) (hsub : issued ⊆ issued') :
    row.Sound issued' :=
  { h with issued := hsub h.issued }

theorem Distinct.mono {issued issued' : List String} {orders : List Fields} (h : Distinct env issued orders)
    (hsub : issued ⊆ issued') : Distinct env issued' orders :=
  { h with issued := fun o ho => ⟨hsub (h.issued o ho).1, (h.issued o ho).2⟩ }

/-- A submission does not see what happens to others. -/
theorem Flight.Sound.keep {issued issued' : List String} {journal journal' : List Row} {orders orders' : List Fields}
    {flight : Flight} (h : flight.Sound env issued journal orders id) (hissued : issued ⊆ issued')
    (hjournal : ∀ row ∈ journal', row.orderId = id → ∃ row' ∈ journal, row'.orderId = id ∧
      row'.idempotencyKey = row.idempotencyKey)
    (horders : ∀ o ∈ orders', orderIdOf env o = id → ∃ o' ∈ orders, orderIdOf env o' = id) :
    flight.Sound env issued' journal' orders' id := by
  obtain ⟨key, hidentified, hkey, hstrip, hrows⟩ := h.order
  refine ⟨hissued h.issued, h.orderId, ⟨key, hidentified, hkey, hstrip, fun row hrow hid => ?_⟩, fun o ho heq => ?_⟩
  · obtain ⟨row', hrow', hid', hsame⟩ := hjournal row hrow hid
    exact hsame ▸ hrows row' hrow' hid'
  · obtain ⟨o', ho', hid'⟩ := horders o ho heq
    exact h.unlisted o' ho' hid'

theorem flights_setFlight (s : State) (id id' : String) (flight : Option Flight) :
    (s.setFlight id flight).flights id' = if id' = id then flight else s.flights id' :=
  Function.update_apply ..

/-- The order of a row stays accounted for when a submission changes. -/
theorem OnList.setFlight {row : Row} (h : OnList s row) (id : String) (flight : Flight) :
    OnList (s.setFlight id (some flight)) row := by
  rcases h with hended | hflies | hlisted
  · exact .inl hended
  · refine .inr (.inl ?_)
    rw [flights_setFlight]
    split
    · rfl
    · exact hflies
  · exact .inr (.inr hlisted)

/-- A submission goes on with another record of its order. -/
theorem Sound.setFlight (h : Sound env s) {flight flight' : Flight} (hflight : s.flights id = some flight)
    (hsame : ∀ key, Identified flight.order id key → Identified flight'.order id key) :
    Sound env (s.setFlight id (some flight')) := by
  have hflying := h.flights id flight hflight
  refine { h with
    flights := fun id' flight'' hflight'' => ?_
    down := fun hdown => ?_
    listed := fun hup row hrow => (h.listed hup row hrow).setFlight id flight' }
  · rw [flights_setFlight] at hflight''
    split at hflight''
    · next heq =>
      subst heq
      obtain rfl := Option.some.inj hflight''
      obtain ⟨key, hidentified, hkey, hstrip, hrows⟩ := hflying.order
      exact ⟨hflying.issued, hflying.orderId, ⟨key, hsame key hidentified, hkey, hstrip, hrows⟩, hflying.unlisted⟩
    · exact h.flights id' flight'' hflight''
  · exact absurd ((h.down hdown id).symm.trans hflight) (by simp only [reduceCtorEq, not_false_eq_true])

theorem Sound.blocked (h : Sound env s) : Sound env { s with newEntriesBlocked := true } :=
  { h with flights := h.flights, listed := h.listed }

/-- A new submission, of an order whose id was not drawn before. -/
theorem Sound.submit (h : Sound env s) {key : String} (rest : Fields) (hup : s.up = true)
    (hid : id ≠ "" ∧ strip id = id ∧ id ∉ s.issued) (hkey : key ≠ "" ∧ strip key = key) :
    Sound env ({ s with issued := id :: s.issued }.setFlight id (some ⟨newOrder id key rest, .made⟩)) := by
  have hsub : s.issued ⊆ id :: s.issued := List.subset_cons_self ..
  refine { h with
    rows := fun row hrow => (h.rows row hrow).mono hsub
    flights := fun id' flight hflight => ?_
    orders := h.orders.mono hsub
    checkpoints := fun c hc => (h.checkpoints c hc).mono hsub
    down := fun hdown => absurd (hup.symm.trans hdown) (by decide)
    listed := fun _ row hrow => ?_ }
  · rw [flights_setFlight] at hflight
    split at hflight
    · next heq =>
      subst heq
      obtain rfl := Option.some.inj hflight
      refine ⟨List.mem_cons_self, ⟨hid.1, hid.2.1⟩, ⟨key, identified_newOrder _ _ _, hkey.1, hkey.2, ?_⟩, ?_⟩
      · intro row hrow heq
        exact absurd (heq ▸ (h.rows row hrow).issued) hid.2.2
      · intro o ho heq
        exact absurd (heq ▸ (h.orders.issued o ho).1) hid.2.2
    · exact (h.flights id' flight hflight).keep hsub (fun row hrow hid' => ⟨row, hrow, hid', rfl⟩)
        fun o ho hid' => ⟨o, ho, hid'⟩
  · exact OnList.setFlight (s := { s with issued := id :: s.issued }) (h.listed hup row hrow) id _

theorem Sound.save (h : Sound env s) {c : Checkpoint} (hc : Distinct env s.issued c.orders) :
    Sound env { s with checkpoints := c :: s.checkpoints } := by
  refine { h with checkpoints := fun c' hc' => ?_, flights := h.flights }
  rcases List.mem_cons.mp hc' with rfl | hc'
  · exact hc
  · exact h.checkpoints c' hc'

theorem Sound.mirror (h : Sound env s) {key : String} (hidentified : Identified order id key)
    (hissued : id ∈ s.issued) (hid : id ≠ "") : Sound env (s.mirror env order) := by
  have horder := hidentified.orderIdOf env
  refine h.save ⟨?_, fun o ho => ?_⟩
  · refine List.Nodup.sublist ((List.take_sublist 50 _).map _) ?_
    rw [List.map_cons, List.nodup_cons]
    refine ⟨fun hmem => ?_, h.orders.nodup.sublist (List.filter_sublist.map _)⟩
    obtain ⟨o, ho, heq⟩ := List.mem_map.mp hmem
    exact of_decide_eq_true (List.mem_filter.mp ho).2 heq
  · rcases List.mem_cons.mp (List.mem_of_mem_take ho) with rfl | ho
    · rw [horder]
      exact ⟨hissued, hid⟩
    · exact h.orders.issued o (List.mem_filter.mp ho).1

/-- **The checkpoint of a dispatch.** -/
theorem Sound.dispatch (h : Sound env s) {flight : Flight} (hflight : s.flights id = some flight)
    (hsame : ∀ key, Identified flight.order id key → Identified order id key) (now : String) (failed mirrored : Bool) :
    Sound env (s.dispatch env id order now failed mirrored) := by
  have hclosed : ∀ state reason, Sound env (s.setFlight id
      (some ⟨setState order state "held" reason, .closed⟩)) := fun state reason =>
    h.setFlight hflight fun key hkey => (hsame key hkey).setState _ _ _
  rw [State.dispatch]
  split
  · exact h.setFlight hflight fun key hkey => (hsame key hkey).setState _ _ _
  · exact h.setFlight hflight fun key hkey => (hsame key hkey).setState _ _ _
  · next journal' hok =>
    split at hok
    · exact absurd hok (by simp only [reduceCtorEq, not_false_eq_true])
    · obtain ⟨hissued, hid, ⟨key, hidentified, hkey, hstrip, hrows⟩, hunlisted⟩ := h.flights id flight hflight
      have hidentified' := hsame key hidentified
      obtain ⟨hnew, row, rfl, hrowId, hrowKey, hrowOrder⟩ :=
        checkpointOrderDispatch_created hidentified' hid ⟨hkey, hstrip⟩ hok
      have hrow : row.Sound s.issued :=
        ⟨hrowId ▸ hissued, hrowId ▸ hid.1, hrowKey ▸ hkey, hrowOrder ▸ hrowId ▸ hrowKey ▸ hidentified'⟩
      -- the state with the row, and the submission waiting for its outcome
      have hdispatching : Sound env ({ s with journal := s.journal ++ [row] }.setFlight id (some ⟨order, .dispatching⟩)) := by
        refine { h with
          rows := fun row' hrow' => ?_
          distinctRows := ?_
          flights := fun id' flight' hflight' => ?_
          down := fun hdown => ?_
          listed := fun hup row' hrow' => ?_ }
        · rcases List.mem_append.mp hrow' with hrow' | hrow'
          · exact h.rows row' hrow'
          · exact List.mem_singleton.mp hrow' ▸ hrow
        · show ((s.journal ++ [row]).map (·.orderId)).Nodup
          rw [List.map_append, List.nodup_append]
          refine ⟨h.distinctRows, List.nodup_singleton _, fun a ha b hb heq => ?_⟩
          obtain ⟨row', hrow', rfl⟩ := List.mem_map.mp ha
          exact hnew row' hrow' (heq.trans ((List.mem_singleton.mp hb).trans hrowId))
        · rw [flights_setFlight] at hflight'
          split at hflight'
          · next heq =>
            subst heq
            obtain rfl := Option.some.inj hflight'
            refine ⟨hissued, hid, ⟨key, hidentified', hkey, hstrip, fun row' hrow' heq => ?_⟩, hunlisted⟩
            rcases List.mem_append.mp hrow' with hrow' | hrow'
            · exact hrows row' hrow' heq
            · exact List.mem_singleton.mp hrow' ▸ hrowKey
          · next hne =>
            refine (h.flights id' flight' hflight').keep (List.Subset.refl _) (fun row' hrow' heq => ?_)
              fun o ho heq => ⟨o, ho, heq⟩
            rcases List.mem_append.mp hrow' with hrow' | hrow'
            · exact ⟨row', hrow', heq, rfl⟩
            · exact absurd (heq.symm.trans (List.mem_singleton.mp hrow' ▸ hrowId)) hne
        · exact absurd ((h.down hdown id).symm.trans hflight) (by simp only [reduceCtorEq, not_false_eq_true])
        · rcases List.mem_append.mp hrow' with hrow' | hrow'
          · exact OnList.setFlight (s := { s with journal := s.journal ++ [row] }) (h.listed hup row' hrow') id _
          · obtain rfl := List.mem_singleton.mp hrow'
            refine .inr (.inl ?_)
            rw [flights_setFlight, if_pos hrowId]
            rfl
      have hmirrored := hdispatching.mirror hidentified' hissued hid.1
      cases mirrored with
      | true => exact hmirrored
      | false => exact hdispatching

/-- The journal with other contents of its rows. -/
theorem Sound.rewrite (h : Sound env s) {f : Row → Row}
    (hf : ∀ row ∈ s.journal, (f row).orderId = row.orderId ∧ (f row).idempotencyKey = row.idempotencyKey ∧
      Identified (f row).order row.orderId row.idempotencyKey) : Sound env { s with journal := s.journal.map f } := by
  refine { h with
    rows := fun row hrow => ?_
    distinctRows := ?_
    flights := fun id flight hflight => ?_
    listed := fun hup row hrow => ?_ }
  · obtain ⟨row₀, hrow₀, rfl⟩ := List.mem_map.mp hrow
    obtain ⟨hid, hkey, hidentified⟩ := hf row₀ hrow₀
    have hsound := h.rows row₀ hrow₀
    exact ⟨hid ▸ hsound.issued, hid ▸ hsound.orderId, hkey ▸ hsound.idempotencyKey, hid ▸ hkey ▸ hidentified⟩
  · have hids : (s.journal.map f).map (·.orderId) = s.journal.map (·.orderId) := by
      rw [List.map_map]
      exact List.map_congr_left fun row hrow => (hf row hrow).1
    show ((s.journal.map f).map (·.orderId)).Nodup
    rw [hids]
    exact h.distinctRows
  · refine (h.flights id flight hflight).keep (List.Subset.refl _) (fun row hrow hid => ?_) fun o ho heq => ⟨o, ho, heq⟩
    obtain ⟨row₀, hrow₀, rfl⟩ := List.mem_map.mp hrow
    obtain ⟨hsame, hkey, -⟩ := hf row₀ hrow₀
    exact ⟨row₀, hrow₀, hsame.symm.trans hid, hkey.symm⟩
  · obtain ⟨row₀, hrow₀, rfl⟩ := List.mem_map.mp hrow
    obtain ⟨hsame, hkey, -⟩ := hf row₀ hrow₀
    have hlisted := h.listed hup row₀ hrow₀
    rw [OnList] at hlisted ⊢
    rw [hsame, hkey]
    exact hlisted

/-- **The outcome of a dispatch.** -/
theorem Sound.settle (h : Sound env s) {flight : Flight} (hflight : s.flights id = some flight)
    (hsame : ∀ key, Identified flight.order id key → Identified order id key) (now : String) (written raised : Bool) :
    Sound env (s.settle env id order now written raised) := by
  obtain ⟨-, hid, ⟨key, hidentified, hkey, hstrip, -⟩, -⟩ := h.flights id flight hflight
  have hidentified' := hsame key hidentified
  -- the row of the order is written, or it is as it was
  obtain ⟨saved, f, hresult, hf⟩ : ∃ saved, ∃ f : Row → Row,
      (if written then updateOrderDispatch env s.journal order now else (false, s.journal)) = (saved, s.journal.map f) ∧
      ∀ row, (f row).orderId = row.orderId ∧ (f row).idempotencyKey = row.idempotencyKey ∧
        ((f row).order = row.order ∨ (row.orderId = id ∧ row.idempotencyKey = key ∧ (f row).order = order)) := by
    cases written with
    | true =>
      obtain ⟨f, hrows', hf⟩ := updateOrderDispatch_rows env s.journal now hidentified' hid ⟨hkey, hstrip⟩
      refine ⟨(updateOrderDispatch env s.journal order now).1, f, ?_, hf⟩
      rw [if_pos rfl, ← hrows']
    | false => exact ⟨false, fun row => row, Prod.ext rfl (List.map_id _).symm, fun row => ⟨rfl, rfl, .inl rfl⟩⟩
  have hwritten : Sound env { s with journal := s.journal.map f } := by
    refine h.rewrite fun row hrow => ?_
    obtain ⟨hrowId, hrowKey, horder⟩ := hf row
    refine ⟨hrowId, hrowKey, ?_⟩
    rcases horder with hkept | ⟨rfl, rfl, hwrite⟩
    · exact hkept ▸ (h.rows row hrow).order
    · exact hwrite ▸ hidentified'
  rw [State.settle, hresult]
  dsimp only
  split
  · exact hwritten.setFlight hflight hsame
  · exact hwritten.blocked.setFlight hflight fun key hkey => (hsame key hkey).setState _ _ _

/-! ## The list -/

/-- **The last part of a submission.**  Its order comes first, and the fiftieth of the others leaves
the list. -/
theorem Sound.publish (h : Sound env s) {flight : Flight} (hflight : s.flights id = some flight)
    (hsame : ∀ key, Identified flight.order id key → Identified order id key)
    (hdrop : ∀ o ∈ s.orders.drop 49, isWorking env o = true → ∀ row ∈ s.journal, row.orderId ≠ orderIdOf env o) :
    Sound env ((s.publish env id order).note env) := by
  obtain ⟨hissued, hid, ⟨key, hidentified, -, -, hrows⟩, hunlisted⟩ := h.flights id flight hflight
  have hidentified' := hsame key hidentified
  have horder := hidentified'.orderIdOf env
  refine { h with
    flights := fun id' flight' hflight' => ?_
    orders := ⟨?_, fun o ho => ?_⟩
    ended := fun o ho hends => ?_
    down := fun hdown => ?_
    listed := fun hup row hrow => ?_ }
  · have hfly : (s.setFlight id none).flights id' = some flight' := hflight'
    rw [flights_setFlight] at hfly
    split at hfly
    · exact absurd hfly (by simp only [reduceCtorEq, not_false_eq_true])
    · next hne =>
      have hother := h.flights id' flight' hfly
      refine { hother with unlisted := fun o ho heq => ?_ }
      rcases List.mem_cons.mp (List.mem_of_mem_take ho) with rfl | ho
      · exact hne (heq.symm.trans horder)
      · exact hother.unlisted o ho heq
  · refine List.Nodup.sublist ((List.take_sublist 50 _).map _) ?_
    rw [List.map_cons, List.nodup_cons]
    refine ⟨fun hmem => ?_, h.orders.nodup⟩
    obtain ⟨o, ho, heq⟩ := List.mem_map.mp hmem
    exact hunlisted o ho (heq.trans horder)
  · rcases List.mem_cons.mp (List.mem_of_mem_take ho) with rfl | ho
    · rw [horder]
      exact ⟨hissued, hid.1⟩
    · exact h.orders.issued o ho
  · refine List.mem_append_left _ (List.mem_map.mpr ⟨o, List.mem_filter.mpr ⟨ho, ?_⟩, rfl⟩)
    rw [hends]
    rfl
  · exact absurd ((h.down hdown id).symm.trans hflight) (by simp only [reduceCtorEq, not_false_eq_true])
  · rcases h.listed hup row hrow with hended | hflies | ⟨o, ho, hlisted⟩
    · exact .inl (List.mem_append_right _ hended)
    · by_cases heq : row.orderId = id
      · have hfirst : order ∈ (order :: s.orders).take 50 := List.mem_cons_self
        exact .inr (.inr ⟨order, hfirst, heq ▸ hrows row hrow heq ▸ hidentified'⟩)
      · refine .inr (.inl ?_)
        have hfly : (s.setFlight id none).flights row.orderId = s.flights row.orderId := by
          rw [flights_setFlight, if_neg heq]
        exact (congrArg Option.isSome hfly).trans hflies
    · rw [← List.take_append_drop 49 s.orders] at ho
      rcases List.mem_append.mp ho with ho | ho
      · exact .inr (.inr ⟨o, List.mem_cons_of_mem _ ho, hlisted⟩)
      · -- the order leaves the list
        have hname := hlisted.orderIdOf env
        cases hworks : isWorking env o with
        | true => exact absurd hname.symm (hdrop o ho hworks row hrow)
        | false => exact .inl (List.mem_append_right _ (hname ▸ h.ended o (List.mem_of_mem_drop ho) hworks))

/-- **A submission that ends with an exception.** -/
theorem Sound.abort (h : Sound env s) (hlost : ∀ flight, s.flights id = some flight → isWorking env flight.order = true →
      ∀ row ∈ s.journal, row.orderId ≠ id) : Sound env (s.abort env id) := by
  refine { h with
    flights := fun id' flight hflight => ?_
    ended := fun o ho hends => ?_
    down := fun hdown id' => ?_
    listed := fun hup row hrow => ?_ }
  · have hfly : (s.setFlight id none).flights id' = some flight := hflight
    rw [flights_setFlight] at hfly
    split at hfly
    · exact absurd hfly (by simp only [reduceCtorEq, not_false_eq_true])
    · exact h.flights id' flight hfly
  · show orderIdOf env o ∈ if _ then id :: s.ended else s.ended
    split
    · exact List.mem_cons_of_mem _ (h.ended o ho hends)
    · exact h.ended o ho hends
  · show (s.setFlight id none).flights id' = none
    rw [flights_setFlight]
    split
    · rfl
    · exact h.down hdown id'
  · have hmono : ∀ {x}, x ∈ s.ended → x ∈ (s.abort env id).ended := by
      intro x hx
      show x ∈ if _ then id :: s.ended else s.ended
      split
      · exact List.mem_cons_of_mem _ hx
      · exact hx
    rcases h.listed hup row hrow with hended | hflies | hlisted
    · exact .inl (hmono hended)
    · by_cases heq : row.orderId = id
      · obtain ⟨flight, hflight⟩ := Option.isSome_iff_exists.mp hflies
        rw [heq] at hflight
        cases hworks : isWorking env flight.order with
        | true => exact absurd heq (hlost flight hflight hworks row hrow)
        | false =>
          refine .inl ?_
          show row.orderId ∈ if ((s.flights id).any fun flight => !isWorking env flight.order) = true then id :: s.ended
            else s.ended
          rw [hflight, Option.any_some, hworks, heq]
          exact List.mem_cons_self
      · refine .inr (.inl ?_)
        show ((s.setFlight id none).flights row.orderId).isSome = true
        rw [flights_setFlight, if_neg heq]
        exact hflies
    · exact .inr (.inr hlisted)

/-- What identifies an order. -/
def identity (order : Fields) : Json × Json := (order.at "order_id", order.at "idempotency_key")

theorem identity_of_untouched {o o' : Fields} (h : Untouched o o') : identity o' = identity o :=
  Prod.ext (h "order_id" (by decide)) (h "idempotency_key" (by decide))

theorem map_identity_stamped (orders : List Fields) (times : List (Option String)) :
    (State.stamped orders times).map identity = orders.map identity := by
  induction orders generalizing times with
  | nil =>
    rw [State.stamped]
    exact fun _ _ _ _ h => absurd h (by simp only [reduceCtorEq, not_false_eq_true])
  | cons order orders ih =>
    cases times with
    | nil =>
      rw [State.stamped]
      exact fun _ _ _ _ _ h => absurd h (by simp only [reduceCtorEq, not_false_eq_true])
    | cons now times =>
      have hstamp : identity (State.stamp order now) = identity order := by
        cases now with
        | none => rfl
        | some now => exact Prod.ext (Fields.at_put_ne order (by decide) _) (Fields.at_put_ne order (by decide) _)
      rw [State.stamped, List.map_cons, List.map_cons, hstamp, ih]

/-- **A poll.**  The records change, and the orders are the same. -/
theorem Sound.poll (h : Sound env s) {orders : List Fields} (hsame : orders.map identity = s.orders.map identity) :
    Sound env ({ s with orders }.note env) := by
  have hids : orders.map (orderIdOf env) = s.orders.map (orderIdOf env) := by
    have hmap := congrArg (List.map fun e : Json × Json => env.text e.1) hsame
    rw [List.map_map, List.map_map] at hmap
    exact hmap
  have hback : ∀ o ∈ orders, ∃ o' ∈ s.orders, orderIdOf env o' = orderIdOf env o := by
    intro o ho
    have hmem : orderIdOf env o ∈ s.orders.map (orderIdOf env) := hids ▸ List.mem_map_of_mem ho
    exact List.mem_map.mp hmem
  refine { h with
    flights := fun id flight hflight => ?_
    orders := ⟨?_, fun o ho => ?_⟩
    ended := fun o ho hends => ?_
    listed := fun hup row hrow => ?_ }
  · refine (h.flights id flight hflight).keep (List.Subset.refl _) (fun row hrow heq => ⟨row, hrow, heq, rfl⟩) fun o ho heq => ?_
    obtain ⟨o', ho', hsame'⟩ := hback o ho
    exact ⟨o', ho', hsame'.trans heq⟩
  · show (orders.map (orderIdOf env)).Nodup
    rw [hids]
    exact h.orders.nodup
  · obtain ⟨o', ho', hsame'⟩ := hback o ho
    exact hsame' ▸ h.orders.issued o' ho'
  · refine List.mem_append_left _ (List.mem_map.mpr ⟨o, List.mem_filter.mpr ⟨ho, ?_⟩, rfl⟩)
    rw [hends]
    rfl
  · rcases h.listed hup row hrow with hended | hflies | ⟨o, ho, hlisted⟩
    · exact .inl (List.mem_append_right _ hended)
    · exact .inr (.inl hflies)
    · have hmem : identity o ∈ orders.map identity := hsame ▸ List.mem_map_of_mem ho
      obtain ⟨o', ho', heq⟩ := List.mem_map.mp hmem
      exact .inr (.inr ⟨o', ho', (congrArg Prod.fst heq).trans hlisted.1, (congrArg Prod.snd heq).trans hlisted.2⟩)

theorem Sound.crash (h : Sound env s) : Sound env s.crash :=
  { h with
    flights := fun _ _ hflight => absurd hflight (by simp only [State.crash, reduceCtorEq, not_false_eq_true])
    orders := ⟨List.nodup_nil, fun _ ho => absurd ho List.not_mem_nil⟩
    ended := fun _ ho => absurd ho List.not_mem_nil
    down := fun _ _ => rfl
    listed := fun hup => absurd hup (by simp only [State.crash, Bool.false_eq_true, not_false_eq_true]) }

end LiveTrader.OrderTruth
