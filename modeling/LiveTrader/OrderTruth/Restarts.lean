/-
# `OrderTruth.Restarts` — the orders of a restart

A restart has one record for each order, the journal's where it has one.  Where the journal is not
behind the checkpoint and the orders at work are among the fifty that were updated last, it takes
no order back; and in every run of such restarts and of steps that lose no order, a dispatched order
that has not ended is on the list (`truth_of_run`).

Fills are booked in memory only, and a restart prefers the journal: it takes a fill back that the
checkpoint has (`sample_fill_lost`).
-/
import LiveTrader.OrderTruth.Listed

namespace LiveTrader.OrderTruth

open Lib Lib.Py Lib.Runs
open LiveOrders (Env Oms Managed)

variable {env : Env} {oms : Oms} {s : State}

/-! ## The merge -/

/-- The records of a restart: of the orders of a checkpoint and of the journal, the latest fifty. -/
structure Merged (env : Env) (checkpoint : Json) (journal orders : List Fields) : Prop where
  length : orders.length ≤ 50
  sorted : orders.Pairwise (LaterEq (recency env))
  once : (orders.map (orderIdOf env)).Nodup
  /-- An order of the journal has a record of the journal. -/
  newer : ∀ o ∈ orders, orderIdOf env o ∈ journal.map (orderIdOf env) → orderIdOf env o ≠ "" → o ∈ journal
  /-- Where there are fewer than fifty, no order is left out. -/
  whole : orders.length < 50 → ∀ o, o ∈ journal ∨ o ∈ dictItems checkpoint → orderIdOf env o ≠ "" →
    orderIdOf env o ∈ orders.map (orderIdOf env)

/-- **The merge**, whatever the checkpoint and the journal hold. -/
theorem merged_of_any (env : Env) (checkpoint : Json) (journal : List Fields) :
    Merged env checkpoint journal (mergeRecoveredOrders env checkpoint journal) := by
  have hindexed : Dict.Indexed (orderIdOf env) (mergedOrders env checkpoint journal) := (Dict.indexed_nil.index _).index _
  refine ⟨List.length_take_le _ _, pairwise_latest 50, nodup_map_latest (hindexed.map_id ▸ hindexed.nodup), fun o ho hjournal hid => ?_,
    fun hfew o ho hid => ?_⟩
  · obtain ⟨e, he, rfl⟩ := List.mem_map.mp (mem_of_mem_latest ho)
    obtain ⟨item, hitem, -, hlookup⟩ := Dict.exists_lookup_index hjournal hid
    have hfound := Dict.lookup_of_mem hindexed.nodup he
    rw [← hindexed.identifier e he] at hfound
    exact Option.some.inj (hlookup.symm.trans hfound) ▸ hitem
  · obtain ⟨found, hlookup⟩ : ∃ found, (mergedOrders env checkpoint journal).lookup (orderIdOf env o) = some found := by
      by_cases hjournal : orderIdOf env o ∈ journal.map (orderIdOf env)
      · obtain ⟨item, -, -, hlookup⟩ := Dict.exists_lookup_index hjournal hid
        exact ⟨item, hlookup⟩
      · have hcheckpoint := ho.resolve_left fun hmem => hjournal (List.mem_map_of_mem hmem)
        obtain ⟨item, -, -, hlookup⟩ := Dict.exists_lookup_index (List.mem_map_of_mem hcheckpoint) hid
        exact ⟨item, (Dict.lookup_index_of_notMem hjournal).trans hlookup⟩
    have hmem := Dict.mem_of_lookup hlookup
    refine List.mem_map.mpr ⟨found, mem_latest (List.mem_map_of_mem hmem) ?_, hindexed.identifier _ hmem⟩
    -- fewer than fifty are listed, so fewer than fifty are there
    rw [mergeRecoveredOrders, latest, List.length_take, List.length_insertionSort] at hfew
    refine List.countP_le_length.trans ?_
    omega

/-! ## A restart -/

theorem Sound.mem_durable (h : Sound env s) (hrows : s.journal.length ≤ 5000) {item : Fields} :
    item ∈ durableDispatchOrdersForRestore env s.journal true ↔ ∃ row ∈ s.journal, dispatchOrderFromRow env row = item := by
  have hall : latest Row.recency (max 1 5000) s.journal = s.journal.insertionSort (LaterEq Row.recency) :=
    List.take_of_length_le ((List.length_insertionSort _ _).trans_le hrows)
  rw [durableDispatchOrdersForRestore, if_pos rfl, orderDispatchRows, hall, List.mem_filter, List.mem_map]
  constructor
  · rintro ⟨⟨row, hrow, rfl⟩, -⟩
    exact ⟨row, (List.mem_insertionSort _).mp hrow, rfl⟩
  · rintro ⟨row, hrow, rfl⟩
    have hsound := h.rows row hrow
    have hrecord := hsound.record env
    refine ⟨⟨row, (List.mem_insertionSort _).mpr hrow, rfl⟩, Bool.and_eq_true _ _ |>.mpr ⟨?_, ?_⟩⟩
    · rw [hrecord.orderIdOf env]
      exact decide_eq_true hsound.orderId
    · rw [hrecord.keyOf env]
      exact decide_eq_true hsound.idempotencyKey

/-- No two records of the journal are of one order. -/
theorem Sound.nodup_durable (h : Sound env s) :
    ((durableDispatchOrdersForRestore env s.journal true).map (orderIdOf env)).Nodup := by
  have hids : (s.journal.map (dispatchOrderFromRow env)).map (orderIdOf env) = s.journal.map (·.orderId) := by
    rw [List.map_map]
    exact List.map_congr_left fun row hrow => ((h.rows row hrow).record env).orderIdOf env
  rw [durableDispatchOrdersForRestore, if_pos rfl, orderDispatchRows]
  refine List.Nodup.sublist (List.filter_sublist.map _) ?_
  have hperm := ((List.perm_insertionSort (LaterEq Row.recency) s.journal).map (dispatchOrderFromRow env)).map (orderIdOf env)
  rw [hids] at hperm
  have hsorted := hperm.nodup_iff.mpr h.distinctRows
  exact hsorted.sublist (((List.take_sublist _ _).map _).map _)

section restart

variable {checkpoint : List Fields}

/-- The one record of each order. -/
def merged (env : Env) (checkpoint : List Fields) (s : State) : Dict String Fields :=
  mergedOrders env (.arr (checkpoint.map .obj)) (durableDispatchOrdersForRestore env s.journal true)

theorem merged_indexed : Dict.Indexed (orderIdOf env) (merged env checkpoint s) :=
  (Dict.indexed_nil.index _).index _

theorem Sound.lookup_merged (h : Sound env s) (hrows : s.journal.length ≤ 5000) {row : Row} (hrow : row ∈ s.journal) :
    (merged env checkpoint s).lookup row.orderId = some (dispatchOrderFromRow env row) := by
  have hid := ((h.rows row hrow).record env).orderIdOf env
  have hmem := (h.mem_durable hrows).mpr ⟨row, hrow, rfl⟩
  have hlookup := Dict.lookup_index (d := Dict.index (orderIdOf env) [] (dictItems (.arr (checkpoint.map .obj))))
    h.nodup_durable hmem (hid ▸ (h.rows row hrow).orderId)
  rw [hid] at hlookup
  exact hlookup

/-- A record is the journal's, or the checkpoint's of an order that the journal does not have. -/
theorem Sound.mem_merged (h : Sound env s) (hrows : s.journal.length ≤ 5000) {e : String × Fields}
    (he : e ∈ merged env checkpoint s) : (∃ row ∈ s.journal, row.orderId = e.1 ∧ dispatchOrderFromRow env row = e.2) ∨
      (e.2 ∈ checkpoint ∧ e.1 ∉ s.journal.map (·.orderId)) := by
  by_cases hid : e.1 ∈ s.journal.map (·.orderId)
  · obtain ⟨row, hrow, heq⟩ := List.mem_map.mp hid
    have hlookup := Dict.lookup_of_mem merged_indexed.nodup he
    rw [← heq, h.lookup_merged hrows hrow] at hlookup
    exact .inl ⟨row, hrow, heq, Option.some.inj hlookup⟩
  · refine .inr ⟨?_, hid⟩
    rcases Dict.mem_index he with he' | he'
    · rcases Dict.mem_index he' with he'' | he''
      · exact absurd he'' List.not_mem_nil
      · rw [dictItems_obj] at he''
        exact he''
    · obtain ⟨row, hrow, heq⟩ := (h.mem_durable hrows).mp he'
      refine absurd (List.mem_map.mpr ⟨row, hrow, ?_⟩) hid
      rw [← merged_indexed.identifier e he, ← heq]
      exact (((h.rows row hrow).record env).orderIdOf env).symm

/-- **An order that was updated late enough** is on the list. -/
theorem Sound.mem_restored (h : Sound env s) (hrows : s.journal.length ≤ 5000) {row : Row} (hrow : row ∈ s.journal)
    (hrecent : IsRecent env checkpoint s.journal row) : dispatchOrderFromRow env row ∈
      mergeRecoveredOrders env (.arr (checkpoint.map .obj)) (durableDispatchOrdersForRestore env s.journal true) := by
  have hmem : (row.orderId, dispatchOrderFromRow env row) ∈ merged env checkpoint s :=
    Dict.mem_of_lookup (h.lookup_merged hrows hrow)
  refine mem_latest (List.mem_map.mpr ⟨_, hmem, rfl⟩) (le_trans ?_ hrecent)
  refine merged_indexed.countP_le (fun e he => ?_) _
  rcases h.mem_merged hrows he with ⟨row', hrow', -, heq⟩ | ⟨hcheckpoint, hother⟩
  · exact List.mem_append_left _ (heq ▸ List.mem_map_of_mem hrow')
  · refine List.mem_append_right _ (List.mem_filter.mpr ⟨hcheckpoint, decide_eq_true ?_⟩)
    rw [merged_indexed.identifier e he]
    exact hother

/-- **A restart takes no order back.** -/
theorem Sound.faithful_restore (h : Sound env s) (hcheckpoint : Distinct env s.issued checkpoint)
    (hrestorable : Restorable env s checkpoint true) : Faithful env ⟨checkpoint, s.journal,
      mergeRecoveredOrders env (.arr (checkpoint.map .obj)) (durableDispatchOrdersForRestore env s.journal true)⟩ := by
  refine ⟨fun o ho p hp hid => ?_, fun row hrow hother => ?_⟩
  · obtain ⟨e, he, rfl⟩ := List.mem_map.mp (mem_of_mem_latest ho)
    rcases h.mem_merged hrestorable.rows he with ⟨row, hrow, -, heq⟩ | ⟨hmem, -⟩
    · have hrowId : orderIdOf env p = row.orderId := by
        rw [hid, ← heq]
        exact ((h.rows row hrow).record env).orderIdOf env
      exact heq ▸ hrestorable.notBehind p hp row hrow hrowId
    · -- the checkpoint's own record
      obtain rfl := List.inj_on_of_nodup_map hcheckpoint.nodup hp hmem hid
      exact ⟨le_rfl, le_rfl, id⟩
  · exact h.mem_restored hrestorable.rows hrow (hrestorable.recent row hrow (.inr hother))

/-- **A restart.** -/
theorem Sound.restore (h : Sound env s) (hdown : s.up = false) {loaded : Option Checkpoint} {readable : Bool}
    (hcheckpoint : Distinct env s.issued ((loaded.map (·.orders)).getD []))
    (hrestorable : Restorable env s ((loaded.map (·.orders)).getD []) readable) :
    Sound env ((s.restore env loaded readable).note env) := by
  obtain rfl := hrestorable.readable
  have hfaithful := h.faithful_restore hcheckpoint hrestorable
  refine { h with
    flights := fun id flight hflight => ?_
    orders := ⟨?_, fun o ho => ?_⟩
    ended := fun o ho hends => ?_
    down := fun hup => absurd hup (by simp only [State.restore, State.note, Bool.true_eq_false, not_false_eq_true])
    listed := fun _ row hrow => ?_
    faithful := fun r hr => ?_ }
  · exact absurd ((h.down hdown id).symm.trans hflight) (by simp only [reduceCtorEq, not_false_eq_true])
  · have hkeys : (merged env ((loaded.map (·.orders)).getD []) s).map (orderIdOf env ∘ Prod.snd) =
        (merged env ((loaded.map (·.orders)).getD []) s).map Prod.fst := List.map_congr_left merged_indexed.identifier
    refine nodup_map_latest ?_
    rw [List.map_map]
    exact (congrArg List.Nodup hkeys).mpr merged_indexed.nodup
  · obtain ⟨e, he, rfl⟩ := List.mem_map.mp (mem_of_mem_latest ho)
    rcases h.mem_merged hrestorable.rows he with ⟨row, hrow, -, heq⟩ | ⟨hmem, -⟩
    · have hsound := h.rows row hrow
      rw [← heq, (hsound.record env).orderIdOf env]
      exact ⟨hsound.issued, hsound.orderId⟩
    · exact hcheckpoint.issued _ hmem
  · refine List.mem_append_left _ (List.mem_map.mpr ⟨o, List.mem_filter.mpr ⟨ho, ?_⟩, rfl⟩)
    rw [hends]
    rfl
  · by_cases hended : row.orderId ∈ s.ended
    · exact .inl (List.mem_append_right _ hended)
    · have hmem := h.mem_restored hrestorable.rows hrow (hrestorable.recent row hrow (.inl hended))
      exact .inr (.inr ⟨_, hmem, (h.rows row hrow).record env⟩)
  · rcases List.mem_cons.mp hr with rfl | hr
    · exact hfaithful
    · exact h.faithful r hr

end restart

/-! ## Runs -/

theorem State.loaded_mem {k : Option ℕ} {c : Checkpoint} (h : s.loaded k = some c) : c ∈ s.checkpoints := by
  obtain ⟨i, -, hi⟩ := Option.bind_eq_some_iff.mp h
  exact List.mem_of_getElem? hi

/-- **What a step keeps.** -/
theorem Sound.step {label : Label} {s' : State} (h : Sound env s) (hmeets : Meets env s label)
    (hstep : step env oms s label = some s') : Sound env s' := by
  cases label with
  | submit id key rest =>
    obtain ⟨⟨hup, hid, hkey⟩, hs'⟩ := Option.ite_none_right_eq_some.mp hstep
    obtain rfl := Option.some.inj hs'
    exact h.submit rest hup hid hkey
  | dispatch id brokerId request now failed mirrored =>
    simp only [OrderTruth.step] at hstep
    split at hstep
    · next order hflight =>
      obtain rfl := Option.some.inj hstep
      exact h.dispatch hflight (fun key hkey => hkey.pending brokerId request now) now failed mirrored
    · exact absurd hstep (by simp only [reduceCtorEq, not_false_eq_true])
  | settle id patch now written raised =>
    simp only [OrderTruth.step] at hstep
    split at hstep
    · next order hflight =>
      obtain ⟨hpatch, hs'⟩ := Option.ite_none_right_eq_some.mp hstep
      obtain rfl := Option.some.inj hs'
      exact h.settle hflight (fun key hkey => (hkey.update hpatch).put (by decide) _) now written raised
    · exact absurd hstep (by simp only [reduceCtorEq, not_false_eq_true])
  | publish id now =>
    simp only [OrderTruth.step] at hstep
    split at hstep
    · next order phase hflight =>
      obtain ⟨-, hs'⟩ := Option.ite_none_left_eq_some.mp hstep
      obtain rfl := Option.some.inj hs'
      exact h.publish hflight (fun key hkey => hkey.put (by decide) _) hmeets
    · exact absurd hstep (by simp only [reduceCtorEq, not_false_eq_true])
  | abort id =>
    obtain rfl := Option.some.inj hstep
    exact h.abort hmeets
  | save =>
    obtain ⟨-, hs'⟩ := Option.ite_none_right_eq_some.mp hstep
    obtain rfl := Option.some.inj hs'
    exact h.save h.orders
  | poll managed ambiguous known events times =>
    obtain ⟨-, hs'⟩ := Option.ite_none_right_eq_some.mp hstep
    obtain rfl := Option.some.inj hs'
    refine h.poll ((map_identity_stamped _ _).trans ?_)
    exact LiveOrders.map_applyExecutionEvents env oms ⟨s.orders, managed, ambiguous⟩ known events identity_of_untouched
  | crash =>
    obtain rfl := Option.some.inj hstep
    exact h.crash
  | restore loaded readable =>
    obtain ⟨hdown, hs'⟩ := Option.ite_none_left_eq_some.mp hstep
    obtain rfl := Option.some.inj hs'
    refine h.restore (Bool.not_eq_true _ ▸ hdown) ?_ hmeets
    cases hloaded : s.loaded loaded with
    | none => exact ⟨List.nodup_nil, fun _ ho => absurd ho List.not_mem_nil⟩
    | some c => exact h.checkpoints c (State.loaded_mem hloaded)

theorem sound_empty : Sound env {} where
  rows _ hrow := absurd hrow List.not_mem_nil
  distinctRows := List.nodup_nil
  flights _ _ hflight := absurd hflight (by simp only [reduceCtorEq, not_false_eq_true])
  orders := ⟨List.nodup_nil, fun _ ho => absurd ho List.not_mem_nil⟩
  checkpoints _ hc := absurd hc List.not_mem_nil
  ended _ ho := absurd ho List.not_mem_nil
  down _ _ := rfl
  listed _ _ hrow := absurd hrow List.not_mem_nil
  faithful _ hr := absurd hr List.not_mem_nil

/-- What is claimed of a state. -/
structure Truth (env : Env) (s : State) : Prop where
  /-- A dispatched order that has not ended is on the list, with its key. -/
  listed : s.up = true → ∀ row ∈ s.journal, row.orderId ∉ s.ended → s.flights row.orderId = none →
    ∃ o ∈ s.orders, Identified o row.orderId row.idempotencyKey
  faithful : ∀ r ∈ s.restores, Faithful env r

/-- **Every run.**  In a run whose steps lose no order, a dispatched order that has not ended is on
the list once its submission is over, and no restart takes an order back or leaves out one that
only the journal knows. -/
theorem truth_of_run (env : Env) (oms : Oms) {labels : List Label} {s : State}
    (h : Run (OrderTruth.step env oms) (Meets env) {} labels s) : Truth env s := by
  have hsound : Sound env s := h.invariant (fun hmeets hstep hinv => hinv.step hmeets hstep) sound_empty
  refine ⟨fun hup row hrow hended hflight => ?_, hsound.faithful⟩
  rcases hsound.listed hup row hrow with hend | hflies | hlisted
  · exact absurd hend hended
  · exact absurd (hflight ▸ hflies) (by decide)
  · exact hlisted

/-! ## Two runs -/

theorem notBehind_iff {p o : Fields} : (env.safeFloat (p.at "filled_quantity") ≤ env.safeFloat (o.at "filled_quantity") ∧
    env.safeFloat (p.at "fee") ≤ env.safeFloat (o.at "fee") ∧ (isWorking env p = false → isWorking env o = false)) ↔
    NotBehind env p o :=
  ⟨fun h => ⟨h.1, h.2.1, h.2.2⟩, fun h => ⟨h.filled, h.fee, h.ended⟩⟩

instance (p o : Fields) : Decidable (NotBehind env p o) := decidable_of_iff _ notBehind_iff

instance (checkpoint : List Fields) (journal : List Row) (row : Row) : Decidable (IsRecent env checkpoint journal row) :=
  inferInstanceAs (Decidable (_ ≤ _))

theorem restorable_iff {checkpoint : List Fields} {readable : Bool} : (readable = true ∧ s.journal.length ≤ 5000 ∧
    (∀ row ∈ s.journal, row.orderId ∉ s.ended ∨ (∀ p ∈ checkpoint, orderIdOf env p ≠ row.orderId) →
      IsRecent env checkpoint s.journal row) ∧
    ∀ p ∈ checkpoint, ∀ row ∈ s.journal, orderIdOf env p = row.orderId → NotBehind env p (dispatchOrderFromRow env row)) ↔
    Restorable env s checkpoint readable :=
  ⟨fun h => ⟨h.1, h.2.1, h.2.2.1, h.2.2.2⟩, fun h => ⟨h.readable, h.rows, h.recent, h.notBehind⟩⟩

instance (checkpoint : List Fields) (readable : Bool) : Decidable (Restorable env s checkpoint readable) :=
  decidable_of_iff _ restorable_iff

/-- The start, and an order that the broker acknowledges. -/
def sampleStart : List Label :=
  [.restore none true, .submit "o" "k" [("oms_order_id", .str "m")],
    .dispatch "o" "binance" (.obj []) "10:00:00" false true,
    .settle "o" [("state", .str "acknowledged"), ("broker_order_id", .str "b")] "10:00:01" true false,
    .publish "o" "10:00:02"]

/-- A poll that brings a fill of one unit. -/
def samplePoll : Label :=
  .poll [("m", { status := "ACKNOWLEDGED", quantity := 3 })] [] []
    [LiveOrders.sampleEvent "1" "partially_filled" 1] [some "10:00:03"]

/-- What is asked of the steps of a sample, evaluated. -/
def sampleMeets (env : Env) (s : State) : Label → Bool
  | .publish _ _ => (s.orders.drop 49).isEmpty
  | .abort _ => false
  | .restore loaded readable => Restorable env s (((s.loaded loaded).map (·.orders)).getD []) readable
  | _ => true

theorem meets_of_sampleMeets {label : Label} (h : sampleMeets env s label = true) : Meets env s label := by
  cases label with
  | publish id now =>
    intro o ho
    rw [List.isEmpty_iff.mp h] at ho
    exact absurd ho List.not_mem_nil
  | abort id => exact absurd h Bool.false_ne_true
  | restore loaded readable =>
    have hrestorable : decide (Restorable env s (((s.loaded loaded).map (·.orders)).getD []) readable) = true := h
    have hmeets : Restorable env s (((s.loaded loaded).map (·.orders)).getD []) readable := of_decide_eq_true hrestorable
    exact hmeets
  | _ => trivial

/-- A checkpoint, a fill, a crash and a restart. -/
theorem truth_of_run_sample : ∃ s, Run (step .sample .sample) (fun s label => sampleMeets .sample s label = true) {}
      (sampleStart ++ [.save, samplePoll, .crash, .restore (some 0) true]) s ∧
    (s.up = true ∧ s.orders.map (orderIdOf .sample) = ["o"]) ∧ Truth .sample s := by
  obtain ⟨s, hs, hup⟩ : ∃ s, runAll (fun s label => if sampleMeets .sample s label then step .sample .sample s label
        else none) {} (sampleStart ++ [.save, samplePoll, .crash, .restore (some 0) true]) = some s ∧
      s.up = true ∧ s.orders.map (orderIdOf .sample) = ["o"] := by
    decide +kernel
  have hrun := run_of_guarded hs
  exact ⟨s, hrun, hup, truth_of_run .sample .sample (hrun.weaken fun _ _ h => meets_of_sampleMeets h)⟩

/-- **A fill that a restart takes back.**  The checkpoint after the poll has it, and the row of the
journal does not. -/
theorem sample_fill_lost : ∃ s, Run (step .sample .sample) Free {}
      (sampleStart ++ [samplePoll, .save, .crash, .restore (some 0) true]) s ∧
    (∃ r ∈ s.restores, ∃ p ∈ r.checkpoint, ∃ o ∈ r.orders, orderIdOf .sample p = orderIdOf .sample o ∧
      Env.sample.safeFloat (p.at "filled_quantity") = 1 ∧ Env.sample.safeFloat (o.at "filled_quantity") = 0) ∧
    ¬ Truth .sample s := by
  obtain ⟨s, hs, r, hr, p, hp, o, ho, hid, hbefore, hafter⟩ : ∃ s, runAll (step .sample .sample) {}
        (sampleStart ++ [samplePoll, .save, .crash, .restore (some 0) true]) = some s ∧
      ∃ r ∈ s.restores, ∃ p ∈ r.checkpoint, ∃ o ∈ r.orders, orderIdOf .sample p = orderIdOf .sample o ∧
        Env.sample.safeFloat (p.at "filled_quantity") = 1 ∧ Env.sample.safeFloat (o.at "filled_quantity") = 0 := by
    decide +kernel
  refine ⟨s, free_of_runAll hs, ⟨r, hr, p, hp, o, ho, hid, hbefore, hafter⟩, fun htruth => ?_⟩
  have hfilled := ((htruth.faithful r hr).notBehind o ho p hp hid).filled
  rw [hbefore, hafter] at hfilled
  exact absurd hfilled (by decide)

end LiveTrader.OrderTruth
