/-
# `LiveOrders.Exact` — cumulative reports over a sequence of events

The events of one order, in any order and with repeats, report points of one fill history.  In
every run of events that add nothing beyond what is booked, or a fill that is booked, the order
is at the latest point that was reported, its managed order with it, and the quantities written
back into the events sum up to it (`exact_of_run`).

A canceled snapshot is applied without its fill, and the fill is written into the event
(`sample_canceled_fill_dropped`).
-/
import LiveTrader.LiveOrders.Watermark
import LiveTrader.LiveOrders.Terminal

namespace LiveTrader.LiveOrders

open Lib Lib.Py Lib.Runs

variable {env : Env} {oms : Oms} {points : Set Amounts} {i : ℕ}

/-! ## Events and what they leave -/

/-- The orders, and of the events of one order the quantities that were written back into them and
the points that they reported. -/
structure Tally where
  world : World
  written : ℚ := 0
  reports : List Amounts := []

namespace Tally

/-- What is booked of the order. -/
def position (env : Env) (i : ℕ) (t : Tally) : Position := positionOf env (t.world.order i)

/-- The managed order of the order. -/
def managed (env : Env) (i : ℕ) (t : Tally) : Option Managed := t.world.managedOf env (t.world.order i)

end Tally

/-- One event of the loop of `apply_execution_events_to_local_orders`. -/
def tally (env : Env) (oms : Oms) (i : ℕ) (t : Tally) (event : Fields) : Option Tally :=
  match applyEvent env oms t.world event with
  | (w, .ok (event', _)) =>
    if t.world.target env event = some i then
      some ⟨w, t.written + env.safeFloat (event'.at "quantity"), reported env event :: t.reports⟩
    else some { t with world := w }
  | (w, .error _) => some { t with world := w }

/-- The event adds nothing, or a fill that is booked: it names a fill state, it adds what lies
between the amounts, and the managed order, if any, takes it. -/
def Fits (env : Env) (oms : Oms) (i : ℕ) (w : World) (event : Fields) : Prop :=
  let order := w.order i
  let b := (positionOf env order).amounts
  let p := reported env event
  p.quantity ≤ b.quantity ∧ p.fee ≤ b.fee ∨
    stateName env event ∈ fillStates ∧ b.quantity < p.quantity ∧ AddsDifference env event b ∧
      (w.managedOf env order).all fun m =>
        decide ((fillManaged oms m (brokerOrderIdOf env event order) (difference b p)).2 = none)

/-- An event about the order reports a point of the history, and fits. -/
def Meets (env : Env) (oms : Oms) (points : Set Amounts) (i : ℕ) (t : Tally) (event : Fields) : Prop :=
  t.world.target env event = some i → Reports env points event ∧ Fits env oms i t.world event

/-! ## What holds between the events -/

/-- The order as it is made: nothing is filled, and there is room for the whole history. -/
structure Fresh (env : Env) (points : Set Amounts) (w : World) (i : ℕ) : Prop where
  holds : Holds env (w.order i) (w.managedOf env (w.order i)) .zero
  room : ∀ m, w.managedOf env (w.order i) = some m → ∀ p ∈ points, p.quantity ≤ m.quantity
  alone : Alone env w i

/-- The accounting of the order is exact. -/
structure Exact (env : Env) (i : ℕ) (t : Tally) : Prop where
  /-- The amounts are those of a point that was reported. -/
  reached : (t.position env i).amounts = .zero ∨ (t.position env i).amounts ∈ t.reports
  /-- No report goes beyond it. -/
  largest : ∀ p ∈ t.reports, p.quantity ≤ (t.position env i).quantity ∧ p.fee ≤ (t.position env i).fee
  /-- The managed order says the same. -/
  agrees : ∀ m, t.managed env i = some m → m.position = t.position env i
  /-- Nothing is written twice, and nothing is left out. -/
  written : t.written = (t.position env i).quantity

/-- What every event keeps: the accounting, and what it rests on. -/
structure Accounted (env : Env) (points : Set Amounts) (i : ℕ) (t : Tally) : Prop where
  exact : Exact env i t
  reports : ∀ p ∈ t.reports, p ∈ points
  average : 0 ≤ (t.position env i).average
  room : ∀ m, t.managed env i = some m → ∀ p ∈ points, p.quantity ≤ m.quantity
  alone : Alone env t.world i

variable {t : Tally} {event : Fields}

theorem Accounted.point (hhistory : History points) (h : Accounted env points i t) : (t.position env i).amounts ∈ points := by
  rcases h.exact.reached with hzero | hreported
  · exact hzero ▸ hhistory.zero
  · exact h.reports _ hreported

/-- Nothing that is booked is negative. -/
theorem Accounted.nonneg (hhistory : History points) (h : Accounted env points i t) :
    0 ≤ (t.position env i).quantity ∧ 0 ≤ (t.position env i).average ∧ 0 ≤ (t.position env i).fee := by
  have hfirst := hhistory.first _ (h.point hhistory)
  exact ⟨hfirst.quantity_le, h.average, hfirst.1⟩

theorem Accounted.holds (h : Accounted env points i t) (event : Fields) :
    Holds env (addressed env t.world event i) (t.world.managedOf env (addressed env t.world event i))
      (t.position env i) := by
  rw [managedOf_addressed]
  exact ⟨positionOf_identified .., h.exact.agrees⟩

/-! ## One event of the order -/

/-- What an event with an increment does to the order, and what is written back into it. -/
theorem applyEvent_of_increment (oms : Oms) {w : World} {inc : Increment} (htarget : w.target env event = some i)
    (hinc : executionEventIncrement env event (addressed env w event i) (w.managedOf env (addressed env w event i)) = .ok inc)
    (huses : usesCumulativeWatermark env event = .ok true) :
    (applyState env oms (addressed env w event i) (w.managedOf env (addressed env w event i)) (stateName env event)
        (brokerOrderIdOf env event (w.order i)) (eventIdOf env event) inc = none ∧
      applyEvent env oms w event = (w.setOrder i (addressed env w event i), .ok (reportIncrement env event inc, false))) ∨
    ∃ order' managed', applyState env oms (addressed env w event i) (w.managedOf env (addressed env w event i))
        (stateName env event) (brokerOrderIdOf env event (w.order i)) (eventIdOf env event) inc = some (order', managed') ∧
      applyEvent env oms w event = ((w.setOrder i (conclude order' managed' (eventIdOf env event))).setManaged
        (omsOrderId env (addressed env w event i)) managed', .ok (reportIncrement env event inc, true)) := by
  unfold addressed at hinc ⊢
  cases hstate : applyState env oms (identified (w.order i) (brokerOrderIdOf env event (w.order i)))
      (w.managedOf env (identified (w.order i) (brokerOrderIdOf env event (w.order i)))) (stateName env event)
      (brokerOrderIdOf env event (w.order i)) (eventIdOf env event) inc with
  | none =>
    refine .inl ⟨rfl, ?_⟩
    unfold applyEvent
    simp only [htarget, hinc, huses, hstate, if_true]
  | some result =>
    refine .inr ⟨result.1, result.2, rfl, ?_⟩
    unfold applyEvent
    simp only [htarget, hinc, huses, hstate, if_true]
    rfl

theorem quantity_reportIncrement (hexact : env.Exact) (event : Fields) (inc : Increment) :
    env.safeFloat ((reportIncrement env event inc).at "quantity") = inc.quantity := by
  rw [reportIncrement, Fields.at_put_ne _ (by decide), Fields.at_put_ne _ (by decide), Fields.at_put_ne _ (by decide),
    Fields.at_put, safeFloat_float hexact]

/-- **The order after an event of its own**, where every branch leaves it and its managed order with
the amounts `b`. -/
theorem holds_applyEvent (oms : Oms) {w : World} {inc : Increment} {b : Position} (htarget : w.target env event = some i)
    (hinc : executionEventIncrement env event (addressed env w event i) (w.managedOf env (addressed env w event i)) = .ok inc)
    (huses : usesCumulativeWatermark env event = .ok true)
    (hnone : applyState env oms (addressed env w event i) (w.managedOf env (addressed env w event i)) (stateName env event)
      (brokerOrderIdOf env event (w.order i)) (eventIdOf env event) inc = none →
      Holds env (addressed env w event i) (w.managedOf env (addressed env w event i)) b)
    (hsome : ∀ {order' managed'}, applyState env oms (addressed env w event i)
        (w.managedOf env (addressed env w event i)) (stateName env event) (brokerOrderIdOf env event (w.order i))
        (eventIdOf env event) inc = some (order', managed') →
      Holds env order' managed' b ∧ SameTotal (w.managedOf env (addressed env w event i)) managed') :
    ∃ w' counted, applyEvent env oms w event = (w', .ok (reportIncrement env event inc, counted)) ∧
      Holds env (w'.order i) (w'.managedOf env (w'.order i)) b ∧
      SameTotal (w.managedOf env (w.order i)) (w'.managedOf env (w'.order i)) := by
  have hi := World.target_lt htarget
  rcases applyEvent_of_increment oms htarget hinc huses with ⟨hstate, happly⟩ | ⟨order', managed', hstate, happly⟩
  · refine ⟨_, _, happly, ?_⟩
    have horder : (w.setOrder i (addressed env w event i)).order i = addressed env w event i := by
      rw [World.order_setOrder hi, if_pos rfl]
    have hmanaged : (w.setOrder i (addressed env w event i)).managedOf env (addressed env w event i) =
        w.managedOf env (addressed env w event i) := rfl
    rw [horder, hmanaged]
    exact ⟨hnone hstate, congrArg (Option.map _) (managedOf_addressed env w event i)⟩
  · refine ⟨_, _, happly, ?_⟩
    obtain ⟨hholds, htotal⟩ := hsome hstate
    obtain ⟨hlinked, hkept⟩ := keepsLink_of_applyState hstate
    have hid : omsOrderId env (conclude order' managed' (eventIdOf env event)) =
        omsOrderId env (addressed env w event i) := (hlinked.conclude managed' _).omsOrderId
    have horder : ((w.setOrder i (conclude order' managed' (eventIdOf env event))).setManaged
        (omsOrderId env (addressed env w event i)) managed').order i = conclude order' managed' (eventIdOf env event) := by
      rw [World.order_setManaged, World.order_setOrder hi, if_pos rfl]
    have hmanaged : ((w.setOrder i (conclude order' managed' (eventIdOf env event))).setManaged
        (omsOrderId env (addressed env w event i)) managed').managedOf env
          (conclude order' managed' (eventIdOf env event)) = managed' := by
      rw [World.managedOf_setManaged]
      cases managed' with
      | some m => exact if_pos ⟨rfl, hid⟩
      | none =>
        rw [if_neg fun h => absurd h.1 (by decide)]
        have hwas : w.managedOf env (addressed env w event i) = none :=
          Option.isNone_iff_eq_none.mp (Option.isSome_eq_false_iff.mp hkept.symm)
        exact (World.managedOf_congr hid).trans hwas
    rw [horder, hmanaged]
    rw [managedOf_addressed] at htotal
    exact ⟨⟨(positionOf_conclude ..).trans hholds.order, hholds.managed⟩, htotal⟩

/-- The order has gone on to the amounts `b`, by the quantity of the increment. -/
structure Follows (env : Env) (i : ℕ) (t : Tally) (event : Fields) (w' : World) (inc : Increment) (b : Position) : Prop where
  holds : Holds env (w'.order i) (w'.managedOf env (w'.order i)) b
  total : SameTotal (t.managed env i) (w'.managedOf env (w'.order i))
  quantity : b.quantity = (t.position env i).quantity + inc.quantity
  average : 0 ≤ b.average
  /-- The report of the event does not go beyond. -/
  covers : (reported env event).quantity ≤ b.quantity ∧ (reported env event).fee ≤ b.fee
  grows : (t.position env i).quantity ≤ b.quantity ∧ (t.position env i).fee ≤ b.fee
  point : b = t.position env i ∨ b.amounts = reported env event

/-- **The order after an event that fits.** -/
theorem follows_of_fits (hexact : env.Exact) (hcounts : oms.Counts) (hhistory : History points)
    (h : Accounted env points i t) (htarget : t.world.target env event = some i) (hreports : Reports env points event)
    (hfits : Fits env oms i t.world event) :
    ∃ w' counted inc b, applyEvent env oms t.world event = (w', .ok (reportIncrement env event inc, counted)) ∧
      Follows env i t event w' inc b := by
  have hholds := h.holds event
  have hnonneg := h.nonneg hhistory
  rcases hfits with ⟨hquantity, hfee⟩ | ⟨hname, hlt, hadds, htaken⟩
  · obtain ⟨inc, hinc, hzero⟩ := increment_of_behind hexact hreports hholds hnonneg hquantity
    have hquiet : inc.isFill = false := by
      rw [Increment.isFill, hzero]
      rfl
    obtain ⟨w', counted, happly, hafter, htotal⟩ := holds_applyEvent oms htarget hinc hreports.uses (fun _ => hholds)
      (holds_of_quiet hexact hcounts hholds hquiet)
    refine ⟨w', counted, inc, t.position env i, happly, hafter, htotal, ?_, h.average, ⟨hquantity, hfee⟩,
      ⟨le_rfl, le_rfl⟩, .inl rfl⟩
    rw [hzero, add_zero]
  · have hreach := hhistory.reaches (h.point hhistory) hreports.point hlt
    have hinc := increment_of_ahead hexact hreports hholds hnonneg hreach hlt hadds
    have hfill := isFill_difference hreach hlt
    have hroom : ∀ m, t.world.managedOf env (addressed env t.world event i) = some m →
        (t.position env i).quantity + (difference (t.position env i).amounts (reported env event)).quantity ≤ m.quantity := by
      intro m hm
      rw [managedOf_addressed] at hm
      have hbound := h.room m hm _ hreports.point
      show (t.position env i).quantity + ((reported env event).quantity - (t.position env i).quantity) ≤ m.quantity
      linarith
    have htaken : ∀ m, t.world.managedOf env (addressed env t.world event i) = some m →
        (fillManaged oms m (brokerOrderIdOf env event (t.world.order i))
          (difference (t.position env i).amounts (reported env event))).2 = none := by
      intro m hm
      rw [managedOf_addressed] at hm
      rw [hm, Option.all_some] at htaken
      exact of_decide_eq_true htaken
    obtain ⟨w', counted, happly, hafter, htotal⟩ := holds_applyEvent oms htarget hinc hreports.uses
      (fun hnone => by
        rw [applyState, if_pos ⟨hname, .inl hfill⟩] at hnone
        exact absurd hnone (by simp only [reduceCtorEq, not_false_eq_true]))
      (holds_of_advance hexact hcounts hholds hname hfill hroom htaken)
    have hpoint := difference_reaches hnonneg.1 hlt
    have hquantity := congrArg Amounts.quantity hpoint
    have hfee := congrArg Amounts.fee hpoint
    have haverage := average_nonneg (hhistory.first _ hreports.point) hpoint (hnonneg.1.trans_lt hlt)
    exact ⟨w', counted, _, _, happly, hafter, htotal, rfl, haverage, ⟨hquantity.ge, hfee.ge⟩,
      ⟨hlt.le.trans hquantity.ge, hreach.1.trans hfee.ge⟩, .inr hpoint⟩

/-! ## Runs -/

/-- **What an event keeps.** -/
theorem Accounted.step (hexact : env.Exact) (hcounts : oms.Counts) (hhistory : History points)
    (h : Accounted env points i t) {t' : Tally} (hmeets : Meets env oms points i t event)
    (hstep : tally env oms i t event = some t') : Accounted env points i t' := by
  by_cases htarget : t.world.target env event = some i
  · obtain ⟨hreports, hfits⟩ := hmeets htarget
    obtain ⟨w', counted, inc, b, happly, hfollows⟩ := follows_of_fits hexact hcounts hhistory h htarget hreports hfits
    rw [tally, happly] at hstep
    dsimp only at hstep
    rw [if_pos htarget] at hstep
    obtain rfl := Option.some.inj hstep
    have hposition : Tally.position env i ⟨w', t.written + env.safeFloat ((reportIncrement env event inc).at "quantity"),
        reported env event :: t.reports⟩ = b := hfollows.holds.order
    refine ⟨⟨?_, ?_, ?_, ?_⟩, ?_, ?_, ?_, ?_⟩
    · rw [hposition]
      rcases hfollows.point with hsame | hpoint
      · rw [hsame]
        exact h.exact.reached.imp_right (List.mem_cons_of_mem _)
      · exact .inr (hpoint ▸ List.mem_cons_self)
    · rw [hposition]
      intro p hp
      rcases List.mem_cons.mp hp with rfl | hp
      · exact hfollows.covers
      · obtain ⟨hquantity, hfee⟩ := h.exact.largest p hp
        exact ⟨hquantity.trans hfollows.grows.1, hfee.trans hfollows.grows.2⟩
    · rw [hposition]
      exact hfollows.holds.managed
    · rw [hposition, hfollows.quantity, ← h.exact.written, quantity_reportIncrement hexact]
    · intro p hp
      rcases List.mem_cons.mp hp with rfl | hp
      · exact hreports.point
      · exact h.reports p hp
    · rw [hposition]
      exact hfollows.average
    · intro m' hm' p hp
      obtain ⟨m, hm, hquantity⟩ := Option.map_eq_some_iff.mp (hfollows.total.symm.trans (congrArg (Option.map _) hm'))
      exact (h.room m hm p hp).trans hquantity.le
    · have hlinks := sameLinks_applyEvent env oms t.world event
      rw [happly] at hlinks
      refine h.alone.keep hlinks fun hsome => ?_
      have htotal := congrArg Option.isSome hfollows.total
      rw [Option.isSome_map, Option.isSome_map] at htotal
      exact htotal.symm.trans hsome
  · obtain ⟨horder, hmanaged⟩ := unchanged_of_other env oms h.alone htarget
    have hlinks := sameLinks_applyEvent env oms t.world event
    have hsame : t'.world = (applyEvent env oms t.world event).1 ∧ t'.written = t.written ∧ t'.reports = t.reports := by
      unfold tally at hstep
      split at hstep
      · next w event' counted happly =>
        rw [if_neg htarget] at hstep
        obtain rfl := Option.some.inj hstep
        rw [happly]
        exact ⟨rfl, rfl, rfl⟩
      · next w e happly =>
        obtain rfl := Option.some.inj hstep
        rw [happly]
        exact ⟨rfl, rfl, rfl⟩
    obtain ⟨hworld, hwritten, hreports⟩ := hsame
    have hposition : t'.position env i = t.position env i := by
      rw [Tally.position, hworld, horder, Tally.position]
    have hmanaged : t'.managed env i = t.managed env i := by
      rw [Tally.managed, hworld, horder, hmanaged, Tally.managed]
    refine ⟨⟨?_, ?_, ?_, ?_⟩, ?_, ?_, ?_, ?_⟩
    · rw [hposition, hreports]
      exact h.exact.reached
    · rw [hposition, hreports]
      exact h.exact.largest
    · rw [hposition, hmanaged]
      exact h.exact.agrees
    · rw [hposition, hwritten]
      exact h.exact.written
    · rw [hreports]
      exact h.reports
    · rw [hposition]
      exact h.average
    · rw [hmanaged]
      exact h.room
    · rw [hworld]
      refine h.alone.keep hlinks fun hsome => ?_
      rw [← hworld] at hsome
      exact (congrArg Option.isSome hmanaged).symm.trans hsome

theorem Fresh.accounted {w : World} (h : Fresh env points w i) : Accounted env points i ⟨w, 0, []⟩ := by
  have hposition : Tally.position env i ⟨w, 0, []⟩ = .zero := h.holds.order
  refine ⟨⟨?_, fun p hp => absurd hp List.not_mem_nil, ?_, ?_⟩, fun p hp => absurd hp List.not_mem_nil, ?_, h.room, h.alone⟩
  · rw [hposition]
    exact .inl Position.amounts_zero
  · rw [hposition]
    exact h.holds.managed
  · rw [hposition]
    rfl
  · rw [hposition]
    exact le_rfl

/-- **Every sequence of events.**  The events about the order report points of one fill history and
add nothing beyond what is booked or a fill that is booked.  Then the order and its managed order
are at the latest point that was reported, and the quantities written back sum up to it. -/
theorem exact_of_run (hexact : env.Exact) (hcounts : oms.Counts) (hhistory : History points) (i : ℕ) {w : World}
    (hfresh : Fresh env points w i) {events : List Fields} {t : Tally}
    (h : Run (tally env oms i) (Meets env oms points i) ⟨w, 0, []⟩ events t) : Exact env i t := by
  have haccounted : Accounted env points i t :=
    h.invariant (fun hmeets hstep hinv => hinv.step hexact hcounts hhistory hmeets hstep) hfresh.accounted
  exact haccounted.exact

/-- The events of a run, with what they leave in the world. -/
theorem tally_of_run (env : Env) (oms : Oms) (i : ℕ) {w w' : World} {events : List Fields}
    (h : Run (LiveOrders.step env oms) Free w events w') (written : ℚ) (reports : List Amounts) :
    ∃ t, Run (tally env oms i) Free ⟨w, written, reports⟩ events t ∧ t.world = w' := by
  induction h generalizing written reports with
  | nil w => exact ⟨_, .nil _, rfl⟩
  | @cons w _ _ event _ _ hstep _ ih =>
    obtain rfl := Option.some.inj hstep
    have htally : ∃ t, tally env oms i ⟨w, written, reports⟩ event = some t ∧ t.world = (applyEvent env oms w event).1 := by
      unfold tally
      dsimp only
      split
      · next w₁ event' counted happly =>
        rw [happly]
        split
        · exact ⟨_, rfl, rfl⟩
        · exact ⟨_, rfl, rfl⟩
      · next w₁ e happly =>
        rw [happly]
        exact ⟨_, rfl, rfl⟩
    obtain ⟨⟨w₁, written₁, reports₁⟩, ht, rfl⟩ := htally
    obtain ⟨t, hrun, hworld⟩ := ih written₁ reports₁
    exact ⟨t, .cons trivial ht hrun, hworld⟩

/-! ## Two sequences -/

instance (event : Fields) (b : Amounts) : Decidable (AddsDifference env event b) :=
  inferInstanceAs (Decidable ((_ ∨ _ ∧ _) ∧ (_ ∨ _)))

instance (w : World) (event : Fields) : Decidable (Fits env oms i w event) :=
  inferInstanceAs (Decidable (_ ∧ _ ∨ _ ∧ _ ∧ AddsDifference _ _ _ ∧ _))

def Env.exactSample : Env := { Env.sample with tolerance := 0 }

theorem exactSample_exact : Env.exactSample.Exact := ⟨rfl, fun _ => rfl⟩

theorem sample_counts : Oms.sample.Counts := by
  refine ⟨fun m _ => ?_, fun m _ => ?_, fun m _ => ?_, fun m _ _ _ => ?_, fun m quantity price fee _ htaken => ?_⟩
  · simp only [Oms.sample]
    split
    · exact ⟨rfl, rfl⟩
    · exact .refl m
  · simp only [Oms.sample]
    split
    · exact .refl m
    · exact ⟨rfl, rfl⟩
  · simp only [Oms.sample]
    split
    · exact ⟨rfl, rfl⟩
    · exact .refl m
  · simp only [Oms.sample]
    split
    · exact .refl m
    · exact ⟨rfl, rfl⟩
  · simp only [Oms.sample] at htaken ⊢
    split at htaken
    · exact absurd htaken (by simp only [reduceCtorEq, not_false_eq_true])
    · next hopen =>
      rw [if_neg hopen]
      exact ⟨rfl, rfl⟩

/-- One unit at 10, and two more at 16. -/
def samplePoints : List Amounts := [.zero, ⟨1, 10, 1⟩, ⟨3, 42, 2⟩]

theorem samplePoints_history : History {p | p ∈ samplePoints} := by
  refine ⟨List.mem_cons_self, fun p hp => ?_, fun p hp q hq => ?_⟩
  · simp only [samplePoints, Set.mem_ofPred_eq, List.mem_cons, List.not_mem_nil, or_false] at hp
    rcases hp with rfl | rfl | rfl <;> norm_num [Amounts.Reaches, Amounts.zero]
  · simp only [samplePoints, Set.mem_ofPred_eq, List.mem_cons, List.not_mem_nil, or_false] at hp hq
    rcases hp with rfl | rfl | rfl <;> rcases hq with rfl | rfl | rfl <;> norm_num [Amounts.Reaches, Amounts.zero]

/-- A report of what is filled so far. -/
def sampleReport (eventId state : String) (quantity price fee : ℤ) : Fields :=
  [("event_id", .str eventId), ("broker_id", .str "upbit"), ("broker_order_id", .str "b"), ("state", .str state),
    ("quantity_mode", .str "cumulative"), ("fee_mode", .str "cumulative"), ("cumulative_quantity", .int quantity),
    ("cumulative_average_price", .int price), ("cumulative_fee", .int fee)]

theorem sampleWorld_fresh : Fresh Env.exactSample {p | p ∈ samplePoints} sampleWorld 0 := by
  have hmanaged : sampleWorld.managedOf Env.exactSample (sampleWorld.order 0) =
      some { status := "ACKNOWLEDGED", quantity := 3 } := rfl
  refine ⟨⟨rfl, fun m hm => ?_⟩, fun m hm p hp => ?_, fun _ j hj hlt => ?_⟩
  · obtain rfl := Option.some.inj (hmanaged.symm.trans hm)
    rfl
  · obtain rfl := Option.some.inj (hmanaged.symm.trans hm)
    simp only [samplePoints, Set.mem_ofPred_eq, List.mem_cons, List.not_mem_nil, or_false] at hp
    rcases hp with rfl | rfl | rfl <;> norm_num [Amounts.zero]
  · exact absurd (Nat.lt_one_iff.mp hlt) hj

/-- What is asked of an event, evaluated. -/
def sampleMeets (t : Tally) (event : Fields) : Bool :=
  t.world.target Env.exactSample event ≠ some 0 ||
    (isGiven (eventContractValue event (rawOf event) "cumulative_quantity") = .ok true &&
      isGiven (eventContractValue event (rawOf event) "cumulative_fee") = .ok true &&
      reported Env.exactSample event ∈ samplePoints &&
      decide (Fits Env.exactSample Oms.sample 0 t.world event))

theorem meets_of_sampleMeets {t : Tally} {event : Fields} (h : sampleMeets t event = true) :
    Meets Env.exactSample Oms.sample {p | p ∈ samplePoints} 0 t event := by
  intro htarget
  rcases Bool.or_eq_true _ _ |>.mp h with hother | h
  · exact absurd htarget (of_decide_eq_true hother)
  · simp only [Bool.and_eq_true, decide_eq_true_eq] at h
    exact ⟨⟨h.1.1.1, h.1.1.2, h.1.2⟩, h.2⟩

/-- A partial fill, the final one, and late and repeated reports of both. -/
theorem exact_of_run_sample : ∃ t, Run (tally Env.exactSample Oms.sample 0) (fun t event => sampleMeets t event = true)
      ⟨sampleWorld, 0, []⟩ [sampleReport "1" "partially_filled" 1 10 1, sampleReport "2" "filled" 3 14 2,
        sampleReport "3" "partially_filled" 1 10 1, sampleReport "4" "canceled" 3 14 2] t ∧
    (t.position Env.exactSample 0 = ⟨3, 14, 2⟩ ∧ t.written = 3) ∧ Exact Env.exactSample 0 t := by
  obtain ⟨t, ht, hposition⟩ : ∃ t, runAll (fun t event => if sampleMeets t event then
        tally Env.exactSample Oms.sample 0 t event else none) ⟨sampleWorld, 0, []⟩
      [sampleReport "1" "partially_filled" 1 10 1, sampleReport "2" "filled" 3 14 2,
        sampleReport "3" "partially_filled" 1 10 1, sampleReport "4" "canceled" 3 14 2] = some t ∧
      t.position Env.exactSample 0 = ⟨3, 14, 2⟩ ∧ t.written = 3 := by
    decide +kernel
  have hrun := run_of_guarded ht
  exact ⟨t, hrun, hposition, exact_of_run exactSample_exact sample_counts samplePoints_history 0 sampleWorld_fresh
    (hrun.weaken fun _ _ h => meets_of_sampleMeets h)⟩

/-- **A fill that comes with the cancel is dropped.**  The snapshot of the canceled order says that
one unit is filled; the event is left with that unit, and the order with none. -/
theorem sample_canceled_fill_dropped : ∃ t, Run (tally Env.exactSample Oms.sample 0)
      (fun _ event => Reports Env.exactSample {p | p ∈ samplePoints} event) ⟨sampleWorld, 0, []⟩
      [sampleReport "1" "canceled" 1 10 1] t ∧
    t.position Env.exactSample 0 = .zero ∧ t.written = 1 ∧ t.reports = [⟨1, 10, 1⟩] ∧ ¬ Exact Env.exactSample 0 t := by
  obtain ⟨t, ht, hposition, hwritten, hreports⟩ : ∃ t, runAll (tally Env.exactSample Oms.sample 0)
        ⟨sampleWorld, 0, []⟩ [sampleReport "1" "canceled" 1 10 1] = some t ∧
      t.position Env.exactSample 0 = .zero ∧ t.written = 1 ∧ t.reports = [⟨1, 10, 1⟩] := by
    decide +kernel
  have hpoint : Reports Env.exactSample {p | p ∈ samplePoints} (sampleReport "1" "canceled" 1 10 1) :=
    ⟨by decide, by decide, by decide +kernel⟩
  refine ⟨t, run_of_runAll (fun event hevent _ => ?_) ht, hposition, hwritten, hreports, fun hexact => ?_⟩
  · obtain rfl := List.mem_singleton.mp hevent
    exact hpoint
  · have hfilled := hexact.written
    rw [hposition, hwritten] at hfilled
    exact absurd hfilled (by decide)

end LiveTrader.LiveOrders
