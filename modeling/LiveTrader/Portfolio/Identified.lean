/-
# `Portfolio.Identified` — event ids over whole runs

In a ledger that calls under `Names.conditions` have built, every event carries the id of its fact (`Labelled`), and so does
every event of a group that a further call hands over (`Fits`).  Ids then identify facts, and the ids of a new fill are free:
what the code asks of a fill is all it takes for the fill to be booked.
-/
import LiveTrader.Portfolio.Facts
import LiveTrader.Portfolio.FillRuns

namespace LiveTrader.Portfolio

open Lib Lib.Py Lib.Decimal Lib.Joined

/-! ## The texts of the ids -/

section texts

variable (s a b c d : String)

theorem order_id : s ++ ":order:" ++ a = join s (join "order" a) := by
  have hword : ":order:" = ":" ++ ("order" ++ ":") := rfl
  simp only [join, hword, String.append_assoc]

theorem cross_id : s ++ ":cross:" ++ a ++ ":portfolio" = join s (join "cross" (join a "portfolio")) := by
  have hword : ":cross:" = ":" ++ ("cross" ++ ":") := rfl
  have hlast : ":portfolio" = ":" ++ "portfolio" := rfl
  simp only [join, hword, hlast, String.append_assoc]

theorem sleeve_cross_id : s ++ ":cross:" ++ a ++ ":" ++ b ++ ":" ++ c = join s (join "cross" (join a (join b c))) := by
  have hword : ":cross:" = ":" ++ ("cross" ++ ":") := rfl
  simp only [join, hword, String.append_assoc]

theorem execution_text : s ++ ":execution:" ++ a = join s (join "execution" a) := by
  have hword : ":execution:" = ":" ++ ("execution" ++ ":") := rfl
  simp only [join, hword, String.append_assoc]

theorem portfolio_id : join s (join "execution" a) ++ ":portfolio" = join s (join "execution" (join a "portfolio")) := by
  have hlast : ":portfolio" = ":" ++ "portfolio" := rfl
  simp only [join, hlast, String.append_assoc]

theorem status_id : join s (join "execution" a) ++ ":status" = join s (join "execution" (join a "status")) := by
  have hlast : ":status" = ":" ++ "status" := rfl
  simp only [join, hlast, String.append_assoc]

theorem sleeve_id : join s (join "execution" a) ++ ":sleeve:" ++ b ++ ":" ++ c =
    join s (join "execution" (join a (join "sleeve" (join b c)))) := by
  have hword : ":sleeve:" = ":" ++ ("sleeve" ++ ":") := rfl
  simp only [join, hword, String.append_assoc]

theorem fee_id : join s (join "execution" a) ++ ":fee-adjustment:" ++ d ++ ":portfolio" =
    join s (join "execution" (join a (join "fee-adjustment" (join d "portfolio")))) := by
  have hword : ":fee-adjustment:" = ":" ++ ("fee-adjustment" ++ ":") := rfl
  have hlast : ":portfolio" = ":" ++ "portfolio" := rfl
  simp only [join, hword, hlast, String.append_assoc]

theorem sleeve_fee_id : join s (join "execution" a) ++ ":fee-adjustment:" ++ d ++ ":sleeve:" ++ b ++ ":" ++ c =
    join s (join "execution" (join a (join "fee-adjustment" (join d (join "sleeve" (join b c)))))) := by
  have hword : ":fee-adjustment:" = ":" ++ ("fee-adjustment" ++ ":") := rfl
  have hsleeve : ":sleeve:" = ":" ++ ("sleeve" ++ ":") := rfl
  simp only [join, hword, hsleeve, String.append_assoc]

theorem reconcile_id : s ++ ":reconcile:" ++ a = join s (join "reconcile" a) := by
  have hword : ":reconcile:" = ":" ++ ("reconcile" ++ ":") := rfl
  simp only [join, hword, String.append_assoc]

end texts

/-! ## Labels -/

/-- An event has the id of its fact. -/
structure Labels (H : Hashes) (N : Names) (log : List Event) (p : String × Fact) : Prop where
  id : p.1 = p.2.id H log
  has : N.Has log p.2

structure Labelled (H : Hashes) (N : Names) (l : Ledger) : Prop where
  facts : ∀ p ∈ factsFrom [] l.log, Labels H N l.log p
  revisions : ∀ scopeId source, ((transitions l.log scopeId source).map H.revision).Nodup
  orders : ∀ row ∈ l.orders, row.scopeId.val ∈ N.scopes ∧ ∀ a ∈ row.allocations, a.sleeveId.val ∈ N.sleeves
  fills : ∀ event ∈ l.log, ∀ f, event.payload = .brokerFill f → ∀ a ∈ f.allocations, a.sleeveId.val ∈ N.sleeves

/-- The events of a group have the ids of their facts behind the log. -/
structure Fits (H : Hashes) (N : Names) (log group : List Event) : Prop where
  facts : ∀ p ∈ factsFrom log group, Labels H N (log ++ group) p
  revisions : ∀ scopeId source, ((transitions (log ++ group) scopeId source).map H.revision).Nodup

section labels

variable {H : Hashes} {N : Names} {l l' : Ledger} {log group : List Event}

theorem factsFrom_append (before log log' : List Event) :
    factsFrom before (log ++ log') = factsFrom before log ++ factsFrom (before ++ log) log' := by
  induction log generalizing before with
  | nil => simp [factsFrom]
  | cons event log ih => simp [factsFrom, ih]

theorem mem_factsFrom {before : List Event} {p : String × Fact} (h : p ∈ factsFrom before log) :
    ∃ done event rest, log = done ++ event :: rest ∧ p = (event.eventId, event.fact (before ++ done)) := by
  induction log generalizing before with
  | nil => cases h
  | cons event log ih =>
    rcases List.mem_cons.mp h with rfl | h
    · exact ⟨[], event, log, rfl, by rw [List.append_nil]⟩
    · obtain ⟨done, event', rest, rfl, rfl⟩ := ih h
      exact ⟨event :: done, event', rest, rfl, by rw [List.append_assoc, List.singleton_append]⟩

theorem exists_mem_factsFrom (before : List Event) {event : Event} (h : event ∈ log) :
    ∃ done, (event.eventId, event.fact done) ∈ factsFrom before log := by
  induction log generalizing before with
  | nil => cases h
  | cons first log ih =>
    rcases List.mem_cons.mp h with rfl | h
    · exact ⟨before, List.mem_cons_self⟩
    · obtain ⟨done, hdone⟩ := ih (before ++ [first]) h
      exact ⟨done, List.mem_cons_of_mem _ hdone⟩

theorem transitions_append (log log' : List Event) (scopeId source : Text) :
    transitions (log ++ log') scopeId source = transitions log scopeId source ++ transitions log' scopeId source :=
  List.filterMap_append

theorem transitions_eq_nil {scopeId source : Text} (h : ∀ event ∈ log, event.transition scopeId source = none) :
    transitions log scopeId source = [] := List.filterMap_eq_nil_iff.mpr h

theorem digest_append {scopeId source : Text} {count : ℕ} (h : count < (transitions log scopeId source).length) :
    digest H (log ++ group) scopeId source count = digest H log scopeId source count := by
  unfold digest
  rw [transitions_append, List.map_append, List.getElem?_append_left (by rwa [List.length_map])]

/-- Ids of recorded facts stay what they are. -/
theorem Names.Has.id_append {f : Fact} (h : N.Has log f) : f.id H (log ++ group) = f.id H log := by
  cases f with
  | cross scopeId planId leg => cases leg <;> rfl
  | execution scopeId brokerOrderId source part =>
    cases part with
    | revision count leg =>
      have hdigest : digest H (log ++ group) scopeId source count = digest H log scopeId source count := digest_append h.2.2.2.1
      simp only [Fact.id, Fact.rest, Part.text, hdigest]
    | _ => rfl
  | _ => rfl

theorem Names.Has.later {f : Fact} (h : N.Has log f) : N.Has (log ++ group) f := by
  cases f with
  | execution scopeId brokerOrderId source part =>
    obtain ⟨hscope, hsource, horder, hpart⟩ := h
    refine ⟨hscope, hsource, horder, ?_⟩
    cases part with
    | revision count leg =>
      refine ⟨?_, hpart.2⟩
      rw [transitions_append, List.length_append]
      exact Nat.lt_add_right _ hpart.1
    | _ => exact hpart
  | _ => exact h

theorem Labels.later {p : String × Fact} (h : Labels H N log p) : Labels H N (log ++ group) p :=
  ⟨h.id.trans h.has.id_append.symm, h.has.later⟩

/-- All entries of a log with a group that fits. -/
theorem Labelled.labels (hl : Labelled H N l) (hfits : Fits H N l.log group) :
    ∀ p ∈ factsFrom [] (l.log ++ group), Labels H N (l.log ++ group) p := by
  intro p hp
  rw [factsFrom_append, List.mem_append] at hp
  rcases hp with hp | hp
  · exact (hl.facts p hp).later
  · exact hfits.facts p hp

theorem Labelled.identifies (hl : Labelled H N l) (hN : N.Apart H) (hH : HexDigests H) (hfits : Fits H N l.log group) :
    Identifies (l.log ++ group) := by
  intro p hp q hq hsame
  obtain ⟨hpid, hphas⟩ := hl.labels hfits p hp
  obtain ⟨hqid, hqhas⟩ := hl.labels hfits q hq
  exact Fact.eq_of_id hH hN hfits.revisions hphas hqhas (hpid ▸ hqid ▸ hsame)

/-- A group without fee revisions fits when each event has the id of its fact. -/
theorem Fits.of_each (hl : Labelled H N l)
    (heach : ∀ event ∈ group, ∀ before, Labels H N (l.log ++ group) (event.eventId, event.fact before))
    (hnone : ∀ event ∈ group, ∀ scopeId source, event.transition scopeId source = none) : Fits H N l.log group := by
  constructor
  · intro p hp
    obtain ⟨done, event, rest, hgroup, rfl⟩ := mem_factsFrom hp
    exact heach event (by rw [hgroup]; simp) _
  · intro scopeId source
    rw [transitions_append, transitions_eq_nil fun event he => hnone event he scopeId source, List.append_nil]
    exact hl.revisions scopeId source

end labels

/-! ## Conditions -/

/-- The transition that a revision to the fee of a notice seals. -/
def revisionOf (scopeId : Text) (n : Notice) (current : ℚ) : Revision :=
  { scopeId, sourceEventId := n.sourceEventId, quantity := n.quantity, price := decimalText n.price
    previousFee := decimalText current, revisedFee := decimalText n.fee }

/-- A revision of a stored fill is none that is recorded already. -/
def NewRevision (H : Hashes) (l : Ledger) (order : OrderRow) (n : Notice) : Prop :=
  ∀ event ∈ l.stored (fillId order.scopeId n.sourceEventId), ∀ stored ∈ event.payload.storedFill,
    (n.fee = 0 ∧ 0 < bookedFee l order n stored) ∨ n.fee = bookedFee l order n stored ∨
      H.revision (revisionOf order.scopeId n (bookedFee l order n stored)) ∉
        (transitions l.log order.scopeId n.sourceEventId).map H.revision

instance (H : Hashes) (l : Ledger) (order : OrderRow) (n : Notice) : Decidable (NewRevision H l order n) := by
  unfold NewRevision; infer_instance

/-- The identifiers of a call are in use. -/
def Names.conditions (H : Hashes) (N : Names) : Conditions where
  plan _ plan := plan.scopeId.val ∈ N.scopes ∧ plan.planId ∈ N.plans ∧
    ∀ a ∈ plan.internalAllocations ++ plan.allocations, a.sleeveId.val ∈ N.sleeves
  row l order n := n.sourceEventId.val ∈ N.sources ∧ order.brokerOrderId = N.orderOf order.scopeId n.sourceEventId ∧
    NewRevision H l order n
  scope scopeId := scopeId.val ∈ N.scopes

instance (H : Hashes) (N : Names) (l : Ledger) (order : OrderRow) (n : Notice) : Decidable ((N.conditions H).row l order n) :=
  inferInstanceAs (Decidable (_ ∧ _ ∧ NewRevision H l order n))

/-! ## Groups -/

section groups

variable {H : Hashes} {N : Names} {l l' : Ledger} {plan : SymbolNetPlan} {order : OrderRow} {n : Notice} {now : ℤ}
  {cross : List Event}

theorem cross_labels (log : List Event) (hplan : (N.conditions H).plan l plan) (hcross : internalCrossEvents plan now = .ok cross)
    {event : Event} (he : event ∈ cross) (before : List Event) :
    Labels H N log (event.eventId, event.fact before) ∧ ∀ scopeId source, event.transition scopeId source = none := by
  obtain ⟨hscope, hid, hsleeves⟩ := hplan
  unfold internalCrossEvents at hcross
  split_ifs at hcross
  · obtain rfl := Except.ok.inj hcross
    cases he
  · simp only [bind_eq_ok, require_eq_ok, pure_eq_ok] at hcross
    obtain ⟨_, _, rfl⟩ := hcross
    rcases List.mem_cons.mp he with rfl | he
    · exact ⟨⟨cross_id _ _, hscope, hid, fun _ hmem => by cases hmem⟩, fun _ _ => rfl⟩
    · obtain ⟨item, hitem, rfl⟩ := List.mem_map.mp he
      refine ⟨⟨sleeve_cross_id _ _ _ _, hscope, hid, fun leg hleg => ?_⟩, fun _ _ => rfl⟩
      obtain rfl := Option.some.inj hleg
      exact hsleeves item (List.mem_append_left _ hitem)

theorem fits_cross (hl : Labelled H N l) (hplan : (N.conditions H).plan l plan)
    (hcross : internalCrossEvents plan now = .ok cross) : Fits H N l.log cross :=
  .of_each hl (fun _ he before => (cross_labels _ hplan hcross he before).1) fun _ he => (cross_labels l.log hplan hcross he []).2

theorem fits_accepted (hl : Labelled H N l) (hplan : (N.conditions H).plan l plan)
    (hcross : internalCrossEvents plan now = .ok cross) (brokerId : Text) (localId : String) :
    Fits H N l.log (acceptedEvent plan brokerId localId now :: cross) := by
  refine .of_each hl (fun event he before => ?_) fun event he => ?_
  · rcases List.mem_cons.mp he with rfl | he
    · exact ⟨order_id _ _, hplan.1⟩
    · exact (cross_labels _ hplan hcross he before).1
  · rcases List.mem_cons.mp he with rfl | he
    · exact fun _ _ => rfl
    · exact (cross_labels l.log hplan hcross he []).2

/-- A pairing that keeps the keys of its first list. -/
theorem zipWith_keys {α β γ κ : Type} {f : α → β → γ} {key : α → κ} {key' : γ → κ} (h : ∀ a b, key' (f a b) = key a) (as : List α)
    (bs : List β) : ((List.zipWith f as bs).map key').Sublist (as.map key) := by
  induction as generalizing bs with
  | nil => simp
  | cons a as ih =>
    cases bs with
    | nil => simp
    | cons b bs =>
      simp only [List.zipWith_cons_cons, List.map_cons, h]
      exact (ih bs).cons_cons _

/-- The leg of a share. -/
def SleeveAllocation.leg (a : SleeveAllocation) : Leg := (a.sleeveId.val, a.intentId)

def FillAllocation.leg (a : FillAllocation) : Leg := (a.sleeveId.val, a.intentId)

def FeeAllocation.leg (a : FeeAllocation) : Leg := (a.sleeveId.val, a.intentId)

/-- The legs of a fill are legs of the order. -/
theorem activeShares_legs {allocations active : List SleeveAllocation} {side : Side} {previous quantity : ℕ}
    (h : activeShares allocations side previous quantity = .ok active) :
    (active.map (·.leg)).Sublist (allocations.map (·.leg)) := by
  simp only [activeShares, bind_eq_ok, pure_eq_ok] at h
  obtain ⟨_, _, _, _, rfl⟩ := h
  refine (List.filter_sublist.map _).trans ?_
  unfold withQuantities
  refine zipWith_keys ?_ _ _
  intro a signed
  rfl

theorem fillAllocations_legs (active : List SleeveAllocation) (price : ℚ) (fees : List ℚ) :
    ((fillAllocations active price fees).map (·.leg)).Sublist (active.map (·.leg)) := by
  unfold fillAllocations
  refine zipWith_keys ?_ _ _
  intro a fee
  rfl

theorem feeAllocations_legs (shares : List SleeveAllocation) (deltas : List ℚ) :
    ((feeAllocations shares deltas).map (·.leg)).Sublist (shares.map (·.leg)) := by
  unfold feeAllocations
  refine zipWith_keys ?_ _ _
  intro a delta
  rfl

theorem leg_mem {α β : Type} {key : α → Leg} {key' : β → Leg} {as : List α} {bs : List β} {P : String → Prop}
    (hsub : (as.map key).Sublist (bs.map key')) (h : ∀ b ∈ bs, P (key' b).1) {a : α} (ha : a ∈ as) : P (key a).1 := by
  obtain ⟨b, hb, hsame⟩ := List.mem_map.mp (hsub.subset (List.mem_map_of_mem ha))
  exact hsame ▸ h b hb

theorem fits_fill (hl : Labelled H N l) (horder : order ∈ l.orders) (hrow : (N.conditions H).row l order n)
    {active : List SleeveAllocation} {fees : List ℚ}
    (hactive : activeShares order.allocations order.side (filledQuantities l.log order.scopeId order.planId) n.quantity = .ok active) :
    Fits H N l.log (fillEvents order.scopeId order n active fees) := by
  obtain ⟨hsource, hbroker, -⟩ := hrow
  obtain ⟨hscope, hsleeves⟩ := hl.orders order horder
  refine .of_each hl (fun event he before => ?_) fun event he => ?_
  · rcases List.mem_cons.mp he with rfl | he
    · refine ⟨?_, hscope, hsource, hbroker, fun _ hmem => by cases hmem⟩
      exact (congrArg (· ++ ":portfolio") (execution_text _ _)).trans (portfolio_id _ _)
    · obtain ⟨a, ha, rfl⟩ := List.mem_map.mp he
      refine ⟨?_, hscope, hsource, hbroker, fun leg hleg => ?_⟩
      · show executionPrefix _ _ ++ _ ++ _ ++ _ ++ _ = _
        rw [executionPrefix, execution_text]
        exact sleeve_id _ _ _ _
      · obtain rfl := Option.some.inj hleg
        exact leg_mem ((fillAllocations_legs _ _ _).trans (activeShares_legs hactive)) hsleeves ha
  · rcases List.mem_cons.mp he with rfl | he
    · exact fun _ _ => rfl
    · obtain ⟨a, _, rfl⟩ := List.mem_map.mp he
      exact fun _ _ => rfl

theorem fits_status (hl : Labelled H N l) (horder : order ∈ l.orders) (hrow : n.sourceEventId.val ∈ N.sources ∧
    order.brokerOrderId = N.orderOf order.scopeId n.sourceEventId) : Fits H N l.log [statusEvent order.scopeId order n] := by
  refine .of_each hl (fun event he before => ?_) fun event he => ?_
  · obtain rfl := List.mem_singleton.mp he
    refine ⟨?_, (hl.orders order horder).1, hrow.1, hrow.2, trivial⟩
    exact (congrArg (· ++ ":status") (execution_text _ _)).trans (status_id _ _)
  · obtain rfl := List.mem_singleton.mp he
    exact fun _ _ => rfl

theorem fits_reconciled (hl : Labelled H N l) (hH : HexDigests H) {scopeId : Text} (hscope : scopeId.val ∈ N.scopes)
    (payload : ReconciliationPayload) : Fits H N l.log [reconciliationEvent H scopeId payload now] := by
  refine .of_each hl (fun event he before => ?_) fun event he => ?_
  · obtain rfl := List.mem_singleton.mp he
    exact ⟨reconcile_id _ _, hscope, plain_of_hex (hH.reconciliation payload)⟩
  · obtain rfl := List.mem_singleton.mp he
    exact fun _ _ => rfl

/-! ### Revisions -/

section revised

variable {shares : List SleeveAllocation} {current : ℚ} {deltas : List ℚ}

theorem feeEvent_transition (allocations : List FeeAllocation) :
    (feeEvent H order.scopeId order n current allocations).transition order.scopeId n.sourceEventId =
      some (revisionOf order.scopeId n current) := if_pos ⟨rfl, rfl⟩

theorem transitions_sleeveFees {group : List Event} {allocations : List FeeAllocation}
    (h : ∀ event ∈ group, event ∈ allocations.map (sleeveFeeEvent H order.scopeId order n current)) (scopeId source : Text) :
    transitions group scopeId source = [] := by
  refine transitions_eq_nil fun event he => ?_
  obtain ⟨a, _, rfl⟩ := List.mem_map.mp (h event he)
  rfl

/-- A revision is one transition of its execution. -/
theorem transitions_revisionEvents (scopeId source : Text) :
    transitions (revisionEvents H order.scopeId order n shares current deltas) scopeId source =
      if order.scopeId = scopeId ∧ n.sourceEventId = source then [revisionOf order.scopeId n current] else [] := by
  have hsleeves : transitions ((feeAllocations shares deltas).map (sleeveFeeEvent H order.scopeId order n current)) scopeId source =
      [] := transitions_sleeveFees (fun _ he => he) scopeId source
  unfold revisionEvents
  rw [← List.singleton_append, transitions_append, hsleeves, List.append_nil]
  by_cases hsame : order.scopeId = scopeId ∧ n.sourceEventId = source
  · obtain ⟨rfl, rfl⟩ := hsame
    rw [if_pos ⟨rfl, rfl⟩]
    exact List.filterMap_cons_some (feeEvent_transition _)
  · rw [if_neg hsame]
    exact List.filterMap_cons_none (if_neg hsame)

theorem fits_revised (hl : Labelled H N l) (horder : order ∈ l.orders) (hrow : n.sourceEventId.val ∈ N.sources ∧
    order.brokerOrderId = N.orderOf order.scopeId n.sourceEventId) (hshares : ∀ a ∈ shares, a.sleeveId.val ∈ N.sleeves)
    (hnew : H.revision (revisionOf order.scopeId n current) ∉ (transitions l.log order.scopeId n.sourceEventId).map H.revision) :
    Fits H N l.log (revisionEvents H order.scopeId order n shares current deltas) := by
  obtain ⟨hsource, hbroker⟩ := hrow
  have hscope := (hl.orders order horder).1
  have hgrown : transitions (l.log ++ revisionEvents H order.scopeId order n shares current deltas) order.scopeId n.sourceEventId =
      transitions l.log order.scopeId n.sourceEventId ++ [revisionOf order.scopeId n current] := by
    rw [transitions_append, transitions_revisionEvents, if_pos ⟨rfl, rfl⟩]
  -- the digest of the new transition stands where the log ended
  have hdigest : digest H (l.log ++ revisionEvents H order.scopeId order n shares current deltas) order.scopeId n.sourceEventId
      (transitions l.log order.scopeId n.sourceEventId).length = H.revision (revisionOf order.scopeId n current) := by
    unfold digest
    rw [hgrown, List.map_append, List.getElem?_append_right (by rw [List.length_map]), List.length_map, Nat.sub_self]
    rfl
  have hcount : (transitions l.log order.scopeId n.sourceEventId).length <
      (transitions (l.log ++ revisionEvents H order.scopeId order n shares current deltas) order.scopeId n.sourceEventId).length := by
    rw [hgrown, List.length_append]
    exact Nat.lt_succ_self _
  constructor
  · intro p hp
    rcases List.mem_cons.mp hp with rfl | hp
    · refine ⟨?_, hscope, hsource, hbroker, hcount, fun _ hmem => by cases hmem⟩
      simp only [Event.fact, feeEvent, Fact.id, Fact.rest, Fact.scopeId, Fact.kind, Part.text, hdigest]
      rw [revisionPrefix, executionPrefix, execution_text]
      exact fee_id _ _ _
    · obtain ⟨done, event, rest, hgroup, rfl⟩ := mem_factsFrom hp
      have hmem : event ∈ (feeAllocations shares deltas).map (sleeveFeeEvent H order.scopeId order n current) := by
        rw [hgroup]
        simp
      have hdone : transitions done order.scopeId n.sourceEventId = [] :=
        transitions_sleeveFees (fun e he => hgroup ▸ List.mem_append_left _ he) _ _
      obtain ⟨a, ha, rfl⟩ := List.mem_map.mp hmem
      have hbefore : (transitions ((l.log ++ [feeEvent H order.scopeId order n current (feeAllocations shares deltas)]) ++ done)
          order.scopeId n.sourceEventId).length - 1 = (transitions l.log order.scopeId n.sourceEventId).length := by
        rw [transitions_append, transitions_append, hdone, List.append_nil, List.length_append]
        have hone : transitions [feeEvent H order.scopeId order n current (feeAllocations shares deltas)] order.scopeId
            n.sourceEventId = [revisionOf order.scopeId n current] := List.filterMap_cons_some (feeEvent_transition _)
        rw [hone]
        exact Nat.add_sub_cancel _ 1
      refine ⟨?_, hscope, hsource, hbroker, ?_, fun leg hleg => ?_⟩
      · simp only [Event.fact, sleeveFeeEvent, Fact.id, Fact.rest, Fact.scopeId, Fact.kind, Part.text, hbefore, hdigest]
        rw [revisionPrefix, executionPrefix, execution_text]
        exact sleeve_fee_id _ _ _ _ _
      · exact lt_of_eq_of_lt hbefore hcount
      · obtain rfl := Option.some.inj hleg
        exact leg_mem (feeAllocations_legs _ _) hshares ha
  · intro scopeId source
    rw [transitions_append, transitions_revisionEvents]
    split_ifs with hsame
    · obtain ⟨rfl, rfl⟩ := hsame
      rw [List.map_append, List.nodup_append]
      refine ⟨hl.revisions _ _, List.nodup_singleton _, fun x hx y hy => ?_⟩
      obtain rfl := List.mem_singleton.mp hy
      exact fun hxy => hnew (hxy ▸ hx)
    · rw [List.append_nil]
      exact hl.revisions _ _

end revised

/-! ### Every group -/

theorem storedFill_shares {payload : Payload} {stored : StoredFill} {shares : List SleeveAllocation}
    (h : payload.storedFill = some stored) (hshares : stored.shares = some shares) :
    ∃ f, payload = .brokerFill f ∧ shares = f.shares ∧ stored.fee = f.fee := by
  cases payload with
  | brokerFill f =>
    obtain rfl := Option.some.inj h
    exact ⟨f, rfl, (Option.some.inj hshares).symm, rfl⟩
  | feeAdjustment a =>
    obtain rfl := Option.some.inj h
    cases hshares
  | _ => cases h

theorem Labelled.append (hl : Labelled H N l) {group : List Event} (hfits : Fits H N l.log group) (hlog : l'.log = l.log ++ group)
    (horders : ∀ row ∈ l'.orders, row.scopeId.val ∈ N.scopes ∧ ∀ a ∈ row.allocations, a.sleeveId.val ∈ N.sleeves)
    (hfills : ∀ event ∈ group, ∀ f, event.payload = .brokerFill f → ∀ a ∈ f.allocations, a.sleeveId.val ∈ N.sleeves) :
    Labelled H N l' := by
  refine ⟨?_, ?_, horders, fun event he f hp => ?_⟩
  · rw [hlog]
    exact hl.labels hfits
  · rw [hlog]
    exact hfits.revisions
  · rw [hlog, List.mem_append] at he
    rcases he with he | he
    · exact hl.fills event he f hp
    · exact hfills event he f hp

theorem Hands.fits {rows : List OrderRow} {group : List Event} (hH : HexDigests H) (hl : Labelled H N l)
    (h : Hands H (N.conditions H) l rows group) : Fits H N l.log group := by
  cases h with
  | accepted hplan _ _ _ _ _ hcross => exact fits_accepted hl hplan hcross _ _
  | crossed hplan _ hcross => exact fits_cross hl hplan hcross
  | fill horder hrow _ _ _ _ _ hactive _ => exact fits_fill hl horder hrow hactive
  | revised horder hrow _ hstored hpayload hshares _ hzero hcurrent _ =>
    obtain ⟨hsource, hbroker, hnew⟩ := hrow
    obtain ⟨f, hp, rfl, -⟩ := storedFill_shares hpayload hshares
    refine fits_revised hl horder ⟨hsource, hbroker⟩ (fun a ha => ?_)
      (((hnew _ hstored _ hpayload).resolve_left hzero).resolve_left hcurrent)
    obtain ⟨b, hb, rfl⟩ := List.mem_map.mp ha
    exact hl.fills _ (mem_log_of_stored hstored).1 f hp b hb
  | terminal horder hrow => exact fits_status hl horder ⟨hrow.1, hrow.2.1⟩
  | reconciled hscope => exact fits_reconciled hl hH hscope _

theorem Commits.labelled (hH : HexDigests H) (hl : Labelled H N l) (h : Commits H (N.conditions H) l l') : Labelled H N l' := by
  cases h with
  | scope horders hlog _ =>
    obtain ⟨hfacts, hrevisions, hsleeves, hfills⟩ := hl
    exact ⟨by rwa [hlog], by rwa [hlog], by rwa [horders], by rwa [hlog]⟩
  | @group rows group _ hands happ =>
    refine hl.append (hands.fits hH hl) happ.log ?_ ?_
    · intro row hrow
      rw [happ.orders, List.mem_append] at hrow
      rcases hrow with hrow | hrow
      · exact hl.orders row hrow
      · cases hands with
        | accepted hplan =>
          obtain rfl := List.mem_singleton.mp hrow
          exact ⟨hplan.1, fun a ha => hplan.2.2 a (List.mem_append_right _ ha)⟩
        | _ => cases hrow
    · intro event he f hp
      cases hands with
      | accepted _ _ _ _ _ _ hcross =>
        rcases List.mem_cons.mp he with rfl | he
        · cases hp
        · rcases (crossEvents_payload hcross he).2 with ⟨_, hcross⟩ | ⟨_, _, _, hcross⟩
          all_goals cases hcross.symm.trans hp
      | crossed _ _ hcross =>
        rcases (crossEvents_payload hcross he).2 with ⟨_, hcross⟩ | ⟨_, _, _, hcross⟩
        all_goals cases hcross.symm.trans hp
      | fill horder _ _ _ _ _ _ hactive _ =>
        rcases List.mem_cons.mp he with rfl | he
        · obtain rfl := Payload.brokerFill.inj hp
          exact fun a ha => leg_mem ((fillAllocations_legs _ _ _).trans (activeShares_legs hactive)) (hl.orders _ horder).2 ha
        · obtain ⟨_, _, rfl⟩ := List.mem_map.mp he
          cases hp
      | revised => exact absurd hp ((neutral_revisionEvents event he).2 f)
      | terminal =>
        obtain rfl := List.mem_singleton.mp he
        cases hp
      | reconciled =>
        obtain rfl := List.mem_singleton.mp he
        cases hp

theorem Labelled.empty : Labelled H N Ledger.empty :=
  ⟨fun _ h => (by cases h), fun _ _ => List.nodup_nil, fun _ h => (by cases h), fun _ h => (by cases h)⟩

end groups

/-! ## Ids identify facts -/

/-- What the code asks of a new fill, its ids apart. -/
structure LegalFill (l : Ledger) (order : OrderRow) (n : Notice) (active : List SleeveAllocation) (fees : List ℚ) : Prop where
  new : ∀ event ∈ l.log, event.scopeId = order.scopeId → ∀ f, event.payload = .brokerFill f → f.sourceEventId ≠ n.sourceEventId
  price : 0 < n.price
  room : filledQuantities l.log order.scopeId order.planId + n.quantity ≤ order.quantity
  allocations : rowAllocations order = .ok order.allocations
  shares : activeShares order.allocations order.side (filledQuantities l.log order.scopeId order.planId) n.quantity = .ok active
  split : allocateMoney n.fee (active.map (·.signedQuantity.natAbs)) = .ok fees

/-- What a row stands for keeps its ids to itself, and a legal fill is booked. -/
structure RowIdentified (H : Hashes) (l : Ledger) (order : OrderRow) (n : Notice) : Prop where
  fill : ∀ active fees, LegalFill l order n active fees → Identifies (l.log ++ fillEvents order.scopeId order n active fees)
  revision : ∀ event ∈ l.stored (fillId order.scopeId n.sourceEventId), ∀ stored ∈ event.payload.storedFill,
    ∀ shares ∈ stored.shares, ∀ deltas, ¬ (n.fee = 0 ∧ 0 < bookedFee l order n stored) → n.fee ≠ bookedFee l order n stored →
      Identifies (l.log ++ revisionEvents H order.scopeId order n shares (bookedFee l order n stored) deltas)
  status : Identifies (l.log ++ [statusEvent order.scopeId order n])
  booked : ∀ active fees, LegalFill l order n active fees → ∀ sync : Sync, sync.ledger = l →
    (∀ planId, sync.filled planId = filledQuantities l.log order.scopeId planId) →
      ∃ sync', bookFill H order.scopeId order n sync = .ok sync' ∧
        Appended l (fillEvents order.scopeId order n active fees) sync'.ledger

/-- No two facts get one id, whatever a call sets out to record. -/
def Identified (H : Hashes) : Conditions where
  plan l plan := ∀ brokerId localId now cross, internalCrossEvents plan now = .ok cross →
    Identifies (l.log ++ acceptedEvent plan brokerId localId now :: cross) ∧ Identifies (l.log ++ cross)
  row := RowIdentified H
  scope _ := True

section identified

variable {H : Hashes} {N : Names} {l : Ledger} {order : OrderRow} {n : Notice} {active : List SleeveAllocation} {fees : List ℚ}

theorem fact_fillEvents {event : Event} (he : event ∈ fillEvents order.scopeId order n active fees) (before : List Event) :
    ∃ leg, event.fact before = .execution order.scopeId order.brokerOrderId n.sourceEventId (.fill leg) := by
  rcases List.mem_cons.mp he with rfl | he
  · exact ⟨_, rfl⟩
  · obtain ⟨a, _, rfl⟩ := List.mem_map.mp he
    exact ⟨_, rfl⟩

/-- Only events about an execution record its fill. -/
theorem source_of_fact {event : Event} {before : List Event} {scopeId brokerOrderId source : Text} {leg : Option Leg}
    (h : event.fact before = .execution scopeId brokerOrderId source (.fill leg)) :
    event.scopeId = scopeId ∧ event.payload.source = some source ∧
      (leg = none → ∃ f, event.payload = .brokerFill f ∧ f.sourceEventId = source) := by
  unfold Event.fact at h
  split at h
  case h_4 f hp =>
    simp only [Fact.execution.injEq, Part.fill.injEq] at h
    obtain ⟨hscope, -, hsource, -⟩ := h
    exact ⟨hscope, by rw [hp, ← hsource]; rfl, fun _ => ⟨f, hp, hsource⟩⟩
  case h_5 hp =>
    simp only [Fact.execution.injEq, Part.fill.injEq] at h
    obtain ⟨hscope, -, hsource, hleg⟩ := h
    refine ⟨hscope, by rw [hp, ← hsource]; rfl, fun hnone => ?_⟩
    rw [hnone] at hleg
    cases hleg
  all_goals simp at h

/-- The facts of a new fill are different from each other. -/
theorem nodup_fillFacts (hkeys : (order.allocations.map (·.leg)).Nodup) {previous : ℕ}
    (hactive : activeShares order.allocations order.side previous n.quantity = .ok active) :
    ((fillEvents order.scopeId order n active fees).map (·.fact [])).Nodup := by
  have hlegs : ((fillAllocations active n.price fees).map (·.leg)).Nodup :=
    hkeys.sublist ((fillAllocations_legs _ _ _).trans (activeShares_legs hactive))
  unfold fillEvents
  rw [List.map_cons, List.map_map, List.nodup_cons]
  constructor
  · intro hmem
    obtain ⟨a, _, ha⟩ := List.mem_map.mp hmem
    have hpart := (Fact.execution.inj ha).2.2.2
    cases hpart
  · refine List.Nodup.map_on (fun a ha b hb hab => ?_) hlegs.of_map
    have hpart := (Fact.execution.inj hab).2.2.2
    exact List.inj_on_of_nodup_map hlegs ha hb (Option.some.inj (Part.fill.inj hpart))

theorem legs_nodup (h : rowAllocations order = .ok order.allocations) : (order.allocations.map (·.leg)).Nodup := by
  simp only [rowAllocations, bind_eq_ok, require_eq_ok, pure_eq_ok] at h
  obtain ⟨_, _, _, _, _, hkeys, _⟩ := h
  refine List.Nodup.map_on (fun a ha b hb hab => ?_) hkeys.of_map
  obtain ⟨hsleeve, hintent⟩ := Prod.mk.inj hab
  exact List.inj_on_of_nodup_map hkeys ha hb (Prod.ext (Subtype.ext hsleeve) hintent)

theorem fact_fillEvents_nil {event : Event} (he : event ∈ fillEvents order.scopeId order n active fees) (before : List Event) :
    event.fact before = event.fact [] := by
  rcases List.mem_cons.mp he with rfl | he
  · rfl
  · obtain ⟨a, _, rfl⟩ := List.mem_map.mp he
    rfl

theorem Fits.label {group : List Event} (h : Fits H N l.log group) {event : Event} (he : event ∈ group) :
    ∃ before, Labels H N (l.log ++ group) (event.eventId, event.fact before) := by
  obtain ⟨before, hmem⟩ := exists_mem_factsFrom l.log he
  exact ⟨before, h.facts _ hmem⟩

/-- A recorded event with an id of a new fill records the same fact. -/
theorem fact_eq_of_stored (hN : N.Apart H) (hH : HexDigests H) (hl : Labelled H N l)
    (hfits : Fits H N l.log (fillEvents order.scopeId order n active fees)) {event stored : Event}
    (he : event ∈ fillEvents order.scopeId order n active fees) (hstored : stored ∈ l.log) (hid : stored.eventId = event.eventId) :
    ∃ before, stored.fact before = event.fact [] := by
  obtain ⟨before, hmem⟩ := exists_mem_factsFrom [] hstored
  obtain ⟨before', hlabel⟩ := hfits.label he
  have hlater : Labels H N (l.log ++ fillEvents order.scopeId order n active fees) (stored.eventId, stored.fact before) :=
    (hl.facts _ hmem).later
  obtain ⟨hsid, hshas⟩ := hlater
  rw [fact_fillEvents_nil he] at hlabel
  obtain ⟨heid, hehas⟩ := hlabel
  exact ⟨before, Fact.eq_of_id hH hN hfits.revisions hshas hehas (hsid ▸ heid ▸ hid)⟩

/-- **The ids of a new fill are free.** -/
theorem freshIds_fill (hN : N.Apart H) (hH : HexDigests H) (hl : Labelled H N l) (hfees : FeesBooked l) (horder : order ∈ l.orders)
    (hrow : (N.conditions H).row l order n) (hfill : LegalFill l order n active fees) :
    FreshIds l ((fillEvents order.scopeId order n active fees).map (·.eventId)) := by
  have hfits : Fits H N l.log (fillEvents order.scopeId order n active fees) := fits_fill hl horder hrow hfill.shares
  -- a stored event under the id of the whole fill would be that fill
  have hfree : fillId order.scopeId n.sourceEventId ∉ l.eventIds := by
    intro hmem
    obtain ⟨stored, hstored, hid⟩ := List.mem_map.mp hmem
    have hlead : brokerFillEvent order.scopeId order n (fillAllocations active n.price fees) ∈
        fillEvents order.scopeId order n active fees := List.mem_cons_self
    obtain ⟨before, hfact⟩ := fact_eq_of_stored hN hH hl hfits hlead hstored hid
    obtain ⟨hscope, -, hbroker⟩ := source_of_fact hfact
    obtain ⟨f, hp, hsource⟩ := hbroker rfl
    exact hfill.new stored hstored hscope f hp hsource
  constructor
  · have hfacts : ((fillEvents order.scopeId order n active fees).map (·.fact [])).Nodup :=
      nodup_fillFacts (legs_nodup hfill.allocations) hfill.shares
    refine List.Nodup.map_on (fun e he e' he' hid => ?_) hfacts.of_map
    obtain ⟨before, hlabel⟩ := hfits.label he
    obtain ⟨before', hlabel'⟩ := hfits.label he'
    rw [fact_fillEvents_nil he] at hlabel
    rw [fact_fillEvents_nil he'] at hlabel'
    have hsame := Fact.eq_of_id hH hN hfits.revisions hlabel.has hlabel'.has (hlabel.id ▸ hlabel'.id ▸ hid)
    exact List.inj_on_of_nodup_map hfacts he he' hsame
  · intro id hid hmem
    obtain ⟨event, he, rfl⟩ := List.mem_map.mp hid
    obtain ⟨stored, hstored, hsame⟩ := List.mem_map.mp hmem
    obtain ⟨before, hfact⟩ := fact_eq_of_stored hN hH hl hfits he hstored hsame
    obtain ⟨leg, hleg⟩ := fact_fillEvents he []
    obtain ⟨hscope, hsource, -⟩ := source_of_fact (hfact.trans hleg)
    exact hfree (hscope ▸ hfees.source stored hstored _ hsource)

/-- A fill with free ids is booked when it is legal. -/
theorem bookFill_booked (hs : l.Sound) (horder : order ∈ l.orders) (hfill : LegalFill l order n active fees)
    (hfresh : FreshIds l ((fillEvents order.scopeId order n active fees).map (·.eventId))) {sync : Sync} (hsync : sync.ledger = l)
    (hcache : ∀ planId, sync.filled planId = filledQuantities l.log order.scopeId planId) :
    ∃ sync', bookFill H order.scopeId order n sync = .ok sync' ∧
      Appended l (fillEvents order.scopeId order n active fees) sync'.ledger := by
  subst hsync
  obtain ⟨l', happend, happ⟩ := appendEvents_fresh (H := H) (show fillEvents order.scopeId order n active fees ≠ [] by simp [fillEvents])
    (fun e he => by
      rcases List.mem_cons.mp he with rfl | he
      · rfl
      · obtain ⟨a, _, rfl⟩ := List.mem_map.mp he
        rfl) (hs.orderScope order horder) hfresh
  refine ⟨⟨l', Function.update sync.filled order.planId (filledQuantities sync.ledger.log order.scopeId order.planId + n.quantity),
    sync.appliedFills + 1, sync.appliedStatuses, sync.appliedFeeAdjustments⟩, ?_, happ⟩
  simp only [bookFill, require_true hfill.price, ok_bind, hcache, require_true hfill.room, hfill.allocations, hfill.shares, hfill.split,
    happend]
  rw [if_pos (by simp [fillEvents])]
  rfl

end identified

/-- Under the conditions every call is about facts that ids tell apart. -/
theorem identified_of_conditions {H : Hashes} {N : Names} {l : Ledger} (hN : N.Apart H) (hH : HexDigests H)
    (hl : l.Sound ∧ FeesBooked l ∧ Labelled H N l) {order : OrderRow} {n : Notice} (horder : order ∈ l.orders)
    (hrow : (N.conditions H).row l order n) : RowIdentified H l order n := by
  obtain ⟨hs, hfees, hl⟩ := hl
  obtain ⟨hsource, hbroker, hnew⟩ := id hrow
  refine ⟨fun active fees hfill => ?_, fun event he stored hpayload shares hshares deltas hzero hcurrent => ?_, ?_,
    fun active fees hfill sync hsync hcache => ?_⟩
  · exact hl.identifies hN hH (fits_fill hl horder hrow hfill.shares)
  · obtain ⟨f, hp, rfl, -⟩ := storedFill_shares hpayload hshares
    refine hl.identifies hN hH (fits_revised hl horder ⟨hsource, hbroker⟩ (fun a ha => ?_)
      (((hnew event he stored hpayload).resolve_left hzero).resolve_left hcurrent))
    obtain ⟨b, hb, rfl⟩ := List.mem_map.mp ha
    exact hl.fills event (mem_log_of_stored he).1 f hp b hb
  · exact hl.identifies hN hH (fits_status hl horder ⟨hsource, hbroker⟩)
  · exact bookFill_booked hs horder hfill (freshIds_fill hN hH hl hfees horder hrow hfill) hsync hcache

/-- **Event ids identify facts.**  Whatever calls under the conditions have recorded, the next one, at every row in the ledger the
row is applied to, gives no id to a fact that another one has, and books every legal fill. -/
theorem event_ids_identify_facts {H : Hashes} {N : Names} (hN : N.Apart H) (hH : HexDigests H) {calls : List Call} {l : Ledger}
    (hrun : Runs.Run (callStep H) (fun l call => call.Meets H (N.conditions H) l) Ledger.empty calls l) {call : Call}
    (hcall : call.Meets H (N.conditions H) l) : call.Meets H (Identified H) l := by
  have hl := calls_invariant (P := Labelled H N) .empty (fun _ _ step hl => step.labelled hH hl) hrun
  refine hcall.mono (fun _ _ step hl => step.labelled hH hl) ?_ ?_ (fun _ => trivial) hl
  · intro l plan hl hplan brokerId localId now cross hcross
    exact ⟨hl.2.2.identifies hN hH (fits_accepted hl.2.2 hplan hcross _ _), hl.2.2.identifies hN hH (fits_cross hl.2.2 hplan hcross)⟩
  · intro l order n hl horder hrow
    exact identified_of_conditions hN hH hl horder hrow

/-! ### A run and a collision -/

def hexHashes : Hashes where
  plan _ := "plan"
  revision _ := "0a"
  event e _ := e.eventId
  reconciliation _ := "0b"

def sampleNames (plan : SymbolNetPlan) (order : Text) : Names where
  scopes := ["scope"]
  plans := [plan.planId]
  sources := ["fill-2", "fill-1"]
  sleeves := ["a", "b"]
  orderOf _ _ := order

theorem sampleNames_apart (plan : SymbolNetPlan) (order : Text) : (sampleNames plan order).Apart hexHashes where
  scopes := by
    show ∀ a ∈ ["scope"], ∀ b ∈ ["scope"], _
    decide +kernel
  plans := by
    intro a ha b hb _
    rw [List.mem_singleton.mp ha, List.mem_singleton.mp hb]
  shares := by
    show ∀ a ∈ ["fill-2", "fill-1"], ∀ b ∈ ["fill-2", "fill-1"], _
    decide +kernel
  revisions := by
    have h : ∀ a ∈ ["fill-2", "fill-1"], ∀ b ∈ ["fill-2", "fill-1"], ¬ Leads (join a (join "fee-adjustment" "0a")) b := by
      decide +kernel
    exact fun a ha b hb _ => h a ha b hb
  sleeves := by
    show ∀ a ∈ ["a", "b"], ∀ b ∈ ["a", "b"], _
    decide +kernel

theorem hexHashes_hex : HexDigests hexHashes where
  revision := by
    intro r c hc
    have hmem : c ∈ "0a".toList := hc
    rcases List.mem_pair.mp (show c ∈ ['0', 'a'] by simpa using hmem) with rfl | rfl <;> simp
  reconciliation := by
    intro p c hc
    have hmem : c ∈ "0b".toList := hc
    rcases List.mem_pair.mp (show c ∈ ['0', 'b'] by simpa using hmem) with rfl | rfl <;> simp

def sampleFirst : List ExecutionEvent := [sampleReport "fill-2" 2 (.number 1) "PARTIAL"]

/-- A fee revision of the first fill, and a second fill. -/
def sampleNext : List ExecutionEvent := [sampleReport "fill-2" 2 (.number 2) "PARTIAL", sampleReport "fill-1" 1 (.number 1) "FILLED"]

/-- The calls below meet the conditions. -/
structure SampleMeets (plan : SymbolNetPlan) (order scope : Text) (l₁ l₂ : Ledger) : Prop where
  name : plan.scopeId.val ∈ ["scope"]
  sleeves : ∀ a ∈ plan.internalAllocations ++ plan.allocations, a.sleeveId.val ∈ ["a", "b"]
  first : BatchMeets hexHashes ((sampleNames plan order).conditions hexHashes).row scope l₁ sampleFirst
  next : BatchMeets hexHashes ((sampleNames plan order).conditions hexHashes).row scope l₂ sampleNext

theorem sampleMeets_iff {plan : SymbolNetPlan} {order scope : Text} {l₁ l₂ : Ledger} :
    ((plan.scopeId.val ∈ ["scope"] ∧ ∀ a ∈ plan.internalAllocations ++ plan.allocations, a.sleeveId.val ∈ ["a", "b"]) ∧
      BatchMeets hexHashes ((sampleNames plan order).conditions hexHashes).row scope l₁ sampleFirst ∧
      BatchMeets hexHashes ((sampleNames plan order).conditions hexHashes).row scope l₂ sampleNext) ↔
    SampleMeets plan order scope l₁ l₂ := by
  constructor
  · rintro ⟨⟨hname, hsleeves⟩, hfirst, hnext⟩
    exact ⟨hname, hsleeves, hfirst, hnext⟩
  · intro h
    exact ⟨⟨h.name, h.sleeves⟩, h.first, h.next⟩

instance (plan : SymbolNetPlan) (order scope : Text) (l₁ l₂ : Ledger) : Decidable (SampleMeets plan order scope l₁ l₂) :=
  decidable_of_iff _ sampleMeets_iff

/-- A fee revision and a second fill, behind an order and its first fill. -/
theorem sample_events_identified : ∃ l : Ledger, l.log.length = 4 ∧
    (Call.apply "scope" sampleNext).Meets hexHashes (Identified hexHashes) l := by
  obtain ⟨l₀, hl₀, targets, -, plan, hplan, order, -, l₁, haccept, l₂, hfill, scope, hscope, hlen, hmeets⟩ :
      ∃ l₀, sampleScope = .ok l₀ ∧ ∃ targets, sampleTargets = .ok targets ∧ ∃ plan, samplePlan targets = .ok plan ∧
      ∃ order, text "order-1" "order" = .ok order ∧
      ∃ l₁ : Ledger × Bool, recordAcceptedOrder hexHashes l₀ plan "order-1" "" (.stamp 0) = .ok l₁ ∧
      ∃ l₂ : Ledger × ExecutionSyncReport, applyExecutionEvents hexHashes l₁.1 "scope" sampleFirst = .ok l₂ ∧
      ∃ scope, text "scope" "scope_id" = .ok scope ∧ l₂.1.log.length = 4 ∧ SampleMeets plan order scope l₁.1 l₂.1 := by
    decide +kernel
  have hscope' : ∀ scope', text "scope" "scope_id" = .ok scope' → scope = scope' := fun scope' h =>
    Except.ok.inj (hscope.symm.trans h)
  have hrun : Runs.Run (callStep hexHashes) (fun l call => call.Meets hexHashes ((sampleNames plan order).conditions hexHashes) l)
      Ledger.empty [.registerScope "scope" "portfolio" "hash" "account", .accept plan "order-1" "" (.stamp 0),
        .apply "scope" sampleFirst] l₂.1 := by
    refine .cons trivial (callStep_eq_some.mpr hl₀) (.cons ⟨hmeets.name, List.mem_singleton_self _, hmeets.sleeves⟩
      (callStep_eq_some.mpr (bind_eq_ok.mpr ⟨l₁, haccept, rfl⟩)) (.cons ?_
        (callStep_eq_some.mpr (bind_eq_ok.mpr ⟨l₂, hfill, rfl⟩)) (.nil _)))
    intro scope' h
    rw [← hscope' scope' h]
    exact hmeets.first
  refine ⟨l₂.1, hlen, event_ids_identify_facts (sampleNames_apart plan order) hexHashes_hex hrun ?_⟩
  intro scope' h
  rw [← hscope' scope' h]
  exact hmeets.next

/-- A fill for sleeves `a` and `a:b` under intents `b:c` and `c`. -/
def collision : Result (Ledger × Collected × Notice × List SleeveAllocation × List ℚ) := do
  let l ← sampleScope
  let targets ← collidingTargets
  let plan ← samplePlan targets
  let accepted ← recordAcceptedOrder hexHashes l plan "order-1" "" (.stamp 0)
  let found ← collectRow accepted.1 plan.scopeId (sampleReport "fill-2" 2 (.number 1) "PARTIAL")
  let row ← orRaise (.key "row") found
  let n ← readNotice row
  let active ← activeShares row.order.allocations row.order.side 0 n.quantity
  let fees ← allocateMoney n.fee (active.map (·.signedQuantity.natAbs))
  pure (accepted.1, row, n, active, fees)

theorem collision_eq_ok {l : Ledger} {row : Collected} {n : Notice} {active : List SleeveAllocation} {fees : List ℚ}
    (h : collision = .ok (l, row, n, active, fees)) : Reachable hexHashes l ∧
      activeShares row.order.allocations row.order.side 0 n.quantity = .ok active ∧
      allocateMoney n.fee (active.map (·.signedQuantity.natAbs)) = .ok fees := by
  simp only [collision, bind_eq_ok, pure_eq_ok, Prod.mk.injEq] at h
  obtain ⟨l₀, hl₀, _, _, plan, _, accepted, haccept, _, _, _, _, _, _, _, hactive, _, hfees, rfl, rfl, rfl, rfl, rfl⟩ := h
  exact ⟨.tail (.single (.registerScope hl₀)) (.accept haccept), hactive, hfees⟩

instance (log : List Event) : Decidable (Identifies log) := by unfold Identifies; infer_instance

/-- Two shares of one fill under one id: the fill is legal and is never booked. -/
theorem colliding_facts : ∃ (l : Ledger) (order : OrderRow) (n : Notice) (active : List SleeveAllocation) (fees : List ℚ),
    Reachable hexHashes l ∧ order ∈ l.orders ∧ LegalFill l order n active fees ∧
    ¬ Identifies (l.log ++ fillEvents order.scopeId order n active fees) ∧
    applyExecutionEvents hexHashes l "scope" sampleFirst =
      .error (.integrity "UNIQUE constraint failed: live_portfolio_events_v1.event_id") := by
  obtain ⟨⟨l, row, n, active, fees⟩, hrun, ⟨horder, hnew, hprice⟩, ⟨hfilled, hroom, hrows⟩, hnot, happly⟩ : ∃ s, collision = .ok s ∧
      (s.2.1.order ∈ s.1.orders ∧ (∀ event ∈ s.1.log, event.payload.source = none) ∧ 0 < s.2.2.1.price) ∧
      (filledQuantities s.1.log s.2.1.order.scopeId s.2.1.order.planId = 0 ∧ s.2.2.1.quantity ≤ s.2.1.order.quantity ∧
        rowAllocations s.2.1.order = .ok s.2.1.order.allocations) ∧
      ¬ Identifies (s.1.log ++ fillEvents s.2.1.order.scopeId s.2.1.order s.2.2.1 s.2.2.2.1 s.2.2.2.2) ∧
      applyExecutionEvents hexHashes s.1 "scope" sampleFirst =
        .error (.integrity "UNIQUE constraint failed: live_portfolio_events_v1.event_id") := by
    decide +kernel
  obtain ⟨hreach, hactive, hfees⟩ := collision_eq_ok hrun
  refine ⟨l, row.order, n, active, fees, hreach, horder, ⟨?_, hprice, ?_, hrows, ?_, hfees⟩, hnot, happly⟩
  · intro event he _ f hp _
    have hnone := hnew event he
    rw [hp] at hnone
    cases hnone
  · rw [hfilled, zero_add]
    exact hroom
  · rw [hfilled]
    exact hactive

end LiveTrader.Portfolio
