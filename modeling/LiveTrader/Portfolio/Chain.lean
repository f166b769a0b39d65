/-
# `Portfolio.Chain` — the hash chain of a scope

Every call changes the table of events through `_append_events` alone (`extends_of_op`): its rows stay, and each new one has an id of its
own and is linked to the last row of its scope.  So `verify_hash_chain` accepts every reachable ledger, and what it returns commits to
the scope's history: another table with the same count and head holds the same rows, unless two contents share a hash.
-/
import LiveTrader.Portfolio.FeeRuns
import LiveTrader.Portfolio.FillSigns
import LiveTrader.Portfolio.Ready

namespace LiveTrader.Portfolio

open Lib Lib.Py
open Context (Chained)

section chain

variable {H : Hashes} {l l' : Ledger} {scopeId : Text} {rows rows' : List EventRow} {row : EventRow} {p p' : String}

/-- The hash that the next row is linked to. -/
def tipOf (p : String) (rows : List EventRow) : String := (rows.getLast?.map (·.eventHash)).getD p

theorem tipOf_cons : tipOf p (row :: rows) = tipOf row.eventHash rows := by
  simp only [tipOf, List.getLast?_cons, Option.map_some, Option.getD_some]
  cases rows.getLast? <;> rfl

theorem Context.Chained.concat (h : Chained H p rows) (hlink : row.previousHash = tipOf p rows)
    (hhash : H.event row.toEvent row.previousHash = row.eventHash) : Chained H p (rows ++ [row]) := by
  induction rows generalizing p with
  | nil =>
    obtain rfl : row.previousHash = p := hlink
    exact ⟨rfl, hhash, trivial⟩
  | cons first rows ih => exact ⟨h.1, h.2.1, ih h.2.2 (hlink.trans tipOf_cons)⟩

theorem verifyRows_ok : ∀ {rows : List EventRow} {sequence count : ℕ} {p : String}, Chained H p (rows.filter (·.scopeId = scopeId)) →
    verifyRows H scopeId sequence rows (count, p) =
      .ok (count + (rows.filter (·.scopeId = scopeId)).length, tipOf p (rows.filter (·.scopeId = scopeId))) := by
  intro rows
  induction rows with
  | nil =>
    intro _ _ _ _
    rfl
  | cons row rows ih =>
    intro sequence count p h
    rw [verifyRows]
    by_cases hscope : row.scopeId = scopeId
    · rw [List.filter_cons_of_pos (by simpa using hscope)] at h ⊢
      rw [if_pos hscope, require_true h.1, ok_bind, require_true h.2.1, ok_bind, ih h.2.2, tipOf_cons, List.length_cons,
        Nat.add_right_comm, Nat.add_assoc]
    · rw [List.filter_cons_of_neg (by simpa using hscope)] at h ⊢
      rw [if_neg hscope, ih h]

/-- **Commitment.**  Where no two contents share a hash, the length and the head of a chain determine it. -/
theorem Context.Chained.eq_of_tip (h : Chained H p rows) (h' : Chained H p' rows')
    (hapart : ∀ r ∈ rows, ∀ r' ∈ rows', H.event r.toEvent r.previousHash = H.event r'.toEvent r'.previousHash →
      r.toEvent = r'.toEvent ∧ r.previousHash = r'.previousHash)
    (hlen : rows.length = rows'.length) (htip : tipOf p rows = tipOf p' rows') : rows = rows' ∧ p = p' := by
  induction rows generalizing p p' rows' with
  | nil =>
    obtain rfl := List.length_eq_zero_iff.mp hlen.symm
    exact ⟨rfl, htip⟩
  | cons row rows ih =>
    obtain _ | ⟨row', rows'⟩ := rows'
    · cases hlen
    rw [tipOf_cons, tipOf_cons] at htip
    obtain ⟨rfl, hhash⟩ := ih h.2.2 h'.2.2 (fun r hr r' hr' => hapart r (.tail _ hr) r' (.tail _ hr')) (Nat.succ.inj hlen) htip
    obtain ⟨rfl, hevent, -⟩ := h
    obtain ⟨rfl, hevent', -⟩ := h'
    obtain ⟨hsame, hprevious⟩ := hapart row (.head _) row' (.head _) (hevent.trans (hhash.trans hevent'.symm))
    obtain ⟨event, previousHash, eventHash⟩ := row
    obtain ⟨event', previousHash', eventHash'⟩ := row'
    dsimp only at hsame hprevious hhash
    subst hsame hprevious hhash
    exact ⟨rfl, rfl⟩

/-! ## Appending -/

/-- Every scope has a whole chain, and no two events share an id. -/
def Whole (H : Hashes) (l : Ledger) : Prop := (∀ scopeId, Chained H genesis (l.eventsOf scopeId)) ∧ l.eventIds.Nodup

/-- The table of `l` begins that of `l'`, which stays whole. -/
def Extends (H : Hashes) (l l' : Ledger) : Prop := l.events <+: l'.events ∧ (Whole H l → Whole H l')

theorem Extends.of_eq (h : l'.events = l.events) : Extends H l l' := by
  refine ⟨h ▸ List.prefix_rfl, fun hl => ?_⟩
  unfold Whole Ledger.eventsOf Ledger.eventIds Ledger.log
  rwa [h]

theorem Extends.trans {l'' : Ledger} (h : Extends H l l') (h' : Extends H l' l'') : Extends H l l'' :=
  ⟨h.1.trans h'.1, fun hl => h'.2 (h.2 hl)⟩

theorem insertEvents_extends : ∀ {events : List Event} {l : Ledger} {previous : String}, (∀ event ∈ events, event.scopeId = scopeId) →
    previous = l.head scopeId → insertEvents H scopeId l previous events = .ok l' → Extends H l l' := by
  intro events
  induction events with
  | nil =>
    intro l previous _ _ h
    obtain rfl : l = l' := Except.ok.inj h
    exact .of_eq rfl
  | cons event events ih =>
    intro l previous hscopes hprevious h
    simp only [insertEvents, bind_eq_ok] at h
    obtain ⟨_, hfresh, _, _, h⟩ := h
    have hscope : event.scopeId = scopeId := hscopes event List.mem_cons_self
    refine Extends.trans ⟨List.prefix_append _ _, fun hl => ⟨fun s => ?_, ?_⟩⟩ (ih (fun e he => hscopes e (.tail _ he)) ?_ h)
    · unfold Ledger.eventsOf
      rw [List.filter_append]
      by_cases hs : scopeId = s
      · subst hs
        rw [List.filter_cons_of_pos (by simpa using hscope)]
        exact (hl.1 scopeId).concat hprevious rfl
      · rw [List.filter_cons_of_neg (by simpa [hscope] using hs), List.filter_nil, List.append_nil]
        exact hl.1 s
    · rw [Ledger.eventIds, Ledger.log, List.map_append, List.map_append]
      exact List.concat_eq_append ▸ hl.2.concat (require_eq_ok.mp hfresh)
    · simp [Ledger.head, Ledger.eventsOf, hscope]

theorem appendEvents_extends {events : List Event} {n : ℕ} (h : appendEvents H l events = .ok (l', n)) : Extends H l l' := by
  unfold appendEvents at h
  split at h
  · obtain ⟨rfl, -⟩ := Prod.mk.inj (Except.ok.inj h)
    exact .of_eq rfl
  · obtain ⟨_, -, h⟩ := bind_eq_ok.mp h
    split at h
    · obtain ⟨_, -, h⟩ := bind_eq_ok.mp h
      obtain ⟨rfl, -⟩ := Prod.mk.inj (pure_eq_ok.mp h)
      exact .of_eq rfl
    · simp only [bind_eq_ok, require_eq_ok, pure_eq_ok, Prod.mk.injEq] at h
      obtain ⟨_, hscopes, _, hinsert, rfl, -⟩ := h
      exact insertEvents_extends hscopes rfl hinsert

/-! ## Calls -/

variable {order : OrderRow} {n : Notice} {sync sync' : Sync}

theorem reviseFee_extends {payload : Payload} (h : reviseFee H scopeId order n payload sync = .ok sync') :
    Extends H sync.ledger sync'.ledger := by
  simp only [reviseFee, bind_eq_ok] at h
  obtain ⟨_, _, _, _, _, _, h⟩ := h
  split_ifs at h
  · obtain rfl := pure_eq_ok.mp h
    exact .of_eq rfl
  · obtain rfl := pure_eq_ok.mp h
    exact .of_eq rfl
  · simp only [bind_eq_ok, pure_eq_ok] at h
    obtain ⟨_, _, _, _, _, _, ⟨_, _⟩, happ, rfl⟩ := h
    exact appendEvents_extends happ

theorem bookFill_extends (h : bookFill H scopeId order n sync = .ok sync') : Extends H sync.ledger sync'.ledger := by
  simp only [bookFill, bind_eq_ok] at h
  obtain ⟨_, _, _, _, _, _, _, _, _, _, ⟨_, _⟩, happ, h⟩ := h
  split_ifs at h
  all_goals
    obtain rfl := pure_eq_ok.mp h
    exact appendEvents_extends happ

theorem bookStatus_extends (h : bookStatus H scopeId order n sync = .ok sync') : Extends H sync.ledger sync'.ledger := by
  unfold bookStatus at h
  split_ifs at h
  · simp only [bind_eq_ok, pure_eq_ok] at h
    obtain ⟨⟨_, _⟩, happ, rfl⟩ := h
    exact appendEvents_extends happ
  · obtain rfl := Except.ok.inj h
    exact .of_eq rfl

theorem applyRow_extends {row : Collected} (h : applyRow H scopeId sync row = .ok sync') : Extends H sync.ledger sync'.ledger := by
  simp only [applyRow, bind_eq_ok] at h
  obtain ⟨_, _, h⟩ := h
  split at h
  · split at h
    · exact reviseFee_extends h
    · obtain ⟨_, hfill, h⟩ := bind_eq_ok.mp h
      exact (bookFill_extends hfill).trans (bookStatus_extends h)
  · exact bookStatus_extends h

theorem applyRows_extends {rows : List Collected} (h : rows.foldlM (applyRow H scopeId) sync = .ok sync') :
    Extends H sync.ledger sync'.ledger := by
  induction rows generalizing sync with
  | nil =>
    obtain rfl := pure_eq_ok.mp h
    exact .of_eq rfl
  | cons row rows ih =>
    rw [List.foldlM_cons] at h
    obtain ⟨_, hrow, h⟩ := bind_eq_ok.mp h
    exact (applyRow_extends hrow).trans (ih h)

theorem extends_of_op (h : Op H l l') : Extends H l l' := by
  cases h with
  | registerScope h =>
    simp only [registerScope, bind_eq_ok] at h
    obtain ⟨_, _, _, _, _, _, _, _, h⟩ := h
    split at h
    · obtain rfl := pure_eq_ok.mp h
      exact .of_eq rfl
    · simp only [bind_eq_ok, pure_eq_ok] at h
      obtain ⟨_, _, _, _, _, _, rfl⟩ := h
      exact .of_eq rfl
  | accept h =>
    simp only [recordAcceptedOrder, bind_eq_ok] at h
    obtain ⟨_, _, _, _, _, _, h⟩ := h
    split at h
    · simp only [bind_eq_ok, pure_eq_ok, Prod.mk.injEq] at h
      obtain ⟨_, _, _, _, _, _, ⟨_, _⟩, happ, rfl, -⟩ := h
      have hextends := appendEvents_extends happ
      exact hextends
    · simp only [bind_eq_ok, pure_eq_ok, Prod.mk.injEq] at h
      obtain ⟨_, _, _, _, ⟨_, _⟩, happ, rfl, -⟩ := h
      exact appendEvents_extends happ
  | cross h =>
    simp only [recordInternalCross, bind_eq_ok] at h
    obtain ⟨_, _, _, _, _, _, _, _, _, _, _, _, happ⟩ := h
    exact appendEvents_extends happ
  | apply h =>
    simp only [applyExecutionEvents, bind_eq_ok, pure_eq_ok, Prod.mk.injEq] at h
    obtain ⟨_, _, _, _, _, hsync, rfl, -⟩ := h
    exact applyRows_extends hsync
  | reconcile h =>
    simp only [reconcileRestart, bind_eq_ok] at h
    obtain ⟨_, _, _, _, _, _, _, _, _, _, _, _, h⟩ := h
    split_ifs at h
    · simp only [bind_eq_ok, pure_eq_ok, Prod.mk.injEq] at h
      obtain ⟨⟨_, _⟩, happ, rfl, -⟩ := h
      exact appendEvents_extends happ
    · obtain ⟨rfl, -⟩ := Prod.mk.inj (pure_eq_ok.mp h)
      exact .of_eq rfl

theorem ops_extend (h : Relation.ReflTransGen (Op H) l l') : Extends H l l' := by
  induction h with
  | refl => exact .of_eq rfl
  | tail _ op ih => exact ih.trans (extends_of_op op)

/-- No two contents of the tables share a hash. -/
def Collisionless (H : Hashes) (l l' : Ledger) : Prop :=
  ∀ r ∈ l.events, ∀ r' ∈ l'.events, H.event r.toEvent r.previousHash = H.event r'.toEvent r'.previousHash →
    r.toEvent = r'.toEvent ∧ r.previousHash = r'.previousHash

theorem verifyHashChain_ok (h : Chained H genesis (l.eventsOf scopeId)) :
    verifyHashChain H l scopeId = .ok ((l.eventsOf scopeId).length, l.head scopeId) := by
  rw [← Nat.zero_add (l.eventsOf scopeId).length]
  exact verifyRows_ok h

/-- **The chain.**  In every reachable ledger event ids are unique and the hash chain of every scope is accepted, with the number of its
events and its head; no later call changes a row; and a table whose chain is accepted with the same result holds the scope's rows. -/
theorem chain_commits_to_history (h : Reachable H l) (scopeId : Text) :
    l.eventIds.Nodup ∧ verifyHashChain H l scopeId = .ok ((l.eventsOf scopeId).length, l.head scopeId) ∧
    (∀ l', Relation.ReflTransGen (Op H) l l' → l.events <+: l'.events) ∧
    ∀ l', Collisionless H l l' → verifyHashChain H l' scopeId = verifyHashChain H l scopeId → l'.eventsOf scopeId = l.eventsOf scopeId := by
  obtain ⟨hchains, hids⟩ := (ops_extend h).2 ⟨fun _ => trivial, List.nodup_nil⟩
  have hverify := verifyHashChain_ok (hchains scopeId)
  refine ⟨hids, hverify, fun l' hlater => (ops_extend hlater).1, fun l' hapart hsame => ?_⟩
  rw [hverify] at hsame
  have hchain' : Chained H genesis (l'.eventsOf scopeId) := Context.verifyRows_chained hsame
  obtain ⟨hlen, htip⟩ := Prod.mk.inj (Except.ok.inj ((verifyHashChain_ok hchain').symm.trans hsame))
  exact ((hchains scopeId).eq_of_tip hchain' (fun r hr r' hr' => hapart r (List.mem_of_mem_filter hr) r' (List.mem_of_mem_filter hr'))
    hlen.symm htip.symm).1.symm

end chain

instance (H : Hashes) (l l' : Ledger) : Decidable (Collisionless H l l') := by unfold Collisionless; infer_instance

/-- A ledger with an order, and a copy of its events. -/
theorem reachable_sample : ∃ (l : Ledger) (scopeId : Text), Reachable sampleHashes l ∧ l.orders.length = 1 ∧
    (l.eventsOf scopeId).length = 1 ∧ Collisionless sampleHashes l { l with orders := [] } := by
  obtain ⟨l₀, hl₀, targets, -, plan, -, l₁, haccept, hone, hlen, hapart⟩ : ∃ l₀, sampleScope = .ok l₀ ∧
      ∃ targets, sampleTargets = .ok targets ∧ ∃ plan, samplePlan targets = .ok plan ∧
      ∃ l₁ : Ledger × Bool, recordAcceptedOrder sampleHashes l₀ plan "order-1" "" (.stamp 0) = .ok l₁ ∧ l₁.1.orders.length = 1 ∧
      (l₁.1.eventsOf plan.scopeId).length = 1 ∧ Collisionless sampleHashes l₁.1 { l₁.1 with orders := [] } := by
    decide +kernel
  exact ⟨l₁.1, plan.scopeId, (Relation.ReflTransGen.single (.registerScope hl₀)).tail (.accept haccept), hone, hlen, hapart⟩

theorem chain_commits_sample : ∃ (l l' : Ledger) (scopeId : Text), (l.eventsOf scopeId).length = 1 ∧
    verifyHashChain sampleHashes l scopeId = .ok (1, l.head scopeId) ∧ l'.eventsOf scopeId = l.eventsOf scopeId := by
  obtain ⟨l, scopeId, hl, -, hlen, hapart⟩ := reachable_sample
  obtain ⟨-, hverify, -, hcopy⟩ := chain_commits_to_history hl scopeId
  exact ⟨l, { l with orders := [] }, scopeId, hlen, hlen ▸ hverify, hcopy _ hapart rfl⟩

end LiveTrader.Portfolio
