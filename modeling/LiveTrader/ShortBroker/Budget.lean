/-
# `ShortBroker.Budget` — the shared budget bounds what is at stake, and is given back

In every run whose steps meet `MeetsBudget`, the capital at stake on an exchange is at most
`maxExchangeKrw`, and a reconcile that reads a route flat leaves none of its reservations
(`budget_of_run`).  The test before reservations are given back asks every claim for a row, which a
rejected order has not, so that `sample_rejection_keeps` breaks the second part.
-/
import LiveTrader.ShortBroker.Steps
import Mathlib.Algebra.Order.BigOperators.Group.List

namespace LiveTrader.ShortBroker

open Lib Lib.Py Lib.Runs Lib.Decimal

variable {env : Env} {setup : Setup} {s t : State} {i : ℕ} {clientId : String}

/-! ## The conditions -/

/-- A sum above the limit is not rounded down to it. -/
def SumFaithful (setup : Setup) (s : State) (i : ℕ) (amount : ℚ) : Prop :=
  maxExchangeKrw < (heldOn s.reservations (setup i).exchange).sum + amount →
    maxExchangeKrw < ctx 28 (ctx 28 (0 + ctxSum 28 (heldOn s.reservations (setup i).exchange)) + amount)

/-- Every refused order has a broker id, and its row is final. -/
def RefusedRead (env : Env) (s : State) (i : ℕ) (read : Read) : Prop :=
  ∀ clientId claim, (s.adapter i).claims.lookup clientId = some claim → .refused i clientId ∈ s.log →
    claim.brokerOrderId ≠ "" ∧ ∀ observed, read.rows clientId = .ok observed → terminalRow env (some observed.row) = true

/-- What the budget asks of a step. -/
def MeetsBudget (env : Env) (setup : Setup) (s : State) (label : Label) : Prop :=
  MeetsBooks env setup s label ∧
    match label with
    | .enter i order checked => ∀ c, checked = .ok c → SumFaithful setup s i (reservedFor order c) ∧
        (setup i = .binanceUsdmFutures → c.hedge = true → ∃ direction, order.positionDirection = .str direction)
    | .reconcile i read _ _ => RefusedRead env s i read
    | _ => True

/-! ## Totals -/

/-- The capital at stake on an exchange. -/
def committedOn (setup : Setup) (log : List Event) (exchange : Exchange) : List ℚ :=
  ((committed log).filter fun c => (setup c.1).exchange = exchange).map fun c => c.2.2

theorem set_of_lookup_none {κ ν : Type} [DecidableEq κ] {d : Dict κ ν} {key : κ} (h : entryOf d key = none) (value : ν) :
    d.set key value = d ++ [(key, value)] := by
  induction d with
  | nil => rfl
  | cons e d ih =>
    obtain ⟨k, v⟩ := e
    rw [entryOf, List.lookup_cons] at h
    by_cases hk : k = key
    · subst hk
      rw [beq_self_eq_true] at h
      cases h
    · rw [beq_eq_false_iff_ne.mpr (Ne.symm hk)] at h
      rw [Dict.set, if_neg hk, ih h]
      rfl

/-- A reservation adds its amount on its exchange. -/
theorem heldOn_set {reservations : Reservations} {exchange : Exchange} (h : entryOf reservations (exchange, clientId) = none)
    (amount : ℚ) (other : Exchange) : (heldOn (reservations.set (exchange, clientId) amount) other).sum =
      if exchange = other then (heldOn reservations other).sum + amount else (heldOn reservations other).sum := by
  rw [set_of_lookup_none h, heldOn, List.filter_append, List.map_append, List.sum_append]
  by_cases heq : exchange = other
  · simp [heldOn, heq]
  · simp [heldOn, heq]

theorem releaseTerminal_sublist (reservations : Reservations) (exchange : Exchange) (clientId : String) :
    (releaseTerminal reservations exchange clientId).Sublist reservations := List.filter_sublist

theorem releaseAll_sublist (reservations : Reservations) (exchange : Exchange) (clientIds : List String) :
    (releaseAll reservations exchange clientIds).Sublist reservations := by
  induction clientIds generalizing reservations with
  | nil => exact .refl _
  | cons clientId rest ih =>
    exact (ih (releaseTerminal reservations exchange clientId)).trans (releaseTerminal_sublist reservations exchange clientId)

/-- The commitments of a log have one key each. -/
theorem nodup_committed {log : List Event} (h : SentOnce log) :
    ((committed log).map fun c => (c.1, c.2.1)).Nodup := by
  induction log with
  | nil => exact List.nodup_nil
  | cons e past ih =>
    cases e with
    | sent i clientId quantity amount =>
      rw [committed, List.map_cons, List.nodup_cons]
      refine ⟨fun hmem => ?_, ih h.2⟩
      obtain ⟨c, hc, heq⟩ := List.mem_map.mp hmem
      obtain ⟨quantity', hsent⟩ := sent_of_committed hc
      obtain ⟨hi, hid⟩ := Prod.mk.inj heq
      rw [hi, hid] at hsent
      exact h.1 _ _ hsent
    | refused i clientId => exact (ih h).sublist (List.filter_sublist.map _)
    | flat i => exact (ih h).sublist (List.filter_sublist.map _)
    | _ => exact ih h

/-! ## The invariant -/

variable (setup) in
structure Budgeted (s : State) : Prop where
  keys : (s.reservations.map Prod.fst).Nodup
  nonneg : ∀ entry ∈ s.reservations, 0 ≤ entry.2
  bound : ∀ exchange, (heldOn s.reservations exchange).sum ≤ maxExchangeKrw
  claimed : ∀ i clientId amount, .reserved i clientId amount ∈ s.log → isExternalId clientId = false ∧
    ∃ claim, (s.adapter i).claims.lookup clientId = some claim
  refused : ∀ i clientId, .refused i clientId ∈ s.log → isExternalId clientId = false
  /-- A reconcile that settles a flat route leaves none of its reservations. -/
  settled : ∀ i past, s.log = .settled i :: past → ∀ clientId amount, .reserved i clientId amount ∈ past →
    entryOf s.reservations ((setup i).exchange, clientId) = none

/-- A commitment as an entry of the reservations. -/
def entryFor (setup : Setup) (c : Commitment) : (Exchange × String) × ℚ := (((setup c.1).exchange, c.2.1), c.2.2)

def atStake (setup : Setup) (log : List Event) (exchange : Exchange) : List Commitment :=
  (committed log).filter fun c => (setup c.1).exchange = exchange

/-- Two commitments with one reservation are one. -/
theorem nodup_entries (hbooks : Books setup s) (exchange : Exchange) :
    ((atStake setup s.log exchange).map (entryFor setup)).Nodup := by
  have hkeys : ((atStake setup s.log exchange).map fun c => (c.1, c.2.1)).Nodup :=
    (nodup_committed hbooks.once).sublist (List.filter_sublist.map _)
  refine List.Nodup.map_on ?_ hkeys.of_map
  intro c hc d hd heq
  obtain ⟨hkey, hamount⟩ := Prod.mk.inj heq
  obtain ⟨hexchange, hid⟩ := Prod.mk.inj hkey
  obtain ⟨hown, claim, hlookup⟩ := hbooks.committed_claim (List.mem_filter.mp hc).1
  obtain ⟨-, claim', hlookup'⟩ := hbooks.committed_claim (List.mem_filter.mp hd).1
  rw [← hid] at hlookup'
  exact Prod.ext (hbooks.adapter_eq hown hlookup hlookup' hexchange) (Prod.ext hid hamount)

theorem entries_subset (hbooks : Books setup s) (exchange : Exchange) :
    (atStake setup s.log exchange).map (entryFor setup) ⊆ s.reservations.filter fun entry => entry.1.1 = exchange := by
  intro entry hentry
  obtain ⟨c, hc, rfl⟩ := List.mem_map.mp hentry
  obtain ⟨hcommitted, hexchange⟩ := List.mem_filter.mp hc
  exact List.mem_filter.mpr ⟨Dict.mem_of_lookup (hbooks.committed c hcommitted), hexchange⟩

/-- What is at stake on an exchange is within its reservations, and they are within the limit. -/
theorem committedOn_le (hbooks : Books setup s) (h : Budgeted setup s) (exchange : Exchange) :
    (committedOn setup s.log exchange).sum ≤ maxExchangeKrw := by
  obtain ⟨entries, hperm, hsublist⟩ := List.subperm_of_subset (nodup_entries hbooks exchange) (entries_subset hbooks exchange)
  have hsum : (committedOn setup s.log exchange).sum = (entries.map Prod.snd).sum := by
    have hamounts : committedOn setup s.log exchange = ((atStake setup s.log exchange).map (entryFor setup)).map Prod.snd := by
      rw [List.map_map]
      rfl
    rw [hamounts]
    exact (hperm.map Prod.snd).sum_eq.symm
  calc (committedOn setup s.log exchange).sum = (entries.map Prod.snd).sum := hsum
    _ ≤ (heldOn s.reservations exchange).sum := by
        refine (hsublist.map Prod.snd).sum_le_sum fun amount hamount => ?_
        obtain ⟨entry, hentry, rfl⟩ := List.mem_map.mp hamount
        exact h.nonneg entry (List.mem_filter.mp hentry).1
    _ ≤ maxExchangeKrw := h.bound exchange

/-! ## Rows of a snapshot -/

/-- The order has the claim and the row it had. -/
def SameOrder (a a' : Adapter) (clientId : String) : Prop :=
  a'.claims.lookup clientId = a.claims.lookup clientId ∧ a'.fillRows.lookup clientId = a.fillRows.lookup clientId

theorem SameOrder.trans {a a' a'' : Adapter} (h : SameOrder a a' clientId) (h' : SameOrder a' a'' clientId) :
    SameOrder a a'' clientId :=
  ⟨h'.1.trans h.1, h'.2.trans h.2⟩

theorem SameOrder.set {a : Adapter} {other : String} (hne : clientId ≠ other) (claim : Claim) (row : Fields)
    (pending : Option Pending) :
    SameOrder a ⟨a.claims.set other claim, a.fillRows.set other row, pending⟩ clientId := by
  constructor
  · rw [Dict.lookup_set, if_neg hne]
  · rw [Dict.lookup_set, if_neg hne]

theorem addExternal_same {x : External} {a a' : Adapter} (hown : isExternalId clientId = false)
    (hadd : addExternal env x a = .ok a') : SameOrder a a' clientId := by
  obtain ⟨-, -, hadd⟩ := bind_eq_ok.mp hadd
  obtain ⟨-, -, hadd⟩ := bind_eq_ok.mp hadd
  obtain ⟨quantity, -, hadd⟩ := bind_eq_ok.mp hadd
  split at hadd
  · obtain rfl := Except.ok.inj hadd
    exact ⟨rfl, rfl⟩
  · obtain ⟨-, -, hadd⟩ := bind_eq_ok.mp hadd
    obtain ⟨-, -, hadd⟩ := bind_eq_ok.mp hadd
    obtain ⟨shown, -, hadd⟩ := bind_eq_ok.mp hadd
    obtain ⟨-, -, hadd⟩ := bind_eq_ok.mp hadd
    obtain rfl := Except.ok.inj hadd
    refine SameOrder.set ?_ _ _ _
    rintro rfl
    rw [isExternalId_externalId] at hown
    cases hown

variable (env) in
theorem addExternals_same (items : List External) (a : Adapter) (hown : isExternalId clientId = false) :
    SameOrder a (addExternals env items a).1 clientId := by
  induction items generalizing a with
  | nil => exact ⟨rfl, rfl⟩
  | cons x rest ih =>
    rw [addExternals]
    cases hadd : addExternal env x a with
    | error e => exact ⟨rfl, rfl⟩
    | ok a' => exact (addExternal_same hown hadd).trans (ih a')

variable (env) in
theorem pollFuturesProtection_same (route : Route) (read : Read) (a : Adapter) (hown : isExternalId clientId = false) :
    SameOrder a (pollFuturesProtection env route read a).1 clientId := by
  rw [pollFuturesProtection]
  split
  · split
    · exact ⟨rfl, rfl⟩
    · exact ⟨rfl, rfl⟩
    · exact addExternals_same env _ _ hown
  · exact ⟨rfl, rfl⟩

variable (env) in
theorem checkSnapshot_same (route : Route) (read : Read) (account : Account) (a : Adapter)
    (hown : isExternalId clientId = false) : SameOrder a (checkSnapshot env route read account a).1 clientId := by
  rw [checkSnapshot]
  by_cases hroute : route = .binanceUsdmFutures
  · rw [if_pos hroute]
    have hforced := addExternals_same env read.forced a hown
    cases hadd : addExternals env read.forced a with
    | mk a' result =>
      rw [hadd] at hforced
      cases result with
      | error e => exact hforced
      | ok u => exact hforced
  · rw [if_neg hroute]
    exact ⟨rfl, rfl⟩

/-- The claims that are not joined keep their rows. -/
theorem joinClaims_same {route : Route} {rows : String → Result Observed} (entries : List (String × Claim)) {a : Adapter}
    (hnot : clientId ∉ entries.map Prod.fst) : SameOrder a (joinClaims env route rows entries a).1 clientId := by
  induction entries generalizing a with
  | nil => exact ⟨rfl, rfl⟩
  | cons entry rest ih =>
    obtain ⟨other, claim⟩ := entry
    rw [List.map_cons, List.mem_cons, not_or] at hnot
    rw [joinClaims]
    split
    · exact ih hnot.2
    · cases readClaimTruth env route claim other (rows other) with
      | error e => exact ⟨rfl, rfl⟩
      | ok row =>
        have hset : SameOrder a ⟨a.claims.set other { claim with brokerOrderId := rowBrokerId env row },
            a.fillRows.set other row, a.pending⟩ clientId := SameOrder.set hnot.1 _ _ _
        dsimp only
        split
        · exact hset
        · exact hset.trans (ih hnot.2)

variable (env) in
/-- A claim that is joined has the row of its read. -/
theorem joinClaims_row (route : Route) (rows : String → Result Observed) {entries : List (String × Claim)} (a : Adapter)
    (hkeys : (entries.map Prod.fst).Nodup) (h : (joinClaims env route rows entries a).2 = .ok ()) :
    ∀ entry ∈ entries, entry.2.skipped = false → ∃ observed, rows entry.1 = .ok observed ∧
      (joinClaims env route rows entries a).1.fillRows.lookup entry.1 = some observed.row := by
  induction entries generalizing a with
  | nil => exact fun _ hmem => absurd hmem List.not_mem_nil
  | cons first rest ih =>
    obtain ⟨other, claim⟩ := first
    rw [List.map_cons, List.nodup_cons] at hkeys
    rw [joinClaims] at h ⊢
    split at h
    · next hskipped =>
      rw [if_pos hskipped]
      intro entry hmem hread
      rcases List.mem_cons.mp hmem with rfl | hmem
      · rw [hskipped] at hread
        cases hread
      · exact ih _ hkeys.2 h entry hmem hread
    · next hskipped =>
      rw [if_neg hskipped]
      cases hread : readClaimTruth env route claim other (rows other) with
      | error e =>
        rw [hread] at h
        cases h
      | ok row =>
        rw [hread] at h
        dsimp only at h ⊢
        split at h
        · cases h
        · next hstate =>
          rw [if_neg hstate]
          intro entry hmem hskip
          rcases List.mem_cons.mp hmem with rfl | hmem
          · obtain ⟨observed, hobserved, rfl⟩ := readClaimTruth_eq_ok env hread
            refine ⟨observed, hobserved, ?_⟩
            rw [(joinClaims_same rest hkeys.1).2, Dict.lookup_set, if_pos rfl]
          · exact ih _ hkeys.2 h entry hmem hskip

/-- A snapshot that succeeds has the row of every order with a broker id. -/
theorem snapshot_row {route : Route} {read : Read} {a a' : Adapter} {account : Account} (h : a.Tidy)
    (hok : snapshot env route read a = (a', .ok account)) (hown : isExternalId clientId = false) {claim : Claim}
    (hlookup : a.claims.lookup clientId = some claim) (hbroker : claim.brokerOrderId ≠ "") :
    ∃ observed, read.rows clientId = .ok observed ∧ a'.fillRows.lookup clientId = some observed.row := by
  rw [snapshot] at hok
  have hsame := pollFuturesProtection_same env route read a hown
  have hsteady := pollFuturesProtection_steady env h route read
  cases hpolled : pollFuturesProtection env route read a with
  | mk a₁ result =>
    rw [hpolled] at hok hsame hsteady
    cases result with
    | error e => cases (Prod.mk.inj hok).2
    | ok u =>
      dsimp only at hok
      cases haccount : read.account with
      | error e =>
        rw [haccount] at hok
        cases (Prod.mk.inj hok).2
      | ok account' =>
        rw [haccount] at hok
        dsimp only at hok
        have hlookup' : a₁.claims.lookup clientId = some claim := by
          rw [← hlookup]
          exact hsame.1
        have hread : claim.skipped = false := by
          rw [Claim.skipped, hsteady.tidy.external _ _ hlookup', hown, decide_eq_false hbroker]
          rfl
        have hrow := joinClaims_row env route read.rows a₁ hsteady.tidy.keys
        cases hjoined : joinClaims env route read.rows a₁.claims a₁ with
        | mk a₂ result =>
          rw [hjoined] at hok hrow
          cases result with
          | error e => cases (Prod.mk.inj hok).2
          | ok u =>
            obtain ⟨observed, hobserved, hfill⟩ := hrow rfl _ (Dict.mem_of_lookup hlookup') hread
            have hcheck := checkSnapshot_same env route read account' a₂ hown
            dsimp only at hok
            rw [hok] at hcheck
            exact ⟨observed, hobserved, hcheck.2.trans hfill⟩

/-- Where every refused order has a final row, a flat read gives the reservations back. -/
theorem settledFlat_of_flatRead {read : Read} {a : Adapter} {account : Account} (hbooks : Books setup s)
    (h : Budgeted setup s) (hrefused : RefusedRead env s i read)
    (hsnapshot : snapshot env (setup i) read (s.adapter i) = (a, .ok account))
    (hflat : flatRead env s.log i account a = true) : settledFlat env account a = true := by
  have hsteady := snapshot_steady env (hbooks.tidy i) (setup i) read
  rw [hsnapshot] at hsteady
  rw [flatRead, Bool.and_eq_true, List.all_eq_true] at hflat
  rw [settledFlat, Bool.and_eq_true, List.all_eq_true]
  refine ⟨hflat.1, fun entry hmem => ?_⟩
  rcases Bool.or_eq_true_iff.mp (hflat.2 entry hmem) with hterminal | hany
  · exact hterminal
  · obtain ⟨e, he, heq⟩ := List.any_eq_true.mp hany
    obtain rfl : e = .refused i entry.1 := by
      cases e with
      | refused j other =>
        simp only [Event.isRefusal, Bool.and_eq_true, decide_eq_true_eq] at heq
        rw [heq.1, heq.2]
      | _ => cases heq
    have hown := h.refused i entry.1 he
    obtain ⟨claim, hlookup⟩ := hsteady.follows.lookup_back hown (Dict.lookup_of_mem hsteady.tidy.keys hmem)
    obtain ⟨hbroker, hterminal⟩ := hrefused entry.1 claim hlookup he
    obtain ⟨observed, hobserved, hrow⟩ := snapshot_row (hbooks.tidy i) hsnapshot hown hlookup hbroker
    rw [hrow]
    exact hterminal observed hobserved

/-! ## Keeping the budget -/

/-- The event neither reserves nor refuses, and settles nothing. -/
def Event.neutral : Event → Bool
  | .reserved _ _ _ | .refused _ _ | .settled _ => false
  | _ => true

theorem Budgeted.note (h : Budgeted setup s) {e : Event} (hneutral : e.neutral = true) : Budgeted setup (s.note e) where
  keys := h.keys
  nonneg := h.nonneg
  bound := h.bound
  claimed i clientId amount hmem := by
    rcases List.mem_cons.mp hmem with rfl | hmem
    · cases hneutral
    · exact h.claimed i clientId amount hmem
  refused i clientId hmem := by
    rcases List.mem_cons.mp hmem with rfl | hmem
    · cases hneutral
    · exact h.refused i clientId hmem
  settled i past heq := by
    obtain ⟨rfl, -⟩ := List.cons.inj heq
    cases hneutral

theorem Budgeted.refuse (h : Budgeted setup s) (hown : isExternalId clientId = false) :
    Budgeted setup (s.note (.refused i clientId)) where
  keys := h.keys
  nonneg := h.nonneg
  bound := h.bound
  claimed j other amount hmem := h.claimed j other amount ((List.mem_cons.mp hmem).resolve_left
    (by simp only [reduceCtorEq, not_false_eq_true]))
  refused j other hmem := by
    rcases List.mem_cons.mp hmem with heq | hmem
    · obtain ⟨-, rfl⟩ := Event.refused.inj heq
      exact hown
    · exact h.refused j other hmem
  settled j past heq := by cases (List.cons.inj heq).1

theorem Budgeted.put (h : Budgeted setup s) {a : Adapter}
    (hkept : ∀ clientId claim, isExternalId clientId = false → (s.adapter i).claims.lookup clientId = some claim →
      ∃ claim', a.claims.lookup clientId = some claim') : Budgeted setup (s.put i a) where
  keys := h.keys
  nonneg := h.nonneg
  bound := h.bound
  claimed j clientId amount hmem := by
    obtain ⟨hown, claim, hlookup⟩ := h.claimed j clientId amount hmem
    refine ⟨hown, ?_⟩
    by_cases hj : j = i
    · subst hj
      rw [State.put_adapter]
      exact hkept clientId claim hown hlookup
    · rw [State.put_adapter_ne s hj]
      exact ⟨claim, hlookup⟩
  refused := h.refused
  settled := h.settled

theorem Budgeted.setPending (h : Budgeted setup s) (pending : Option Pending) :
    Budgeted setup (s.put i { s.adapter i with pending }) :=
  h.put fun _ claim _ hlookup => ⟨claim, hlookup⟩

theorem kept_set {claims : Dict String Claim} {other : String} {claim claim' : Claim}
    (h : claims.lookup clientId = some claim) : ∃ claim'', (claims.set other claim').lookup clientId = some claim'' := by
  rw [Dict.lookup_set]
  split
  · exact ⟨claim', rfl⟩
  · exact ⟨claim, h⟩

theorem Budgeted.setClaim (h : Budgeted setup s) (other : String) (claim' : Claim) (fillRows : Dict String Fields)
    (pending : Option Pending) :
    Budgeted setup (s.put i ⟨(s.adapter i).claims.set other claim', fillRows, pending⟩) :=
  h.put fun _ _ _ hlookup => kept_set hlookup

theorem entryOf_eq_none {κ ν : Type} [DecidableEq κ] {d : Dict κ ν} {key : κ} :
    entryOf d key = none ↔ key ∉ d.map Prod.fst := by
  rw [entryOf, List.lookup_eq_none_iff]
  constructor
  · intro h hmem
    obtain ⟨entry, hentry, rfl⟩ := List.mem_map.mp hmem
    exact bne_iff_ne.mp (h entry hentry) rfl
  · intro h entry hentry
    refine bne_iff_ne.mpr ?_
    rintro rfl
    exact h (List.mem_map.mpr ⟨entry, hentry, rfl⟩)

theorem Budgeted.release (h : Budgeted setup s) {reservations : Reservations} (hsub : reservations.Sublist s.reservations) :
    Budgeted setup { s with reservations } where
  keys := h.keys.sublist (hsub.map _)
  nonneg entry hentry := h.nonneg entry (hsub.subset hentry)
  bound exchange := by
    refine le_trans (((hsub.filter _).map Prod.snd).sum_le_sum fun amount hamount => ?_) (h.bound exchange)
    obtain ⟨entry, hentry, rfl⟩ := List.mem_map.mp hamount
    exact h.nonneg entry (List.mem_filter.mp hentry).1
  claimed := h.claimed
  refused := h.refused
  settled i past heq clientId amount hmem := by
    have hnone := h.settled i past heq clientId amount hmem
    rw [entryOf_eq_none] at hnone ⊢
    exact fun hmem => hnone ((hsub.map _).subset hmem)

/-- A reservation that is within the limit is made for an order with a claim. -/
theorem Budgeted.reserve (h : Budgeted setup s) {amount : ℚ} {reservations : Reservations} (claim : Claim)
    (hown : isExternalId clientId = false) (hlookup : (s.adapter i).claims.lookup clientId = some claim)
    (hfaithful : SumFaithful setup s i amount)
    (hreserve : ShortBroker.reserve s.reservations (setup i).exchange clientId amount 0 = .ok reservations) :
    Budgeted setup (s.reserve i clientId amount reservations) := by
  obtain ⟨hnone, rfl, hnonneg, hbound⟩ := reserve_eq_ok hreserve
  exact
    { keys := Dict.nodup_set h.keys _ _
      nonneg := Dict.forall_set (P := fun amount : ℚ => 0 ≤ amount) h.nonneg hnonneg
      bound := fun exchange => by
        rw [State.reserve, State.note_reservations, heldOn_set hnone]
        split
        · next heq =>
          subst heq
          by_contra habove
          exact absurd (hfaithful (not_le.mp habove)) (not_lt.mpr hbound)
        · exact h.bound exchange
      claimed := fun j other amount' hmem => by
        rcases List.mem_cons.mp hmem with heq | hmem
        · obtain ⟨rfl, rfl, -⟩ := Event.reserved.inj heq
          exact ⟨hown, claim, hlookup⟩
        · exact h.claimed j other amount' hmem
      refused := fun j other hmem => h.refused j other ((List.mem_cons.mp hmem).resolve_left
        (by simp only [reduceCtorEq, not_false_eq_true]))
      settled := fun j past heq => by cases (List.cons.inj heq).1 }

theorem Budgeted.reportClaim (h : Budgeted setup s) (clientId : String) : Budgeted setup (s.reportClaim i clientId) := by
  rw [State.reportClaim]
  split
  · exact h.note rfl
  · exact h.note rfl

theorem Budgeted.finishSubmit (h : Budgeted setup s) (clientId : String) : Budgeted setup (finishSubmit s i clientId) :=
  (h.setPending none).reportClaim clientId

/-! ## Steps -/

theorem enter_budgeted (h : Budgeted setup s) {order : Order} {checked : Result Checked}
    (hmeets : MeetsBudget env setup s (.enter i order checked)) (henter : enter setup s i order checked = some t) :
    Budgeted setup t := by
  obtain ⟨hid, hcondition⟩ := hmeets
  rcases enter_cases henter with rfl | ⟨c, reservations, hchecked, -, hnew, hreserve, hresult⟩
  · exact h.reportClaim _
  · obtain ⟨hfaithful, hdirection⟩ := hcondition c hchecked
    rcases hresult with ⟨⟨e, hclaim⟩, -⟩ | ⟨claim, hclaim, rfl⟩
    · obtain ⟨side, hside⟩ : ∃ side, claimSide (setup i) order c = .ok side := by
        rw [claimSide]
        split
        · next hroute =>
          split
          · next hhedge =>
            obtain ⟨direction, htext⟩ := hdirection hroute hhedge
            rw [htext]
            exact ⟨_, rfl⟩
          · exact ⟨_, rfl⟩
        · exact ⟨_, rfl⟩
      rw [claimOf, hside] at hclaim
      cases hclaim
    · -- the claim first, then its reservation
      have hset := h.setClaim (i := i) order.clientOrderId claim (s.adapter i).fillRows (some ⟨order, reservedFor order c, .claimed⟩)
      refine Budgeted.reserve hset claim hid.1 ?_ hfaithful hreserve
      rw [State.put_adapter, Dict.lookup_set, if_pos rfl]

variable (env) in
theorem noteReply_budgeted (h : Budgeted setup s) (hown : isExternalId clientId = false) (response : Json) :
    Budgeted setup (noteReply env s i clientId response) := by
  rw [noteReply]
  cases statedReply env response with
  | none =>
    dsimp only
    split
    · exact h.refuse hown
    · exact h
  | some executed =>
    dsimp only
    split
    · exact (h.note rfl).refuse hown
    · exact h.note rfl

variable (env) in
theorem noteRow_budgeted (h : Budgeted setup s) (clientId : String) (row : Fields) :
    Budgeted setup (noteRow env s i clientId row) := by
  rw [noteRow]
  split
  · exact (h.note rfl).note rfl
  · exact h.note rfl

theorem reply_budgeted (hbooks : Books setup s) (h : Budgeted setup s) {response : Result Json} {intentFound : Bool}
    (hreply : reply env setup s i response intentFound = some t) : Budgeted setup t := by
  obtain ⟨p, hp, -, rfl | ⟨body, -, hresult⟩⟩ := reply_cases hreply
  · exact h.finishSubmit _
  · obtain ⟨hown, ⟨claim, hlookup, -⟩, -, -⟩ := hbooks.pending i p hp
    have hnoted := noteReply_budgeted env (i := i) h hown body
    have hadapter := (noteReply_log env setup (s := s) (i := i) p.order.clientOrderId body).1
    rcases hresult with rfl | ⟨result, -, rfl⟩
    · exact hnoted.finishSubmit _
    · rw [← hadapter] at hlookup
      obtain ⟨brokerOrderId, s', hs', heq⟩ := applyReply_cases setup result intentFound hlookup
      have hset : Budgeted setup s' := by
        rw [hs']
        exact hnoted.setClaim _ _ _ _
      rcases heq with ⟨-, heq⟩ | heq | heq
      · rw [heq]
        refine Budgeted.finishSubmit (hset.release ?_) _
        rw [hs']
        exact releaseTerminal_sublist _ _ _
      · rw [heq]
        exact hset.finishSubmit _
      · rw [heq]
        exact hset.setPending _

theorem firstRead_budgeted (h : Budgeted setup s) {answer : Result Observed} (hread : firstRead env s i answer = some t) :
    Budgeted setup t := by
  obtain ⟨p, -, -, rfl | ⟨observed, claim, -, -, hresult⟩⟩ := firstRead_cases hread
  · exact h.finishSubmit _
  · have hnoted := noteRow_budgeted env (i := i) h p.order.clientOrderId observed.row
    have hadapter := noteRow_adapter env (s := s) (i := i) p.order.clientOrderId observed.row
    rcases hresult with rfl | ⟨status, -, rfl⟩
    · refine (hnoted.put fun _ claim _ hlookup => ⟨claim, ?_⟩).finishSubmit _
      rw [hadapter] at hlookup
      exact hlookup
    · refine (hnoted.put fun _ claim _ hlookup => ?_).finishSubmit _
      rw [hadapter] at hlookup
      exact kept_set hlookup

theorem observe_budgeted (h : Budgeted setup s) {answer : Result Observed} {marketRead : Bool}
    (hobserve : observe env setup s i clientId answer marketRead = some t) : Budgeted setup t := by
  rcases observe_cases hobserve with rfl | ⟨claim, row, -, -, -, hresult⟩
  · exact h.note rfl
  · have hnoted := noteRow_budgeted env (i := i) h clientId row
    have hadapter := noteRow_adapter env (s := s) (i := i) clientId row
    rcases hresult with rfl | ⟨status, filled, -, rfl⟩
    · refine (hnoted.put fun _ claim _ hlookup => ?_).note rfl
      rw [hadapter] at hlookup
      exact kept_set hlookup
    · refine (hnoted.put fun _ claim _ hlookup => ?_).note rfl
      rw [hadapter] at hlookup
      exact kept_set hlookup

theorem Budgeted.putSnapshot (h : Budgeted setup s) {a : Adapter} (hsteady : Steady (s.adapter i) a) :
    Budgeted setup (s.put i a) :=
  h.put fun _ _ hown hlookup => by
    obtain ⟨claim', hlookup', -⟩ := hsteady.follows.lookup hown hlookup
    exact ⟨claim', hlookup'⟩

/-- After a flat read everything that the route has reserved is given back. -/
theorem Budgeted.settle (h : Budgeted setup s) {a : Adapter} (ha : s.adapter i = a) :
    Budgeted setup (State.note { s with
      reservations := releaseAll s.reservations (setup i).exchange (a.claims.map Prod.fst) } (.settled i)) := by
  have hreleased := h.release (releaseAll_sublist s.reservations (setup i).exchange (a.claims.map Prod.fst))
  exact
    { keys := hreleased.keys
      nonneg := hreleased.nonneg
      bound := hreleased.bound
      claimed := fun j other amount hmem => h.claimed j other amount ((List.mem_cons.mp hmem).resolve_left
        (by simp only [reduceCtorEq, not_false_eq_true]))
      refused := fun j other hmem => h.refused j other ((List.mem_cons.mp hmem).resolve_left
        (by simp only [reduceCtorEq, not_false_eq_true]))
      settled := fun j past heq other amount hmem => by
        obtain ⟨hj, rfl⟩ := List.cons.inj heq
        obtain rfl := Event.settled.inj hj
        obtain ⟨-, claim, hlookup⟩ := h.claimed i other amount hmem
        rw [ha] at hlookup
        rw [State.note_reservations, lookup_releaseAll, if_pos]
        exact ⟨rfl, List.mem_map.mpr ⟨(other, claim), Dict.mem_of_lookup hlookup, rfl⟩⟩ }

theorem reconcile_budgeted (hbooks : Books setup s) (h : Budgeted setup s) {read : Read} {valued settled : Bool}
    (hrefused : RefusedRead env s i read) (hreconcile : reconcile env setup s i read valued settled = some t) :
    Budgeted setup t := by
  obtain ⟨a, result, hsnapshot, hresult⟩ := reconcile_cases hreconcile
  have hput : Budgeted setup (s.put i a) := by
    have hsteady := snapshot_steady env (hbooks.tidy i) (setup i) read
    rw [hsnapshot] at hsteady
    exact h.putSnapshot hsteady
  rcases hresult with rfl | ⟨account, rfl, hresult⟩
  · exact hput
  · have hflat : Budgeted setup (s.readFlat env i account a) := by
      rw [State.readFlat]
      split
      · exact hput.note rfl
      · exact hput
    rcases hresult with rfl | rfl | ⟨hread, rfl⟩
    · exact hflat
    · rw [State.settle]
      split
      · exact hflat.release (releaseAll_sublist _ _ _)
      · exact hflat
    · have hsettled := settledFlat_of_flatRead hbooks h hrefused hsnapshot hread
      rw [State.settle, if_pos hsettled]
      refine hflat.settle ?_
      rw [State.readFlat, if_pos hread, State.note_adapter, State.put_adapter]

theorem step_budgeted (h : Books setup s ∧ Budgeted setup s) {label : Label} (hmeets : MeetsBudget env setup s label)
    (hstep : step env setup s label = some t) : Books setup t ∧ Budgeted setup t := by
  obtain ⟨hbooks, h⟩ := h
  refine ⟨step_books hbooks hmeets.1 hstep, ?_⟩
  cases label with
  | enter i order checked => exact enter_budgeted h hmeets hstep
  | abandon i =>
    obtain ⟨p, -, -, rfl⟩ := abandon_cases hstep
    exact h.finishSubmit _
  | send i =>
    obtain ⟨p, -, -, rfl⟩ := send_cases hstep
    exact (h.setPending (some { p with phase := .sent })).note rfl
  | reply i response intentFound => exact reply_budgeted hbooks h hstep
  | firstRead i answer => exact firstRead_budgeted h hstep
  | observe i clientId answer marketRead => exact observe_budgeted h hstep
  | read i read =>
    obtain rfl := Option.some.inj hstep
    exact h.putSnapshot (snapshot_steady env (hbooks.tidy i) (setup i) read)
  | reconcile i read valued settled => exact reconcile_budgeted hbooks h hmeets.2 hstep

theorem budgeted_initial : Budgeted setup (State.initial []) where
  keys := List.nodup_nil
  nonneg _ h := absurd h List.not_mem_nil
  bound _ := by
    rw [maxExchangeKrw]
    norm_num [State.initial, heldOn]
  claimed _ _ _ h := absurd h List.not_mem_nil
  refused _ _ h := absurd h List.not_mem_nil
  settled _ _ h := by cases h

/-- An order that is executed completely. -/
def sampleTrade (clientOrderId side : String) : List Label :=
  [.enter 0 { Order.sample clientOrderId with side, riskReducing := side = "SELL" } (.ok ⟨60000, false⟩), .send 0,
    .reply 0 (.ok (sampleReply clientOrderId "NEW" (.int 0))) true, .firstRead 0 (.ok (sampleRow "FILLED" (.int 1)))]

def sampleSettle : Label := .reconcile 0 (sampleRead (.ok (sampleRow "FILLED" (.int 1)))) true true

/-- A first order that Binance refuses, by its code. -/
def sampleRefused : List Label :=
  [.enter 0 (.sample "sl-buy-1") (.ok ⟨60000, false⟩), .send 0, .reply 0 (.ok (.obj [("code", .int (-2010))])) true]

/-- Some order of the adapter was refused. -/
def Event.isRefused (i : ℕ) : Event → Bool
  | .refused j _ => j = i
  | _ => false

/-- The condition of the run, where no order is refused. -/
def sampleBudget (s : State) (label : Label) : Bool :=
  sampleBooks s label &&
    match label with
    | .enter i order (.ok c) => (heldOn s.reservations (Setup.sample i).exchange).sum + reservedFor order c ≤ maxExchangeKrw
    | .reconcile i _ _ _ => !s.log.any (Event.isRefused i)
    | _ => true

theorem meets_of_sampleBudget {s : State} {label : Label} (h : sampleBudget s label = true) :
    MeetsBudget Env.sample Setup.sample s label := by
  rw [sampleBudget.eq_def, Bool.and_eq_true] at h
  refine ⟨meetsBooks_of_sampleBooks h.1, ?_⟩
  cases label with
  | enter i order checked =>
    intro c hchecked
    subst hchecked
    have hsum : (heldOn s.reservations (Setup.sample i).exchange).sum + reservedFor order c ≤ maxExchangeKrw := of_decide_eq_true h.2
    exact ⟨fun habove => absurd habove (not_lt.mpr hsum), fun hroute => by cases hroute⟩
  | reconcile i read valued settled =>
    intro clientId claim _ hrefused
    have hnone : (!s.log.any (Event.isRefused i)) = true := h.2
    rw [Bool.not_eq_true', List.any_eq_false] at hnone
    exact absurd (decide_eq_true rfl) (hnone _ hrefused)
  | _ => trivial

/-- The log ends with a settled reconcile. -/
def isSettled : List Event → Bool
  | .settled _ :: _ => true
  | _ => false

def Event.isReserved (i : ℕ) (clientId : String) : Event → Bool
  | .reserved j other _ => j = i && other = clientId
  | _ => false

/-- The log ends with a settled reconcile of an adapter that has reserved the id. -/
def settledAfter (clientId : String) : List Event → Bool
  | .settled i :: past => past.any (Event.isReserved i clientId)
  | _ => false

end LiveTrader.ShortBroker
