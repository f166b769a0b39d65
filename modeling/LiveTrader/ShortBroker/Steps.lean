/-
# `ShortBroker.Steps` — every step keeps the books

`MeetsBooks` is what the steps are asked: client ids that are no other adapter's, a refusal that
states no execution, and no row for an order that was not sent.
-/
import LiveTrader.ShortBroker.Books

namespace LiveTrader.ShortBroker

open Lib Lib.Py Lib.Runs Lib.Decimal

variable {env : Env} {setup : Setup} {s t : State} {i : ℕ}

/-! ## The conditions -/

/-- The reply does not refuse an order of which it states an execution. -/
def ReplyConsistent (env : Env) (clientId : String) (response : Json) : Prop :=
  refusesReply env clientId response = true → (statedReply env response).any (0 < ·) = false

/-- The client id is no id of an external execution, and no other adapter of the exchange has reserved it. -/
def OwnId (setup : Setup) (s : State) (i : ℕ) (clientId : String) : Prop :=
  isExternalId clientId = false ∧
    ∀ j amount, .reserved j clientId amount ∈ s.log → (setup j).exchange = (setup i).exchange → j = i

/-- There is no row for the order that is claimed and not yet sent. -/
def RowsSent (s : State) (i : ℕ) (read : Read) : Prop :=
  ∀ p, (s.adapter i).pending = some p → p.phase = .claimed →
    ∀ observed, read.rows p.order.clientOrderId ≠ .ok observed

/-- What the invariant asks of a step. -/
def MeetsBooks (env : Env) (setup : Setup) (s : State) : Label → Prop
  | .enter i order _ => OwnId setup s i order.clientOrderId
  | .reply i response _ => ∀ p, (s.adapter i).pending = some p → ∀ body, response = .ok body →
      ReplyConsistent env p.order.clientOrderId body
  | .reconcile i read _ _ => RowsSent s i read
  | _ => True

/-! ## What a step does -/

/-- The state after a reservation. -/
def State.reserve (s : State) (i : ℕ) (clientId : String) (amount : ℚ) (reservations : Reservations) : State :=
  State.note { s with reservations } (.reserved i clientId amount)

theorem pendingIn_eq_some {a : Adapter} {phase : Phase} {p : Pending} (h : pendingIn a phase = some p) :
    a.pending = some p ∧ p.phase = phase := by
  obtain ⟨hp, hphase⟩ := Option.filter_eq_some_iff.mp h
  exact ⟨hp, of_decide_eq_true hphase⟩

/-- A submit returns what it has, or reserves; then it has a claim, or returns without one. -/
theorem enter_cases {order : Order} {checked : Result Checked} (h : enter setup s i order checked = some t) :
    t = s.reportClaim i order.clientOrderId ∨ ∃ c reservations, checked = .ok c ∧ (s.adapter i).pending = none ∧
      (s.adapter i).claims.lookup order.clientOrderId = none ∧
      reserve s.reservations (setup i).exchange order.clientOrderId (reservedFor order c) 0 = .ok reservations ∧
      ((∃ e, claimOf (setup i) order c = .error e) ∧
          t = (s.reserve i order.clientOrderId (reservedFor order c) reservations).reportClaim i order.clientOrderId ∨
        ∃ claim, claimOf (setup i) order c = .ok claim ∧
          t = (s.reserve i order.clientOrderId (reservedFor order c) reservations).put i { s.adapter i with
            claims := (s.adapter i).claims.set order.clientOrderId claim
            pending := some ⟨order, reservedFor order c, .claimed⟩ }) := by
  rw [enter.eq_def] at h
  dsimp only at h
  split at h
  · cases h
  · next hidle =>
    split at h
    · exact .inl (Option.some.inj h).symm
    · next hnew =>
      rw [Bool.not_eq_true, Option.isSome_eq_false_iff, Option.isNone_iff_eq_none] at hnew hidle
      cases checked with
      | error e => exact .inl (Option.some.inj h).symm
      | ok c =>
        dsimp only at h
        cases hreserve : reserve s.reservations (setup i).exchange order.clientOrderId (reservedFor order c) 0 with
        | error e =>
          rw [hreserve] at h
          exact .inl (Option.some.inj h).symm
        | ok reservations =>
          rw [hreserve] at h
          refine .inr ⟨c, reservations, rfl, hidle, hnew, hreserve, ?_⟩
          cases hclaim : claimOf (setup i) order c with
          | error e =>
            rw [hclaim] at h
            exact .inl ⟨⟨e, rfl⟩, (Option.some.inj h).symm⟩
          | ok claim =>
            rw [hclaim] at h
            exact .inr ⟨claim, rfl, (Option.some.inj h).symm⟩

theorem abandon_cases (h : abandon s i = some t) : ∃ p, (s.adapter i).pending = some p ∧ p.phase = .claimed ∧
    t = finishSubmit s i p.order.clientOrderId := by
  rw [abandon] at h
  split at h
  · cases h
  · next p hp =>
    obtain ⟨hp, hphase⟩ := pendingIn_eq_some hp
    exact ⟨p, hp, hphase, (Option.some.inj h).symm⟩

theorem send_cases (h : send s i = some t) : ∃ p, (s.adapter i).pending = some p ∧ p.phase = .claimed ∧
    t = (s.put i { s.adapter i with pending := some { p with phase := .sent } }).note
      (.sent i p.order.clientOrderId p.order.quantity p.amount) := by
  rw [send] at h
  split at h
  · cases h
  · next p hp =>
    obtain ⟨hp, hphase⟩ := pendingIn_eq_some hp
    exact ⟨p, hp, hphase, (Option.some.inj h).symm⟩

theorem reply_cases {response : Result Json} {intentFound : Bool}
    (h : reply env setup s i response intentFound = some t) : ∃ p, (s.adapter i).pending = some p ∧ p.phase = .sent ∧
      (t = finishSubmit s i p.order.clientOrderId ∨ ∃ body, response = .ok body ∧
        (t = finishSubmit (noteReply env s i p.order.clientOrderId body) i p.order.clientOrderId ∨
          ∃ result, normalizeReply env body p.order = .ok result ∧
            t = applyReply setup (noteReply env s i p.order.clientOrderId body) i p result intentFound)) := by
  rw [reply] at h
  split at h
  · cases h
  · next p hp =>
    obtain ⟨hp, hphase⟩ := pendingIn_eq_some hp
    refine ⟨p, hp, hphase, ?_⟩
    cases response with
    | error e => exact .inl (Option.some.inj h).symm
    | ok body =>
      refine .inr ⟨body, rfl, ?_⟩
      dsimp only at h
      cases hnormal : normalizeReply env body p.order with
      | error e =>
        rw [hnormal] at h
        exact .inl (Option.some.inj h).symm
      | ok result =>
        rw [hnormal] at h
        exact .inr ⟨result, rfl, (Option.some.inj h).symm⟩

/-- The claim has the status of the reply; only a rejection gives the reservation back, and only another
reply goes on to a read. -/
theorem applyReply_cases (setup : Setup) {p : Pending} (result : Reply) (intentFound : Bool) {claim : Claim}
    (hlookup : (s.adapter i).claims.lookup p.order.clientOrderId = some claim) :
    ∃ brokerOrderId, ∃ s', s' = s.put i { s.adapter i with
        claims := (s.adapter i).claims.set p.order.clientOrderId { claim with status := result.status, brokerOrderId } } ∧
      ((result.status = .rejected ∧ applyReply setup s i p result intentFound =
          finishSubmit { s' with reservations := releaseTerminal s.reservations (setup i).exchange p.order.clientOrderId }
            i p.order.clientOrderId) ∨
        applyReply setup s i p result intentFound = finishSubmit s' i p.order.clientOrderId ∨
        applyReply setup s i p result intentFound =
          s'.put i { s'.adapter i with pending := some { p with phase := .replied } }) := by
  rw [applyReply]
  dsimp only
  rw [hlookup]
  dsimp only
  generalize (if result.brokerOrderId = "" then claim.brokerOrderId else result.brokerOrderId) = brokerOrderId
  refine ⟨brokerOrderId, _, rfl, ?_⟩
  split
  · next hstatus =>
    split
    · exact .inl ⟨hstatus, rfl⟩
    · exact .inr (.inl rfl)
  · split
    · exact .inr (.inl rfl)
    · exact .inr (.inr rfl)

/-- The first read is passed over, or the claim gets the row, and a status if it has one. -/
theorem firstRead_cases {answer : Result Observed} (h : firstRead env s i answer = some t) :
    ∃ p, (s.adapter i).pending = some p ∧ p.phase = .replied ∧
      (t = finishSubmit s i p.order.clientOrderId ∨ ∃ observed claim, answer = .ok observed ∧
        (s.adapter i).claims.lookup p.order.clientOrderId = some claim ∧
        (t = finishSubmit ((noteRow env s i p.order.clientOrderId observed.row).put i { s.adapter i with
            fillRows := (s.adapter i).fillRows.set p.order.clientOrderId observed.row }) i p.order.clientOrderId ∨
          ∃ status, firstStatus env observed.row p.order.quantity = .ok status ∧
            t = finishSubmit ((noteRow env s i p.order.clientOrderId observed.row).put i { s.adapter i with
              claims := (s.adapter i).claims.set p.order.clientOrderId { claim with status }
              fillRows := (s.adapter i).fillRows.set p.order.clientOrderId observed.row }) i p.order.clientOrderId)) := by
  rw [firstRead] at h
  split at h
  · cases h
  · next p hp =>
    obtain ⟨hp, hphase⟩ := pendingIn_eq_some hp
    refine ⟨p, hp, hphase, ?_⟩
    dsimp only at h
    split at h
    · next observed claim hlookup =>
      split at h
      · refine .inr ⟨observed, claim, rfl, hlookup, ?_⟩
        cases hfirst : firstStatus env observed.row p.order.quantity with
        | error e =>
          rw [hfirst] at h
          exact .inl (Option.some.inj h).symm
        | ok status =>
          rw [hfirst] at h
          exact .inr ⟨status, rfl, (Option.some.inj h).symm⟩
      · exact .inl (Option.some.inj h).symm
    · exact .inl (Option.some.inj h).symm

/-- An observation is unknown, or has read the claim's order: then it is unknown still, or has its status. -/
theorem observe_cases {clientId : String} {answer : Result Observed} {marketRead : Bool}
    (h : observe env setup s i clientId answer marketRead = some t) :
    t = s.note (.reported i clientId .unknown) ∨ ∃ claim row, (s.adapter i).pending = none ∧
      (s.adapter i).claims.lookup clientId = some claim ∧ readClaimTruth env (setup i) claim clientId answer = .ok row ∧
      (t = ((noteRow env s i clientId row).put i { s.adapter i with
          claims := (s.adapter i).claims.set clientId { claim with brokerOrderId := rowBrokerId env row } }).note
            (.reported i clientId .unknown) ∨
        ∃ status filled, observeRow env (setup i) { claim with brokerOrderId := rowBrokerId env row }
            (s.adapter i).fillRows clientId row = .ok (status, filled) ∧
          t = ((noteRow env s i clientId row).put i { s.adapter i with
            claims := (s.adapter i).claims.set clientId { claim with brokerOrderId := rowBrokerId env row, status }
            fillRows := (s.adapter i).fillRows.set clientId row }).note (.reported i clientId status)) := by
  rw [observe] at h
  dsimp only at h
  split at h
  · cases h
  · next hidle =>
    rw [Bool.not_eq_true, Option.isSome_eq_false_iff, Option.isNone_iff_eq_none] at hidle
    cases hlookup : (s.adapter i).claims.lookup clientId with
    | none =>
      rw [hlookup] at h
      exact .inl (Option.some.inj h).symm
    | some claim =>
      rw [hlookup] at h
      dsimp only at h
      cases hread : readClaimTruth env (setup i) claim clientId answer with
      | error e =>
        rw [hread] at h
        exact .inl (Option.some.inj h).symm
      | ok row =>
        rw [hread] at h
        dsimp only at h
        refine .inr ⟨claim, row, hidle, rfl, hread, ?_⟩
        split at h
        · next status filled hrow =>
          rw [State.put_put] at h
          exact .inr ⟨status, filled, hrow, (Option.some.inj h).symm⟩
        · exact .inl (Option.some.inj h).symm

/-- The state after a snapshot of a reconcile. -/
def State.readFlat (env : Env) (s : State) (i : ℕ) (account : Account) (a : Adapter) : State :=
  if flatRead env s.log i account a = true then (s.put i a).note (.flat i) else s.put i a

/-- What a reconcile gives back. -/
def State.settle (env : Env) (setup : Setup) (s : State) (i : ℕ) (account : Account) (a : Adapter) : State :=
  if settledFlat env account a = true then
    { s with reservations := releaseAll s.reservations (setup i).exchange (a.claims.map Prod.fst) }
  else s

/-- A reconcile ends with its snapshot, before it gives reservations back, or after it. -/
theorem reconcile_cases {read : Read} {valued settled : Bool} (h : reconcile env setup s i read valued settled = some t) :
    ∃ a result, snapshot env (setup i) read (s.adapter i) = (a, result) ∧ (t = s.put i a ∨ ∃ account, result = .ok account ∧
      (t = s.readFlat env i account a ∨ t = (s.readFlat env i account a).settle env setup i account a ∨
        flatRead env s.log i account a = true ∧
          t = ((s.readFlat env i account a).settle env setup i account a).note (.settled i))) := by
  rw [reconcile] at h
  cases hsnapshot : snapshot env (setup i) read (s.adapter i) with
  | mk a result =>
    rw [hsnapshot] at h
    refine ⟨a, result, rfl, ?_⟩
    cases result with
    | error e => exact .inl (Option.some.inj h).symm
    | ok account =>
      refine .inr ⟨account, rfl, ?_⟩
      dsimp only at h
      split at h
      · split at h
        · next hdone =>
          exact .inr (.inr ⟨(Bool.and_eq_true_iff.mp hdone).2, (Option.some.inj h).symm⟩)
        · exact .inr (.inl (Option.some.inj h).symm)
      · exact .inl (Option.some.inj h).symm

/-! ## Reservations -/

/-- Only one adapter of an exchange has a claim with a client id. -/
theorem Books.adapter_eq (h : Books setup s) {j : ℕ} {clientId : String} {claim claim' : Claim}
    (hown : isExternalId clientId = false) (hi : (s.adapter i).claims.lookup clientId = some claim)
    (hj : (s.adapter j).claims.lookup clientId = some claim') (hexchange : (setup i).exchange = (setup j).exchange) :
    i = j := by
  obtain ⟨amount, hreserved⟩ := h.reserved i clientId claim hi hown
  obtain ⟨amount', hreserved'⟩ := h.reserved j clientId claim' hj hown
  exact h.unique i j clientId amount amount' hreserved hreserved' hexchange

/-- What is at stake, and the submits that have not called the transport, keep their reservations. -/
theorem Books.setReservations (h : Books setup s) {reservations : Reservations}
    (hcommitted : ∀ c ∈ ShortBroker.committed s.log, entryOf reservations ((setup c.1).exchange, c.2.1) =
      entryOf s.reservations ((setup c.1).exchange, c.2.1))
    (hpending : ∀ j p, (s.adapter j).pending = some p → p.phase = .claimed →
      entryOf reservations ((setup j).exchange, p.order.clientOrderId) =
        entryOf s.reservations ((setup j).exchange, p.order.clientOrderId)) :
    Books setup { s with reservations } where
  tidy := h.tidy
  reserved := h.reserved
  unique := h.unique
  sent := h.sent
  once := h.once
  pending j p hp := by
    obtain ⟨hown, hclaim, hunsent, hsent⟩ := h.pending j p hp
    exact ⟨hown, hclaim, fun hphase => ⟨(hunsent hphase).1, (hpending j p hp hphase).trans (hunsent hphase).2⟩, hsent⟩
  committed c hc := (hcommitted c hc).trans (h.committed c hc)

/-- A commitment is an order of the session that has a claim. -/
theorem Books.committed_claim (h : Books setup s) {c : Commitment} (hc : c ∈ ShortBroker.committed s.log) :
    isExternalId c.2.1 = false ∧ ∃ claim, (s.adapter c.1).claims.lookup c.2.1 = some claim := by
  obtain ⟨quantity, hsent⟩ := sent_of_committed hc
  obtain ⟨hown, claim, hlookup, -⟩ := h.sent _ _ _ _ hsent
  exact ⟨hown, claim, hlookup⟩

theorem Books.releaseTerminal (h : Books setup s) {clientId : String} (claim : Claim)
    (hlookup : (s.adapter i).claims.lookup clientId = some claim)
    (hcommitted : ∀ c ∈ ShortBroker.committed s.log, ¬ (c.1 = i ∧ c.2.1 = clientId))
    (hpending : ∀ p, (s.adapter i).pending = some p → p.phase = .claimed → p.order.clientOrderId ≠ clientId) :
    Books setup { s with
      reservations := ShortBroker.releaseTerminal s.reservations (setup i).exchange clientId } := by
  refine h.setReservations (fun c hc => ?_) fun j p hp hphase => ?_
  · rw [lookup_releaseTerminal, if_neg]
    intro hkey
    obtain ⟨hexchange, hid⟩ := Prod.mk.inj hkey
    obtain ⟨hown, claim', hlookup'⟩ := h.committed_claim hc
    rw [hid] at hown hlookup'
    exact hcommitted c hc ⟨(h.adapter_eq hown hlookup hlookup' hexchange.symm).symm, hid⟩
  · rw [lookup_releaseTerminal, if_neg]
    intro hkey
    obtain ⟨hexchange, hid⟩ := Prod.mk.inj hkey
    obtain ⟨hown, ⟨claim', hlookup', -⟩, -, -⟩ := h.pending j p hp
    rw [hid] at hown hlookup'
    obtain rfl := h.adapter_eq hown hlookup hlookup' hexchange.symm
    exact hpending p hp hphase hid

theorem Books.releaseAll (h : Books setup s)
    (hcommitted : ∀ c ∈ ShortBroker.committed s.log, c.1 ≠ i)
    (hpending : ∀ p, (s.adapter i).pending = some p → p.phase ≠ .claimed) :
    Books setup { s with reservations :=
      ShortBroker.releaseAll s.reservations (setup i).exchange ((s.adapter i).claims.map Prod.fst) } := by
  have hclaimed : ∀ clientId ∈ (s.adapter i).claims.map Prod.fst, ∃ claim, (s.adapter i).claims.lookup clientId = some claim := by
    intro clientId hmem
    obtain ⟨entry, hentry, rfl⟩ := List.mem_map.mp hmem
    exact ⟨entry.2, Dict.lookup_of_mem (h.tidy i).keys hentry⟩
  refine h.setReservations (fun c hc => ?_) fun j p hp hphase => ?_
  · rw [lookup_releaseAll, if_neg]
    rintro ⟨hexchange, hmem⟩
    obtain ⟨claim, hlookup⟩ := hclaimed _ hmem
    obtain ⟨hown, claim', hlookup'⟩ := h.committed_claim hc
    exact hcommitted c hc (h.adapter_eq hown hlookup hlookup' hexchange.symm).symm
  · rw [lookup_releaseAll, if_neg]
    rintro ⟨hexchange, hmem⟩
    obtain ⟨claim, hlookup⟩ := hclaimed _ hmem
    obtain ⟨hown, ⟨claim', hlookup', -⟩, -, -⟩ := h.pending j p hp
    obtain rfl := h.adapter_eq hown hlookup hlookup' hexchange.symm
    exact hpending p hp hphase

/-! ## Submits -/

theorem Books.reportClaim (h : Books setup s) (clientId : String) : Books setup (s.reportClaim i clientId) := by
  rw [State.reportClaim]
  split
  · exact h.note rfl
  · exact h.note rfl

theorem Follows.finish {a : Adapter} (h : a.Tidy) : Follows a { a with pending := none } :=
  ⟨⟨h.keys, h.external⟩, fun _ _ => rfl, fun _ hp => by cases hp⟩

theorem Books.finishSubmit (h : Books setup s) (clientId : String) : Books setup (finishSubmit s i clientId) :=
  (h.put (.finish (h.tidy i))).reportClaim clientId

theorem reserve_eq_ok {reservations reservations' : Reservations} {exchange : Exchange} {clientId : String}
    {amount observed : ℚ} (h : reserve reservations exchange clientId amount observed = .ok reservations') :
    entryOf reservations (exchange, clientId) = none ∧ reservations' = reservations.set (exchange, clientId) amount ∧
      0 ≤ amount ∧ ctx 28 (ctx 28 (observed + ctxSum 28 (heldOn reservations exchange)) + amount) ≤ maxExchangeKrw := by
  obtain ⟨_, hnone, h⟩ := bind_eq_ok.mp h
  obtain ⟨_, hbound, h⟩ := bind_eq_ok.mp h
  rw [require_eq_ok] at hnone hbound
  rw [not_or, not_lt, not_lt] at hbound
  exact ⟨hnone, (Except.ok.inj h).symm, hbound.1, hbound.2⟩

theorem claimOf_external {route : Route} {order : Order} {checked : Checked} {claim : Claim}
    (h : claimOf route order checked = .ok claim) :
    claim.externalExecution = false ∧ claim.quantity = order.quantity ∧ claim.status = .unknown := by
  obtain ⟨side, -, h⟩ := bind_eq_ok.mp h
  obtain rfl := Except.ok.inj h
  exact ⟨rfl, rfl, rfl⟩

/-- A reservation is added for an id that no other adapter of the exchange has used. -/
theorem Books.reserve (h : Books setup s) {clientId : String} {amount : ℚ} {reservations : Reservations}
    (hid : OwnId setup s i clientId) (hnone : entryOf s.reservations ((setup i).exchange, clientId) = none)
    (hset : reservations = s.reservations.set ((setup i).exchange, clientId) amount) :
    Books setup (s.reserve i clientId amount reservations) := by
  have hkeep : ∀ key value, entryOf s.reservations key = some value → entryOf reservations key = entryOf s.reservations key := by
    intro key value hkey
    rw [hset, entryOf, Dict.lookup_set, if_neg]
    rintro rfl
    rw [hnone] at hkey
    cases hkey
  have hset' : Books setup { s with reservations } :=
    h.setReservations (fun c hc => hkeep _ _ (h.committed c hc))
      fun j p hp hphase => hkeep _ _ ((h.pending j p hp).unsent hphase).2
  exact
    { tidy := hset'.tidy
      reserved := fun j other claim hlookup hown => by
        obtain ⟨amount', hmem⟩ := hset'.reserved j other claim hlookup hown
        exact ⟨amount', List.mem_cons_of_mem _ hmem⟩
      unique := fun j k other a b hj hk hexchange => by
        rcases List.mem_cons.mp hj with heq | hpast
        · obtain ⟨rfl, rfl, rfl⟩ := Event.reserved.inj heq
          rcases List.mem_cons.mp hk with heq | hpast
          · exact (Event.reserved.inj heq).1.symm
          · exact (hid.2 k b hpast hexchange.symm).symm
        · rcases List.mem_cons.mp hk with heq | hpast'
          · obtain ⟨rfl, rfl, rfl⟩ := Event.reserved.inj heq
            exact hid.2 j a hpast hexchange
          · exact hset'.unique j k other a b hpast hpast' hexchange
      sent := fun j other quantity a hmem => by
        rcases List.mem_cons.mp hmem with heq | hmem
        · cases heq
        · exact hset'.sent j other quantity a hmem
      once := hset'.once
      pending := fun j p hp => by
        obtain ⟨hown, hclaim, hunsent, hsent⟩ := hset'.pending j p hp
        refine ⟨hown, hclaim, fun hphase => ⟨fun quantity a hmem => ?_, (hunsent hphase).2⟩, fun hphase =>
          List.mem_cons_of_mem _ (hsent hphase)⟩
        rcases List.mem_cons.mp hmem with heq | hmem
        · cases heq
        · exact (hunsent hphase).1 quantity a hmem
      committed := hset'.committed }

theorem lookup_set_isSome {claims : Dict String Claim} {clientId other : String} {claim claim' : Claim}
    (h : claims.lookup other = some claim) (hne : claims.lookup clientId = none) :
    (claims.set clientId claim').lookup other = some claim := by
  rw [Dict.lookup_set, if_neg, h]
  rintro rfl
  rw [hne] at h
  cases h

/-- A claim is made for an order that has its reservation, and was not sent. -/
theorem Books.claim (h : Books setup s) {order : Order} {amount reservedAmount : ℚ} {claim : Claim}
    (hown : isExternalId order.clientOrderId = false) (hpending : (s.adapter i).pending = none)
    (hnew : (s.adapter i).claims.lookup order.clientOrderId = none)
    (hexternal : claim.externalExecution = false) (hquantity : claim.quantity = order.quantity)
    (hunknown : claim.status = .unknown)
    (hlog : .reserved i order.clientOrderId reservedAmount ∈ s.log)
    (hreserved : entryOf s.reservations ((setup i).exchange, order.clientOrderId) = some amount) :
    Books setup (s.put i { s.adapter i with
      claims := (s.adapter i).claims.set order.clientOrderId claim, pending := some ⟨order, amount, .claimed⟩ }) where
  tidy j := by
    by_cases hj : j = i
    · subst hj
      rw [State.put_adapter]
      exact (h.tidy j).set (hexternal.trans hown.symm) _ _
    · rw [State.put_adapter_ne s hj]
      exact h.tidy j
  reserved j clientId claim' hlookup hother := by
    by_cases hj : j = i
    · subst hj
      rw [State.put_adapter, Dict.lookup_set] at hlookup
      split at hlookup
      · next heq =>
        subst heq
        exact ⟨reservedAmount, hlog⟩
      · exact h.reserved j clientId claim' hlookup hother
    · rw [State.put_adapter_ne s hj] at hlookup
      exact h.reserved j clientId claim' hlookup hother
  unique := h.unique
  sent j clientId quantity a hmem := by
    obtain ⟨hother, claim', hlookup, hclaim⟩ := h.sent j clientId quantity a hmem
    refine ⟨hother, claim', ?_, hclaim⟩
    by_cases hj : j = i
    · subst hj
      rw [State.put_adapter]
      exact lookup_set_isSome hlookup hnew
    · rw [State.put_adapter_ne s hj]
      exact hlookup
  once := h.once
  pending j p hp := by
    by_cases hj : j = i
    · subst hj
      rw [State.put_adapter] at hp
      obtain rfl := Option.some.inj hp
      refine ⟨hown, ⟨claim, ?_, hquantity, fun _ => hunknown⟩, fun _ => ⟨fun quantity a hmem => ?_, hreserved⟩, fun hphase =>
        absurd rfl hphase⟩
      · rw [State.put_adapter, Dict.lookup_set, if_pos rfl]
      · obtain ⟨-, claim', hlookup, -⟩ := h.sent _ _ _ _ hmem
        rw [hnew] at hlookup
        cases hlookup
    · rw [State.put_adapter_ne s hj] at hp
      obtain ⟨hother, hclaim, hunsent, hsent⟩ := h.pending j p hp
      refine ⟨hother, ?_, hunsent, hsent⟩
      rw [State.put_adapter_ne s hj]
      exact hclaim
  committed := h.committed

theorem enter_books (h : Books setup s) {order : Order} {checked : Result Checked}
    (hid : OwnId setup s i order.clientOrderId) (henter : enter setup s i order checked = some t) : Books setup t := by
  rcases enter_cases henter with rfl | ⟨c, reservations, -, hidle, hnew, hreserve, hresult⟩
  · exact h.reportClaim _
  · obtain ⟨hnone, hset, -, -⟩ := reserve_eq_ok hreserve
    have hbooks := h.reserve hid hnone hset
    rcases hresult with ⟨-, rfl⟩ | ⟨claim, hclaim, rfl⟩
    · exact hbooks.reportClaim _
    · obtain ⟨hexternal, hquantity, hunknown⟩ := claimOf_external hclaim
      refine hbooks.claim hid.1 hidle hnew hexternal hquantity hunknown List.mem_cons_self ?_
      rw [State.reserve, State.note_reservations, hset, entryOf, Dict.lookup_set, if_pos rfl]

theorem abandon_books (h : Books setup s) (habandon : abandon s i = some t) : Books setup t := by
  obtain ⟨p, -, -, rfl⟩ := abandon_cases habandon
  exact h.finishSubmit _

/-- The transport is called once, with the reservation in place. -/
theorem send_books (h : Books setup s) (hsend : send s i = some t) : Books setup t := by
  · obtain ⟨p, hp, hphase, rfl⟩ := send_cases hsend
    obtain ⟨hown, ⟨claim, hlookup, hquantity, -⟩, hunsent, -⟩ := h.pending i p hp
    obtain ⟨hnever, hreserved⟩ := hunsent hphase
    have hclaims : ∀ j, ((s.put i { s.adapter i with pending := some { p with phase := .sent } }).adapter j).claims =
        (s.adapter j).claims := by
      intro j
      by_cases hj : j = i
      · subst hj
        rw [State.put_adapter]
      · rw [State.put_adapter_ne s hj]
    exact
      { tidy := fun j => by
          refine ⟨?_, ?_⟩
          · rw [State.note_adapter, hclaims]
            exact (h.tidy j).keys
          · rw [State.note_adapter, hclaims]
            exact (h.tidy j).external
        reserved := fun j clientId claim' hlookup' hother => by
          rw [State.note_adapter, hclaims] at hlookup'
          obtain ⟨amount, hmem⟩ := h.reserved j clientId claim' hlookup' hother
          exact ⟨amount, List.mem_cons_of_mem _ hmem⟩
        unique := fun j k clientId a b hj hk =>
          h.unique j k clientId a b ((List.mem_cons.mp hj).resolve_left (by simp only [reduceCtorEq, not_false_eq_true]))
            ((List.mem_cons.mp hk).resolve_left (by simp only [reduceCtorEq, not_false_eq_true]))
        sent := fun j clientId quantity a hmem => by
          rw [State.note_adapter, hclaims]
          rcases List.mem_cons.mp hmem with heq | hmem
          · obtain ⟨rfl, rfl, rfl, rfl⟩ := Event.sent.inj heq
            exact ⟨hown, claim, hlookup, hquantity⟩
          · exact h.sent j clientId quantity a hmem
        once := ⟨hnever, h.once⟩
        pending := fun j p' hp' => by
          by_cases hj : j = i
          · subst hj
            rw [State.note_adapter, State.put_adapter] at hp'
            obtain rfl := Option.some.inj hp'
            refine ⟨hown, ⟨claim, ?_, hquantity, fun hclaimed => ?_⟩, fun hclaimed => ?_, fun _ => List.mem_cons_self⟩
            · rw [State.note_adapter, hclaims]
              exact hlookup
            · cases hclaimed
            · cases hclaimed
          · rw [State.note_adapter, State.put_adapter_ne s hj] at hp'
            obtain ⟨hother, hclaim', hunsent', hsent'⟩ := h.pending j p' hp'
            refine ⟨hother, ?_, fun hclaimed => ⟨fun quantity a hmem => ?_, (hunsent' hclaimed).2⟩, fun hlater =>
              List.mem_cons_of_mem _ (hsent' hlater)⟩
            · rw [State.note_adapter, hclaims]
              exact hclaim'
            · rcases List.mem_cons.mp hmem with heq | hmem
              · exact hj (Event.sent.inj heq).1
              · exact (hunsent' hclaimed).1 quantity a hmem
        committed := fun c hc => by
          rcases List.mem_cons.mp hc with rfl | hc
          · exact hreserved
          · exact h.committed c hc }

/-! ## Replies -/

/-- A claim is replaced by one of the same order, while no submit is before its call. -/
theorem Follows.setClaim {a : Adapter} (h : a.Tidy) {clientId : String} {claim : Claim} (claim' : Claim)
    (hlookup : a.claims.lookup clientId = some claim) (hexternal : claim'.externalExecution = claim.externalExecution)
    (hquantity : claim'.quantity = claim.quantity) (hpending : ∀ p, a.pending = some p → p.phase ≠ .claimed)
    (fillRows : Dict String Fields) : Follows a ⟨a.claims.set clientId claim', fillRows, a.pending⟩ where
  tidy := h.set (hexternal.trans (h.external clientId claim hlookup)) _ _
  own other _ := by
    rw [Dict.lookup_set]
    split
    · next heq =>
      subst heq
      rw [hlookup, Option.map_some, Option.map_some, hquantity]
    · rfl
  pending p hp := ⟨p, hp, rfl, rfl, .inr ⟨hpending p hp, hpending p hp⟩⟩

theorem Follows.setRows {a : Adapter} (h : a.Tidy) (fillRows : Dict String Fields) : Follows a { a with fillRows } where
  tidy := ⟨h.keys, h.external⟩
  own _ _ := rfl
  pending p hp := ⟨p, hp, rfl, rfl, .inl ⟨rfl, fun _ => rfl⟩⟩

theorem Follows.setPhase {a : Adapter} (h : a.Tidy) {p : Pending} (hp : a.pending = some p) {phase : Phase}
    (hphase : p.phase ≠ .claimed) (hphase' : phase ≠ .claimed) :
    Follows a { a with pending := some { p with phase } } where
  tidy := ⟨h.keys, h.external⟩
  own _ _ := rfl
  pending p' hp' := by
    obtain rfl := Option.some.inj hp'
    exact ⟨p, hp, rfl, rfl, .inr ⟨hphase, hphase'⟩⟩

variable (env setup) in
/-- What the reply states changes nothing but the log; a refusal without executions ends the commitment. -/
theorem noteReply_log (clientId : String) (response : Json) :
    (noteReply env s i clientId response).adapter = s.adapter ∧
      (noteReply env s i clientId response).reservations = s.reservations ∧
      (Books setup s → Books setup (noteReply env s i clientId response)) ∧
      (refusesReply env clientId response = true → (statedReply env response).any (0 < ·) = false →
        ∀ c ∈ committed (noteReply env s i clientId response).log, ¬ (c.1 = i ∧ c.2.1 = clientId)) := by
  rw [noteReply]
  cases statedReply env response with
  | none =>
    dsimp only
    split
    · refine ⟨rfl, rfl, fun h => h.note rfl, fun _ _ c hc => ?_⟩
      exact of_decide_eq_true (List.mem_filter.mp hc).2
    · next hnot =>
      refine ⟨rfl, rfl, id, fun hrefuses hstated => ?_⟩
      rw [hrefuses, hstated] at hnot
      exact absurd rfl hnot
  | some executed =>
    dsimp only
    split
    · refine ⟨rfl, rfl, fun h => (h.note rfl).note rfl, fun _ _ c hc => ?_⟩
      exact of_decide_eq_true (List.mem_filter.mp hc).2
    · next hnot =>
      refine ⟨rfl, rfl, fun h => h.note rfl, fun hrefuses hstated => ?_⟩
      rw [hrefuses, hstated] at hnot
      exact absurd rfl hnot

theorem applyReply_books (h : Books setup s) {p : Pending} {result : Reply} {intentFound : Bool}
    (hp : (s.adapter i).pending = some p) (hphase : p.phase ≠ .claimed)
    (hrejected : result.status = .rejected → ∀ c ∈ committed s.log, ¬ (c.1 = i ∧ c.2.1 = p.order.clientOrderId)) :
    Books setup (applyReply setup s i p result intentFound) := by
  obtain ⟨-, ⟨claim, hlookup, hquantity, -⟩, -, -⟩ := h.pending i p hp
  have hsent : ∀ p', (s.adapter i).pending = some p' → p'.phase ≠ .claimed := fun p' hp' => by
    rw [hp] at hp'
    obtain rfl := Option.some.inj hp'
    exact hphase
  obtain ⟨brokerOrderId, s', rfl, hresult⟩ := applyReply_cases setup result intentFound hlookup
  have hset : Books setup (s.put i { s.adapter i with
      claims := (s.adapter i).claims.set p.order.clientOrderId { claim with status := result.status, brokerOrderId } }) :=
    h.put (Follows.setClaim (h.tidy i) { claim with status := result.status, brokerOrderId } hlookup rfl rfl hsent _)
  rcases hresult with ⟨hstatus, heq⟩ | heq | heq
  · rw [heq]
    refine Books.finishSubmit (Books.releaseTerminal
      hset { claim with status := result.status, brokerOrderId } ?_ (hrejected hstatus) ?_) _
    · rw [State.put_adapter, Dict.lookup_set, if_pos rfl]
    · intro p' hp' hclaimed
      rw [State.put_adapter] at hp'
      exact absurd hclaimed (hsent p' hp')
  · rw [heq]
    exact hset.finishSubmit _
  · rw [heq]
    refine hset.put (Follows.setPhase ?_ ?_ hphase (by decide))
    · exact hset.tidy i
    · rw [State.put_adapter]
      exact hp

theorem reply_books (h : Books setup s) {response : Result Json} {intentFound : Bool}
    (hmeets : MeetsBooks env setup s (.reply i response intentFound))
    (hreply : reply env setup s i response intentFound = some t) : Books setup t := by
  obtain ⟨p, hp, hphase, rfl | ⟨body, hbody, hresult⟩⟩ := reply_cases hreply
  · exact h.finishSubmit _
  · obtain ⟨hadapter, -, hnoted, hended⟩ := noteReply_log env setup (s := s) (i := i)
      p.order.clientOrderId body
    rcases hresult with rfl | ⟨result, hnormal, rfl⟩
    · exact (hnoted h).finishSubmit _
    · refine applyReply_books (hnoted h) ?_ ?_ ?_
      · rw [hadapter]
        exact hp
      · rw [hphase]
        decide
      · intro hrejected
        have hrefuses := refuses_of_rejected env hnormal hrejected
        exact hended hrefuses (hmeets p hp body hbody hrefuses)

/-! ## Reads -/

theorem noteRow_still (h : Books setup s) (clientId : String) (row : Fields) : Books setup (noteRow env s i clientId row) := by
  rw [noteRow]
  split
  · exact (h.note rfl).note rfl
  · exact h.note rfl

variable (env) in
theorem noteRow_adapter (clientId : String) (row : Fields) : (noteRow env s i clientId row).adapter = s.adapter := by
  rw [noteRow]
  split
  · rfl
  · rfl

theorem firstRead_books (h : Books setup s) {answer : Result Observed} (hread : firstRead env s i answer = some t) :
    Books setup t := by
  obtain ⟨p, hp, hphase, rfl | ⟨observed, claim, -, hlookup, hresult⟩⟩ := firstRead_cases hread
  · exact h.finishSubmit _
  · have hreplied : ∀ p', (s.adapter i).pending = some p' → p'.phase ≠ .claimed := fun p' hp' => by
      rw [hp] at hp'
      obtain rfl := Option.some.inj hp'
      rw [hphase]
      decide
    rcases hresult with rfl | ⟨status, -, rfl⟩
    · refine (Books.put (noteRow_still h _ _) ?_).finishSubmit _
      rw [noteRow_adapter]
      exact Follows.setRows (h.tidy i) _
    · refine (Books.put (noteRow_still h _ _) ?_).finishSubmit _
      rw [noteRow_adapter]
      exact Follows.setClaim (h.tidy i) { claim with status } hlookup rfl rfl hreplied _

/-- The row of an order is the claim's, with the broker's id. -/
theorem observe_books (h : Books setup s) {clientId : String} {answer : Result Observed} {marketRead : Bool}
    (hobserve : observe env setup s i clientId answer marketRead = some t) : Books setup t := by
  rcases observe_cases hobserve with rfl | ⟨claim, row, hidle, hlookup, -, hresult⟩
  · exact h.note rfl
  · have hnone : ∀ p', (s.adapter i).pending = some p' → p'.phase ≠ .claimed := fun p' hp' => by
      rw [hidle] at hp'
      cases hp'
    rcases hresult with rfl | ⟨status, filled, -, rfl⟩
    · refine ((noteRow_still h clientId row).put ?_).note rfl
      rw [noteRow_adapter]
      exact Follows.setClaim (h.tidy i) { claim with brokerOrderId := rowBrokerId env row } hlookup rfl rfl hnone _
    · refine ((noteRow_still h clientId row).put ?_).note rfl
      rw [noteRow_adapter]
      exact Follows.setClaim (h.tidy i) { claim with brokerOrderId := rowBrokerId env row, status }
        hlookup rfl rfl hnone _

theorem readAccount_books (h : Books setup s) {read : Read} (hread : readAccount env setup s i read = some t) :
    Books setup t := by
  rw [readAccount] at hread
  obtain rfl := Option.some.inj hread
  exact h.put (snapshot_steady env (h.tidy i) (setup i) read).follows

/-- The flat read ends what the route has at stake. -/
theorem committed_flat {log : List Event} : ∀ c ∈ committed (.flat i :: log), c.1 ≠ i :=
  fun _ hc => of_decide_eq_true (List.mem_filter.mp hc).2

/-- What gives reservations back is a flat read. -/
theorem flatRead_of_settledFlat {log : List Event} {account : Account} {a : Adapter} (h : settledFlat env account a = true) :
    flatRead env log i account a = true := by
  rw [settledFlat, Bool.and_eq_true, List.all_eq_true] at h
  rw [flatRead, Bool.and_eq_true, List.all_eq_true]
  refine ⟨h.1, fun entry hmem => ?_⟩
  rw [h.2 entry hmem, Bool.true_or]

theorem reconcile_books (h : Books setup s) {read : Read} {valued settled : Bool} (hrows : RowsSent s i read)
    (hreconcile : reconcile env setup s i read valued settled = some t) : Books setup t := by
  obtain ⟨a, result, hsnapshot, hresult⟩ := reconcile_cases hreconcile
  have hsteady := snapshot_steady env (h.tidy i) (setup i) read
  rw [hsnapshot] at hsteady
  have hput : Books setup (s.put i a) := h.put hsteady.follows
  rcases hresult with rfl | ⟨account, rfl, hresult⟩
  · exact hput
  · have hnoted : Books setup (s.readFlat env i account a) := by
      rw [State.readFlat]
      split
      · exact hput.note rfl
      · exact hput
    have hsettled : Books setup ((s.readFlat env i account a).settle env setup i account a) := by
      rw [State.settle]
      split
      · next hflat =>
        rw [State.readFlat, if_pos (flatRead_of_settledFlat hflat)] at hnoted ⊢
        have hclaims : (((s.put i a).note (.flat i)).adapter i).claims = a.claims := by
          rw [State.note_adapter, State.put_adapter]
        rw [← hclaims]
        refine Books.releaseAll hnoted committed_flat fun p hp hclaimed => ?_
        rw [State.note_adapter, State.put_adapter, hsteady.pending] at hp
        obtain ⟨hown, ⟨claim, hlookup, -, hunknown⟩, -, -⟩ := h.pending i p hp
        obtain ⟨observed, hobserved⟩ := snapshot_ok (h.tidy i) (by rw [hsnapshot]) hown hlookup (hunknown hclaimed)
        exact hrows p hp hclaimed observed hobserved
      · exact hnoted
    rcases hresult with rfl | rfl | ⟨-, rfl⟩
    · exact hnoted
    · exact hsettled
    · exact hsettled.note rfl

/-! ## Runs -/

theorem books_initial (reservations : Reservations) : Books setup (State.initial reservations) where
  tidy _ := ⟨List.nodup_nil, fun _ _ h => by cases h⟩
  reserved _ _ _ h _ := by cases h
  unique _ _ _ _ _ h _ _ := absurd h List.not_mem_nil
  sent _ _ _ _ h := absurd h List.not_mem_nil
  once := trivial
  pending _ _ h := by cases h
  committed _ h := absurd h List.not_mem_nil

theorem step_books (h : Books setup s) {label : Label} (hmeets : MeetsBooks env setup s label)
    (hstep : step env setup s label = some t) : Books setup t := by
  cases label with
  | enter i order checked => exact enter_books h hmeets hstep
  | abandon i => exact abandon_books h hstep
  | send i => exact send_books h hstep
  | reply i response intentFound => exact reply_books h hmeets hstep
  | firstRead i answer => exact firstRead_books h hstep
  | observe i clientId answer marketRead => exact observe_books h hstep
  | read i read => exact readAccount_books h hstep
  | reconcile i read valued settled => exact reconcile_books h hmeets hstep

/-- The books are right in every state of a run. -/
theorem books_of_run {reservations : Reservations} {labels : List Label}
    (h : Run (step env setup) (MeetsBooks env setup) (State.initial reservations) labels s) : Books setup s :=
  h.invariant (fun hmeets hstep hbooks => step_books hbooks hmeets hstep) (books_initial reservations)

/-! ## Samples -/

/-- Another adapter of the exchange has reserved the id. -/
def Event.isOthers (setup : Setup) (i : ℕ) (clientId : String) : Event → Bool
  | .reserved j other _ => other = clientId && (setup j).exchange = (setup i).exchange && j != i
  | _ => false

/-- The condition of the samples, where no reply refuses, and no read comes between a claim and its call. -/
def sampleBooks (s : State) : Label → Bool
  | .enter i order _ => !isExternalId order.clientOrderId && !s.log.any (Event.isOthers Setup.sample i order.clientOrderId)
  | .reply i (.ok body) _ => !(s.adapter i).pending.any fun p => refusesReply Env.sample p.order.clientOrderId body
  | .reconcile i _ _ _ => (s.adapter i).pending.isNone
  | _ => true

theorem meetsBooks_of_sampleBooks {s : State} {label : Label} (h : sampleBooks s label = true) :
    MeetsBooks Env.sample Setup.sample s label := by
  cases label with
  | enter i order checked =>
    rw [sampleBooks, Bool.and_eq_true, Bool.not_eq_true', Bool.not_eq_true', List.any_eq_false] at h
    refine ⟨h.1, fun j amount hmem hexchange => ?_⟩
    by_contra hne
    refine h.2 _ hmem ?_
    rw [Event.isOthers, Bool.and_eq_true, Bool.and_eq_true]
    exact ⟨⟨decide_eq_true rfl, decide_eq_true hexchange⟩, bne_iff_ne.mpr hne⟩
  | reply i response intentFound =>
    intro p hp body hbody hrefuses
    subst hbody
    rw [sampleBooks, hp, Option.any_some, hrefuses] at h
    cases h
  | reconcile i read valued settled =>
    intro p hp
    rw [sampleBooks, hp] at h
    cases h
  | _ => trivial

end LiveTrader.ShortBroker
