/-
# `ShortBroker.Sent` — an order is sent once, and rejected means nothing executed

`ReportSound` says of every status that was reported what the log had shown before.  It holds of every
run whose steps meet `MeetsSent`: no reply and no row that refuses an order states an execution, and the
order reader is truthful about which orders exist.  `_normalize_reply` does not look at the executed
quantity of an expired order, so that `expired_part_rejected` breaks it.
-/
import LiveTrader.ShortBroker.Steps

namespace LiveTrader.ShortBroker

open Lib Lib.Py Lib.Runs Lib.Decimal

variable {env : Env} {setup : Setup} {s t : State} {i : ℕ}

/-! ## What reports say -/

def NeverSent (log : List Event) (i : ℕ) (clientId : String) : Prop :=
  ∀ quantity amount, .sent i clientId quantity amount ∉ log

/-- The first observation of the order shows it final, with nothing executed. -/
def FirstUnfilled (log : List Event) (i : ℕ) (clientId : String) : Prop :=
  ∃ later earlier, log = later ++ .observed i clientId true :: earlier ∧ ∀ unfilled, .observed i clientId unfilled ∉ earlier

/-- The status of a claim has a reason in the log. -/
def StatusSound (log : List Event) (i : ℕ) (clientId : String) : Status → Prop
  | .rejected => .refused i clientId ∈ log ∨ FirstUnfilled log i clientId
  | .filled => ∃ quantity amount, .sent i clientId quantity amount ∈ log ∧ .stated i clientId quantity ∈ log
  | .reported _ => False
  | _ => True

/-- A report: an order that was never sent is rejected, another has the status of its claim. -/
def Reportable (log : List Event) (i : ℕ) (clientId : String) (status : Status) : Prop :=
  (status = .rejected ∧ NeverSent log i clientId) ∨ StatusSound log i clientId status

def ReportSound : List Event → Prop
  | [] => True
  | .reported i clientId status :: past => Reportable past i clientId status ∧ ReportSound past
  | _ :: past => ReportSound past

variable (setup) in
/-- The order has its claim, and its reservation until it is refused or its route is read flat. -/
def Retained (s : State) (i : ℕ) (clientId : String) (quantity amount : ℚ) : Prop :=
  (∃ claim, (s.adapter i).claims.lookup clientId = some claim ∧ claim.quantity = quantity) ∧
    (entryOf s.reservations ((setup i).exchange, clientId) = some amount ∨ .refused i clientId ∈ s.log ∨
      FlatSince s.log i clientId)

/-- The reader shows orders that were sent.  An order that it shows as rejected has executed nothing,
and was never shown otherwise. -/
def RowTruthful (env : Env) (s : State) (i : ℕ) (clientId : String) (row : Fields) : Prop :=
  ¬ NeverSent s.log i clientId ∧
    (rowState env row = "REJECTED" → endsUnfilled env row = true ∧ .observed i clientId false ∉ s.log)

/-- What the reports ask of a step. -/
def MeetsSent (env : Env) (setup : Setup) (s : State) (label : Label) : Prop :=
  MeetsBooks env setup s label ∧
    match label with
    | .observe i clientId answer _ => isExternalId clientId = false → ∀ observed, answer = .ok observed →
        RowTruthful env s i clientId observed.row
    | _ => True

/-! ## Longer logs -/

variable {log : List Event} {clientId : String} {status : Status}

theorem FirstUnfilled.cons (h : FirstUnfilled log i clientId) (e : Event) : FirstUnfilled (e :: log) i clientId := by
  obtain ⟨later, earlier, rfl, hfirst⟩ := h
  exact ⟨e :: later, earlier, rfl, hfirst⟩

theorem StatusSound.cons (h : StatusSound log i clientId status) (e : Event) :
    StatusSound (e :: log) i clientId status := by
  cases status with
  | rejected =>
    rcases h with h | h
    · exact .inl (List.mem_cons_of_mem _ h)
    · exact .inr (h.cons e)
  | filled =>
    obtain ⟨quantity, amount, hsent, hstated⟩ := h
    exact ⟨quantity, amount, List.mem_cons_of_mem _ hsent, List.mem_cons_of_mem _ hstated⟩
  | reported value => exact h
  | _ => trivial

/-- When every observation of an order shows it unfilled, the first one does. -/
theorem firstUnfilled_of_all (hall : .observed i clientId false ∉ log) (hsome : .observed i clientId true ∈ log) :
    FirstUnfilled log i clientId := by
  induction log with
  | nil => exact absurd hsome List.not_mem_nil
  | cons e past ih =>
    have hpast : .observed i clientId false ∉ past := fun hmem => hall (List.mem_cons_of_mem _ hmem)
    by_cases hearlier : .observed i clientId true ∈ past
    · exact (ih hpast hearlier).cons e
    · rcases List.mem_cons.mp hsome with rfl | hmem
      · refine ⟨[], past, rfl, fun unfilled hmem => ?_⟩
        cases unfilled with
        | false => exact hpast hmem
        | true => exact hearlier hmem
      · exact absurd hmem hearlier

/-- The event is neither an observation nor a report. -/
def Event.silent : Event → Bool
  | .observed _ _ _ | .reported _ _ _ => false
  | _ => true

theorem reportSound_silent {e : Event} (h : e.silent = true) : ReportSound (e :: log) ↔ ReportSound log := by
  cases e with
  | observed _ _ _ => exact Iff.rfl
  | reported _ _ _ => cases h
  | _ => exact Iff.rfl

/-! ## External executions -/

/-- Only futures have external executions. -/
def ExternalOn (route : Route) (a : Adapter) : Prop :=
  ∀ entry ∈ a.claims, entry.2.externalExecution = true → route = .binanceUsdmFutures

theorem ExternalOn.set {route : Route} {a : Adapter} (h : ExternalOn route a) (claim : Claim)
    (hclaim : claim.externalExecution = true → route = .binanceUsdmFutures) (fillRows : Dict String Fields)
    (pending : Option Pending) : ExternalOn route ⟨a.claims.set clientId claim, fillRows, pending⟩ :=
  Dict.forall_set (P := fun claim : Claim => claim.externalExecution = true → route = .binanceUsdmFutures) h hclaim

variable (env) in
theorem joinClaims_externalOn {route : Route} (rows : String → Result Observed) (entries : List (String × Claim))
    {a : Adapter} (h : ExternalOn route a)
    (hentries : ∀ entry ∈ entries, entry.2.externalExecution = true → route = .binanceUsdmFutures) :
    ExternalOn route (joinClaims env route rows entries a).1 := by
  induction entries generalizing a with
  | nil => exact h
  | cons entry rest ih =>
    obtain ⟨clientId, claim⟩ := entry
    have hclaim := hentries _ List.mem_cons_self
    have hrest := fun entry hmem => hentries entry (List.mem_cons_of_mem _ hmem)
    rw [joinClaims]
    split
    · exact ih h hrest
    · cases hread : readClaimTruth env route claim clientId (rows clientId) with
      | error e => exact h
      | ok row =>
        have hset : ExternalOn route ⟨a.claims.set clientId { claim with brokerOrderId := rowBrokerId env row },
            a.fillRows.set clientId row, a.pending⟩ :=
          h.set { claim with brokerOrderId := rowBrokerId env row } hclaim _ _
        dsimp only
        split
        · exact hset
        · exact ih hset hrest

variable (env) in
theorem snapshot_externalOn {route : Route} (read : Read) {a : Adapter} (h : ExternalOn route a) :
    ExternalOn route (snapshot env route read a).1 := by
  by_cases hroute : route = .binanceUsdmFutures
  · exact fun _ _ _ => hroute
  · have hpoll : pollFuturesProtection env route read a = (a, .ok ()) := by
      rw [pollFuturesProtection, if_neg hroute]
    have hcheck : ∀ account a', (checkSnapshot env route read account a').1 = a' := by
      intro account a'
      rw [checkSnapshot, if_neg hroute]
    rw [snapshot, hpoll]
    dsimp only
    cases read.account with
    | error e => exact h
    | ok account =>
      have hjoin := joinClaims_externalOn env read.rows a.claims h h
      dsimp only
      cases hjoined : joinClaims env route read.rows a.claims a with
      | mk a' result =>
        rw [hjoined] at hjoin
        cases result with
        | error e => exact hjoin
        | ok u =>
          dsimp only
          rw [hcheck]
          exact hjoin

/-- An external execution is not read as an order. -/
theorem readClaimTruth_external {claim : Claim} (h : claim.externalExecution = true) (answer : Result Observed)
    (row : Fields) : readClaimTruth env .binanceUsdmFutures claim clientId answer ≠ .ok row := by
  intro hread
  obtain ⟨-, -, hread⟩ := bind_eq_ok.mp hread
  obtain ⟨observed, -, hread⟩ := bind_eq_ok.mp hread
  obtain ⟨-, -, hread⟩ := bind_eq_ok.mp hread
  obtain ⟨exact', hexact, -⟩ := bind_eq_ok.mp hread
  rw [exactOnRoute, if_pos rfl, exactFuturesRow, if_pos h] at hexact
  cases hexact

/-! ## The invariant -/

variable (setup) in
structure Reported (s : State) : Prop where
  external : ∀ i, ExternalOn (setup i) (s.adapter i)
  statuses : ∀ i clientId claim, (s.adapter i).claims.lookup clientId = some claim → isExternalId clientId = false →
    StatusSound s.log i clientId claim.status
  observed : ∀ i clientId unfilled, .observed i clientId unfilled ∈ s.log → isExternalId clientId = false ∧
    ∃ claim, (s.adapter i).claims.lookup clientId = some claim
  /-- Nothing is observed before its submit returns. -/
  first : ∀ i p, (s.adapter i).pending = some p → ∀ unfilled, .observed i p.order.clientOrderId unfilled ∉ s.log
  reports : ReportSound s.log

theorem Reported.setReservations (h : Reported setup s) (reservations : Reservations) :
    Reported setup { s with reservations } :=
  ⟨h.external, h.statuses, h.observed, h.first, h.reports⟩

theorem Reported.note (h : Reported setup s) {e : Event} (hsilent : e.silent = true) : Reported setup (s.note e) where
  external := h.external
  statuses i clientId claim hlookup hown := (h.statuses i clientId claim hlookup hown).cons e
  observed i clientId unfilled hmem := by
    rcases List.mem_cons.mp hmem with rfl | hmem
    · cases hsilent
    · exact h.observed i clientId unfilled hmem
  first i p hp unfilled hmem := by
    rcases List.mem_cons.mp hmem with rfl | hmem
    · cases hsilent
    · exact h.first i p hp unfilled hmem
  reports := (reportSound_silent hsilent).mpr h.reports

theorem Reported.report (h : Reported setup s) (hreport : Reportable s.log i clientId status) :
    Reported setup (s.note (.reported i clientId status)) where
  external := h.external
  statuses j other claim hlookup hown := (h.statuses j other claim hlookup hown).cons _
  observed j other unfilled hmem := h.observed j other unfilled ((List.mem_cons.mp hmem).resolve_left
    (by simp only [reduceCtorEq, not_false_eq_true]))
  first j p hp unfilled hmem := h.first j p hp unfilled ((List.mem_cons.mp hmem).resolve_left
    (by simp only [reduceCtorEq, not_false_eq_true]))
  reports := ⟨hreport, h.reports⟩

/-- An order is observed while no submit is under way. -/
theorem Reported.observe (h : Reported setup s) (hidle : (s.adapter i).pending = none) (hown : isExternalId clientId = false)
    {claim : Claim} (hlookup : (s.adapter i).claims.lookup clientId = some claim) (unfilled : Bool) :
    Reported setup (s.note (.observed i clientId unfilled)) where
  external := h.external
  statuses j other claim' hlookup' hown' := (h.statuses j other claim' hlookup' hown').cons _
  observed j other seen hmem := by
    rcases List.mem_cons.mp hmem with heq | hmem
    · obtain ⟨rfl, rfl, -⟩ := Event.observed.inj heq
      exact ⟨hown, claim, hlookup⟩
    · exact h.observed j other seen hmem
  first j p hp seen hmem := by
    rcases List.mem_cons.mp hmem with heq | hmem
    · obtain ⟨rfl, -, -⟩ := Event.observed.inj heq
      rw [State.note_adapter, hidle] at hp
      cases hp
    · exact h.first j p hp seen hmem
  reports := h.reports

/-- An adapter is replaced by one whose statuses have their reasons. -/
theorem Reported.put (h : Reported setup s) {a : Adapter} (hexternal : ExternalOn (setup i) a)
    (hstatuses : ∀ clientId claim, a.claims.lookup clientId = some claim → isExternalId clientId = false →
      StatusSound s.log i clientId claim.status)
    (hkept : ∀ clientId claim, (s.adapter i).claims.lookup clientId = some claim → isExternalId clientId = false →
      ∃ claim', a.claims.lookup clientId = some claim')
    (hfirst : ∀ p, a.pending = some p → ∀ unfilled, .observed i p.order.clientOrderId unfilled ∉ s.log) :
    Reported setup (s.put i a) where
  external j := by
    by_cases hj : j = i
    · subst hj
      rw [State.put_adapter]
      exact hexternal
    · rw [State.put_adapter_ne s hj]
      exact h.external j
  statuses j clientId claim hlookup hown := by
    by_cases hj : j = i
    · subst hj
      rw [State.put_adapter] at hlookup
      exact hstatuses clientId claim hlookup hown
    · rw [State.put_adapter_ne s hj] at hlookup
      exact h.statuses j clientId claim hlookup hown
  observed j clientId unfilled hmem := by
    obtain ⟨hown, claim, hlookup⟩ := h.observed j clientId unfilled hmem
    refine ⟨hown, ?_⟩
    by_cases hj : j = i
    · subst hj
      rw [State.put_adapter]
      exact hkept clientId claim hlookup hown
    · rw [State.put_adapter_ne s hj]
      exact ⟨claim, hlookup⟩
  first j p hp unfilled := by
    by_cases hj : j = i
    · subst hj
      rw [State.put_adapter] at hp
      exact hfirst p hp unfilled
    · rw [State.put_adapter_ne s hj] at hp
      exact h.first j p hp unfilled
  reports := h.reports

/-- The submit of an adapter is another one, or none. -/
theorem Reported.setPending (h : Reported setup s) (pending : Option Pending)
    (hfirst : ∀ p, pending = some p → ∀ unfilled, .observed i p.order.clientOrderId unfilled ∉ s.log) :
    Reported setup (s.put i { s.adapter i with pending }) :=
  h.put (h.external i) (h.statuses i) (fun _ claim hlookup _ => ⟨claim, hlookup⟩) hfirst

/-- A claim gets a status that has its reason. -/
theorem Reported.setClaim (h : Reported setup s) (claim' : Claim)
    (hexternal : claim'.externalExecution = true → setup i = .binanceUsdmFutures)
    (hstatus : isExternalId clientId = false → StatusSound s.log i clientId claim'.status)
    (fillRows : Dict String Fields) (pending : Option Pending)
    (hfirst : ∀ p, pending = some p → ∀ unfilled, .observed i p.order.clientOrderId unfilled ∉ s.log) :
    Reported setup (s.put i ⟨(s.adapter i).claims.set clientId claim', fillRows, pending⟩) := by
  refine h.put ((h.external i).set claim' hexternal _ _) (fun other claim hlookup hown => ?_) (fun other claim hlookup _ => ?_) hfirst
  · rw [Dict.lookup_set] at hlookup
    split at hlookup
    · next heq =>
      subst heq
      obtain rfl := Option.some.inj hlookup
      exact hstatus hown
    · exact h.statuses i other claim hlookup hown
  · rw [Dict.lookup_set]
    split
    · exact ⟨claim', rfl⟩
    · exact ⟨claim, hlookup⟩

theorem Reported.putSnapshot (h : Reported setup s) {a : Adapter} (hsteady : Steady (s.adapter i) a)
    (hexternal : ExternalOn (setup i) a) : Reported setup (s.put i a) := by
  refine h.put hexternal (fun clientId claim hlookup hown => ?_) (fun clientId claim hlookup hown => ?_) fun p hp => ?_
  · have hcore := hsteady.own clientId hown
    rw [hlookup] at hcore
    obtain ⟨claim', hlookup', hcore⟩ := Option.map_eq_some_iff.mp hcore.symm
    have hsound := h.statuses i clientId claim' hlookup' hown
    have hstatus : claim'.status = claim.status := congrArg Prod.fst hcore
    rw [hstatus] at hsound
    exact hsound
  · have hcore := hsteady.own clientId hown
    rw [hlookup] at hcore
    obtain ⟨claim', hlookup', -⟩ := Option.map_eq_some_iff.mp hcore
    exact ⟨claim', hlookup'⟩
  · rw [hsteady.pending] at hp
    exact h.first i p hp

/-- A submit returns the claim of an order of the session. -/
theorem Reported.reportClaim (h : Reported setup s) (hbooks : Books setup s) (hown : isExternalId clientId = false) :
    Reported setup (s.reportClaim i clientId) := by
  rw [State.reportClaim]
  cases hlookup : (s.adapter i).claims.lookup clientId with
  | some claim => exact h.report (.inr (h.statuses i clientId claim hlookup hown))
  | none =>
    refine h.report (.inl ⟨rfl, fun quantity amount hmem => ?_⟩)
    obtain ⟨-, claim, hlookup', -⟩ := hbooks.sent i clientId quantity amount hmem
    rw [hlookup] at hlookup'
    cases hlookup'

theorem Reported.reportClaim_some (h : Reported setup s) (hown : isExternalId clientId = false) (claim : Claim)
    (hlookup : (s.adapter i).claims.lookup clientId = some claim) : Reported setup (s.reportClaim i clientId) := by
  rw [State.reportClaim, hlookup]
  exact h.report (.inr (h.statuses i clientId claim hlookup hown))

theorem Reported.finishSubmit (h : Reported setup s) (hbooks : Books setup s) (hown : isExternalId clientId = false) :
    Reported setup (finishSubmit s i clientId) :=
  (h.setPending none fun _ hp => by cases hp).reportClaim (hbooks.put (.finish (hbooks.tidy i))) hown

/-! ## Steps -/

theorem enter_reported (h : Reported setup s) (hbooks : Books setup s) {order : Order} {checked : Result Checked}
    (hid : OwnId setup s i order.clientOrderId) (henter : enter setup s i order checked = some t) : Reported setup t := by
  rcases enter_cases henter with rfl | ⟨c, reservations, -, -, hnew, hreserve, hresult⟩
  · exact h.reportClaim hbooks hid.1
  · obtain ⟨hnone, hset, -, -⟩ := reserve_eq_ok hreserve
    have hreserved : Reported setup (s.reserve i order.clientOrderId (reservedFor order c) reservations) :=
      (h.setReservations reservations).note rfl
    rcases hresult with ⟨-, rfl⟩ | ⟨claim, hclaim, rfl⟩
    · exact hreserved.reportClaim (hbooks.reserve hid hnone hset) hid.1
    · obtain ⟨hexternal, -, hunknown⟩ := claimOf_external hclaim
      refine hreserved.setClaim claim (fun hclaimed => ?_) (fun _ => ?_) _ _ fun p hp unfilled hmem => ?_
      · rw [hexternal] at hclaimed
        cases hclaimed
      · rw [hunknown]
        trivial
      · obtain rfl := Option.some.inj hp
        obtain ⟨-, claim', hlookup⟩ := hreserved.observed i order.clientOrderId unfilled hmem
        rw [State.reserve, State.note_adapter, hnew] at hlookup
        cases hlookup

theorem send_reported (h : Reported setup s) (hsend : send s i = some t) : Reported setup t := by
  obtain ⟨p, hp, -, rfl⟩ := send_cases hsend
  refine (h.setPending (some { p with phase := .sent }) fun p' hp' => ?_).note rfl
  obtain rfl := Option.some.inj hp'
  exact h.first i p hp

theorem reportClaim_setReservations (s : State) (i : ℕ) (clientId : String) (reservations : Reservations) :
    State.reportClaim { s with reservations } i clientId = { s.reportClaim i clientId with reservations } := by
  rw [State.reportClaim, State.reportClaim]
  dsimp only
  cases (s.adapter i).claims.lookup clientId with
  | some claim => rfl
  | none => rfl

theorem finishSubmit_setReservations (s : State) (i : ℕ) (clientId : String) (reservations : Reservations) :
    finishSubmit { s with reservations } i clientId = { finishSubmit s i clientId with reservations } :=
  reportClaim_setReservations (s.put i { s.adapter i with pending := none }) i clientId reservations

theorem noteReply_stated {body : Json} {executed : ℚ} (h : statedReply env body = some executed) :
    .stated i clientId executed ∈ (noteReply env s i clientId body).log := by
  rw [noteReply, h]
  split
  · exact List.mem_cons_of_mem _ List.mem_cons_self
  · exact List.mem_cons_self

theorem noteReply_refused {body : Json} (hrefuses : refusesReply env clientId body = true)
    (hstated : (statedReply env body).any (0 < ·) = false) :
    .refused i clientId ∈ (noteReply env s i clientId body).log := by
  rw [noteReply, hrefuses, hstated]
  exact List.mem_cons_self

theorem noteReply_mem {body : Json} {e : Event} (h : e ∈ s.log) : e ∈ (noteReply env s i clientId body).log := by
  rw [noteReply]
  cases statedReply env body with
  | none =>
    dsimp only
    split
    · exact List.mem_cons_of_mem _ h
    · exact h
  | some executed =>
    dsimp only
    split
    · exact List.mem_cons_of_mem _ (List.mem_cons_of_mem _ h)
    · exact List.mem_cons_of_mem _ h

variable (env) in
theorem noteReply_reported (h : Reported setup s) (clientId : String) (body : Json) :
    Reported setup (noteReply env s i clientId body) := by
  rw [noteReply]
  cases statedReply env body with
  | none =>
    dsimp only
    split
    · exact h.note rfl
    · exact h
  | some executed =>
    dsimp only
    split
    · exact (h.note rfl).note rfl
    · exact h.note rfl

/-- The status that a reply gives has its reason in the log. -/
theorem statusSound_reply {p : Pending} {body : Json} {result : Reply}
    (hsent : .sent i p.order.clientOrderId p.order.quantity p.amount ∈ s.log)
    (hconsistent : ReplyConsistent env p.order.clientOrderId body) (hnormal : normalizeReply env body p.order = .ok result) :
    StatusSound (noteReply env s i p.order.clientOrderId body).log i p.order.clientOrderId result.status := by
  cases hstatus : result.status with
  | rejected =>
    have hrefuses := refuses_of_rejected env hnormal hstatus
    exact .inl (noteReply_refused hrefuses (hconsistent hrefuses))
  | filled =>
    exact ⟨p.order.quantity, p.amount, noteReply_mem hsent, noteReply_stated (stated_of_filled env hnormal hstatus)⟩
  | reported value => exact normalizeReply_ne_reported env hnormal value hstatus
  | _ => trivial

theorem reply_reported (h : Reported setup s) (hbooks : Books setup s) {response : Result Json} {intentFound : Bool}
    (hmeets : MeetsBooks env setup s (.reply i response intentFound))
    (hreply : reply env setup s i response intentFound = some t) : Reported setup t := by
  obtain ⟨p, hp, hphase, rfl | ⟨body, hbody, hresult⟩⟩ := reply_cases hreply
  · exact h.finishSubmit hbooks (hbooks.pending i p hp).own
  · obtain ⟨hown, ⟨claim, hlookup, -⟩, -, hsent⟩ := hbooks.pending i p hp
    obtain ⟨hadapter, -, hnotedBooks, hended⟩ := noteReply_log env setup (s := s) (i := i)
      p.order.clientOrderId body
    have hnoted := noteReply_reported env (i := i) h p.order.clientOrderId body
    rcases hresult with rfl | ⟨result, hnormal, rfl⟩
    · exact hnoted.finishSubmit (hnotedBooks hbooks) hown
    · have hafter : p.phase ≠ .claimed := by
        rw [hphase]
        decide
      have hstatus := statusSound_reply (s := s) (i := i) (hsent hafter) (hmeets p hp body hbody) hnormal
      rw [← hadapter] at hp hlookup
      -- the claim with its status, and either no submit, or one that waits for the first read
      have hset : ∀ brokerOrderId pending, (∀ p', pending = some p' → p'.order = p.order) →
          Reported setup ((noteReply env s i p.order.clientOrderId body).put i
            ⟨((noteReply env s i p.order.clientOrderId body).adapter i).claims.set p.order.clientOrderId
              { claim with status := result.status, brokerOrderId },
              ((noteReply env s i p.order.clientOrderId body).adapter i).fillRows, pending⟩) := by
        intro brokerOrderId pending hpending
        refine hnoted.setClaim { claim with status := result.status, brokerOrderId } ?_ (fun _ => hstatus) _ _ ?_
        · exact hnoted.external i _ (Dict.mem_of_lookup hlookup)
        · intro p' hp'
          rw [hpending p' hp']
          exact hnoted.first i p hp
      have hreport : ∀ brokerOrderId, Reported setup (finishSubmit ((noteReply env s i p.order.clientOrderId body).put i
          { (noteReply env s i p.order.clientOrderId body).adapter i with
            claims := ((noteReply env s i p.order.clientOrderId body).adapter i).claims.set p.order.clientOrderId
              { claim with status := result.status, brokerOrderId } }) i p.order.clientOrderId) := by
        intro brokerOrderId
        rw [finishSubmit, State.put_adapter, State.put_put, State.reportClaim, State.put_adapter, Dict.lookup_set, if_pos rfl]
        exact (hset brokerOrderId none fun _ hnone => by cases hnone).report (.inr hstatus)
      obtain ⟨brokerOrderId, s', rfl, heq⟩ := applyReply_cases setup result intentFound hlookup
      rcases heq with ⟨-, heq⟩ | heq | heq
      · rw [heq, finishSubmit_setReservations]
        exact (hreport brokerOrderId).setReservations _
      · rw [heq]
        exact hreport brokerOrderId
      · rw [heq, State.put_adapter, State.put_put]
        refine hset brokerOrderId (some { p with phase := .replied }) fun p' hp' => ?_
        obtain rfl := Option.some.inj hp'
        rfl

section row

variable {row : Fields}

theorem noteRow_mem {e : Event} (h : e ∈ s.log) : e ∈ (noteRow env s i clientId row).log := by
  rw [noteRow]
  split
  · exact List.mem_cons_of_mem _ (List.mem_cons_of_mem _ h)
  · exact List.mem_cons_of_mem _ h

theorem noteRow_stated {executed : ℚ} (h : number env (row.at "filledQuantity") = .ok executed) :
    .stated i clientId executed ∈ (noteRow env s i clientId row).log := by
  rw [noteRow, h]
  exact List.mem_cons_of_mem _ List.mem_cons_self

theorem noteRow_observed : .observed i clientId (endsUnfilled env row) ∈ (noteRow env s i clientId row).log := by
  rw [noteRow]
  exact List.mem_cons_self

theorem observed_of_noteRow {unfilled : Bool} (h : .observed i clientId unfilled ∈ (noteRow env s i clientId row).log) :
    unfilled = endsUnfilled env row ∨ .observed i clientId unfilled ∈ s.log := by
  rw [noteRow] at h
  rcases List.mem_cons.mp h with heq | h
  · exact .inl (Event.observed.inj heq).2.2
  · refine .inr ?_
    split at h
    · exact (List.mem_cons.mp h).resolve_left (by simp only [reduceCtorEq, not_false_eq_true])
    · exact h

/-- A row that ends an order unfilled is a reason to reject it, unless it was seen otherwise. -/
theorem rejected_of_unfilled (hunfilled : endsUnfilled env row = true) (hseen : .observed i clientId false ∉ s.log) :
    StatusSound (noteRow env s i clientId row).log i clientId .rejected := by
  refine .inr (firstUnfilled_of_all (fun hmem => ?_) (hunfilled ▸ noteRow_observed))
  rcases observed_of_noteRow hmem with heq | hmem
  · rw [hunfilled] at heq
    cases heq
  · exact hseen hmem

/-- A row is put into the log while no submit is under way. -/
theorem noteRow_reported (h : Reported setup s) (hidle : (s.adapter i).pending = none) (hown : isExternalId clientId = false)
    (claim : Claim) (hlookup : (s.adapter i).claims.lookup clientId = some claim) :
    Reported setup (noteRow env s i clientId row) := by
  rw [noteRow]
  split
  · exact (h.note (e := .stated i clientId _) rfl).observe hidle hown hlookup _
  · exact h.observe hidle hown hlookup _

theorem noteRow_put (a : Adapter) (row : Fields) :
    (noteRow env s i clientId row).put i a = noteRow env (s.put i a) i clientId row := by
  rw [noteRow, noteRow]
  cases (number env (row.at "filledQuantity")).toOption with
  | none => rfl
  | some executed => rfl

/-- A submit that ends with a row is over before the row is put into the log. -/
theorem finishSubmit_noteRow (a : Adapter) (row : Fields) :
    finishSubmit ((noteRow env s i clientId row).put i a) i clientId =
      ((noteRow env (s.put i { s.adapter i with pending := none }) i clientId row).put i { a with pending := none }).reportClaim
        i clientId := by
  rw [finishSubmit, State.put_adapter, State.put_put, noteRow_put, noteRow_put, State.put_put]

end row

theorem firstRead_reported (h : Reported setup s) (hbooks : Books setup s) {answer : Result Observed}
    (hread : firstRead env s i answer = some t) : Reported setup t := by
  obtain ⟨p, hp, hphase, rfl | ⟨observed, claim, -, hlookup, hresult⟩⟩ := firstRead_cases hread
  · exact h.finishSubmit hbooks (hbooks.pending i p hp).own
  · have hown := (hbooks.pending i p hp).own
    -- the submit is over before its row is put into the log
    have hover : Reported setup (s.put i { s.adapter i with pending := none }) := h.setPending none fun _ hp => by cases hp
    have hnoted : Reported setup (noteRow env (s.put i { s.adapter i with pending := none }) i p.order.clientOrderId observed.row) :=
      noteRow_reported hover (by rw [State.put_adapter]) hown claim (by rw [State.put_adapter]; exact hlookup)
    have hunseen : .observed i p.order.clientOrderId false ∉ (s.put i { s.adapter i with pending := none }).log := h.first i p hp false
    have hsound : ∀ status, firstStatus env observed.row p.order.quantity = .ok status → StatusSound
        (noteRow env (s.put i { s.adapter i with pending := none }) i p.order.clientOrderId observed.row).log i
        p.order.clientOrderId status := by
      intro status hfirst
      rcases firstStatus_cases env hfirst with ⟨rfl, hfilled⟩ | ⟨rfl, hunfilled⟩ | rfl
      · have hsent := (hbooks.pending i p hp).sent (by rw [hphase]; decide)
        exact ⟨p.order.quantity, p.amount, noteRow_mem hsent, noteRow_stated hfilled⟩
      · exact rejected_of_unfilled hunfilled hunseen
      · trivial
    have hadapter : (noteRow env (s.put i { s.adapter i with pending := none }) i p.order.clientOrderId observed.row).adapter i =
        { s.adapter i with pending := none } := by
      rw [noteRow_adapter, State.put_adapter]
    have hclaims := congrArg Adapter.claims hadapter
    rcases hresult with rfl | ⟨status, hfirst, rfl⟩
    · rw [finishSubmit_noteRow]
      refine Reported.reportClaim_some (hnoted.put ?_ ?_ ?_ fun _ hnone => by cases hnone) hown claim ?_
      · exact h.external i
      · rw [← hclaims]
        exact hnoted.statuses i
      · rw [hclaims]
        exact fun _ claim' hother _ => ⟨claim', hother⟩
      · rw [State.put_adapter]
        exact hlookup
    · rw [finishSubmit_noteRow, ← hclaims]
      refine Reported.reportClaim_some (hnoted.setClaim { claim with status } ?_
        (fun _ => hsound status hfirst) _ _ fun _ hnone => by cases hnone) hown
        { claim with status } ?_
      · exact h.external i _ (Dict.mem_of_lookup hlookup)
      · rw [State.put_adapter, Dict.lookup_set, if_pos rfl]

/-- An order of the session that the reader shows was sent. -/
theorem observe_reported (h : Reported setup s) (hbooks : Books setup s) {answer : Result Observed} {marketRead : Bool}
    (hmeets : isExternalId clientId = false → ∀ observed, answer = .ok observed → RowTruthful env s i clientId observed.row)
    (hobserve : observe env setup s i clientId answer marketRead = some t) : Reported setup t := by
  rcases observe_cases hobserve with rfl | ⟨claim, row, hidle, hlookup, hread, hresult⟩
  · exact h.report (.inr trivial)
  · have hexternal := h.external i _ (Dict.mem_of_lookup hlookup)
    have hown : isExternalId clientId = false := by
      rw [← (hbooks.tidy i).external clientId claim hlookup]
      cases hclaim : claim.externalExecution with
      | false => rfl
      | true =>
        rw [hexternal hclaim] at hread
        exact absurd hread (readClaimTruth_external hclaim answer row)
    obtain ⟨observed, hanswer, hrow⟩ := readClaimTruth_eq_ok env hread
    obtain ⟨hsent, hrejected⟩ := hmeets hown observed hanswer
    rw [hrow] at hrejected
    have hnoted : Reported setup (noteRow env s i clientId row) := noteRow_reported h hidle hown claim hlookup
    have hclaims : ((noteRow env s i clientId row).adapter i).claims = (s.adapter i).claims := by rw [noteRow_adapter]
    have hpending : ∀ p, (s.adapter i).pending = some p →
        ∀ unfilled, .observed i p.order.clientOrderId unfilled ∉ (noteRow env s i clientId row).log := fun p hp => by
      rw [hidle] at hp
      cases hp
    rcases hresult with rfl | ⟨status, filled, hstate, rfl⟩
    · rw [← hclaims]
      refine (hnoted.setClaim { claim with brokerOrderId := rowBrokerId env row } hexternal (fun _ => ?_) _ _
        hpending).report (.inr trivial)
      have hlookup' : ((noteRow env s i clientId row).adapter i).claims.lookup clientId = some claim := by
        rw [hclaims]
        exact hlookup
      exact hnoted.statuses i clientId claim hlookup' hown
    · have hsound : StatusSound (noteRow env s i clientId row).log i clientId status := by
        obtain ⟨hread', hstatus⟩ := observeRow_cases env hstate
        rcases hstatus with ⟨rfl, hfilled⟩ | rfl | ⟨rfl, hfinal⟩ | rfl | rfl
        · simp only [NeverSent, not_forall, not_not] at hsent
          obtain ⟨quantity, amount, hsent⟩ := hsent
          obtain ⟨-, claim', hlookup', hquantity⟩ := hbooks.sent i clientId quantity amount hsent
          rw [hlookup] at hlookup'
          obtain rfl := Option.some.inj hlookup'
          rw [hfilled, hquantity] at hread'
          exact ⟨quantity, amount, noteRow_mem hsent, noteRow_stated hread'⟩
        · trivial
        · obtain ⟨hunfilled, hseen⟩ := hrejected hfinal
          exact rejected_of_unfilled hunfilled hseen
        · trivial
        · trivial
      rw [← hclaims]
      exact (hnoted.setClaim { claim with brokerOrderId := rowBrokerId env row, status } hexternal
        (fun _ => hsound) _ _ hpending).report (.inr hsound)

theorem readAccount_reported (h : Reported setup s) (hbooks : Books setup s) {read : Read}
    (hread : readAccount env setup s i read = some t) : Reported setup t := by
  rw [readAccount] at hread
  obtain rfl := Option.some.inj hread
  exact h.putSnapshot (snapshot_steady env (hbooks.tidy i) (setup i) read) (snapshot_externalOn env read (h.external i))

theorem reconcile_reported (h : Reported setup s) (hbooks : Books setup s) {read : Read} {valued settled : Bool}
    (hreconcile : reconcile env setup s i read valued settled = some t) : Reported setup t := by
  obtain ⟨a, result, hsnapshot, hresult⟩ := reconcile_cases hreconcile
  have hput : Reported setup (s.put i a) := by
    have hsteady := snapshot_steady env (hbooks.tidy i) (setup i) read
    have hexternal := snapshot_externalOn env read (h.external i)
    rw [hsnapshot] at hsteady hexternal
    exact h.putSnapshot hsteady hexternal
  rcases hresult with rfl | ⟨account, rfl, hresult⟩
  · exact hput
  · have hflat : Reported setup (s.readFlat env i account a) := by
      rw [State.readFlat]
      split
      · exact hput.note rfl
      · exact hput
    have hsettled : Reported setup ((s.readFlat env i account a).settle env setup i account a) := by
      rw [State.settle]
      split
      · exact hflat.setReservations _
      · exact hflat
    rcases hresult with rfl | rfl | ⟨-, rfl⟩
    · exact hflat
    · exact hsettled
    · exact hsettled.note rfl

/-! ## Runs -/

theorem reported_initial (reservations : Reservations) : Reported setup (State.initial reservations) where
  external _ _ hmem := absurd hmem List.not_mem_nil
  statuses _ _ _ h _ := by cases h
  observed _ _ _ h := absurd h List.not_mem_nil
  first _ _ h := by cases h
  reports := trivial

theorem step_reported (h : Books setup s ∧ Reported setup s) {label : Label} (hmeets : MeetsSent env setup s label)
    (hstep : step env setup s label = some t) : Books setup t ∧ Reported setup t := by
  obtain ⟨hbooks, h⟩ := h
  refine ⟨step_books hbooks hmeets.1 hstep, ?_⟩
  cases label with
  | enter i order checked => exact enter_reported h hbooks hmeets.1 hstep
  | abandon i =>
    obtain ⟨p, hp, -, rfl⟩ := abandon_cases hstep
    exact h.finishSubmit hbooks (hbooks.pending i p hp).own
  | send i => exact send_reported h hstep
  | reply i response intentFound => exact reply_reported h hbooks hmeets.1 hstep
  | firstRead i answer => exact firstRead_reported h hbooks hstep
  | observe i clientId answer marketRead => exact observe_reported h hbooks hmeets.2 hstep
  | read i read => exact readAccount_reported h hbooks hstep
  | reconcile i read valued settled => exact reconcile_reported h hbooks hstep

/-- What was sent keeps its claim, and its reservation while it is at stake. -/
theorem Books.retained (h : Books setup s) {quantity amount : ℚ} (hsent : .sent i clientId quantity amount ∈ s.log) :
    Retained setup s i clientId quantity amount := by
  refine ⟨(h.sent i clientId quantity amount hsent).2, ?_⟩
  rcases committed_of_sent hsent with hmem | hrefused | hflat
  · exact .inl (h.committed _ hmem)
  · exact .inr (.inl hrefused)
  · exact .inr (.inr hflat)

/-- **Orders.**  In every run whose steps meet `MeetsSent`, no order is sent twice, every report has its
reason, and an order keeps its claim and its reservation until it is refused or its route is read flat. -/
theorem orders_of_run {reservations : Reservations} {labels : List Label}
    (h : Run (step env setup) (MeetsSent env setup) (State.initial reservations) labels s) :
    SentOnce s.log ∧ ReportSound s.log ∧
      ∀ i clientId quantity amount, .sent i clientId quantity amount ∈ s.log → Retained setup s i clientId quantity amount := by
  obtain ⟨hbooks, hreported⟩ := h.invariant (P := fun s => Books setup s ∧ Reported setup s)
    (fun hmeets hstep h => step_reported h hmeets hstep) ⟨books_initial reservations, reported_initial reservations⟩
  exact ⟨hbooks.once, hreported.reports, fun i clientId quantity amount hsent => hbooks.retained hsent⟩

/-! ## A run -/

/-- An order that is executed in part, then completely; the route is read flat. -/
def sampleLabels : List Label :=
  [.enter 0 (.sample "sl-buy-1") (.ok ⟨60000, false⟩), .send 0, .reply 0 (.ok (sampleReply "sl-buy-1" "NEW" (.int 0))) true,
    .firstRead 0 (.ok (sampleRow "PARTIALLY_FILLED" (.str "0.5"))),
    .observe 0 "sl-buy-1" (.ok (sampleRow "FILLED" (.int 1))) true,
    .reconcile 0 (sampleRead (.ok (sampleRow "FILLED" (.int 1)))) true true]

/-- An order that expires after half of it was executed. -/
def sampleExpired : List Label :=
  [.enter 0 (.sample "sl-buy-1") (.ok ⟨60000, false⟩), .send 0, .reply 0 (.ok (sampleReply "sl-buy-1" "EXPIRED" (.str "0.5"))) true]

def Event.isSent (i : ℕ) (clientId : String) : Event → Bool
  | .sent j other _ _ => j = i && other = clientId
  | _ => false

def Event.isObserved (i : ℕ) (clientId : String) : Event → Bool
  | .observed j other _ => j = i && other = clientId
  | _ => false

def Event.isStated (i : ℕ) (clientId : String) (executed : ℚ) : Event → Bool
  | .stated j other amount => j = i && other = clientId && amount = executed
  | _ => false

/-- The condition of the run. -/
def sampleMeets (s : State) (label : Label) : Bool :=
  sampleBooks s label &&
    match label with
    | .observe i clientId (.ok observed) _ =>
      s.log.any (Event.isSent i clientId) && rowState Env.sample observed.row != "REJECTED"
    | _ => true

theorem sent_of_isSent {log : List Event} (h : log.any (Event.isSent i clientId) = true) :
    ∃ quantity amount, .sent i clientId quantity amount ∈ log := by
  obtain ⟨e, hmem, he⟩ := List.any_eq_true.mp h
  cases e with
  | sent j other quantity amount =>
    simp only [Event.isSent, Bool.and_eq_true, decide_eq_true_eq] at he
    obtain ⟨rfl, rfl⟩ := he
    exact ⟨quantity, amount, hmem⟩
  | _ => cases he

theorem meets_of_sampleMeets {s : State} {label : Label} (h : sampleMeets s label = true) :
    MeetsSent Env.sample Setup.sample s label := by
  rw [sampleMeets.eq_def, Bool.and_eq_true] at h
  refine ⟨meetsBooks_of_sampleBooks h.1, ?_⟩
  cases label with
  | observe i clientId answer marketRead =>
    intro _ observed hanswer
    subst hanswer
    obtain ⟨hsent, hstate⟩ := Bool.and_eq_true_iff.mp h.2
    obtain ⟨quantity, amount, hsent⟩ := sent_of_isSent hsent
    exact ⟨fun hnever => hnever quantity amount hsent, fun hrejected => absurd hrejected (bne_iff_ne.mp hstate)⟩
  | _ => trivial

theorem orders_of_run_sample : ∃ s, Run (step Env.sample Setup.sample) (MeetsSent Env.sample Setup.sample) (State.initial [])
    sampleLabels s ∧ s.log.any (Event.isSent 0 "sl-buy-1") = true ∧ SentOnce s.log ∧ ReportSound s.log ∧
    ∀ i clientId quantity amount, .sent i clientId quantity amount ∈ s.log →
      Retained Setup.sample s i clientId quantity amount := by
  have heval : ∃ s, runAll (fun s label => if sampleMeets s label then step Env.sample Setup.sample s label else none)
      (State.initial []) sampleLabels = some s ∧ s.log.any (Event.isSent 0 "sl-buy-1") = true := by
    decide +kernel
  obtain ⟨s, hrun, hsent⟩ := heval
  have hrun' : Run (step Env.sample Setup.sample) (MeetsSent Env.sample Setup.sample) (State.initial []) sampleLabels s :=
    (run_of_guarded hrun).weaken fun _ _ hmeets => meets_of_sampleMeets hmeets
  exact ⟨s, hrun', hsent, orders_of_run hrun'⟩

/-- The last report is a rejection of an order that was sent, neither refused nor observed. -/
def rejectsSent (i : ℕ) (clientId : String) : List Event → Bool
  | .reported j other .rejected :: past => j = i && other = clientId && past.any (Event.isSent i clientId) &&
      !past.any (Event.isRefusal i clientId) && !past.any (Event.isObserved i clientId)
  | _ => false

theorem not_reportSound {log : List Event} (h : rejectsSent i clientId log = true) : ¬ ReportSound log := by
  rw [rejectsSent.eq_def] at h
  split at h
  · next j other past =>
    simp only [Bool.and_eq_true, decide_eq_true_eq, Bool.not_eq_true', List.any_eq_false] at h
    obtain ⟨⟨⟨⟨rfl, rfl⟩, hsent⟩, hrefused⟩, hobserved⟩ := h
    rintro ⟨hreport, -⟩
    rcases hreport with ⟨-, hnever⟩ | hmem | hfirst
    · obtain ⟨quantity, amount, hmem⟩ := sent_of_isSent hsent
      exact hnever quantity amount hmem
    · refine hrefused _ hmem ?_
      rw [Event.isRefusal, Bool.and_eq_true]
      exact ⟨decide_eq_true rfl, decide_eq_true rfl⟩
    · obtain ⟨later, earlier, rfl, -⟩ := hfirst
      refine hobserved _ (List.mem_append_right _ List.mem_cons_self) ?_
      rw [Event.isObserved, Bool.and_eq_true]
      exact ⟨decide_eq_true rfl, decide_eq_true rfl⟩
  · cases h

/-- Half of the order is executed, its report is a rejection, and its reservation is gone. -/
theorem expired_part_rejected : ∃ s, Run (step Env.sample Setup.sample) Free (State.initial []) sampleExpired s ∧
    s.log.any (Event.isStated 0 "sl-buy-1" (1 / 2)) = true ∧ entryOf s.reservations (.binance, "sl-buy-1") = none ∧ ¬ ReportSound s.log := by
  have heval : ∃ s, runAll (step Env.sample Setup.sample) (State.initial []) sampleExpired = some s ∧
      (s.log.any (Event.isStated 0 "sl-buy-1" (1 / 2)) = true ∧ entryOf s.reservations (.binance, "sl-buy-1") = none ∧
        rejectsSent 0 "sl-buy-1" s.log = true) := by
    decide +kernel
  obtain ⟨s, hrun, hstated, hreleased, hrejects⟩ := heval
  exact ⟨s, free_of_runAll hrun, hstated, hreleased, not_reportSound hrejects⟩

end LiveTrader.ShortBroker
