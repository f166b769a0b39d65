/-
# `ShortBroker.Books` — claims, reservations and what was sent

`committed` is what the log says is at stake: the orders that were sent, not refused, and whose route
was not read flat since.  In every run whose steps meet `MeetsBooks`, each of them is claimed by its
adapter and holds its reservation, and no order is sent twice (`books_of_run`).
-/
import LiveTrader.ShortBroker.System

namespace LiveTrader.ShortBroker

open Lib Lib.Py Lib.Runs Lib.Decimal

variable {env : Env} {setup : Setup} {s t : State} {i : ℕ} {a a' a'' : Adapter}

/-! ## Ids -/

/-- The id is that of an external execution. -/
def isExternalId (clientId : String) : Bool := "external-".toList.isPrefixOf clientId.toList

theorem isExternalId_externalId (x : External) (brokerId symbol : String) :
    isExternalId (externalId x brokerId symbol) = true := by
  have happ : (externalId x brokerId symbol).toList =
      "external-".toList ++ (symbol ++ "-" ++ x.positionSide ++ "-" ++ brokerId).toList := by
    simp only [externalId, String.toList_append, List.append_assoc]
  rw [isExternalId, happ, List.isPrefixOf_iff_prefix]
  exact List.prefix_append _ _

/-! ## The log -/

/-- What is at stake: adapter, client id and reserved capital. -/
abbrev Commitment := ℕ × String × ℚ

/-- The orders that were sent, not refused since, and whose route was not read flat since. -/
def committed : List Event → List Commitment
  | [] => []
  | .sent i clientId _ amount :: past => (i, clientId, amount) :: committed past
  | .refused i clientId :: past => (committed past).filter fun c => ¬ (c.1 = i ∧ c.2.1 = clientId)
  | .flat i :: past => (committed past).filter fun c => c.1 ≠ i
  | _ :: past => committed past

theorem sent_of_committed {log : List Event} {c : Commitment} (h : c ∈ committed log) :
    ∃ quantity, .sent c.1 c.2.1 quantity c.2.2 ∈ log := by
  induction log with
  | nil => exact absurd h List.not_mem_nil
  | cons e past ih =>
    have hpast : c ∈ committed past → ∃ quantity, .sent c.1 c.2.1 quantity c.2.2 ∈ e :: past := fun hmem => by
      obtain ⟨quantity, hsent⟩ := ih hmem
      exact ⟨quantity, List.mem_cons_of_mem _ hsent⟩
    cases e with
    | sent i clientId quantity amount =>
      rcases List.mem_cons.mp h with rfl | h
      · exact ⟨quantity, List.mem_cons_self⟩
      · exact hpast h
    | refused i clientId => exact hpast (List.mem_filter.mp h).1
    | flat i => exact hpast (List.mem_filter.mp h).1
    | _ => exact hpast h

/-- The route was read flat after the order was sent. -/
def FlatSince (log : List Event) (i : ℕ) (clientId : String) : Prop :=
  ∃ later earlier quantity amount, log = later ++ .flat i :: earlier ∧ .sent i clientId quantity amount ∈ earlier

theorem FlatSince.cons {log : List Event} {clientId : String} (h : FlatSince log i clientId) (e : Event) :
    FlatSince (e :: log) i clientId := by
  obtain ⟨later, earlier, quantity, amount, rfl, hsent⟩ := h
  exact ⟨e :: later, earlier, quantity, amount, rfl, hsent⟩

/-- What was sent is at stake, refused, or its route was read flat. -/
theorem committed_of_sent {log : List Event} {clientId : String} {quantity amount : ℚ}
    (h : .sent i clientId quantity amount ∈ log) :
    (i, clientId, amount) ∈ committed log ∨ .refused i clientId ∈ log ∨ FlatSince log i clientId := by
  induction log with
  | nil => exact absurd h List.not_mem_nil
  | cons e past ih =>
    rcases List.mem_cons.mp h with rfl | hpast
    · exact .inl List.mem_cons_self
    · rcases ih hpast with hmem | hrefused | hflat
      · cases e with
        | sent j other q b => exact .inl (List.mem_cons_of_mem _ hmem)
        | refused j other =>
          by_cases heq : i = j ∧ clientId = other
          · obtain ⟨rfl, rfl⟩ := heq
            exact .inr (.inl List.mem_cons_self)
          · exact .inl (List.mem_filter.mpr ⟨hmem, decide_eq_true heq⟩)
        | flat j =>
          by_cases heq : i = j
          · subst heq
            exact .inr (.inr ⟨[], past, quantity, amount, rfl, hpast⟩)
          · exact .inl (List.mem_filter.mpr ⟨hmem, decide_eq_true heq⟩)
        | _ => exact .inl hmem
      · exact .inr (.inl (List.mem_cons_of_mem _ hrefused))
      · exact .inr (.inr (hflat.cons e))

/-! ## Adapters -/

/-- The claims of an adapter have one key each, and the external ones have external ids. -/
structure Adapter.Tidy (a : Adapter) : Prop where
  keys : (a.claims.map Prod.fst).Nodup
  external : ∀ clientId claim, a.claims.lookup clientId = some claim → claim.externalExecution = isExternalId clientId

/-- The status and the quantity. -/
def Claim.core (claim : Claim) : Status × ℚ := (claim.status, claim.quantity)

/-- The orders of the session have the claims they had, with the broker's ids. -/
structure Steady (a a' : Adapter) : Prop where
  tidy : a'.Tidy
  own : ∀ clientId, isExternalId clientId = false →
    (a'.claims.lookup clientId).map Claim.core = (a.claims.lookup clientId).map Claim.core
  pending : a'.pending = a.pending

theorem Steady.refl (h : a.Tidy) : Steady a a := ⟨h, fun _ _ => rfl, rfl⟩

theorem Steady.trans (h : Steady a a') (h' : Steady a' a'') : Steady a a'' :=
  ⟨h'.tidy, fun clientId hown => (h'.own clientId hown).trans (h.own clientId hown), h'.pending.trans h.pending⟩

theorem Adapter.Tidy.set (h : a.Tidy) {clientId : String} {claim : Claim}
    (hexternal : claim.externalExecution = isExternalId clientId) (fillRows : Dict String Fields) (pending : Option Pending) :
    Adapter.Tidy ⟨a.claims.set clientId claim, fillRows, pending⟩ := by
  refine ⟨Dict.nodup_set h.keys _ _, fun other claim' hlookup => ?_⟩
  rw [Dict.lookup_set] at hlookup
  split at hlookup
  · next heq =>
    obtain rfl := Option.some.inj hlookup
    rw [heq, hexternal]
  · exact h.external other claim' hlookup

/-- A claim is replaced by one with the same status and quantity, or an external one is added. -/
theorem Steady.set (h : a.Tidy) (clientId : String) (claim : Claim)
    (hexternal : claim.externalExecution = isExternalId clientId)
    (hcore : isExternalId clientId = false → (a.claims.lookup clientId).map Claim.core = some claim.core)
    (fillRows : Dict String Fields) : Steady a ⟨a.claims.set clientId claim, fillRows, a.pending⟩ := by
  refine ⟨h.set hexternal _ _, fun other hown => ?_, rfl⟩
  rw [Dict.lookup_set]
  split
  · next heq =>
    subst heq
    exact (hcore hown).symm
  · rfl

theorem addExternal_steady (h : a.Tidy) {x : External} (hadd : addExternal env x a = .ok a') : Steady a a' := by
  obtain ⟨-, -, hadd⟩ := bind_eq_ok.mp hadd
  obtain ⟨-, -, hadd⟩ := bind_eq_ok.mp hadd
  obtain ⟨quantity, -, hadd⟩ := bind_eq_ok.mp hadd
  split at hadd
  · obtain rfl := Except.ok.inj hadd
    exact .refl h
  · obtain ⟨-, -, hadd⟩ := bind_eq_ok.mp hadd
    obtain ⟨-, -, hadd⟩ := bind_eq_ok.mp hadd
    obtain ⟨shown, -, hadd⟩ := bind_eq_ok.mp hadd
    obtain ⟨-, -, hadd⟩ := bind_eq_ok.mp hadd
    obtain rfl := Except.ok.inj hadd
    have hexternal := isExternalId_externalId x (env.str ((x.actual.row.lookup "brokerOrderId").getD (.str "")))
      (env.str ((x.actual.row.lookup "symbol").getD (.str "")))
    exact Steady.set h _ _ hexternal.symm (fun hown => absurd (hexternal.symm.trans hown) (by decide)) _

variable (env) in
theorem addExternals_steady (h : a.Tidy) (items : List External) : Steady a (addExternals env items a).1 := by
  induction items generalizing a with
  | nil => exact .refl h
  | cons x rest ih =>
    rw [addExternals]
    cases hadd : addExternal env x a with
    | error e => exact .refl h
    | ok a' =>
      have hfirst := addExternal_steady h hadd
      exact hfirst.trans (ih hfirst.tidy)

variable (env) in
theorem pollFuturesProtection_steady (h : a.Tidy) (route : Route) (read : Read) :
    Steady a (pollFuturesProtection env route read a).1 := by
  rw [pollFuturesProtection]
  split
  · split
    · exact .refl h
    · exact .refl h
    · exact addExternals_steady env h _
  · exact .refl h

/-- A claim that is read gets the broker's id, and no other change. -/
theorem joinClaims_steady {route : Route} {rows : String → Result Observed} (entries : List (String × Claim)) (h : a.Tidy)
    (hentries : ∀ entry ∈ entries, entry.2.externalExecution = isExternalId entry.1 ∧
      (isExternalId entry.1 = false → (a.claims.lookup entry.1).map Claim.core = some entry.2.core)) :
    Steady a (joinClaims env route rows entries a).1 := by
  induction entries generalizing a with
  | nil => exact .refl h
  | cons entry rest ih =>
    obtain ⟨clientId, claim⟩ := entry
    obtain ⟨hexternal, hcore⟩ := hentries _ List.mem_cons_self
    have hrest := fun entry hmem => hentries entry (List.mem_cons_of_mem _ hmem)
    rw [joinClaims]
    split
    · exact ih h hrest
    · cases hread : readClaimTruth env route claim clientId (rows clientId) with
      | error e => exact .refl h
      | ok row =>
        have hset : Steady a ⟨a.claims.set clientId { claim with brokerOrderId := rowBrokerId env row },
            a.fillRows.set clientId row, a.pending⟩ :=
          Steady.set h clientId { claim with brokerOrderId := rowBrokerId env row } hexternal hcore _
        dsimp only
        split
        · exact hset
        · refine hset.trans (ih hset.tidy fun entry hmem => ⟨(hrest entry hmem).1, fun hown => ?_⟩)
          rw [hset.own entry.1 hown]
          exact (hrest entry hmem).2 hown

variable (env) in
theorem checkSnapshot_steady (h : a.Tidy) (route : Route) (read : Read) (account : Account) :
    Steady a (checkSnapshot env route read account a).1 := by
  rw [checkSnapshot]
  by_cases hroute : route = .binanceUsdmFutures
  · rw [if_pos hroute]
    have hforced := addExternals_steady env h read.forced
    cases hadd : addExternals env read.forced a with
    | mk a' result =>
      rw [hadd] at hforced
      cases result with
      | error e => exact hforced
      | ok u => exact hforced
  · rw [if_neg hroute]
    exact .refl h

variable (env) in
/-- A snapshot changes no claim of an order but the broker's id. -/
theorem snapshot_steady (h : a.Tidy) (route : Route) (read : Read) : Steady a (snapshot env route read a).1 := by
  rw [snapshot]
  have hpoll := pollFuturesProtection_steady env h route read
  cases hpolled : pollFuturesProtection env route read a with
  | mk a₁ result =>
    rw [hpolled] at hpoll
    cases result with
    | error e => exact hpoll
    | ok u =>
      dsimp only
      cases read.account with
      | error e => exact hpoll
      | ok account =>
        have hjoin : Steady a₁ (joinClaims env route read.rows a₁.claims a₁).1 :=
          joinClaims_steady a₁.claims hpoll.tidy fun entry hmem => by
            have hlookup := Dict.lookup_of_mem hpoll.tidy.keys hmem
            exact ⟨hpoll.tidy.external _ _ hlookup, fun _ => by rw [hlookup]; rfl⟩
        dsimp only
        cases hjoined : joinClaims env route read.rows a₁.claims a₁ with
        | mk a₂ result =>
          rw [hjoined] at hjoin
          cases result with
          | error e => exact hpoll.trans hjoin
          | ok u => exact (hpoll.trans hjoin).trans (checkSnapshot_steady env hjoin.tidy route read account)

/-- A snapshot that succeeds has read every claim that may be an order. -/
theorem joinClaims_ok {route : Route} {rows : String → Result Observed} {entries : List (String × Claim)}
    (h : (joinClaims env route rows entries a).2 = .ok ()) :
    ∀ entry ∈ entries, entry.2.skipped = false → ∃ observed, rows entry.1 = .ok observed := by
  induction entries generalizing a with
  | nil => exact fun _ hmem => absurd hmem List.not_mem_nil
  | cons first rest ih =>
    obtain ⟨clientId, claim⟩ := first
    rw [joinClaims] at h
    split at h
    · next hskipped =>
      intro entry hmem hread
      rcases List.mem_cons.mp hmem with rfl | hmem
      · rw [hskipped] at hread
        cases hread
      · exact ih h entry hmem hread
    · cases hread : readClaimTruth env route claim clientId (rows clientId) with
      | error e =>
        rw [hread] at h
        cases h
      | ok row =>
        rw [hread] at h
        dsimp only at h
        split at h
        · cases h
        · intro entry hmem hskip
          rcases List.mem_cons.mp hmem with rfl | hmem
          · obtain ⟨-, -, hread⟩ := bind_eq_ok.mp hread
            obtain ⟨observed, hobserved, -⟩ := bind_eq_ok.mp hread
            exact ⟨observed, hobserved⟩
          · exact ih h entry hmem hskip

theorem snapshot_ok (h : a.Tidy) {route : Route} {read : Read} {account : Account}
    (hok : (snapshot env route read a).2 = .ok account) {clientId : String} {claim : Claim}
    (hown : isExternalId clientId = false) (hlookup : a.claims.lookup clientId = some claim)
    (hunknown : claim.status = .unknown) : ∃ observed, read.rows clientId = .ok observed := by
  rw [snapshot] at hok
  have hpoll := pollFuturesProtection_steady env h route read
  cases hpolled : pollFuturesProtection env route read a with
  | mk a₁ result =>
    rw [hpolled] at hpoll hok
    cases result with
    | error e => cases hok
    | ok u =>
      dsimp only at hok
      cases haccount : read.account with
      | error e =>
        rw [haccount] at hok
        cases hok
      | ok account' =>
        rw [haccount] at hok
        dsimp only at hok
        have hcore := hpoll.own clientId hown
        rw [hlookup] at hcore
        obtain ⟨claim', hlookup', hcore⟩ := Option.map_eq_some_iff.mp hcore
        have hstatus : claim'.status = .unknown := by
          rw [← hunknown]
          exact congrArg Prod.fst hcore
        have hskipped : claim'.skipped = false := by
          rw [Claim.skipped, hpoll.tidy.external _ _ hlookup', hown, hstatus]
          exact Bool.and_false _
        cases hjoined : joinClaims env route read.rows a₁.claims a₁ with
        | mk a₂ result =>
          rw [hjoined] at hok
          cases result with
          | error e => cases hok
          | ok u =>
            exact joinClaims_ok (by rw [hjoined]) _ (Dict.mem_of_lookup hlookup') hskipped

/-! ## Reservations -/

theorem lookup_filter_ne {κ ν : Type} [DecidableEq κ] (d : Dict κ ν) (key key' : κ) :
    entryOf (d.filter fun entry => entry.1 ≠ key) key' = if key' = key then none else entryOf d key' := by
  induction d with
  | nil => simp
  | cons entry d ih =>
    obtain ⟨k, v⟩ := entry
    simp only [entryOf] at ih ⊢
    by_cases hk : k = key
    · subst hk
      rw [List.filter_cons_of_neg (by simp), ih]
      by_cases hkey : key' = k
      · rw [if_pos hkey, if_pos hkey]
      · rw [if_neg hkey, if_neg hkey, List.lookup_cons, beq_eq_false_iff_ne.mpr hkey]
    · rw [List.filter_cons_of_pos (by simp [hk]), List.lookup_cons, List.lookup_cons, ih]
      by_cases hkey : key' = k
      · subst hkey
        simp only [beq_self_eq_true, if_neg hk]
      · rw [beq_eq_false_iff_ne.mpr hkey]

theorem lookup_releaseTerminal (reservations : Reservations) (exchange : Exchange) (clientId : String)
    (key : Exchange × String) : entryOf (releaseTerminal reservations exchange clientId) key =
      if key = (exchange, clientId) then none else entryOf reservations key :=
  lookup_filter_ne reservations (exchange, clientId) key

theorem lookup_releaseAll (reservations : Reservations) (exchange : Exchange) (clientIds : List String)
    (key : Exchange × String) : entryOf (releaseAll reservations exchange clientIds) key =
      if key.1 = exchange ∧ key.2 ∈ clientIds then none else entryOf reservations key := by
  induction clientIds generalizing reservations with
  | nil => simp [releaseAll]
  | cons clientId rest ih =>
    have hstep : releaseAll reservations exchange (clientId :: rest) =
        releaseAll (releaseTerminal reservations exchange clientId) exchange rest := rfl
    rw [hstep, ih, lookup_releaseTerminal]
    by_cases hrest : key.1 = exchange ∧ key.2 ∈ rest
    · rw [if_pos hrest, if_pos ⟨hrest.1, List.mem_cons_of_mem _ hrest.2⟩]
    · rw [if_neg hrest]
      by_cases hkey : key = (exchange, clientId)
      · rw [if_pos hkey, if_pos ⟨congrArg Prod.fst hkey, by rw [hkey]; exact List.mem_cons_self⟩]
      · rw [if_neg hkey, if_neg]
        rintro ⟨hexchange, hmem⟩
        rcases List.mem_cons.mp hmem with hid | hmem
        · exact hkey (Prod.ext hexchange hid)
        · exact hrest ⟨hexchange, hmem⟩

/-! ## The invariant -/

variable (setup) in
/-- What holds of a submit under way. -/
structure PendingSound (s : State) (i : ℕ) (p : Pending) : Prop where
  own : isExternalId p.order.clientOrderId = false
  claim : ∃ claim, (s.adapter i).claims.lookup p.order.clientOrderId = some claim ∧ claim.quantity = p.order.quantity ∧
    (p.phase = .claimed → claim.status = .unknown)
  unsent : p.phase = .claimed → (∀ quantity amount, .sent i p.order.clientOrderId quantity amount ∉ s.log) ∧
    entryOf s.reservations ((setup i).exchange, p.order.clientOrderId) = some p.amount
  sent : p.phase ≠ .claimed → .sent i p.order.clientOrderId p.order.quantity p.amount ∈ s.log

/-- No order is sent twice. -/
def SentOnce : List Event → Prop
  | [] => True
  | .sent i clientId _ _ :: past => (∀ quantity amount, .sent i clientId quantity amount ∉ past) ∧ SentOnce past
  | _ :: past => SentOnce past

variable (setup) in
structure Books (s : State) : Prop where
  tidy : ∀ i, (s.adapter i).Tidy
  reserved : ∀ i clientId claim, (s.adapter i).claims.lookup clientId = some claim → isExternalId clientId = false →
    ∃ amount, .reserved i clientId amount ∈ s.log
  /-- A client id is reserved by one adapter of an exchange. -/
  unique : ∀ i j clientId amount amount', .reserved i clientId amount ∈ s.log → .reserved j clientId amount' ∈ s.log →
    (setup i).exchange = (setup j).exchange → i = j
  sent : ∀ i clientId quantity amount, .sent i clientId quantity amount ∈ s.log → isExternalId clientId = false ∧
    ∃ claim, (s.adapter i).claims.lookup clientId = some claim ∧ claim.quantity = quantity
  once : SentOnce s.log
  pending : ∀ i p, (s.adapter i).pending = some p → PendingSound setup s i p
  committed : ∀ c ∈ committed s.log, entryOf s.reservations ((setup c.1).exchange, c.2.1) = some c.2.2

/-- The event opens nothing. -/
def Event.still : Event → Bool
  | .reserved _ _ _ | .sent _ _ _ _ => false
  | _ => true

theorem committed_still {e : Event} {log : List Event} (h : e.still = true) {c : Commitment}
    (hc : c ∈ committed (e :: log)) : c ∈ committed log := by
  cases e with
  | reserved _ _ _ => cases h
  | sent _ _ _ _ => cases h
  | refused _ _ => exact (List.mem_filter.mp hc).1
  | flat _ => exact (List.mem_filter.mp hc).1
  | _ => exact hc

theorem mem_still {e : Event} {log : List Event} (h : e.still = true) {e' : Event} (hopen : e'.still = false)
    (hmem : e' ∈ e :: log) : e' ∈ log := by
  rcases List.mem_cons.mp hmem with rfl | hmem
  · rw [h] at hopen
    cases hopen
  · exact hmem

theorem Books.note (h : Books setup s) {e : Event} (hstill : e.still = true) : Books setup (s.note e) where
  tidy := h.tidy
  reserved i clientId claim hlookup hown := by
    obtain ⟨amount, hmem⟩ := h.reserved i clientId claim hlookup hown
    exact ⟨amount, List.mem_cons_of_mem _ hmem⟩
  unique i j clientId amount amount' hi hj := h.unique i j clientId amount amount' (mem_still hstill rfl hi) (mem_still hstill rfl hj)
  sent i clientId quantity amount hmem := h.sent i clientId quantity amount (mem_still hstill rfl hmem)
  once := by
    rw [State.note_log]
    cases e with
    | reserved _ _ _ => exact h.once
    | sent _ _ _ _ => cases hstill
    | _ => exact h.once
  pending i p hp := by
    obtain ⟨hown, hclaim, hunsent, hsent⟩ := h.pending i p hp
    refine ⟨hown, hclaim, fun hphase => ⟨fun quantity amount hmem => ?_, (hunsent hphase).2⟩, fun hphase =>
      List.mem_cons_of_mem _ (hsent hphase)⟩
    exact (hunsent hphase).1 quantity amount (mem_still hstill rfl hmem)
  committed c hc := h.committed c (committed_still hstill hc)

/-- The submit of the new adapter is that of the old one, perhaps in a later phase. -/
structure Follows (a a' : Adapter) : Prop where
  tidy : a'.Tidy
  own : ∀ clientId, isExternalId clientId = false →
    (a'.claims.lookup clientId).map Claim.quantity = (a.claims.lookup clientId).map Claim.quantity
  pending : ∀ p', a'.pending = some p' → ∃ p, a.pending = some p ∧ p'.order = p.order ∧ p'.amount = p.amount ∧
    ((p'.phase = p.phase ∧ (isExternalId p.order.clientOrderId = false →
      (a'.claims.lookup p.order.clientOrderId).map Claim.core =
        (a.claims.lookup p.order.clientOrderId).map Claim.core)) ∨ (p.phase ≠ .claimed ∧ p'.phase ≠ .claimed))

/-- An order of the session that has a claim keeps it. -/
theorem Follows.lookup (h : Follows a a') {clientId : String} (hown : isExternalId clientId = false) {claim : Claim}
    (hlookup : a.claims.lookup clientId = some claim) :
    ∃ claim', a'.claims.lookup clientId = some claim' ∧ claim'.quantity = claim.quantity := by
  have hmap := h.own clientId hown
  rw [hlookup] at hmap
  obtain ⟨claim', hlookup', hquantity⟩ := Option.map_eq_some_iff.mp hmap
  exact ⟨claim', hlookup', hquantity⟩

theorem Follows.lookup_back (h : Follows a a') {clientId : String} (hown : isExternalId clientId = false) {claim' : Claim}
    (hlookup : a'.claims.lookup clientId = some claim') : ∃ claim, a.claims.lookup clientId = some claim := by
  have hmap := h.own clientId hown
  rw [hlookup] at hmap
  obtain ⟨claim, hlookup, -⟩ := Option.map_eq_some_iff.mp hmap.symm
  exact ⟨claim, hlookup⟩

theorem Steady.follows (h : Steady a a') : Follows a a' where
  tidy := h.tidy
  own clientId hown := by
    have hcore := congrArg (Option.map Prod.snd) (h.own clientId hown)
    rw [Option.map_map, Option.map_map] at hcore
    exact hcore
  pending p' hp' := by
    rw [h.pending] at hp'
    exact ⟨p', hp', rfl, rfl, .inl ⟨rfl, h.own _⟩⟩

theorem Books.put (h : Books setup s) (hfollows : Follows (s.adapter i) a') : Books setup (s.put i a') where
  tidy j := by
    by_cases hj : j = i
    · subst hj
      rw [State.put_adapter]
      exact hfollows.tidy
    · rw [State.put_adapter_ne s hj]
      exact h.tidy j
  reserved j clientId claim hlookup hown := by
    by_cases hj : j = i
    · subst hj
      rw [State.put_adapter] at hlookup
      obtain ⟨claim', hlookup'⟩ := hfollows.lookup_back hown hlookup
      exact h.reserved j clientId claim' hlookup' hown
    · rw [State.put_adapter_ne s hj] at hlookup
      exact h.reserved j clientId claim hlookup hown
  unique := h.unique
  sent j clientId quantity amount hmem := by
    obtain ⟨hown, claim, hlookup, hquantity⟩ := h.sent j clientId quantity amount hmem
    refine ⟨hown, ?_⟩
    by_cases hj : j = i
    · subst hj
      obtain ⟨claim', hlookup', hquantity'⟩ := hfollows.lookup hown hlookup
      rw [State.put_adapter]
      exact ⟨claim', hlookup', hquantity'.trans hquantity⟩
    · rw [State.put_adapter_ne s hj]
      exact ⟨claim, hlookup, hquantity⟩
  once := h.once
  pending j p' hp' := by
    by_cases hj : j = i
    · subst hj
      rw [State.put_adapter] at hp'
      obtain ⟨p, hp, horder, hamount, hphase⟩ := hfollows.pending p' hp'
      obtain ⟨hown, ⟨claim, hlookup, hquantity, hunknown⟩, hunsent, hsent⟩ := h.pending j p hp
      obtain ⟨claim', hlookup', hquantity'⟩ := hfollows.lookup hown hlookup
      refine ⟨horder ▸ hown, ⟨claim', ?_, ?_, fun hclaimed => ?_⟩, fun hclaimed => ?_, fun hlater => ?_⟩
      · rw [State.put_adapter, horder]
        exact hlookup'
      · rw [hquantity', hquantity, horder]
      · rcases hphase with ⟨hphase, hcore⟩ | ⟨-, hlater⟩
        · replace hcore := hcore hown
          rw [hlookup, hlookup'] at hcore
          rw [← hunknown (hphase ▸ hclaimed)]
          exact congrArg Prod.fst (Option.some.inj hcore)
        · exact absurd hclaimed hlater
      · rcases hphase with ⟨hphase, -⟩ | ⟨-, hlater⟩
        · rw [horder, hamount]
          exact hunsent (hphase ▸ hclaimed)
        · exact absurd hclaimed hlater
      · rw [horder, hamount]
        rcases hphase with ⟨hphase, -⟩ | ⟨hlater', -⟩
        · exact hsent (hphase ▸ hlater)
        · exact hsent hlater'
    · rw [State.put_adapter_ne s hj] at hp'
      obtain ⟨hown, hclaim, hunsent, hsent⟩ := h.pending j p' hp'
      refine ⟨hown, ?_, hunsent, hsent⟩
      rw [State.put_adapter_ne s hj]
      exact hclaim
  committed := h.committed

end LiveTrader.ShortBroker
