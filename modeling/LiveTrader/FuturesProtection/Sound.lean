/-
# `FuturesProtection.Sound` — what the log of a manager owes

`Sound` reads a log event by event, against what came before: a stop is placed once and after its
own grant, it is cancelled once and for a cause, and what `ensure` returns protects the order.
`Inv` is what the manager keeps for it, and each piece of its code keeps `Inv` however it ends.

`poll` reads the claims one after the other.  While it reads one it writes no other, so that each
claim behind it is as it was read: verified, with its execution told, or lost with an incident.
-/
import LiveTrader.FuturesProtection.Manager

namespace LiveTrader.FuturesProtection

open Lib Lib.Py

variable {env : Env} {world : World}

/-! ## The log -/

def Event.isFlat : Event → Bool
  | .flat => true
  | _ => false

/-- What came since the last time the position was flat. -/
def sinceFlat (past : List Event) : List Event := past.takeWhile fun e => !e.isFlat

/-- The claim as it was reserved. -/
def Claim.grant (claim : Claim) : Claim :=
  { claim with algoId := "", observation := none, cancelAttempted := false, lastReadVerified := false }

/-- A stop is cancelled at the end, or after its replacement was observed. -/
def Caused (past : List Event) (claim : Claim) : Cause → Prop
  | .finishing => True
  | .replacedBy client => client ≠ claim.clientAlgoId ∧ .observed client (.str "NEW") ∈ past

/-- What `ensure` returns is a live stop of the order, as tight as all that came before. -/
structure Protects (env : Env) (past : List Event) (order : Order) (trigger : String) (observation : Fields) : Prop where
  claim : ∃ claim, .granted .protect claim ∈ past ∧ claim.symbol = order.symbol ∧
    claim.side = order.positionDirection.closingSide ∧
    positionSide claim.positionMode claim.positionDirection = positionSide order.positionMode order.positionDirection ∧
    claim.named observation = true
  live : observation.at "status" = .str "NEW"
  asked : ∃ t asked, env.numeric true (observation.at "triggerPrice") = .ok t ∧ env.numeric false (.str trigger) = .ok asked ∧
    order.positionDirection.atLeast t asked
  tight : ∀ t order' trigger' observation' t', env.numeric true (observation.at "triggerPrice") = .ok t →
    .ensured order' trigger' observation' ∈ sinceFlat past → order'.symbol = order.symbol →
    order'.positionDirection = order.positionDirection → env.numeric true (observation'.at "triggerPrice") = .ok t' →
    order.positionDirection.atLeast t t'

/-- What `poll` returns leaves nothing out: each claim is verified, each execution is told, and a stop
that was lost is an incident. -/
structure Polled (env : Env) (claims : List Claim) (active : Dict String String) (incidents : List Fields)
    (executions : List (Claim × Fields)) : Prop where
  verified : ∀ claim ∈ claims, claim.lastReadVerified = true ∧ claim.named claim.observed = true
  executed : ∀ claim ∈ claims, (claim.observed.at "actualOrderId").truthy = true → ∃ actual, (claim, actual) ∈ executions ∧
    claim.observed.at "actualOrder" = .obj actual ∧ claim.executedBy env (claim.observed.at "actualOrderId") actual = true
  lost : ∀ claim ∈ claims, claim.lost active = true →
    incidents.any (sameIncident [("code", .str "FUTURES_PROTECTION_NOT_ACTIVE"), ("symbol", .str claim.symbol),
      ("algoId", .str claim.algoId)]) = true

/-- What an event owes to the past. -/
def Allowed (env : Env) (past : List Event) : Event → Prop
  | .protect claim => .granted .protect claim ∈ past ∧
      ∀ claim', .protect claim' ∈ past → claim'.clientAlgoId ≠ claim.clientAlgoId
  | .cancel claim cause => .granted .cancelProtection claim ∈ past ∧ Caused past claim cause ∧
      ∀ claim' cause', .cancel claim' cause' ∈ past → claim'.clientAlgoId ≠ claim.clientAlgoId
  | .ensured order trigger observation => Protects env past order trigger observation
  | .polled claims active incidents executions => Polled env claims active incidents executions
  | .granted _ _ | .observed _ _ | .flat => True

/-- Every event is allowed by its past. -/
def Sound (env : Env) : List Event → Prop
  | [] => True
  | e :: past => Allowed env past e ∧ Sound env past

/-! ## The invariant -/

/-- What the manager keeps. -/
structure Inv (env : Env) (m : Manager) : Prop where
  nodup : (m.claims.map Prod.fst).Nodup
  keyed : ∀ client claim, m.claims.lookup client = some claim → claim.clientAlgoId = client ∧
    claim.side = claim.positionDirection.closingSide ∧ .granted .protect claim.grant ∈ m.log
  placed : ∀ claim, .protect claim ∈ m.log → ∃ c, m.claims.lookup claim.clientAlgoId = some c
  cancelled : ∀ claim cause, .cancel claim cause ∈ m.log → ∃ c, m.claims.lookup claim.clientAlgoId = some c ∧
    c.cancelAttempted = true
  active : ∀ symbol client, m.activeBySymbol.lookup symbol = some client → ∃ claim,
    m.claims.lookup client = some claim ∧ claim.symbol = symbol
  tight : ∀ order trigger observation t, .ensured order trigger observation ∈ sinceFlat m.log →
    env.numeric true (observation.at "triggerPrice") = .ok t →
    ∃ client claim t', m.activeBySymbol.lookup order.symbol = some client ∧ m.claims.lookup client = some claim ∧
      claim.positionDirection = order.positionDirection ∧ env.numeric true (.str claim.triggerPrice) = .ok t' ∧
      order.positionDirection.atLeast t' t
  sound : Sound env m.log

/-- What a piece of code that places nothing leaves as it was. -/
structure Later (m m' : Manager) : Prop where
  active : m'.activeBySymbol = m.activeBySymbol
  claims : ∀ client claim, m.claims.lookup client = some claim → ∃ claim', m'.claims.lookup client = some claim' ∧
    claim'.grant = claim.grant
  log : ∀ e ∈ m.log, e ∈ m'.log
  incidents : ∀ item ∈ m.incidents, item ∈ m'.incidents

/-- The invariant holds, and no more than this has happened since `m`. -/
structure Stays (env : Env) (m m' : Manager) : Prop where
  inv : Inv env m'
  later : Later m m'

theorem Later.refl (m : Manager) : Later m m :=
  ⟨rfl, fun _ claim h => ⟨claim, h, rfl⟩, fun _ h => h, fun _ h => h⟩

theorem Later.trans {m m' m'' : Manager} (h : Later m m') (h' : Later m' m'') : Later m m'' := by
  refine ⟨h'.active.trans h.active, ?_, fun e he => h'.log e (h.log e he), fun i hi => h'.incidents i (h.incidents i hi)⟩
  intro client claim hclaim
  obtain ⟨claim', hclaim', hgrant⟩ := h.claims client claim hclaim
  obtain ⟨claim'', hclaim'', hgrant'⟩ := h'.claims client claim' hclaim'
  exact ⟨claim'', hclaim'', hgrant'.trans hgrant⟩

theorem Stays.refl {m : Manager} (h : Inv env m) : Stays env m m := ⟨h, .refl m⟩

theorem Stays.trans {m m' m'' : Manager} (h : Later m m') (h' : Stays env m' m'') : Stays env m m'' :=
  ⟨h'.inv, h.trans h'.later⟩

/-! ### Steps -/

section steps

variable {m m₀ : Manager}

theorem Stays.called (h : Stays env m₀ m) : Stays env m₀ { m with calls := m.calls + 1 } :=
  ⟨⟨h.inv.nodup, h.inv.keyed, h.inv.placed, h.inv.cancelled, h.inv.active, h.inv.tight, h.inv.sound⟩,
    ⟨h.later.active, h.later.claims, h.later.log, h.later.incidents⟩⟩

theorem Stays.incident (h : Stays env m₀ m) (item : Fields) :
    Stays env m₀ { m with incidents := m.incidents ++ [item] } :=
  ⟨⟨h.inv.nodup, h.inv.keyed, h.inv.placed, h.inv.cancelled, h.inv.active, h.inv.tight, h.inv.sound⟩,
    ⟨h.later.active, h.later.claims, h.later.log, fun i hi => List.mem_append_left _ (h.later.incidents i hi)⟩⟩

theorem wp_ask {α : Type} {answer : ℕ → Answer α} {Q : α → Manager → Prop} {R : Manager → Prop}
    (hok : ∀ a, Q a { m with calls := m.calls + 1 }) (herror : R { m with calls := m.calls + 1 }) :
    (ask answer).wp Q R m := by
  rw [ask, Proc.wp_bind, Proc.wp_read, Proc.wp_bind, Proc.wp_modify]
  exact Proc.wp_of (fun a _ => hok a) herror

theorem Claim.grant_symbol {claim claim' : Claim} (h : claim'.grant = claim.grant) : claim'.symbol = claim.symbol :=
  (congrArg Claim.symbol h :)

theorem Claim.grant_direction {claim claim' : Claim} (h : claim'.grant = claim.grant) :
    claim'.positionDirection = claim.positionDirection := (congrArg Claim.positionDirection h :)

theorem Claim.grant_mode {claim claim' : Claim} (h : claim'.grant = claim.grant) :
    claim'.positionMode = claim.positionMode := (congrArg Claim.positionMode h :)

theorem Claim.grant_trigger {claim claim' : Claim} (h : claim'.grant = claim.grant) :
    claim'.triggerPrice = claim.triggerPrice := (congrArg Claim.triggerPrice h :)

theorem Claim.grant_named {claim claim' : Claim} (h : claim'.grant = claim.grant) (observed : Fields) :
    claim'.named observed = claim.named observed := (congrArg (Claim.named · observed) h :)

/-- Claims that are rewritten, with the claims that are added. -/
theorem Inv.claims (h : Inv env m) {claims : Dict String Claim} (hnodup : (claims.map Prod.fst).Nodup)
    (hkeyed : ∀ client claim, claims.lookup client = some claim → claim.clientAlgoId = client ∧
      claim.side = claim.positionDirection.closingSide ∧ .granted .protect claim.grant ∈ m.log)
    (hkept : ∀ client claim, m.claims.lookup client = some claim → ∃ claim', claims.lookup client = some claim' ∧
      claim'.grant = claim.grant ∧ (claim.cancelAttempted = true → claim'.cancelAttempted = true)) :
    Inv env { m with claims := claims } := by
  refine ⟨hnodup, hkeyed, ?_, ?_, ?_, ?_, h.sound⟩
  · intro claim hclaim
    obtain ⟨c, hc⟩ := h.placed claim hclaim
    obtain ⟨c', hc', -⟩ := hkept _ _ hc
    exact ⟨c', hc'⟩
  · intro claim cause hclaim
    obtain ⟨c, hc, hcancelled⟩ := h.cancelled claim cause hclaim
    obtain ⟨c', hc', -, hkeep⟩ := hkept _ _ hc
    exact ⟨c', hc', hkeep hcancelled⟩
  · intro symbol client hactive
    obtain ⟨claim, hclaim, hsymbol⟩ := h.active symbol client hactive
    obtain ⟨claim', hclaim', hgrant, -⟩ := hkept _ _ hclaim
    exact ⟨claim', hclaim', (Claim.grant_symbol hgrant).trans hsymbol⟩
  · intro order trigger observation t he ht
    obtain ⟨client, claim, t', hactive, hclaim, hdirection, ht', hat⟩ := h.tight order trigger observation t he ht
    obtain ⟨claim', hclaim', hgrant, -⟩ := hkept _ _ hclaim
    refine ⟨client, claim', t', hactive, hclaim', (Claim.grant_direction hgrant).trans hdirection, ?_, hat⟩
    rwa [Claim.grant_trigger hgrant]

/-- A claim that is there is written again, with the same grant. -/
theorem Stays.put (h : Stays env m₀ m) {client : String} {claim : Claim}
    (hclaim : m.claims.lookup client = some claim) (claim' : Claim) (hgrant : claim'.grant = claim.grant)
    (hcancelled : claim.cancelAttempted = true → claim'.cancelAttempted = true) :
    Stays env m₀ { m with claims := m.claims.set client claim' } := by
  have hkept : ∀ key c, m.claims.lookup key = some c → ∃ c', (m.claims.set client claim').lookup key = some c' ∧
      c'.grant = c.grant ∧ (c.cancelAttempted = true → c'.cancelAttempted = true) := by
    intro key c hc
    rw [Dict.lookup_set]
    by_cases hkey : key = client
    · subst hkey
      obtain rfl := Option.some.inj (hclaim.symm.trans hc)
      exact ⟨claim', if_pos rfl, hgrant, hcancelled⟩
    · exact ⟨c, (if_neg hkey).trans hc, rfl, id⟩
  refine ⟨h.inv.claims (Dict.nodup_set h.inv.nodup _ _) ?_ hkept, h.later.active, ?_, h.later.log, h.later.incidents⟩
  · intro key c hc
    rw [Dict.lookup_set] at hc
    split at hc
    · next hkey =>
      obtain rfl := Option.some.inj hc
      obtain ⟨hid, hside, hgranted⟩ := h.inv.keyed client claim hclaim
      have hid' : claim'.clientAlgoId = claim.clientAlgoId := (congrArg Claim.clientAlgoId hgrant :)
      have hside' : claim'.side = claim.side := (congrArg Claim.side hgrant :)
      refine ⟨(hid'.trans hid).trans hkey.symm, ?_, hgrant ▸ hgranted⟩
      rw [Claim.grant_direction hgrant, hside', hside]
    · exact h.inv.keyed key c hc
  · intro key c hc
    obtain ⟨c', hc', hgrant'⟩ := h.later.claims key c hc
    obtain ⟨c'', hc'', hgrant'', -⟩ := hkept key c' hc'
    exact ⟨c'', hc'', hgrant''.trans hgrant'⟩

variable (env m) in
/-- What the manager has to show for an event. -/
def Backed : Event → Prop
  | .protect claim => ∃ c, m.claims.lookup claim.clientAlgoId = some c
  | .cancel claim _ => ∃ c, m.claims.lookup claim.clientAlgoId = some c ∧ c.cancelAttempted = true
  | .ensured order _ observation => ∀ t, env.numeric true (observation.at "triggerPrice") = .ok t →
      ∃ client claim t', m.activeBySymbol.lookup order.symbol = some client ∧ m.claims.lookup client = some claim ∧
        claim.positionDirection = order.positionDirection ∧ env.numeric true (.str claim.triggerPrice) = .ok t' ∧
        order.positionDirection.atLeast t' t
  | .granted _ _ | .observed _ _ | .polled _ _ _ _ | .flat => True

theorem mem_sinceFlat_cons {e e' : Event} {past : List Event} (h : e' ∈ sinceFlat (e :: past)) :
    e' = e ∨ e' ∈ sinceFlat past := by
  rw [sinceFlat, List.takeWhile_cons] at h
  split at h
  · exact List.mem_cons.mp h
  · cases h

theorem Stays.noted (h : Stays env m₀ m) (e : Event) (hallowed : Allowed env m.log e) (hbacked : Backed env m e) :
    Stays env m₀ { m with log := e :: m.log } := by
  refine ⟨⟨h.inv.nodup, ?_, ?_, ?_, h.inv.active, ?_, hallowed, h.inv.sound⟩, h.later.active, h.later.claims,
    fun e' he' => List.mem_cons_of_mem _ (h.later.log e' he'), h.later.incidents⟩
  · intro client claim hclaim
    obtain ⟨hid, hside, hgranted⟩ := h.inv.keyed client claim hclaim
    exact ⟨hid, hside, List.mem_cons_of_mem _ hgranted⟩
  · intro claim hclaim
    rcases List.mem_cons.mp hclaim with rfl | hclaim
    · exact hbacked
    · exact h.inv.placed claim hclaim
  · intro claim cause hclaim
    rcases List.mem_cons.mp hclaim with rfl | hclaim
    · exact hbacked
    · exact h.inv.cancelled claim cause hclaim
  · intro order trigger observation t he ht
    rcases mem_sinceFlat_cons he with rfl | he
    · exact hbacked t ht
    · exact h.inv.tight order trigger observation t he ht

/-- A claim that was not there is added, after its grant. -/
theorem Stays.add (h : Stays env m₀ m) {claim : Claim} (hnew : m.claims.lookup claim.clientAlgoId = none)
    (hside : claim.side = claim.positionDirection.closingSide) (hgranted : .granted .protect claim.grant ∈ m.log) :
    Stays env m₀ { m with claims := m.claims.set claim.clientAlgoId claim } := by
  have hkept : ∀ key c, m.claims.lookup key = some c → (m.claims.set claim.clientAlgoId claim).lookup key = some c := by
    intro key c hc
    rw [Dict.lookup_set, if_neg, hc]
    rintro rfl
    rw [hnew] at hc
    cases hc
  refine ⟨h.inv.claims (Dict.nodup_set h.inv.nodup _ _) ?_ fun key c hc => ⟨c, hkept key c hc, rfl, id⟩, h.later.active,
    ?_, h.later.log, h.later.incidents⟩
  · intro key c hc
    rw [Dict.lookup_set] at hc
    split at hc
    · next hkey =>
      obtain rfl := Option.some.inj hc
      exact ⟨hkey.symm, hside, hgranted⟩
    · exact h.inv.keyed key c hc
  · intro key c hc
    obtain ⟨c', hc', hgrant⟩ := h.later.claims key c hc
    exact ⟨c', hkept key c' hc', hgrant⟩

theorem wp_claimOf {client : String} {Q : Claim → Manager → Prop} {R : Manager → Prop}
    (hok : ∀ claim, m.claims.lookup client = some claim → Q claim m) (herror : R m) : (claimOf client).wp Q R m := by
  rw [claimOf, Proc.wp_bind, Proc.wp_read]
  cases hclaim : m.claims.lookup client with
  | some claim => exact hok claim hclaim
  | none => exact herror

theorem lookup_put (m : Manager) (client : String) (claim : Claim) :
    ({ m with claims := m.claims.set client claim } : Manager).claims.lookup client = some claim := by
  rw [Dict.lookup_set, if_pos rfl]

end steps

/-! ## Reading a stop -/

/-- The claim has just been read, and verified. -/
structure Seen (env : Env) (client : String) (observed : Fields) (m : Manager) : Prop where
  claim : ∃ claim, m.claims.lookup client = some claim ∧ claim.observation = some observed ∧
    claim.lastReadVerified = true ∧ claim.named observed = true ∧
    ∃ t, env.numeric true (observed.at "triggerPrice") = .ok t ∧ env.numeric true (.str claim.triggerPrice) = .ok t
  told : .observed client (observed.at "status") ∈ m.log

/-- Only the claim of this client is written. -/
structure Writes (client : String) (m m' : Manager) : Prop where
  keys : m'.claims.map Prod.fst = m.claims.map Prod.fst
  others : ∀ key, key ≠ client → m'.claims.lookup key = m.claims.lookup key
  incidents : m'.incidents = m.incidents

theorem Writes.put {client : String} {m m' : Manager} (h : Writes client m m') (claim : Claim)
    (hmem : client ∈ m.claims.map Prod.fst) :
    Writes client m { m' with claims := m'.claims.set client claim } := by
  refine ⟨?_, fun key hkey => ?_, h.incidents⟩
  · rw [Dict.keys_set, h.keys, if_pos hmem]
  · rw [Dict.lookup_set, if_neg hkey, h.others key hkey]

theorem identifies_eq_true {claim : Claim} {observed : Fields} (h : env.identifies claim observed = .ok true) :
    claim.named observed = true ∧
      ∃ t, env.numeric true (observed.at "triggerPrice") = .ok t ∧ env.numeric true (.str claim.triggerPrice) = .ok t := by
  rw [Env.identifies] at h
  split at h
  · next hnamed =>
    cases htrigger : env.numeric true (observed.at "triggerPrice") with
    | error e =>
      rw [htrigger] at h
      cases h
    | ok t =>
      rw [htrigger] at h
      cases hexpected : env.numeric true (.str claim.triggerPrice) with
      | error e =>
        rw [hexpected] at h
        cases h
      | ok expected =>
        rw [hexpected] at h
        have hboth : (decide (t = expected) && (claim.algoId == "" || env.str (observed.at "algoId") == claim.algoId)) =
            true := Except.ok.inj h
        rw [Bool.and_eq_true, decide_eq_true_eq] at hboth
        exact ⟨hnamed, t, rfl, by rw [hboth.1]⟩
  · cases h

/-- **`observe` reads a claim; what it returns is one of the stop.** -/
theorem observe_spec {m m₀ : Manager} (h : Stays env m₀ m) (client : String) : (observe env world client).wp
    (fun observed m' => Stays env m₀ m' ∧ Seen env client observed m' ∧ Writes client m m') (Stays env m₀) m := by
  rw [observe]
  refine Proc.wp_bind.mpr (wp_claimOf (fun claim hclaim => ?_) h)
  have hread : Stays env m₀ { m with claims := m.claims.set client { claim with lastReadVerified := false } } :=
    h.put hclaim _ rfl id
  rw [Proc.wp_bind, putClaim, Proc.wp_modify]
  refine Proc.wp_bind.mpr (wp_ask (fun answer => ?_) hread.called)
  refine Proc.wp_bind.mpr (Proc.wp_of (fun observed _ => ?_) hread.called)
  refine Proc.wp_bind.mpr (Proc.wp_of (fun same hsame => ?_) hread.called)
  refine Proc.wp_bind.mpr (Proc.wp_check (fun htrue => ?_) hread.called)
  refine Proc.wp_bind.mpr (Proc.wp_of (fun positive _ => ?_) hread.called)
  refine Proc.wp_bind.mpr (Proc.wp_check (fun _ => ?_) hread.called)
  refine Proc.wp_bind.mpr (wp_ask (fun now => ?_) hread.called.called)
  refine Proc.wp_bind.mpr (Proc.wp_of (fun observedAt _ => ?_) hread.called.called)
  refine Proc.wp_bind.mpr (Proc.wp_check (fun _ => ?_) hread.called.called)
  rw [Proc.wp_bind, putClaim, Proc.wp_modify, Proc.wp_bind, note, Proc.wp_modify]
  -- the claim is written with what was read
  obtain ⟨hnamed, htrigger⟩ := identifies_eq_true (hsame.trans (congrArg Except.ok htrue))
  have hwritten := hread.called.called.put (lookup_put m client _)
    { claim with algoId := env.algoIdOf observed, observation := some observed, lastReadVerified := true } rfl id
  have hnoted := hwritten.noted (.observed client (observed.at "status")) trivial trivial
  refine Proc.wp_bind.mpr (wp_ask (fun _ => ?_) hnoted.called)
  have hmem : client ∈ m.claims.map Prod.fst := List.mem_map.mpr ⟨_, Dict.mem_of_lookup hclaim, rfl⟩
  have hwrites := (Writes.put (Writes.put ⟨rfl, fun _ _ => rfl, rfl⟩ { claim with lastReadVerified := false } hmem)
    { claim with algoId := env.algoIdOf observed, observation := some observed, lastReadVerified := true } hmem)
  exact ⟨hnoted.called, ⟨⟨_, lookup_put _ client _, rfl, rfl, hnamed, htrigger⟩, List.mem_cons_self⟩,
    hwrites.keys, hwrites.others, hwrites.incidents⟩

/-! ## Cancelling -/

/-- A cancel is sent once, after its own grant. -/
theorem attemptCancel_spec {m m₀ : Manager} (h : Stays env m₀ m) (client : String) (cause : Cause)
    (hcause : ∀ claim, claim.clientAlgoId = client → Caused m.log claim cause) :
    (attemptCancel world client cause).wp (fun _ => Stays env m₀) (Stays env m₀) m := by
  rw [attemptCancel]
  refine Proc.wp_bind.mpr (wp_claimOf (fun claim hclaim => ?_) h)
  refine Proc.wp_ite (fun _ => h) fun hattempted => ?_
  obtain ⟨hid, -, -⟩ := h.inv.keyed client claim hclaim
  refine Proc.wp_bind.mpr (wp_ask (fun granted => ?_) h.called)
  refine Proc.wp_bind.mpr (Proc.wp_check (fun _ => ?_) h.called)
  rw [Proc.wp_bind, note, Proc.wp_modify, Proc.wp_bind, putClaim, Proc.wp_modify, Proc.wp_bind, note, Proc.wp_modify]
  have hgranted := (h.called).noted (.granted .cancelProtection claim) trivial trivial
  have hmarked := hgranted.put hclaim { claim with cancelAttempted := true } rfl fun _ => rfl
  have hcancel := hmarked.noted (.cancel claim cause) ?_ ⟨_, by rw [hid]; exact lookup_put _ client _, rfl⟩
  · exact Proc.wp_attempt (wp_ask (fun _ => hcancel.called) hcancel.called)
  refine ⟨List.mem_cons_self, ?_, ?_⟩
  · cases cause with
    | finishing => trivial
    | replacedBy client' =>
      obtain ⟨hne, htold⟩ := hcause claim hid
      exact ⟨hne, List.mem_cons_of_mem _ htold⟩
  · -- a stop that was cancelled before says so
    intro claim' cause' hbefore hsame
    rcases List.mem_cons.mp hbefore with heq | hbefore
    · cases heq
    obtain ⟨c, hc, hc'⟩ := h.inv.cancelled claim' cause' hbefore
    rw [hsame, hid, hclaim] at hc
    exact hattempted (Option.some.inj hc ▸ hc')

theorem cancel_spec {m m₀ : Manager} (h : Stays env m₀ m) (client : String) (cause : Cause)
    (hcause : ∀ past claim, (∀ e ∈ m.log, e ∈ past) → claim.clientAlgoId = client → Caused past claim cause) :
    (cancel env world client cause).wp (fun _ => Stays env m₀) (Stays env m₀) m := by
  suffices hgen : (cancel env world client cause).wp (fun _ => Stays env m) (Stays env m) m from
    Proc.wp_mono hgen (fun _ _ h' => Stays.trans h.later h') fun _ h' => Stays.trans h.later h'
  rw [cancel]
  refine Proc.wp_then (observe_spec (.refl h.inv) client) ?_ fun _ h' => h'
  rintro observed m₁ ⟨h₁, -⟩
  refine Proc.wp_bind.mpr (Proc.wp_of (fun gone _ => ?_) h₁)
  refine Proc.wp_ite (fun _ => h₁) fun _ => ?_
  refine Proc.wp_then (attemptCancel_spec h₁ client cause fun claim => hcause _ claim h₁.later.log) ?_ fun _ h' => h'
  intro _ m₂ h₂
  refine Proc.wp_then (observe_spec h₂ client) ?_ fun _ h' => h'
  rintro current m₃ ⟨h₃, -⟩
  refine Proc.wp_bind.mpr (Proc.wp_of (fun gone _ => ?_) h₃)
  exact Proc.wp_bind.mpr (Proc.wp_check (fun _ => h₃) h₃)

/-! ## Incidents -/

theorem any_mono {items items' : List Fields} (h : ∀ i ∈ items, i ∈ items') {p : Fields → Bool}
    (hany : items.any p = true) : items'.any p = true := by
  obtain ⟨i, hi, hp⟩ := List.any_eq_true.mp hany
  exact List.any_eq_true.mpr ⟨i, h i hi, hp⟩

theorem incident_spec {m m₀ : Manager} (h : Stays env m₀ m) (code : String) (detail : Fields) :
    (incident world code detail).wp (fun _ m' => Stays env m₀ m' ∧ m'.claims = m.claims ∧
      (∀ i ∈ m.incidents, i ∈ m'.incidents) ∧ (sameIncident (("code", .str code) :: detail)
        (("code", .str code) :: detail) = true → m'.incidents.any (sameIncident (("code", .str code) :: detail)) = true))
      (Stays env m₀) m := by
  rw [incident, Proc.wp_bind, Proc.wp_read]
  refine Proc.wp_ite (fun hany => ⟨h, rfl, fun _ hi => hi, fun _ => hany⟩) fun _ => ?_
  rw [Proc.wp_bind, Proc.wp_modify]
  have hadded := h.incident (("code", .str code) :: detail)
  refine wp_ask (fun _ => ⟨hadded.called, rfl, fun i hi => List.mem_append_left _ hi, fun hself => ?_⟩) hadded.called
  exact List.any_eq_true.mpr ⟨_, List.mem_append_right _ (List.mem_singleton_self _), hself⟩

theorem checkPrices_spec {m m₀ : Manager} (h : Stays env m₀ m) (claim : Claim) (symbol : Json) (position : Fields)
    (quantity : ℚ) :
    (checkPrices env world claim symbol position quantity).wp (fun _ => Stays env m₀) (Stays env m₀) m := by
  have htold : ∀ code detail, (incident world code detail).wp (fun _ => Stays env m₀) (Stays env m₀) m :=
    fun code detail => Proc.wp_mono (incident_spec h code detail) (fun _ _ h' => h'.1) fun _ h' => h'
  rw [checkPrices]
  refine Proc.wp_bind.mpr (Proc.wp_of (fun mark _ => ?_) h)
  refine Proc.wp_bind.mpr (Proc.wp_of (fun liquidation _ => ?_) h)
  refine Proc.wp_bind.mpr (Proc.wp_of (fun trigger _ => ?_) h)
  refine Proc.wp_bind.mpr (Proc.wp_check (fun _ => ?_) h)
  refine Proc.wp_ite (fun _ => htold _ _) fun _ => ?_
  refine Proc.wp_ite (fun _ => htold _ _) fun _ => ?_
  exact Proc.wp_ite (fun _ => htold _ _) fun _ => h

/-- **`check_positions` tells incidents only.** -/
theorem checkPositions_spec {m m₀ : Manager} (h : Stays env m₀ m) (positions : List Fields) :
    (checkPositions env world positions).wp (fun _ => Stays env m₀) (Stays env m₀) m := by
  refine Proc.wp_forEach (fun position _ m h => ?_) h
  have htold : ∀ code detail, (incident world code detail).wp (fun _ => Stays env m₀) (Stays env m₀) m :=
    fun code detail => Proc.wp_mono (incident_spec h code detail) (fun _ _ h' => h'.1) fun _ h' => h'
  rw [checkPosition]
  refine Proc.wp_bind.mpr (Proc.wp_of (fun quantity _ => ?_) h)
  refine Proc.wp_ite (fun _ => h) fun _ => ?_
  refine Proc.wp_bind.mpr (Proc.wp_of (fun symbol _ => ?_) h)
  refine Proc.wp_bind.mpr (Proc.wp_of (fun key _ => ?_) h)
  rw [Proc.wp_bind, Proc.wp_read]
  dsimp only
  split
  · exact htold _ _
  · refine Proc.wp_ite (fun _ => htold _ _) fun _ => ?_
    exact Proc.wp_ite (fun _ => htold _ _) fun _ => checkPrices_spec h _ _ _ _

/-! ## Placing -/

/-- **A stop is placed once, after its own grant.** -/
theorem submit_spec {m : Manager} (h : Inv env m) {claim : Claim} (hnew : m.claims.lookup claim.clientAlgoId = none)
    (hside : claim.side = claim.positionDirection.closingSide) (hgrant : claim.grant = claim) :
    (submit world claim).wp (fun _ m' => Stays env m m' ∧ m'.claims.lookup claim.clientAlgoId = some claim) (Stays env m)
      m := by
  rw [submit]
  have hcalled := (Stays.refl h).called
  refine Proc.wp_bind.mpr (wp_ask (fun granted => ?_) hcalled)
  refine Proc.wp_bind.mpr (Proc.wp_check (fun _ => ?_) hcalled)
  rw [Proc.wp_bind, note, Proc.wp_modify, Proc.wp_bind, putClaim, Proc.wp_modify]
  have hgranted := hcalled.noted (.granted .protect claim) trivial trivial
  have hadded := hgranted.add hnew hside (hgrant.symm ▸ List.mem_cons_self)
  refine Proc.wp_bind.mpr (wp_ask (fun _ => ?_) hadded.called)
  rw [Proc.wp_bind, note, Proc.wp_modify]
  have hprotect := hadded.called.noted (.protect claim) ?_ ⟨claim, lookup_put _ _ _⟩
  · refine Proc.wp_mono (Proc.wp_attempt (I := fun m' => Stays env m m' ∧
      m'.claims.lookup claim.clientAlgoId = some claim) (wp_ask (fun _ => ?_) ?_)) (fun _ _ h' => h') fun _ h' => h'.1
    · exact ⟨hprotect.called, lookup_put _ _ _⟩
    · exact ⟨hprotect.called, lookup_put _ _ _⟩
  · -- a stop that was placed before has a claim
    refine ⟨List.mem_cons_self, fun claim' hbefore hsame => ?_⟩
    rcases List.mem_cons.mp hbefore with heq | hbefore
    · cases heq
    obtain ⟨c, hc⟩ := h.placed claim' hbefore
    rw [hsame, hnew] at hc
    cases hc

end LiveTrader.FuturesProtection

namespace LiveTrader.FuturesProtection

open Lib Lib.Py

/-! ## What a poll leaves out -/

variable {env : Env} {world : World}

/-- The execution of a claim is among those that were told. -/
def Told (env : Env) (claim : Claim) (executions : List (Option (Claim × Fields))) : Prop :=
  (claim.observed.at "actualOrderId").truthy = true → ∃ actual, some (claim, actual) ∈ executions ∧
    claim.observed.at "actualOrder" = .obj actual ∧ claim.executedBy env (claim.observed.at "actualOrderId") actual = true

/-- The incident of a stop that was lost. -/
def Claim.lostIncident (claim : Claim) : Fields :=
  [("code", .str "FUTURES_PROTECTION_NOT_ACTIVE"), ("symbol", .str claim.symbol), ("algoId", .str claim.algoId)]

/-- The claims that have been read so far, and what was found. -/
structure Found (env : Env) (m₀ : Manager) (done : List String) (executions : List (Option (Claim × Fields)))
    (m : Manager) : Prop where
  stays : Stays env m₀ m
  keys : m.claims.map Prod.fst = m₀.claims.map Prod.fst
  read : ∀ client ∈ done, ∃ claim, m.claims.lookup client = some claim ∧ claim.lastReadVerified = true ∧
    claim.named claim.observed = true ∧ Told env claim executions ∧
    (claim.lost m.activeBySymbol = true → m.incidents.any (sameIncident claim.lostIncident) = true)

theorem sameIncident_lost (claim : Claim) : sameIncident claim.lostIncident claim.lostIncident = true := by
  rw [sameIncident]
  exact Json.eq_refl ⟨by simp [Claim.lostIncident], trivial, trivial, trivial, trivial⟩

/-- What a claim has executed is told with its incident. -/
theorem execution_spec {m m₀ : Manager} (h : Stays env m₀ m) (claim : Claim) :
    (execution env world claim claim.observed).wp (fun executed m' => Stays env m₀ m' ∧ m'.claims = m.claims ∧
      (∀ i ∈ m.incidents, i ∈ m'.incidents) ∧ Told env claim [executed]) (Stays env m₀) m := by
  rw [execution]
  refine Proc.wp_ite (fun hactual => ?_) fun hnone => ⟨h, rfl, fun _ hi => hi, fun htruthy => absurd htruthy hnone⟩
  split
  · next actual hobj =>
    refine Proc.wp_bind.mpr (Proc.wp_check (fun _ => ?_) h)
    refine Proc.wp_bind.mpr (Proc.wp_check (fun hexecuted => ?_) h)
    refine Proc.wp_then (incident_spec h _ _) ?_ fun _ h' => h'
    rintro _ m' ⟨h', hclaims, hincidents, -⟩
    exact ⟨h', hclaims, hincidents, fun _ => ⟨actual, List.mem_singleton_self _, hobj, hexecuted⟩⟩
  · exact h

theorem Told.mono {claim : Claim} {executions executions' : List (Option (Claim × Fields))} (h : Told env claim executions)
    (hsub : ∀ e ∈ executions, e ∈ executions') : Told env claim executions' := by
  intro hactual
  obtain ⟨actual, hmem, hrest⟩ := h hactual
  exact ⟨actual, hsub _ hmem, hrest⟩

/-- The claim that was read last joins those before it. -/
theorem Found.snoc {m m₀ m' : Manager} {done : List String} {client : String} {claim : Claim}
    {executions : List (Option (Claim × Fields))} {executed : Option (Claim × Fields)} (hfresh : client ∉ done)
    (h : Found env m₀ done executions m) (h' : Stays env m₀ m')
    (hkeys : m'.claims.map Prod.fst = m.claims.map Prod.fst)
    (hothers : ∀ key, key ≠ client → m'.claims.lookup key = m.claims.lookup key)
    (hincidents : ∀ i ∈ m.incidents, i ∈ m'.incidents) (hclaim : m'.claims.lookup client = some claim)
    (hverified : claim.lastReadVerified = true) (hnamed : claim.named claim.observed = true)
    (htold : Told env claim [executed])
    (hlost : claim.lost m'.activeBySymbol = true → m'.incidents.any (sameIncident claim.lostIncident) = true) :
    Found env m₀ (done ++ [client]) (executions ++ [executed]) m' := by
  refine ⟨h', hkeys.trans h.keys, fun key hkey => ?_⟩
  rcases List.mem_append.mp hkey with hdone | hlast
  · obtain ⟨c, hc, hcverified, hcnamed, hctold, hclost⟩ := h.read key hdone
    have hne : key ≠ client := fun heq => hfresh (heq ▸ hdone)
    refine ⟨c, (hothers key hne).trans hc, hcverified, hcnamed,
      hctold.mono fun e he => List.mem_append_left _ he, fun hl => any_mono hincidents (hclost ?_)⟩
    rwa [h.stays.later.active, ← h'.later.active]
  · obtain rfl := List.mem_singleton.mp hlast
    exact ⟨claim, hclaim, hverified, hnamed, htold.mono fun e he => List.mem_append_right _ he, hlost⟩

/-- One claim that is read, and all those before it. -/
theorem pollClaim_spec {m m₀ : Manager} {done : List String} {client : String}
    {executions : List (Option (Claim × Fields))} (hfresh : client ∉ done) (h : Found env m₀ done executions m) :
    (pollClaim env world client).wp (fun executed m' => Found env m₀ (done ++ [client]) (executions ++ [executed]) m')
      (Stays env m₀) m := by
  rw [pollClaim]
  refine Proc.wp_then (observe_spec h.stays client) ?_ fun _ h' => h'
  rintro observed m₁ ⟨h₁, hseen, hwrites⟩
  obtain ⟨claim, hclaim, hobservation, hverified, hnamed, -⟩ := hseen.claim
  obtain rfl : claim.observed = observed := by rw [Claim.observed, hobservation]; rfl
  refine Proc.wp_bind.mpr (wp_claimOf (fun claim' hclaim' => ?_) h₁)
  obtain rfl := Option.some.inj (hclaim.symm.trans hclaim')
  refine Proc.wp_then (execution_spec h₁ claim) ?_ fun _ h' => h'
  rintro executed m₂ ⟨h₂, hclaims₂, hincidents₂, htold⟩
  rw [Proc.wp_bind, Proc.wp_read]
  -- whatever comes of the incident, the claims are those of `m₂`
  have hjoin : ∀ m₃, Stays env m₀ m₃ → m₃.claims = m₂.claims → (∀ i ∈ m₂.incidents, i ∈ m₃.incidents) →
      (claim.lost m₃.activeBySymbol = true → m₃.incidents.any (sameIncident claim.lostIncident) = true) →
      Found env m₀ (done ++ [client]) (executions ++ [executed]) m₃ := by
    intro m₃ h₃ hclaims₃ hincidents₃ hlost
    rw [hclaims₂] at hclaims₃
    refine h.snoc hfresh h₃ (hclaims₃ ▸ hwrites.keys) (hclaims₃ ▸ hwrites.others) ?_ (hclaims₃ ▸ hclaim) hverified hnamed
      htold hlost
    exact fun i hi => hincidents₃ i (hincidents₂ i (hwrites.incidents ▸ hi))
  rw [Proc.wp_bind, tellLost]
  refine Proc.wp_ite (fun hlost => ?_) fun hlost => ?_
  · refine Proc.wp_mono (incident_spec h₂ _ _) ?_ fun _ h' => h'
    rintro _ m₃ ⟨h₃, hclaims₃, hincidents₃, htold₃⟩
    exact hjoin m₃ h₃ hclaims₃ hincidents₃ fun _ => htold₃ (sameIncident_lost claim)
  · exact hjoin m₂ h₂ rfl (fun _ hi => hi) fun hl => absurd hl hlost

/-- **`poll` leaves nothing out.** -/
theorem poll_spec {m : Manager} (h : Inv env m) :
    (poll env world).wp (fun _ => Stays env m) (Stays env m) m := by
  rw [poll, Proc.wp_bind, Proc.wp_read]
  have hloop : (Proc.mapEach (pollClaim env world) (m.claims.map Prod.fst)).wp
      (Found env m (m.claims.map Prod.fst)) (Stays env m) m := by
    refine Proc.wp_mapEach (fun done client rest executions m' hkeys hfound => ?_) ⟨.refl h, rfl, fun _ hnil => absurd hnil List.not_mem_nil⟩
    refine pollClaim_spec (fun hdone => ?_) hfound
    have hnodup := h.nodup
    rw [hkeys] at hnodup
    exact (List.nodup_append.mp hnodup).2.2 client hdone client List.mem_cons_self rfl
  refine Proc.wp_then hloop ?_ fun _ h' => h'
  intro executions m' hfound
  rw [Proc.wp_bind, Proc.wp_read, Proc.wp_bind, note, Proc.wp_modify]
  refine hfound.stays.noted _ ?_ trivial
  have hread : ∀ claim ∈ m'.claims.map Prod.snd, ∃ client ∈ m.claims.map Prod.fst,
      m'.claims.lookup client = some claim := by
    intro claim hclaim
    obtain ⟨⟨client, claim⟩, hmem, rfl⟩ := List.mem_map.mp hclaim
    refine ⟨client, ?_, Dict.lookup_of_mem hfound.stays.inv.nodup hmem⟩
    rw [← hfound.keys]
    exact List.mem_map_of_mem hmem
  refine ⟨fun claim hclaim => ?_, fun claim hclaim hactual => ?_, fun claim hclaim hlost => ?_⟩
  · obtain ⟨client, hclient, hlookup⟩ := hread claim hclaim
    obtain ⟨c, hc, hverified, hnamed, -⟩ := hfound.read client hclient
    obtain rfl := Option.some.inj (hlookup.symm.trans hc)
    exact ⟨hverified, hnamed⟩
  · obtain ⟨client, hclient, hlookup⟩ := hread claim hclaim
    obtain ⟨c, hc, -, -, htold, -⟩ := hfound.read client hclient
    obtain rfl := Option.some.inj (hlookup.symm.trans hc)
    obtain ⟨actual, hmem, hrest⟩ := htold hactual
    exact ⟨actual, List.mem_filterMap.mpr ⟨_, hmem, rfl⟩, hrest⟩
  · obtain ⟨client, hclient, hlookup⟩ := hread claim hclaim
    obtain ⟨c, hc, -, -, -, hlost'⟩ := hfound.read client hclient
    obtain rfl := Option.some.inj (hlookup.symm.trans hc)
    exact hlost' hlost

end LiveTrader.FuturesProtection
