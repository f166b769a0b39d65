/-
# `FuturesProtection.Stops` — stops are placed once and never loosened

The stop that is active is kept by its symbol alone, and a claim is found by an id that does not
name its direction.  In a run whose orders meet stops of their own side only (`Meets`) the log is
sound (`protected_of_run`); a short order may be given the stop of a long one (`sample_other_side`).
-/
import LiveTrader.FuturesProtection.Sound
import LiveTrader.Lib.Runs

namespace LiveTrader.FuturesProtection

open Lib Lib.Py Lib.Runs

variable {env : Env} {world : World}

/-! ## Sides -/

/-- The claim is of the side of the order. -/
def SameSide (order : Order) (claim : Claim) : Prop :=
  claim.positionDirection = order.positionDirection ∧ claim.positionMode = order.positionMode

instance (order : Order) (claim : Claim) : Decidable (SameSide order claim) :=
  inferInstanceAs (Decidable (_ ∧ _))

theorem Direction.atLeast_trans {direction : Direction} {a b c : ℚ} (h : direction.atLeast a b)
    (h' : direction.atLeast b c) : direction.atLeast a c := by
  cases direction with
  | long => exact le_trans h' h
  | short => exact le_trans h h'

theorem Direction.atLeast_total (direction : Direction) (a b : ℚ) : direction.atLeast a b ∨ direction.atLeast b a := by
  cases direction with
  | long => exact le_total b a
  | short => exact le_total a b

theorem Direction.atLeast_refl (direction : Direction) (a : ℚ) : direction.atLeast a a := by
  cases direction with
  | long => exact le_refl a
  | short => exact le_refl a

theorem numeric_of_positive {value : Json} {q : ℚ} (h : env.numeric true value = .ok q) : env.numeric false value = .ok q := by
  unfold Env.numeric at h ⊢
  split at h
  · cases h
  · cases h
  · split at h
    · next q' hq =>
      split at h
      · cases h
      · rw [Bool.false_and, if_neg Bool.false_ne_true]
        exact h
    · cases h

/-! ## Activating -/

/-- A stop that is as tight as all that were returned becomes the active one. -/
theorem Inv.activate {m : Manager} (h : Inv env m) {symbol client : String} {claim : Claim} {t : ℚ}
    (hclaim : m.claims.lookup client = some claim) (hsymbol : claim.symbol = symbol)
    (ht : env.numeric true (.str claim.triggerPrice) = .ok t)
    (htight : ∀ order trigger observation t', .ensured order trigger observation ∈ sinceFlat m.log →
      order.symbol = symbol → env.numeric true (observation.at "triggerPrice") = .ok t' →
        claim.positionDirection = order.positionDirection ∧ order.positionDirection.atLeast t t') :
    Inv env { m with activeBySymbol := m.activeBySymbol.set symbol client } := by
  refine ⟨h.nodup, h.keyed, h.placed, h.cancelled, ?_, ?_, h.sound⟩
  · intro symbol' client' hactive
    rw [Dict.lookup_set] at hactive
    split at hactive
    · next heq =>
      obtain rfl := Option.some.inj hactive
      exact ⟨claim, hclaim, hsymbol.trans heq.symm⟩
    · exact h.active symbol' client' hactive
  · intro order trigger observation t' he ht'
    by_cases heq : order.symbol = symbol
    · obtain ⟨hdirection, hat⟩ := htight order trigger observation t' he heq ht'
      exact ⟨client, claim, t, by rw [Dict.lookup_set, if_pos heq], hclaim, hdirection, ht, hat⟩
    · obtain ⟨client', claim', t'', hactive, hrest⟩ := h.tight order trigger observation t' he ht'
      exact ⟨client', claim', t'', by rw [Dict.lookup_set, if_neg heq]; exact hactive, hrest⟩

/-- What `ensure` may return for the active stop. -/
structure Active (env : Env) (order : Order) (trigger : String) (observation : Fields) (m : Manager) : Prop where
  stop : ∃ client claim t, m.activeBySymbol.lookup order.symbol = some client ∧ m.claims.lookup client = some claim ∧
    SameSide order claim ∧ claim.named observation = true ∧
    env.numeric true (observation.at "triggerPrice") = .ok t ∧ env.numeric true (.str claim.triggerPrice) = .ok t ∧
    ∃ asked, env.numeric false (.str trigger) = .ok asked ∧ order.positionDirection.atLeast t asked
  live : observation.at "status" = .str "NEW"

/-- **The active stop protects the order.** -/
theorem Active.noted {m : Manager} (h : Inv env m) {order : Order} {trigger : String} {observation : Fields}
    (hactive : Active env order trigger observation m) :
    Inv env { m with log := .ensured order trigger observation :: m.log } := by
  obtain ⟨client, claim, t, hlookup, hclaim, hside, hnamed, ht, htclaim, asked, hasked, hat⟩ := hactive.stop
  obtain ⟨-, hclosing, hgranted⟩ := h.keyed client claim hclaim
  obtain ⟨claim', hclaim', hsymbol⟩ := h.active _ _ hlookup
  obtain rfl := Option.some.inj (hclaim.symm.trans hclaim')
  refine (Stays.noted (.refl h) (.ensured order trigger observation) ⟨?_, hactive.live, ⟨t, asked, ht, hasked, hat⟩, ?_⟩ ?_).inv
  · refine ⟨claim.grant, hgranted, hsymbol, ?_, ?_, hnamed⟩
    · show claim.side = _
      rw [hclosing, hside.1]
    · show positionSide claim.positionMode claim.positionDirection = _
      rw [hside.1, hside.2]
  · intro t' order' trigger' observation' t'' ht' he hsame hdirection ht''
    obtain rfl := Except.ok.inj (ht.symm.trans ht')
    obtain ⟨client', claim', t₁, hlookup', hclaim', -, htclaim', hat'⟩ := h.tight order' trigger' observation' t'' he ht''
    rw [hsame, hlookup] at hlookup'
    obtain rfl := Option.some.inj hlookup'
    obtain rfl := Option.some.inj (hclaim.symm.trans hclaim')
    obtain rfl := Except.ok.inj (htclaim.symm.trans htclaim')
    rwa [hdirection] at hat'
  · intro t' ht'
    obtain rfl := Except.ok.inj (ht.symm.trans ht')
    exact ⟨client, claim, t, hlookup, hclaim, hside.1, htclaim, order.positionDirection.atLeast_refl t⟩

/-! ## Ensuring -/

/-- The stop of the order is beyond the mark, so that it is refused. -/
def Refused (env : Env) (order : Order) (market : Fields) (claim : Claim) : Prop :=
  ∃ t mark, env.numeric true (.str claim.triggerPrice) = .ok t ∧ env.numeric true (market.at "markPrice") = .ok mark ∧
    order.positionDirection.atLeast t mark

/-- The stop that is active against the one that is asked for: it is returned, or it is not tight enough. -/
structure Reused (env : Env) (order : Order) (trigger previous : String) (settled : Option Fields) (m : Manager) :
    Prop where
  old : ∃ claim old new, m.claims.lookup previous = some claim ∧ SameSide order claim ∧
    env.numeric true (.str claim.triggerPrice) = .ok old ∧ env.numeric false (.str trigger) = .ok new ∧
    (settled = none → ¬ order.positionDirection.atLeast old new) ∧
    ∀ current, settled = some current → claim.named current = true ∧
      env.numeric true (current.at "triggerPrice") = .ok old ∧ order.positionDirection.atLeast old new
  live : ∀ current, settled = some current → current.at "status" = .str "NEW"

theorem reuse_spec {m : Manager} (h : Inv env m) {order : Order} {market : Fields} {trigger previous : String} {c : Claim}
    (hprevious : m.claims.lookup previous = some c) (hmeets : SameSide order c ∨ Refused env order market c) :
    (reuse env world order market trigger previous).wp (fun settled m' => Stays env m m' ∧
      Reused env order trigger previous settled m' ∧ ∀ key claim, m'.claims.lookup key = some claim →
        ∃ claim', m.claims.lookup key = some claim' ∧ claim.grant = claim'.grant) (Stays env m) m := by
  rw [reuse]
  refine Proc.wp_then (observe_spec (.refl h) previous) ?_ fun _ h' => h'
  rintro current m₁ ⟨h₁, hseen, hwrites⟩
  obtain ⟨claim, hclaim, -, -, hnamed, t, ht, htclaim⟩ := hseen.claim
  refine Proc.wp_bind.mpr (Proc.wp_check (fun hnew => ?_) h₁)
  refine Proc.wp_bind.mpr (Proc.wp_of (fun old hold => ?_) h₁)
  refine Proc.wp_bind.mpr (Proc.wp_of (fun new hasked => ?_) h₁)
  refine Proc.wp_bind.mpr (Proc.wp_of (fun mark hmark => ?_) h₁)
  refine Proc.wp_bind.mpr (Proc.wp_check (fun hbelow => ?_) h₁)
  obtain rfl := Except.ok.inj ((numeric_of_positive ht).symm.trans hold)
  obtain ⟨claim', hclaim', hgrant⟩ := h₁.later.claims previous c hprevious
  obtain rfl := Option.some.inj (hclaim.symm.trans hclaim')
  -- a stop of another side would have been refused
  have hside : SameSide order claim := by
    rcases hmeets with hside | ⟨t', mark', ht', hmark', hat⟩
    · exact ⟨(Claim.grant_direction hgrant).trans hside.1, (Claim.grant_mode hgrant).trans hside.2⟩
    · rw [← Claim.grant_trigger hgrant, htclaim] at ht'
      obtain rfl := Except.ok.inj ht'
      obtain rfl := Except.ok.inj (hmark.symm.trans hmark')
      exact absurd hat hbelow
  refine ⟨h₁, ⟨⟨claim, t, new, hclaim, hside, htclaim, hasked, fun hnone hat => ?_, fun current' hsome => ?_⟩, ?_⟩, ?_⟩
  · rw [if_pos hat] at hnone
    cases hnone
  · by_cases hat : order.positionDirection.atLeast t new
    · rw [if_pos hat] at hsome
      obtain rfl := Option.some.inj hsome
      exact ⟨hnamed, ht, hat⟩
    · rw [if_neg hat] at hsome
      cases hsome
  · intro current' hsome
    split at hsome
    · obtain rfl := Option.some.inj hsome
      exact Json.eq_str hnew
    · cases hsome
  · intro key claim' hkey
    by_cases heq : key = previous
    · subst heq
      obtain rfl := Option.some.inj (hclaim.symm.trans hkey)
      exact ⟨c, hprevious, hgrant⟩
    · exact ⟨claim', (hwrites.others key heq).symm.trans hkey, rfl⟩

/-- What the stop that is replaced says about the new one. -/
def Looser (env : Env) (order : Order) (trigger : String) (m : Manager) : Option String → Prop
  | none => m.activeBySymbol.lookup order.symbol = none
  | some previous => m.activeBySymbol.lookup order.symbol = some previous ∧ ∃ claim old new,
      m.claims.lookup previous = some claim ∧ SameSide order claim ∧ env.numeric true (.str claim.triggerPrice) = .ok old ∧
        env.numeric false (.str trigger) = .ok new ∧ order.positionDirection.atLeast new old

/-- The claim is the one that the order would have made. -/
def Fits (order : Order) (trigger : String) (claim : Claim) : Prop :=
  SameSide order claim ∧ claim.symbol = order.symbol ∧ claim.triggerPrice = trigger

theorem SameSide.of_grant {order : Order} {claim claim' : Claim} (h : SameSide order claim)
    (hgrant : claim'.grant = claim.grant) : SameSide order claim' :=
  ⟨(Claim.grant_direction hgrant).trans h.1, (Claim.grant_mode hgrant).trans h.2⟩

theorem Fits.of_grant {order : Order} {trigger : String} {claim claim' : Claim} (h : Fits order trigger claim)
    (hgrant : claim'.grant = claim.grant) : Fits order trigger claim' :=
  ⟨h.1.of_grant hgrant, (Claim.grant_symbol hgrant).trans h.2.1, (Claim.grant_trigger hgrant).trans h.2.2⟩

theorem submitOnce_spec {m : Manager} (h : Inv env m) {order : Order} {trigger client : String}
    (hfits : ∀ claim, m.claims.lookup client = some claim → Fits order trigger claim) :
    (submitOnce world (order.claim client trigger)).wp (fun _ m' => Stays env m m' ∧
      ∃ claim, m'.claims.lookup client = some claim ∧ Fits order trigger claim) (Stays env m) m := by
  rw [submitOnce, Proc.wp_bind, Proc.wp_read]
  refine Proc.wp_ite (fun hnone => ?_) fun hsome => ?_
  · refine Proc.wp_mono (submit_spec h (Option.isNone_iff_eq_none.mp hnone) rfl rfl) ?_ fun _ h' => h'
    exact fun _ m' h' => ⟨h'.1, _, h'.2, ⟨rfl, rfl⟩, rfl, rfl⟩
  · cases hclaim : m.claims.lookup client with
    | none => exact absurd (Option.isNone_iff_eq_none.mpr hclaim) hsome
    | some claim => exact ⟨.refl h, claim, hclaim, hfits claim hclaim⟩

theorem retire_spec {m : Manager} (h : Inv env m) {previous : Option String} {client : String}
    (htold : .observed client (.str "NEW") ∈ m.log) :
    (retire env world previous client).wp (fun _ => Stays env m) (Stays env m) m := by
  cases previous with
  | none => exact .refl h
  | some previous =>
    refine Proc.wp_ite (fun _ => .refl h) fun hne => ?_
    refine Proc.wp_then (cancel_spec (.refl h) previous _ ?_) (fun _ m' h' => h') fun _ h' => h'
    rintro past claim hpast hid
    exact ⟨fun heq => hne (hid ▸ heq.symm), hpast _ htold⟩

/-- The new stop is as tight as all that was returned for the symbol. -/
theorem Looser.tight {m m' : Manager} (h : Inv env m') (hlater : Later m m') {order : Order} {trigger : String}
    {previous : Option String} (hlooser : Looser env order trigger m previous) {t : ℚ}
    (ht : env.numeric false (.str trigger) = .ok t) {order' : Order} {trigger' : String} {observation : Fields} {t' : ℚ}
    (he : .ensured order' trigger' observation ∈ sinceFlat m'.log) (hsymbol : order'.symbol = order.symbol)
    (ht' : env.numeric true (observation.at "triggerPrice") = .ok t') :
    order.positionDirection = order'.positionDirection ∧ order'.positionDirection.atLeast t t' := by
  obtain ⟨client, claim, old, hactive, hclaim, hdirection, hold, hat⟩ := h.tight order' trigger' observation t' he ht'
  rw [hlater.active, hsymbol] at hactive
  cases previous with
  | none =>
    rw [show m.activeBySymbol.lookup order.symbol = none from hlooser] at hactive
    cases hactive
  | some previous =>
    obtain ⟨hprevious, c, old', new, hc, hside, hold', hnew, hat'⟩ := hlooser
    obtain rfl := Option.some.inj (hprevious.symm.trans hactive)
    obtain ⟨c', hc', hgrant⟩ := hlater.claims _ c hc
    obtain rfl := Option.some.inj (hclaim.symm.trans hc')
    rw [Claim.grant_trigger hgrant, hold'] at hold
    obtain rfl := Except.ok.inj hold
    obtain rfl := Except.ok.inj (ht.symm.trans hnew)
    have hsame : order.positionDirection = order'.positionDirection :=
      (hside.of_grant hgrant).1.symm.trans hdirection
    exact ⟨hsame, Direction.atLeast_trans (hsame ▸ hat') hat⟩

/-- **A stop of the order's own is placed before the one it replaces is cancelled.** -/
theorem place_spec {m : Manager} (h : Inv env m) {order : Order} {trigger : String} {previous : Option String}
    (hfits : ∀ claim, m.claims.lookup (env.clientOf order trigger) = some claim → Fits order trigger claim)
    (hlooser : Looser env order trigger m previous) :
    (place env world order trigger previous).wp (fun current m' => Inv env m' ∧ Active env order trigger current m')
      (Inv env) m := by
  rw [place]
  refine Proc.wp_then (submitOnce_spec h hfits) ?_ fun _ h' => h'.inv
  rintro _ m₁ ⟨h₁, c, hc, hfits₁⟩
  refine Proc.wp_then (observe_spec (.refl h₁.inv) (env.clientOf order trigger)) ?_ fun _ h' => h'.inv
  rintro current m₂ ⟨h₂, hseen, -⟩
  obtain ⟨claim, hclaim, -, -, hnamed, t, ht, htclaim⟩ := hseen.claim
  obtain ⟨c', hc', hgrant⟩ := h₂.later.claims _ c hc
  obtain rfl := Option.some.inj (hclaim.symm.trans hc')
  obtain ⟨hside, hsymbol, htrigger⟩ := hfits₁.of_grant hgrant
  have hasked : env.numeric false (.str trigger) = .ok t := numeric_of_positive (htrigger ▸ htclaim)
  refine Proc.wp_bind.mpr (Proc.wp_check (fun hnew => ?_) h₂.inv)
  have hlive := Json.eq_str hnew
  rw [Proc.wp_bind, activate, Proc.wp_modify]
  -- all that was returned since the last flat position is looser
  have h₃ : Inv env { m₂ with activeBySymbol := m₂.activeBySymbol.set order.symbol (env.clientOf order trigger) } := by
    refine h₂.inv.activate hclaim hsymbol htclaim fun order' trigger' observation t' he hsame ht' => ?_
    obtain ⟨hdirection, hat⟩ := hlooser.tight h₂.inv (h₁.later.trans h₂.later) hasked he hsame ht'
    exact ⟨hside.1.trans hdirection, hat⟩
  refine Proc.wp_then (retire_spec h₃ (hlive ▸ hseen.told)) ?_ fun _ h' => h'.inv
  intro _ m₄ h₄
  obtain ⟨claim', hclaim', hgrant'⟩ := h₄.later.claims _ claim hclaim
  refine ⟨h₄.inv, ⟨env.clientOf order trigger, claim', t, ?_, hclaim', hside.of_grant hgrant', ?_, ht, ?_, t, hasked,
    order.positionDirection.atLeast_refl t⟩, hlive⟩
  · rw [h₄.later.active, Dict.lookup_set, if_pos rfl]
  · rw [Claim.grant_named hgrant', hnamed]
  · rw [Claim.grant_trigger hgrant', htclaim]

/-! ## Runs -/

/-- The order meets stops of its own side: the active one, unless it is beyond the mark and refused, and
the one that is found by its id. -/
def MeetsStops (env : Env) (m : Manager) (order : Order) (market : Fields) (frozenPolicy : Json) : Prop :=
  (∀ client claim, m.activeBySymbol.lookup order.symbol = some client → m.claims.lookup client = some claim →
    SameSide order claim ∨ Refused env order market claim) ∧
  ∀ trigger claim, env.stopPrice order market frozenPolicy = .ok trigger →
    m.claims.lookup (env.clientOf order trigger) = some claim → Fits order trigger claim

theorem ensureWith_spec {m : Manager} (h : Inv env m) {order : Order} {market : Fields} {trigger : String}
    (hactive : ∀ client claim, m.activeBySymbol.lookup order.symbol = some client → m.claims.lookup client = some claim →
      SameSide order claim ∨ Refused env order market claim)
    (hfits : ∀ claim, m.claims.lookup (env.clientOf order trigger) = some claim → Fits order trigger claim) :
    (ensureWith env world order market trigger (m.activeBySymbol.lookup order.symbol)).wp
      (fun current m' => Inv env m' ∧ Active env order trigger current m') (Inv env) m := by
  cases hprevious : m.activeBySymbol.lookup order.symbol with
  | none => exact place_spec h hfits hprevious
  | some previous =>
    obtain ⟨c, hc, -⟩ := h.active _ _ hprevious
    refine Proc.wp_then (reuse_spec h hc (hactive previous c hprevious hc)) ?_ fun _ h' => h'.inv
    rintro settled m' ⟨h', hreused, hback⟩
    obtain ⟨claim, old, new, hclaim, hside, hold, hnew, hnone, hsome⟩ := hreused.old
    have hprevious' : m'.activeBySymbol.lookup order.symbol = some previous := by rw [h'.later.active, hprevious]
    cases settled with
    | some current =>
      obtain ⟨hnamed, ht, hat⟩ := hsome current rfl
      exact ⟨h'.inv, ⟨previous, claim, old, hprevious', hclaim, hside, hnamed, ht, hold, new, hnew, hat⟩,
        hreused.live current rfl⟩
    | none =>
      refine place_spec h'.inv (fun claim' hclaim' => ?_) ⟨hprevious', claim, old, new, hclaim, hside, hold, hnew,
        (order.positionDirection.atLeast_total new old).resolve_right (hnone rfl)⟩
      obtain ⟨c', hc', hgrant⟩ := hback _ claim' hclaim'
      exact (hfits c' hc').of_grant hgrant

/-- **What `ensure` returns protects the order.** -/
theorem ensure_spec {m : Manager} (h : Inv env m) {order : Order} {market : Fields} {frozenPolicy : Json}
    (hmeets : MeetsStops env m order market frozenPolicy) :
    (ensure env world order market frozenPolicy).wp (fun _ => Inv env) (Inv env) m := by
  rw [ensure]
  refine Proc.wp_bind.mpr (Proc.wp_of (fun trigger htrigger => ?_) h)
  rw [Proc.wp_bind, Proc.wp_read]
  refine Proc.wp_then (ensureWith_spec h hmeets.1 fun claim => hmeets.2 trigger claim htrigger) ?_ fun _ h' => h'
  rintro current m' ⟨h', hactive⟩
  exact Active.noted h' hactive

/-- Nothing is active, where nothing was returned since the position was flat. -/
theorem Inv.clear {m : Manager} (h : Inv env m) (hflat : sinceFlat m.log = []) :
    Inv env { m with activeBySymbol := [] } := by
  refine ⟨h.nodup, h.keyed, h.placed, h.cancelled, fun symbol client hactive => ?_, fun order trigger observation t he => ?_,
    h.sound⟩
  · cases hactive
  · rw [hflat] at he
    cases he

/-- `finish_flat` cancels the stops, each for its own reason. -/
theorem finishFlat_spec {m : Manager} (h : Inv env m) : (finishFlat env world).wp (fun _ => Inv env) (Inv env) m := by
  rw [finishFlat, Proc.wp_bind, Proc.wp_read]
  have hloop : (Proc.forEach (fun client => do
      let _ ← cancel env world client .finishing
      pure ()) (m.claims.map Prod.fst) : Code Unit).wp (fun _ => Stays env m) (Stays env m) m := by
    refine Proc.wp_forEach (fun client _ m' h' => ?_) (.refl h)
    exact Proc.wp_then (cancel_spec h' client .finishing fun _ _ _ _ => trivial) (fun _ _ h => h) fun _ h => h
  refine Proc.wp_then hloop ?_ fun _ h' => h'.inv
  intro _ m' h'
  rw [Proc.wp_bind, Proc.wp_read]
  refine Proc.wp_bind.mpr (Proc.wp_of (fun retired _ => ?_) h'.inv)
  refine Proc.wp_bind.mpr (Proc.wp_check (fun _ => ?_) h'.inv)
  rw [Proc.wp_bind, Proc.wp_modify]
  exact ((h'.noted .flat trivial trivial).inv.clear rfl)

/-! ## Runs -/

/-- A call of the manager. -/
inductive Op where
  | ensure (order : Order) (market : Fields) (frozenPolicy : Json)
  | poll
  | checkPositions (positions : List Fields)
  | finishFlat

/-- The manager after a call, whether it has returned or raised. -/
def perform (env : Env) (world : World) (m : Manager) : Op → Manager
  | .ensure order market frozenPolicy => (ensure env world order market frozenPolicy m).2
  | .poll => (poll env world m).2
  | .checkPositions positions => (checkPositions env world positions m).2
  | .finishFlat => (finishFlat env world m).2

def step (env : Env) (world : World) (m : Manager) (op : Op) : Option Manager := some (perform env world m op)

/-- Each order meets stops of its own side. -/
def Meets (env : Env) (m : Manager) : Op → Prop
  | .ensure order market frozenPolicy => MeetsStops env m order market frozenPolicy
  | _ => True

theorem inv_init : Inv env {} := by
  refine ⟨List.nodup_nil, ?_, ?_, ?_, ?_, ?_, trivial⟩
  · intro client claim hclaim
    cases hclaim
  · intro claim hclaim
    cases hclaim
  · intro claim cause hclaim
    cases hclaim
  · intro symbol client hactive
    cases hactive
  · intro order trigger observation t he
    cases he

/-- **One call keeps the invariant**, whatever the others answer and however the call ends. -/
theorem inv_perform {m : Manager} (h : Inv env m) {op : Op} (hmeets : Meets env m op) : Inv env (perform env world m op) := by
  have hstays : ∀ {α : Type} {code : Code α}, code.wp (fun _ => Stays env m) (Stays env m) m → Inv env (code m).2 :=
    fun hcode => (Proc.of_wp hcode).inv
  cases op with
  | ensure order market frozenPolicy => exact Proc.of_wp (ensure_spec h hmeets)
  | poll => exact hstays (poll_spec h)
  | checkPositions positions => exact hstays (checkPositions_spec (.refl h) positions)
  | finishFlat => exact Proc.of_wp (finishFlat_spec h)

/-- **Stops are placed once, never loosened and never forgotten**, in a run whose orders meet stops of
their own side. -/
theorem protected_of_run {ops : List Op} {m : Manager} (h : Run (step env world) (Meets env) {} ops m) : Sound env m.log := by
  have hinv : Inv env m := by
    refine h.invariant (fun hmeets hstep hinv => ?_) inv_init
    obtain rfl := Option.some.inj hstep
    exact inv_perform hinv hmeets
  exact hinv.sound

/-! ## Two sides of one symbol -/

/-- The numbers of the samples. -/
def sampleDecimal : Json → Option ℚ
  | .int n => some n
  | .str s => if s = "80" then some 80 else if s = "90" then some 90 else if s = "100" then some 100 else none
  | _ => none

/-- The price of a stop stands in the order. -/
def sampleEnv : Env where
  decimal := sampleDecimal
  decimalStr := fun _ => ""
  str := fun value => match value with | .str s => s | _ => "None"
  positiveId := fun s => .ok (s != "")
  epoch := fun _ => .ok 0
  digest := fun parts => "/".intercalate parts
  product := fun a b => a * b
  stopPrice := fun order _ _ => match order.rest.at "stop" with | .str s => .ok s | _ => .error (.other "KeyError")

/-- An exchange that confirms every stop, in the state `NEW`. -/
def sampleWorld : World where
  reader := fun _ claim => .ok (.obj [("known", .bool true), ("clientAlgoId", .str claim.clientAlgoId),
    ("symbol", .str claim.symbol), ("side", .str claim.side),
    ("positionSide", .str (positionSide claim.positionMode claim.positionDirection)), ("closePosition", .bool true),
    ("workingType", .str "MARK_PRICE"), ("type", .str "STOP_MARKET"), ("priceProtect", .bool false),
    ("triggerPrice", .str claim.triggerPrice), ("algoId", .str "17"), ("status", .str "NEW")])
  clock := fun _ => .ok 0
  reserve := fun _ _ _ => .ok true
  record := fun _ => .ok ()
  protect := fun _ _ => .ok ()
  cancel := fun _ _ => .ok ()

/-- An order in a hedged account. -/
def sampleOrder (direction : Direction) (clientOrderId stop : String) : Order where
  route := "BINANCE_USDM_FUTURES"
  sessionId := "session"
  manifestHash := "manifest"
  accountId := "account"
  symbol := "BTCUSDT"
  positionDirection := direction
  positionMode := .hedge
  clientOrderId := clientOrderId
  rest := [("stop", .str stop)]

/-- `ensure` has returned last, a stop that sells for an order of this direction. -/
def sells (direction : Direction) (m : Manager) : Bool :=
  match m.log with
  | .ensured order _ observation :: _ => order.positionDirection == direction && (observation.at "side").eq (.str "SELL")
  | _ => false

/-- A long order, with a stop at 90. -/
def sampleLong : Op := .ensure (sampleOrder .long "entry-1" "90") [("markPrice", .int 100)] .null

/-- A long order is protected. -/
theorem protected_of_run_sample : ∃ m, Run (step sampleEnv sampleWorld) (Meets sampleEnv) {} [sampleLong] m ∧
    sells .long m = true ∧ Sound sampleEnv m.log := by
  have hrun : Run (step sampleEnv sampleWorld) (Meets sampleEnv) {} [sampleLong]
      (perform sampleEnv sampleWorld {} sampleLong) := by
    refine .cons ⟨fun client claim hactive => ?_, fun trigger claim _ hclaim => ?_⟩ rfl (.nil _)
    · cases hactive
    · cases hclaim
  exact ⟨_, hrun, by decide +kernel, protected_of_run hrun⟩

/-- What is returned for an order has its closing side. -/
theorem side_of_sound {order : Order} {trigger : String} {observation : Fields} {past : List Event}
    (h : Sound env (.ensured order trigger observation :: past)) :
    observation.at "side" = .str order.positionDirection.closingSide := by
  obtain ⟨claim, -, -, hside, -, hnamed⟩ := h.1.claim
  simp only [Claim.named, Bool.and_eq_true] at hnamed
  rw [Json.eq_str hnamed.1.1.1.1.1.2, hside]

theorem not_sound_of_sells {m : Manager} (h : sells .short m = true) : ¬ Sound env m.log := by
  intro hsound
  unfold sells at h
  split at h
  · next order trigger observation past hlog =>
    rw [hlog] at hsound
    rw [side_of_sound hsound, Bool.and_eq_true] at h
    obtain ⟨hshort, hsells⟩ := h
    rw [eq_of_beq hshort] at hsells
    cases hsells
  · cases h

/-- **A short order is given the stop of a long one.**  The mark has fallen through the stop at 90,
which is live still, and the short order asks for 100. -/
theorem sample_other_side : ∃ m, Run (step sampleEnv sampleWorld) Free {}
    [sampleLong, .ensure (sampleOrder .short "entry-2" "100") [("markPrice", .int 80)] .null] m ∧
      ¬ Sound sampleEnv m.log := by
  obtain ⟨m, hm, hsells⟩ : ∃ m, runAll (step sampleEnv sampleWorld) {}
      [sampleLong, .ensure (sampleOrder .short "entry-2" "100") [("markPrice", .int 80)] .null] = some m ∧
        sells .short m = true := by
    decide +kernel
  exact ⟨m, free_of_runAll hm, not_sound_of_sells hsells⟩

end LiveTrader.FuturesProtection
