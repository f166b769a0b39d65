/-
# `ShortSession.Incidents` — external executions against the sleeves of a session

`_reconcile` takes the futures incidents of an adapter one by one.  The quantity of an execution is cumulative:
what was applied of it is the quantity of the incident that is kept in `externalExecutions`, and the rest is
taken from the sleeves of the symbol, in proportion.  The same map keeps the first sighting of an incident that
was not applied, whatever its quantity (`sample_sighting_hides_execution`).

Other operations may give the sleeves other quantities in between.  Numbers are exact; the log has its last
event first.
-/
import LiveTrader.Lib.Proc
import LiveTrader.Lib.Runs
import LiveTrader.Lib.Json
import Mathlib.Algebra.Order.Ring.Rat
import Mathlib.Algebra.Order.BigOperators.Group.List
import Mathlib.Algebra.BigOperators.Ring.List
import Mathlib.Tactic.Ring
import Mathlib.Tactic.LinearCombination

namespace LiveTrader.ShortSession

open Lib Lib.Py Lib.Runs

/-! ## Values -/

structure Env where
  /-- `canonical_hash`. -/
  hash : Json → String
  /-- `float` on a text, where it is a number. -/
  number : String → Option ℚ

/-- The route and the symbol of each instance. -/
abbrev Specs := Dict String (String × String)

structure Sleeve where
  quantity : ℚ
  averagePrice : ℚ

inductive Event where
  /-- A verified execution was seen: what it has reduced the sleeves by, and what they held. -/
  | verified (identity : String) (cumulative reduction holdings : ℚ)
  /-- Another sighting: what counts as applied before it and after it. -/
  | sighted (identity : String) (before after : Result ℚ)

structure State where
  sleeve : String → Sleeve
  /-- `externalExecutions`. -/
  executions : Dict String Fields
  log : List Event

abbrev Code (α : Type) := Proc State Error α

section code

variable (env : Env) (specs : Specs)

/-- `float(value)`. -/
def float : Json → Result ℚ
  | .bool b => .ok (if b then 1 else 0)
  | .int n => .ok n
  | .float q => .ok q
  | .str text => orRaise (.value "could not convert string to float") (env.number text)
  | _ => .error (.type "float() argument must be a string or a real number")

/-- The digits after an optional point. -/
def isFraction : List Char → Bool
  | [] => true
  | '.' :: digits => !digits.isEmpty && digits.all fun c => '0' ≤ c && c ≤ '9'
  | _ => false

/-- `0|[1-9][0-9]*` and what follows it. -/
def isPlain : List Char → Bool
  | '0' :: rest => isFraction rest
  | c :: rest => '1' ≤ c && c ≤ '9' && isFraction (rest.dropWhile fun c => '0' ≤ c && c ≤ '9')
  | [] => false

/-- `-?(?:0|[1-9][0-9]*)(?:\.[0-9]+)?`. -/
def isDecimalText (text : String) : Bool :=
  match text.toList with
  | '-' :: rest => isPlain rest
  | cs => isPlain cs

/-- A number, or the text of a decimal. -/
def isNumber : Json → Bool
  | .int _ | .float _ => true
  | .str text => isDecimalText text
  | _ => false

/-- `finite(value, name)`. -/
def finite (value : Json) (name : String) : Result ℚ := do
  require (isNumber value = true) (.value (name ++ "_NUMBER_REQUIRED"))
  let result ← float env value
  require (0 ≤ result) (.value (name ++ "_INVALID"))
  pure result

/-! ## Incidents -/

/-- The incident has a code, of its own or by its type. -/
def coded (incident : Fields) : Result Bool :=
  if (incident.at "code").truthy then .ok true
  else (incident.at "type").isOneOf ["LIQUIDATION", "ADL", "PROTECTIVE_STOP"]

/-- A verified execution. -/
def isExecution (incident : Fields) : Result Bool :=
  if (incident.at "verified").isTrue then (incident.at "type").isOneOf ["PROTECTIVE_STOP", "LIQUIDATION", "ADL"]
  else .ok false

def identityOf (incident : Fields) : String :=
  env.hash (.obj (["type", "code", "symbol", "positionSide", "brokerOrderId", "algoId"].map fun key => (key, incident.at key)))

/-- The instances of the route that trade the symbol of the incident. -/
def membersOf (route : String) (incident : Fields) : Result (List String) :=
  if specs.any fun spec => spec.2.1 = route then do
    let symbol ← incident.item "symbol"
    pure ((specs.filter fun spec => decide (spec.2.1 = route) && (Json.str spec.2.2).eq symbol).map Prod.fst)
  else .ok []

/-- The quantity of an execution. -/
def cumulativeOf (incident : Fields) : Result ℚ := finite env (incident.at "quantity") "EXTERNAL_CUMULATIVE_QUANTITY"

/-! ## Sleeves -/

def holdings (sleeve : String → Sleeve) (members : List String) : ℚ := (members.map fun key => |(sleeve key).quantity|).sum

/-- `-1 if quantity < 0 else 1`. -/
def Sleeve.sign (sleeve : Sleeve) : ℚ := if sleeve.quantity < 0 then -1 else 1

/-- The sleeve is reduced; what is nothing is set to nothing. -/
def Sleeve.reduce (sleeve : Sleeve) (amount : ℚ) : Sleeve :=
  if |sleeve.quantity - sleeve.sign * amount| < 1 / 10 ^ 9 then ⟨0, 0⟩
  else { sleeve with quantity := sleeve.quantity - sleeve.sign * amount }

/-- The share of a sleeve. -/
def shareOf (sleeve : String → Sleeve) (members : List String) (increment : ℚ) (key : String) : ℚ :=
  increment * |(sleeve key).quantity| / holdings sleeve members

/-- The sleeves of the members are reduced by their shares. -/
def reduceAll (sleeve : String → Sleeve) (members : List String) (increment : ℚ) (key : String) : Sleeve :=
  if key ∈ members then (sleeve key).reduce (shareOf sleeve members increment key) else sleeve key

/-- By how much the members have come nearer to nothing. -/
def reductionOf (sleeve sleeve' : String → Sleeve) (members : List String) : ℚ :=
  (members.map fun key => (sleeve key).sign * ((sleeve key).quantity - (sleeve' key).quantity)).sum

/-! ## `_reconcile` -/

/-- `float(prior.get("quantity", 0))`. -/
def countedIn (prior : Option Fields) : Result ℚ :=
  match prior with
  | some incident => float env ((incident.lookup "quantity").getD (.int 0))
  | none => .ok 0

/-- What counts as applied of an incident. -/
def counted (s : State) (identity : String) : Result ℚ := countedIn env (s.executions.lookup identity)

/-- The state after an attribution. -/
def State.ascribe (s : State) (identity : String) (incident : Fields) (members : List String) (increment : ℚ) : State :=
  { s with
    sleeve := reduceAll s.sleeve members increment
    executions := s.executions.set identity incident }

/-- The increment is not the sleeves'. -/
def Refused (held increment : ℚ) : Prop := increment < 0 ∨ held + max (1 / 10 ^ 9) (held / 10 ^ 8) < increment

instance (held increment : ℚ) : Decidable (Refused held increment) :=
  inferInstanceAs (Decidable (_ ∨ _))

/-- What the increment does: one that is refused is a failure, and changes nothing. -/
def State.apply (s : State) (identity : String) (incident : Fields) (members : List String) (increment : ℚ) : State :=
  if Refused (holdings s.sleeve members) increment then s
  else if 0 < increment ∧ 0 < holdings s.sleeve members then s.ascribe identity incident members increment
  else s

/-- The execution is noted, with what has become of the sleeves. -/
def State.verify (s t : State) (identity : String) (cumulative : ℚ) (members : List String) : State :=
  { t with log := .verified identity cumulative (reductionOf s.sleeve t.sleeve members) (holdings s.sleeve members) :: t.log }

/-- A verified execution; the journal is written before the sleeves. -/
def ascribe (route identity : String) (incident : Fields) (written : Result Unit) : Code Unit := do
  let cumulative ← Proc.of (cumulativeOf env incident)
  let s ← Proc.read id
  let applied ← Proc.of (counted env s identity)
  let members ← Proc.of (membersOf specs route incident)
  Proc.of written
  Proc.modify fun s => s.verify (s.apply identity incident members (cumulative - applied)) identity cumulative members

/-- `setdefault`, of an incident that is new or has another quantity. -/
def State.keep (s : State) (identity : String) (incident : Fields) (prior : Option Fields) : State :=
  if prior.all fun prior => !(prior.at "quantity").eq (incident.at "quantity") then
    if (s.executions.lookup identity).isSome then s else { s with executions := s.executions.set identity incident }
  else s

/-- The incident is kept. -/
def keep (identity : String) (incident : Fields) (prior : Option Fields) : Code Unit :=
  Proc.modify fun s => s.keep identity incident prior

/-- The incident is kept, as a sighting. -/
def sight (identity : String) (incident : Fields) (prior : Option Fields) : Code Unit :=
  Proc.modify fun s =>
    let t := s.keep identity incident prior
    { t with log := .sighted identity (counted env s identity) (counted env t identity) :: t.log }

/-- An incident with a code. -/
def take (route : String) (incident : Fields) (written : Result Unit) : Code Unit := do
  let s ← Proc.read id
  let exact ← Proc.of (isExecution incident)
  if exact then do
    ascribe env specs route (identityOf env incident) incident written
    keep (identityOf env incident) incident (s.executions.lookup (identityOf env incident))
  else sight env (identityOf env incident) incident (s.executions.lookup (identityOf env incident))

/-- One turn of the loop over `futuresIncidents`. -/
def observe (route : String) (incident : Fields) (written : Result Unit) : Code Unit := do
  let known ← Proc.of (coded incident)
  if known then take env specs route incident written else pure ()

inductive Label where
  | observe (route : String) (incident : Fields) (written : Result Unit)
  /-- Another operation changes the sleeves. -/
  | trade (sleeve : String → Sleeve)

def step (s : State) : Label → Option State
  | .observe route incident written => some (observe env specs route incident written s).2
  | .trade sleeve => some { s with sleeve }

end code

/-- A session that has seen nothing. -/
def State.initial (sleeve : String → Sleeve) : State := ⟨sleeve, [], []⟩

/-! ## Attribution -/

/-- What the sleeves were reduced by for an incident. -/
def reduced : List Event → String → ℚ
  | [], _ => 0
  | .verified other _ reduction _ :: past, identity => (if other = identity then reduction else 0) + reduced past identity
  | .sighted _ _ _ :: past, identity => reduced past identity

/-- A verified execution that the sleeves can bear is then attributed in full; a sighting counts for nothing. -/
def Allowed (past : List Event) : Event → Prop
  | .verified identity cumulative reduction holdings =>
    cumulative - reduced past identity ≤ holdings → reduced past identity + reduction = cumulative
  | .sighted _ before after => after = before

variable {env : Env} {specs : Specs} {s t : State} {route identity : String} {incident : Fields} {members : List String}

/-! ## Reductions -/

theorem Sleeve.sign_sq (sleeve : Sleeve) : sleeve.sign * sleeve.sign = 1 := by
  rw [Sleeve.sign]
  split
  · norm_num
  · norm_num

/-- Nothing is left of the sleeve, or something that is not set to nothing. -/
def Sleeve.NoRest (sleeve : Sleeve) (amount : ℚ) : Prop :=
  sleeve.quantity - sleeve.sign * amount = 0 ∨ 1 / 10 ^ 9 ≤ |sleeve.quantity - sleeve.sign * amount|

theorem Sleeve.reduce_quantity {sleeve : Sleeve} {amount : ℚ} (h : sleeve.NoRest amount) :
    (sleeve.reduce amount).quantity = sleeve.quantity - sleeve.sign * amount := by
  rw [Sleeve.reduce]
  split
  · next hsmall =>
    rcases h with hzero | hlarge
    · exact hzero.symm
    · exact absurd hlarge (not_le.mpr hsmall)
  · rfl

theorem sum_shares {sleeve : String → Sleeve} (h : holdings sleeve members ≠ 0) (increment : ℚ) :
    (members.map (shareOf sleeve members increment)).sum = increment := by
  have hshare : shareOf sleeve members increment = fun key => (increment / holdings sleeve members) * |(sleeve key).quantity| := by
    funext key
    rw [shareOf]
    ring
  rw [hshare, List.sum_map_mul_left]
  show increment / holdings sleeve members * holdings sleeve members = increment
  exact div_mul_cancel₀ increment h

/-- **The members are reduced by the increment**, where no rest of them is set to nothing. -/
theorem reductionOf_reduceAll {sleeve : String → Sleeve} {increment : ℚ} (h : holdings sleeve members ≠ 0)
    (hrest : ∀ key ∈ members, (sleeve key).NoRest (shareOf sleeve members increment key)) :
    reductionOf sleeve (reduceAll sleeve members increment) members = increment := by
  have heach : ∀ key ∈ members, (sleeve key).sign * ((sleeve key).quantity - (reduceAll sleeve members increment key).quantity) =
      shareOf sleeve members increment key := by
    intro key hkey
    rw [reduceAll, if_pos hkey, Sleeve.reduce_quantity (hrest key hkey)]
    have hsign := (sleeve key).sign_sq
    linear_combination shareOf sleeve members increment key * hsign
  rw [reductionOf, List.map_congr_left heach, sum_shares h]

theorem reductionOf_self (sleeve : String → Sleeve) (members : List String) : reductionOf sleeve sleeve members = 0 := by
  refine List.sum_eq_zero fun x hx => ?_
  obtain ⟨key, -, rfl⟩ := List.mem_map.mp hx
  rw [sub_self, mul_zero]

/-! ## What a sighting leaves -/

theorem finite_eq_ok {value : Json} {name : String} {q : ℚ} (h : finite env value name = .ok q) : float env value = .ok q ∧ 0 ≤ q := by
  obtain ⟨_, -, h⟩ := bind_eq_ok.mp h
  obtain ⟨result, hfloat, h⟩ := bind_eq_ok.mp h
  obtain ⟨_, hnonneg, h⟩ := bind_eq_ok.mp h
  obtain rfl := Except.ok.inj h
  exact ⟨hfloat, require_eq_ok.mp hnonneg⟩

/-- What a verified execution counts for, once it is kept. -/
theorem countedIn_of_finite {q : ℚ} (h : cumulativeOf env incident = .ok q) : countedIn env (some incident) = .ok q := by
  have hfloat := (finite_eq_ok h).1
  rw [cumulativeOf, Fields.at] at h
  rw [Fields.at] at hfloat
  rw [countedIn]
  cases hlookup : incident.lookup "quantity" with
  | none =>
    rw [hlookup] at h
    cases h
  | some value =>
    rw [hlookup] at hfloat
    exact hfloat

theorem State.keep_of_some (h : (s.executions.lookup identity).isSome = true) (prior : Option Fields) :
    s.keep identity incident prior = s := by
  rw [State.keep, if_pos h, ite_self]

theorem State.keep_of_none (h : s.executions.lookup identity = none) :
    s.keep identity incident none = { s with executions := s.executions.set identity incident } := by
  rw [State.keep, Option.all_none, if_pos rfl, h]
  rfl

/-! ## Steps -/

variable (env) in
/-- The log is right, and what counts as applied is what the sleeves were reduced by. -/
structure Sound (s : State) : Prop where
  log : Each Allowed s.log
  counted : ∀ identity, counted env s identity = .ok (reduced s.log identity)
  reached : ∀ identity, reduced s.log identity = 0 ∨
    ∃ reduction held, .verified identity (reduced s.log identity) reduction held ∈ s.log

variable (env specs s) in
/-- What is given: the quantity of an execution does not fall. -/
def Grows (incident : Fields) : Prop :=
  isExecution incident = .ok true → ∀ cumulative, cumulativeOf env incident = .ok cumulative →
    ∀ earlier reduction held, .verified (identityOf env incident) earlier reduction held ∈ s.log → earlier ≤ cumulative

variable (env specs s) in
/-- An incident that is new is verified and the sleeves can bear it, or it is of no quantity. -/
def NewSound (route : String) (incident : Fields) : Prop :=
  s.executions.lookup (identityOf env incident) = none →
    (isExecution incident = .ok true → ∀ cumulative members, cumulativeOf env incident = .ok cumulative →
      membersOf specs route incident = .ok members → cumulative ≤ holdings s.sleeve members) ∧
    (isExecution incident = .ok false → countedIn env (some incident) = .ok 0)

variable (env specs s) in
/-- No reduction leaves a rest that is set to nothing. -/
def NoRests (route : String) (incident : Fields) : Prop :=
  isExecution incident = .ok true → ∀ cumulative applied members, cumulativeOf env incident = .ok cumulative →
    counted env s (identityOf env incident) = .ok applied → membersOf specs route incident = .ok members →
      0 < cumulative - applied → ¬ Refused (holdings s.sleeve members) (cumulative - applied) →
      ∀ key ∈ members, (s.sleeve key).NoRest (shareOf s.sleeve members (cumulative - applied) key)

/-- Another verified execution is seen, and nothing is kept of it. -/
theorem Sound.seen (h : Sound env s) {cumulative held : ℚ} (hallowed : cumulative - reduced s.log identity ≤ held →
    reduced s.log identity = cumulative) :
    Sound env { s with log := .verified identity cumulative 0 held :: s.log } := by
  have hsame : ∀ other, reduced (.verified identity cumulative 0 held :: s.log) other = reduced s.log other := fun other => by
    rw [reduced, ite_self, zero_add]
  refine ⟨⟨fun hheld => ?_, h.log⟩, fun other => ?_, fun other => ?_⟩
  · rw [add_zero]
    exact hallowed hheld
  · show ShortSession.counted env s other = .ok (reduced (.verified identity cumulative 0 held :: s.log) other)
    rw [hsame, h.counted]
  · show reduced (.verified identity cumulative 0 held :: s.log) other = 0 ∨ _
    simp only [hsame]
    rcases h.reached other with hzero | ⟨reduction, held', hmem⟩
    · exact .inl hzero
    · exact .inr ⟨reduction, held', List.mem_cons_of_mem _ hmem⟩

theorem Sound.ascribed (h : Sound env s) {cumulative held : ℚ} (hkept : countedIn env (some incident) = .ok cumulative)
    (sleeve : String → Sleeve) : Sound env ⟨sleeve, s.executions.set identity incident,
      .verified identity cumulative (cumulative - reduced s.log identity) held :: s.log⟩ := by
  have hself : reduced (.verified identity cumulative (cumulative - reduced s.log identity) held :: s.log) identity = cumulative := by
    rw [reduced, if_pos rfl, sub_add_cancel]
  have hother : ∀ other, other ≠ identity →
      reduced (.verified identity cumulative (cumulative - reduced s.log identity) held :: s.log) other = reduced s.log other :=
    fun other hne => by rw [reduced, if_neg fun heq => hne heq.symm, zero_add]
  refine ⟨⟨fun _ => add_sub_cancel _ _, h.log⟩, fun other => ?_, fun other => ?_⟩
  · rw [ShortSession.counted]
    dsimp only
    rw [Dict.lookup_set]
    by_cases heq : other = identity
    · subst heq
      rw [if_pos rfl, hself, hkept]
    · rw [if_neg heq, hother other heq]
      exact h.counted other
  · by_cases heq : other = identity
    · subst heq
      dsimp only
      rw [hself]
      exact .inr ⟨_, held, List.mem_cons_self⟩
    · dsimp only
      rw [hother other heq]
      rcases h.reached other with hzero | ⟨reduction, held', hmem⟩
      · exact .inl hzero
      · exact .inr ⟨reduction, held', List.mem_cons_of_mem _ hmem⟩

/-- An incident that counts for what was applied may be kept. -/
theorem Sound.keep (h : Sound env s) (hnone : s.executions.lookup identity = none)
    (hkept : countedIn env (some incident) = .ok (reduced s.log identity)) :
    Sound env { s with executions := s.executions.set identity incident } := by
  refine ⟨h.log, fun other => ?_, h.reached⟩
  rw [ShortSession.counted]
  dsimp only
  rw [Dict.lookup_set]
  by_cases heq : other = identity
  · subst heq
    rw [if_pos rfl, hkept]
  · rw [if_neg heq]
    exact h.counted other

/-- What was applied is no more than what is seen. -/
theorem Sound.reduced_le (h : Sound env s) (hexact : isExecution incident = .ok true) (hgrows : Grows env s incident) {cumulative : ℚ}
    (hfinite : cumulativeOf env incident = .ok cumulative) :
    reduced s.log (identityOf env incident) ≤ cumulative := by
  rcases h.reached (identityOf env incident) with hzero | ⟨reduction, held, hmem⟩
  · rw [hzero]
    exact (finite_eq_ok hfinite).2
  · exact hgrows hexact cumulative hfinite _ reduction held hmem

/-- An incident that is not kept has reduced nothing. -/
theorem Sound.reduced_of_none (h : Sound env s) (hnone : s.executions.lookup identity = none) : reduced s.log identity = 0 := by
  have hcounted := h.counted identity
  rw [ShortSession.counted, hnone] at hcounted
  exact (Except.ok.inj hcounted).symm

theorem not_refused_of_le {held increment : ℚ} (h : 0 ≤ increment) (hle : increment ≤ held) : ¬ Refused held increment := by
  rintro (hneg | hmore)
  · exact absurd h (not_le.mpr hneg)
  · have hpos : (0 : ℚ) < max (1 / 10 ^ 9) (held / 10 ^ 8) := lt_max_of_lt_left (by norm_num)
    exact absurd hmore (not_lt.mpr (hle.trans (le_add_of_nonneg_right hpos.le)))

/-- **A verified execution** is attributed and kept, or changes nothing that counts. -/
theorem Sound.applied (h : Sound env s) (hexact : isExecution incident = .ok true) (hgrows : Grows env s incident)
    (hnew : NewSound env specs s route incident) (hrests : NoRests env specs s route incident) {cumulative : ℚ}
    (hfinite : cumulativeOf env incident = .ok cumulative) (hmembers : membersOf specs route incident = .ok members)
    (hid : identityOf env incident = identity) (ht : s.apply identity incident members (cumulative - reduced s.log identity) = t) :
    Sound env ((s.verify t identity cumulative members).keep identity incident (s.executions.lookup identity)) := by
  have hle := h.reduced_le hexact hgrows hfinite
  have hkept := countedIn_of_finite hfinite
  rw [hid] at hle
  -- where nothing is applied, an incident that is new has no quantity
  have hstill : t = s → (cumulative - reduced s.log identity ≤ holdings s.sleeve members → reduced s.log identity = cumulative) →
      Sound env ((s.verify t identity cumulative members).keep identity incident (s.executions.lookup identity)) := by
    rintro rfl hallowed
    have hseen := h.seen hallowed
    rw [State.verify, reductionOf_self]
    cases hprior : t.executions.lookup identity with
    | some prior =>
      have hthere : (t.executions.lookup identity).isSome = true := by
        rw [hprior]
        rfl
      rw [State.keep, if_pos hthere, ite_self]
      exact hseen
    | none =>
      rw [State.keep, Option.all_none, if_pos rfl, if_neg (by rw [hprior]; exact Bool.false_ne_true)]
      refine hseen.keep hprior ?_
      have hzero := h.reduced_of_none hprior
      have hbound := (hnew (by rw [hid]; exact hprior)).1 hexact cumulative members hfinite hmembers
      rw [hkept, reduced, ite_self, zero_add, hallowed (by rw [hzero, sub_zero]; exact hbound)]
  rw [State.apply] at ht
  split at ht
  · next hrefused =>
    refine hstill ht.symm fun hheld => ?_
    exact absurd hrefused (not_refused_of_le (sub_nonneg.mpr hle) hheld)
  · next hbearable =>
    split at ht
    · next hpos =>
      have hcounted : ShortSession.counted env s (identityOf env incident) = .ok (reduced s.log identity) := by
        rw [hid]
        exact h.counted identity
      have hrest := hrests hexact cumulative _ members hfinite hcounted hmembers hpos.1 hbearable
      have hreduction := reductionOf_reduceAll (ne_of_gt hpos.2) hrest
      subst ht
      rw [State.verify, State.ascribe, hreduction, State.keep_of_some (by rw [Dict.lookup_set, if_pos rfl]; rfl)]
      exact h.ascribed hkept _
    · next hnot =>
      refine hstill ht.symm fun hheld => ?_
      -- an increment of zero, or sleeves that hold nothing
      rcases hle.lt_or_eq with hlt | heq
      · have hpos : 0 < cumulative - reduced s.log identity := sub_pos.mpr hlt
        exact absurd ⟨hpos, hpos.trans_le hheld⟩ hnot
      · exact heq

theorem ascribe_sound (h : Sound env s) (hexact : isExecution incident = .ok true) (hgrows : Grows env s incident)
    (hnew : NewSound env specs s route incident) (hrests : NoRests env specs s route incident) (written : Result Unit) :
    (ascribe env specs route (identityOf env incident) incident written).wp
      (fun _ u => Sound env (u.keep (identityOf env incident) incident (s.executions.lookup (identityOf env incident))))
      (fun u => Sound env u) s := by
  rw [ascribe]
  refine Proc.wp_bind.mpr (Proc.wp_of (fun cumulative hfinite => ?_) h)
  refine Proc.wp_bind.mpr (Proc.wp_read.mpr ?_)
  refine Proc.wp_bind.mpr (Proc.wp_of (fun applied happlied => ?_) h)
  rw [id, h.counted] at happlied
  obtain rfl := Except.ok.inj happlied
  refine Proc.wp_bind.mpr (Proc.wp_of (fun members hmembers => ?_) h)
  refine Proc.wp_bind.mpr (Proc.wp_of (fun _ _ => ?_) h)
  exact h.applied hexact hgrows hnew hrests hfinite hmembers rfl rfl

theorem sight_sound (h : Sound env s) (hother : isExecution incident = .ok false) (hnew : NewSound env specs s route incident) :
    (sight env (identityOf env incident) incident (s.executions.lookup (identityOf env incident))).wp
      (fun _ => Sound env) (Sound env) s := by
  refine Proc.wp_modify.mpr ?_
  have hkeep : ∀ t, Sound env t → t.log = s.log → ∀ identity before, counted env t identity = before →
      Sound env { t with log := .sighted identity before before :: t.log } := by
    intro t ht _ identity before _
    exact ⟨⟨rfl, ht.log⟩, ht.counted, fun other => by
      rcases ht.reached other with hzero | ⟨reduction, held, hmem⟩
      · exact .inl hzero
      · exact .inr ⟨reduction, held, List.mem_cons_of_mem _ hmem⟩⟩
  cases hprior : s.executions.lookup (identityOf env incident) with
  | some prior =>
    rw [State.keep_of_some (by rw [hprior]; rfl)]
    exact hkeep s h rfl _ _ rfl
  | none =>
    have hzero := h.reduced_of_none hprior
    have hsound := h.keep hprior (((hnew hprior).2 hother).trans (congrArg _ hzero.symm))
    rw [State.keep_of_none hprior]
    have hbefore : counted env s (identityOf env incident) = counted env
        { s with executions := s.executions.set (identityOf env incident) incident } (identityOf env incident) := by
      rw [h.counted, hsound.counted]
    dsimp only
    rw [hbefore]
    exact hkeep _ hsound rfl _ _ rfl

/-- **One turn of the loop** keeps the books. -/
theorem observe_sound (h : Sound env s) (hgrows : Grows env s incident) (hnew : NewSound env specs s route incident)
    (hrests : NoRests env specs s route incident) (written : Result Unit) :
    (observe env specs route incident written).wp (fun _ => Sound env) (Sound env) s := by
  rw [observe]
  refine Proc.wp_bind.mpr (Proc.wp_of (fun known _ => ?_) h)
  refine Proc.wp_ite (fun _ => ?_) fun _ => h
  rw [take]
  refine Proc.wp_bind.mpr (Proc.wp_read.mpr ?_)
  refine Proc.wp_bind.mpr (Proc.wp_of (fun exact' hexact => ?_) h)
  cases exact' with
  | true =>
    rw [if_pos rfl]
    exact Proc.wp_bind.mpr (ascribe_sound h hexact hgrows hnew hrests written)
  | false =>
    rw [if_neg Bool.false_ne_true]
    exact sight_sound h hexact hnew

/-! ## Runs -/

/-- What is given of a step. -/
def Given (env : Env) (s : State) : Label → Prop
  | .observe _ incident _ => Grows env s incident
  | .trade _ => True

/-- What is asked of a step: an incident that is new can be borne or is of no quantity, and no rest is set to nothing. -/
def Meets (env : Env) (specs : Specs) (s : State) (label : Label) : Prop :=
  Given env s label ∧ ∀ route incident written, label = .observe route incident written →
    NewSound env specs s route incident ∧ NoRests env specs s route incident

theorem Sound.step (h : Sound env s) {label : Label} (hmeets : Meets env specs s label) (hstep : step env specs s label = some t) :
    Sound env t := by
  cases label with
  | observe route incident written =>
    obtain rfl := Option.some.inj hstep
    obtain ⟨hnew, hrests⟩ := hmeets.2 route incident written rfl
    exact Proc.of_wp (observe_sound h hmeets.1 hnew hrests written)
  | trade sleeve =>
    obtain rfl := Option.some.inj hstep
    exact ⟨h.log, h.counted, h.reached⟩

theorem sound_initial (sleeve : String → Sleeve) : Sound env (.initial sleeve) :=
  ⟨trivial, fun _ => rfl, fun _ => .inl rfl⟩

/-- **Executions are attributed once**, in every run whose new incidents can be borne or are of no quantity. -/
theorem attributed_of_run {sleeve : String → Sleeve} {labels : List Label}
    (h : Run (step env specs) (Meets env specs) (State.initial sleeve) labels s) : Each Allowed s.log :=
  (h.invariant (fun hmeets hstep hsound => hsound.step hmeets hstep) (sound_initial sleeve)).log

/-! ## A sighting that hides an execution -/

def Env.sample : Env where
  hash := sampleText
  number text := if text = "5" then some 5 else if text = "2" then some 2 else none

def Specs.sample : Specs := [("alpha", "BINANCE_USDM_FUTURES", "BTCUSDT")]

/-- One sleeve, with ten contracts. -/
def sampleSleeve : String → Sleeve := fun _ => ⟨10, 100⟩

/-- A protective stop that has executed this much. -/
def sampleIncident (quantity : String) (verified : Bool) : Fields :=
  [("type", .str "PROTECTIVE_STOP"), ("symbol", .str "BTCUSDT"), ("positionSide", .str "LONG"), ("brokerOrderId", .str "7"),
    ("quantity", .str quantity), ("verified", .bool verified)]

def sampleObserve (quantity : String) (verified : Bool) : Label :=
  .observe "BINANCE_USDM_FUTURES" (sampleIncident quantity verified) (.ok ())

/-- No earlier execution of the incident is of more. -/
def Event.within (identity : String) (cumulative : ℚ) : Event → Bool
  | .verified other earlier _ _ => other != identity || decide (earlier ≤ cumulative)
  | .sighted _ _ _ => true

def grows (env : Env) (s : State) : Label → Bool
  | .observe _ incident _ => s.log.all fun e => ((cumulativeOf env incident).toOption.all fun cumulative =>
      e.within (identityOf env incident) cumulative)
  | .trade _ => true

theorem given_of_grows {label : Label} (h : grows env s label = true) : Given env s label := by
  cases label with
  | trade sleeve => trivial
  | observe route incident written =>
    intro _ cumulative hcumulative earlier reduction held hmem
    have hwithin := List.all_eq_true.mp h _ hmem
    rw [hcumulative] at hwithin
    rcases Bool.or_eq_true_iff.mp hwithin with hne | hle
    · exact absurd rfl (bne_iff_ne.mp hne)
    · exact of_decide_eq_true hle

/-- The sleeves can bear the whole of it, and keep a rest. -/
def bears (env : Env) (specs : Specs) (s : State) : Label → Bool
  | .observe route incident _ =>
    match isExecution incident, cumulativeOf env incident, membersOf specs route incident, counted env s (identityOf env incident) with
    | .ok true, .ok cumulative, .ok members, .ok applied => decide (cumulative ≤ holdings s.sleeve members) &&
      members.all fun key => decide (1 / 10 ^ 9 ≤
        |(s.sleeve key).quantity - (s.sleeve key).sign * shareOf s.sleeve members (cumulative - applied) key|)
    | _, _, _, _ => false
  | .trade _ => true

theorem meets_of_bears {label : Label} (hgrows : grows env s label = true) (h : bears env specs s label = true) :
    Meets env specs s label := by
  refine ⟨given_of_grows hgrows, ?_⟩
  rintro route incident written rfl
  rw [bears] at h
  split at h
  · next cumulative members applied hexact hcumulative hmembers happlied =>
    obtain ⟨hheld, hrests⟩ := Bool.and_eq_true_iff.mp h
    refine ⟨fun _ => ⟨fun _ cumulative' members' hcumulative' hmembers' => ?_, fun hother => ?_⟩,
      fun _ cumulative' applied' members' hcumulative' happlied' hmembers' _ _ key hkey => ?_⟩
    · obtain rfl := Except.ok.inj (hcumulative.symm.trans hcumulative')
      obtain rfl := Except.ok.inj (hmembers.symm.trans hmembers')
      exact of_decide_eq_true hheld
    · rw [hexact] at hother
      cases hother
    · obtain rfl := Except.ok.inj (hcumulative.symm.trans hcumulative')
      obtain rfl := Except.ok.inj (hmembers.symm.trans hmembers')
      obtain rfl := Except.ok.inj (happlied.symm.trans happlied')
      exact .inr (of_decide_eq_true (List.all_eq_true.mp hrests key hkey))
  · cases h

/-- The executions of a log, as the sleeves have borne them. -/
def reductions (log : List Event) : List (ℚ × ℚ) :=
  log.filterMap fun
    | .verified _ cumulative reduction _ => some (cumulative, reduction)
    | .sighted _ _ _ => none

/-- A stop that executes two contracts, and then three more. -/
theorem attributed_of_run_sample : ∃ s, Run (step Env.sample Specs.sample) (Meets Env.sample Specs.sample) (State.initial sampleSleeve)
    [sampleObserve "2" true, sampleObserve "5" true] s ∧ reductions s.log = [(5, 3), (2, 2)] ∧ Each Allowed s.log := by
  obtain ⟨s, hs, hlog⟩ : ∃ s, runAll (fun s label => if grows Env.sample s label && bears Env.sample Specs.sample s label then
      step Env.sample Specs.sample s label else none) (State.initial sampleSleeve) [sampleObserve "2" true, sampleObserve "5" true] = some s ∧
        reductions s.log = [(5, 3), (2, 2)] := by
    decide +kernel
  have hrun : Run (step Env.sample Specs.sample) (Meets Env.sample Specs.sample) (State.initial sampleSleeve) _ s :=
    (run_of_guarded hs).weaken fun _ _ h => meets_of_bears (Bool.and_eq_true_iff.mp h).1 (Bool.and_eq_true_iff.mp h).2
  exact ⟨s, hrun, hlog, attributed_of_run hrun⟩

/-- The last execution could be borne, and was not attributed in full. -/
def hidden : List Event → Bool
  | .verified identity cumulative reduction held :: past =>
    decide (cumulative - reduced past identity ≤ held) && decide (reduced past identity + reduction ≠ cumulative)
  | _ => false

theorem not_each_of_hidden {log : List Event} (h : hidden log = true) : ¬ Each Allowed log := by
  intro heach
  cases log with
  | nil => cases h
  | cons e past =>
    cases e with
    | sighted identity before after => cases h
    | verified identity cumulative reduction held =>
      obtain ⟨hheld, hne⟩ := Bool.and_eq_true_iff.mp h
      exact of_decide_eq_true hne (heach.1 (of_decide_eq_true hheld))

/-- **A sighting hides an execution.**  Five contracts are seen, first unverified and then verified; no sleeve is reduced. -/
theorem sample_sighting_hides_execution : ∃ s, Run (step Env.sample Specs.sample) (Given Env.sample) (State.initial sampleSleeve)
    [sampleObserve "5" false, sampleObserve "5" true] s ∧ reductions s.log = [(5, 0)] ∧ ¬ Each Allowed s.log := by
  obtain ⟨s, hs, hlog, hhidden⟩ : ∃ s, runAll (fun s label => if grows Env.sample s label then step Env.sample Specs.sample s label else none)
      (State.initial sampleSleeve) [sampleObserve "5" false, sampleObserve "5" true] = some s ∧ reductions s.log = [(5, 0)] ∧
        hidden s.log = true := by
    decide +kernel
  have hrun : Run (step Env.sample Specs.sample) (Given Env.sample) (State.initial sampleSleeve) _ s :=
    (run_of_guarded hs).weaken fun _ _ h => given_of_grows h
  exact ⟨s, hrun, hlog, not_each_of_hidden hhidden⟩

end LiveTrader.ShortSession
