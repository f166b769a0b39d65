/-
# `FuturesProtection.StopMargin` — a stop lies before liquidation

`stop_price` rounds the loss of the policy towards the entry, and refuses a trigger that lies at or behind the maintenance liquidation of
any bracket the notional passes on its way there.  The brackets come as the exchange lists them, in any order.  Decimals are exact.

On its way from the entry to the trigger the notional stays within the listed brackets, and at every price of that way the initial margin,
less the loss and the costs, is more than the maintenance margin of the bracket the notional has reached.
-/
import LiveTrader.FuturesProtection.Stops
import LiveTrader.Lib.DecimalFormat
import Mathlib.Data.List.Sort

namespace LiveTrader.FuturesProtection

open Lib Lib.Py Lib.Decimal

/-! ## Reading -/

/-- `if not condition: raise FuturesProtectionError(code)`. -/
def demand (c : Prop) [Decidable c] (code : String) : Answer Unit := if c then .ok () else .error (.protection code)

theorem demand_eq_ok {c : Prop} [Decidable c] {code : String} : demand c code = .ok () ↔ c := by
  by_cases hc : c
  · simp [demand, hc]
  · simp [demand, hc]

/-- The entries of a row; anything else has no `get`. -/
def rowFields : Json → Answer Fields
  | .obj fields => .ok fields
  | _ => .error (.other "AttributeError")

/-- `MAX_SAFE_LEVERAGE_INTEGER`. -/
def maxSafeLeverageInteger : ℚ := 9007199254740991

/-- What `policy` returns. -/
structure Policy where
  leverage : ℚ
  /-- In percent. -/
  stop : ℚ

section stopPrice

variable (env : Env)

/-- `policy`. -/
def policy (value : Json) : Answer Policy :=
  match value with
  | .obj fields => do
    let leverage ← env.numeric true (Fields.at fields "leverage")
    let stop ← env.numeric true (Fields.at fields "stopLossPercent")
    demand (leverage = ⌊leverage⌋ ∧ 1 ≤ leverage ∧ leverage ≤ maxSafeLeverageInteger) "FUTURES_LEVERAGE_INVALID"
    demand ((Fields.at fields "marginMode").eq (.str "ISOLATED") = true ∧ stop < 100 / leverage) "FUTURES_PROTECTION_POLICY_INVALID"
    pure { leverage, stop }
  | _ => .error (.protection "FUTURES_PROTECTION_POLICY_REQUIRED")

/-! ## The trigger -/

/-- `to_integral_value` with `ROUND_UP`: away from zero. -/
def awayZ (x : ℚ) : ℤ := if 0 ≤ x then ⌈x⌉ else ⌊x⌋

/-- `order.get("positionDirection") == "long"`. -/
def isLong (order : Fields) : Bool := (order.at "positionDirection").eq (.str "long")

/-- The price at which the loss of the policy is reached. -/
def targetOf (long : Bool) (price percent : ℚ) : ℚ := price * if long then 1 - percent / 100 else 1 + percent / 100

/-- The target, rounded towards the entry. -/
def triggerOf (long : Bool) (target tick : ℚ) : ℚ := (if long then awayZ (target / tick) else truncZ (target / tick)) * tick

/-- The stop is not reached yet. -/
def Ahead (long : Bool) (trigger price mark : ℚ) : Prop :=
  0 < trigger ∧ if long then trigger < min price mark else max price mark < trigger

instance (long : Bool) (trigger price mark : ℚ) : Decidable (Ahead long trigger price mark) :=
  inferInstanceAs (Decidable (_ ∧ ite ..))

/-- `order.get("projectedGrossExposureKrw", order.get("estimatedNotionalKrw", 0))`. -/
def exposureValue (order : Fields) : Json :=
  (order.lookup "projectedGrossExposureKrw").getD ((order.lookup "estimatedNotionalKrw").getD (.int 0))

/-- The larger of the order's own notional and of the projected exposure. -/
def notionalOf (order market : Fields) (price : ℚ) : Answer ℚ := do
  let quantity ← env.numeric true (order.at "quantity")
  let exposure ← env.numeric false (exposureValue order)
  let krwPerQuote ← env.numeric true (market.at "krwPerQuote")
  pure (max (quantity * price) (exposure / krwPerQuote))

/-- `maxNotionalValue`, if there is one. -/
def checkLimit (market : Fields) (notional : ℚ) : Answer Unit :=
  match market.at "maxNotionalValue" with
  | .null => pure ()
  | limit => do
    let limit ← env.numeric true limit
    demand (notional ≤ limit) "FUTURES_SYMBOL_NOTIONAL_LIMIT_EXCEEDED"

/-! ## Brackets -/

/-- `floor <= notional < cap`, as a row has them. -/
def holdsRow (notional : ℚ) (fields : Fields) : Answer Bool := do
  let floor ← env.numeric false (fields.at "notionalFloor")
  if floor ≤ notional then do
    let cap ← env.numeric true (fields.at "notionalCap")
    pure (decide (notional < cap))
  else pure false

/-- `candidates`. -/
def candidates (notional : ℚ) : List Json → Answer (List Fields)
  | [] => pure []
  | row :: rows => do
    let fields ← rowFields row
    let holds ← holdsRow env notional fields
    let others ← candidates notional rows
    pure (if holds then fields :: others else others)

/-- The bracket of the notional, if it is the only one and allows the leverage. -/
def bracketOf (brackets : List Json) (notional leverage : ℚ) : Answer Fields := do
  let found ← candidates env notional brackets
  match found with
  | [bracket] => do
    let allowed ← env.numeric true (bracket.at "initialLeverage")
    demand (leverage ≤ allowed) "FUTURES_LEVERAGE_BRACKET_EXCEEDED"
    pure bracket
  | _ => .error (.protection "FUTURES_NOTIONAL_BRACKET_UNKNOWN")

/-- A bracket, as it is read. -/
structure Tier where
  floor : ℚ
  cap : ℚ
  rate : ℚ

/-- The notional is in the bracket. -/
def Tier.Holds (tier : Tier) (notional : ℚ) : Prop := tier.floor ≤ notional ∧ notional < tier.cap

instance (tier : Tier) (notional : ℚ) : Decidable (tier.Holds notional) := inferInstanceAs (Decidable (_ ∧ _))

/-- A row that is well formed. -/
def tierOf (row : Json) : Answer Tier := do
  let fields ← rowFields row
  let floor ← env.numeric false (fields.at "notionalFloor")
  let cap ← env.numeric true (fields.at "notionalCap")
  let rate ← env.numeric false (fields.at "maintMarginRatio")
  demand (0 ≤ floor ∧ floor < cap ∧ 0 ≤ rate ∧ rate < 1) "FUTURES_MAINTENANCE_BRACKETS_UNKNOWN"
  pure { floor, cap, rate }

/-- `path_tiers`: the brackets between two notionals. -/
def pathTiers (low high : ℚ) : List Json → Answer (List Tier)
  | [] => pure []
  | row :: rows => do
    let tier ← tierOf env row
    let others ← pathTiers low high rows
    pure (if low < tier.cap ∧ tier.floor ≤ high then tier :: others else others)

/-- How far the brackets reach without a gap. -/
def coveredUntil (reached : ℚ) : List Tier → Answer ℚ
  | [] => pure reached
  | tier :: tiers => do
    demand (tier.floor = reached) "FUTURES_STOP_NOTIONAL_PATH_UNKNOWN"
    coveredUntil tier.cap tiers

/-- The brackets of a path, which they cover from its lowest to its highest notional. -/
def pathOf (brackets : List Json) (low high : ℚ) : Answer (Tier × List Tier) := do
  let tiers ← pathTiers env low high brackets
  match tiers.insertionSort fun a b => a.floor ≤ b.floor with
  | [] => .error (.protection "FUTURES_STOP_NOTIONAL_PATH_UNKNOWN")
  | first :: rest => do
    demand (first.Holds low) "FUTURES_STOP_NOTIONAL_PATH_UNKNOWN"
    let reached ← coveredUntil first.cap rest
    demand (high < reached) "FUTURES_STOP_NOTIONAL_PATH_UNKNOWN"
    pure (first, rest)

/-- `maintenance`. -/
def maintenanceOf (first : Tier) (rest : List Tier) : ℚ := rest.foldl (fun rate tier => max rate tier.rate) first.rate

/-! ## `stop_price` -/

/-- The part of the price that maintenance, costs and margin leave to the stop. -/
def roomOf (leverage maintenance cost : ℚ) : ℚ := (1 / leverage - maintenance - cost) / (1 + maintenance + cost)

/-- Two commissions and an allowance for the funding. -/
def costOf (fee funding : ℚ) : ℚ := 2 * fee + |funding|

/-- The list of brackets. -/
def bracketRows (market : Fields) : Answer (List Json) :=
  match market.at "leverageBrackets" with
  | .arr rows => .ok rows
  | _ => .error (.protection "FUTURES_MAINTENANCE_BRACKETS_UNKNOWN")

/-- What is left of the margin at the trigger is more than the maintenance. -/
def checkRoom (market : Fields) (leverage maintenance distance : ℚ) : Answer Unit := do
  let fee ← env.numeric false (market.at "feeRate")
  let funding ← env.numeric false (market.at "fundingRate")
  if 1 + maintenance + costOf fee funding = 0 then .error (.other "DivisionByZero")
  else do
    demand (0 ≤ maintenance ∧ 0 ≤ fee ∧ 0 < roomOf leverage maintenance (costOf fee funding) ∧
      distance < roomOf leverage maintenance (costOf fee funding)) "FUTURES_STOP_AT_OR_BEYOND_MAINTENANCE_BUFFER"

/-- `stop_price`; the trigger is returned as a text. -/
def stopPrice (order market : Fields) (frozenPolicy : Json) : Answer ℚ := do
  let frozen ← policy env frozenPolicy
  let price ← env.numeric true (order.at "referencePrice")
  let mark ← env.numeric true (market.at "markPrice")
  let tick ← env.numeric true (market.at "priceTick")
  let trigger := triggerOf (isLong order) (targetOf (isLong order) price frozen.stop) tick
  demand (Ahead (isLong order) trigger price mark) "FUTURES_STOP_ALREADY_TRIGGERED_OR_INVALID"
  let notional ← notionalOf env order market price
  checkLimit env market notional
  let brackets ← bracketRows market
  let _ ← bracketOf env brackets notional frozen.leverage
  let moved := notional * trigger / price
  let path ← pathOf env brackets (min notional moved) (max notional moved)
  checkRoom env market frozen.leverage (maintenanceOf path.1 path.2) (|trigger - price| / price)
  pure trigger

end stopPrice

/-! ## A stop lies before liquidation -/

section margin

variable {env : Env}

/-! ## What is read -/

/-- The numbers that `stop_price` reads. -/
structure StopInputs where
  long : Bool
  leverage : ℚ
  percent : ℚ
  price : ℚ
  mark : ℚ
  tick : ℚ
  notional : ℚ
  fee : ℚ
  funding : ℚ
  brackets : List Json

structure StopInputs.Reads (env : Env) (order market : Fields) (frozenPolicy : Json) (i : StopInputs) : Prop where
  long : i.long = isLong order
  policy : policy env frozenPolicy = .ok ⟨i.leverage, i.percent⟩
  price : env.numeric true (order.at "referencePrice") = .ok i.price
  mark : env.numeric true (market.at "markPrice") = .ok i.mark
  tick : env.numeric true (market.at "priceTick") = .ok i.tick
  notional : notionalOf env order market i.price = .ok i.notional
  brackets : market.at "leverageBrackets" = .arr i.brackets
  fee : env.numeric false (market.at "feeRate") = .ok i.fee
  funding : env.numeric false (market.at "fundingRate") = .ok i.funding

/-- The notional of the position at a price. -/
def StopInputs.notionalAt (i : StopInputs) (p : ℚ) : ℚ := i.notional * p / i.price

/-- What the position has lost at a price. -/
def StopInputs.lossAt (i : StopInputs) (p : ℚ) : ℚ := i.notional * |p - i.price| / i.price

/-- A row is a bracket that contains the notional. -/
def InBracket (env : Env) (row : Json) (notional : ℚ) : Prop := ∃ tier, tierOf env row = .ok tier ∧ tier.Holds notional

/-- The trigger is on the grid, on the side of the loss, and within a tick of it. -/
structure StopInputs.OnTarget (i : StopInputs) (trigger : ℚ) : Prop where
  grid : ∃ n : ℕ, 0 < n ∧ trigger = n * i.tick
  long : i.long = true → trigger < min i.price i.mark ∧ i.price * (1 - i.percent / 100) ≤ trigger ∧
    trigger < i.price * (1 - i.percent / 100) + i.tick
  short : i.long = false → max i.price i.mark < trigger ∧ trigger ≤ i.price * (1 + i.percent / 100) ∧
    i.price * (1 + i.percent / 100) - i.tick < trigger

/-- A trigger that maintenance liquidation does not precede. -/
structure StopInputs.Safe (env : Env) (i : StopInputs) (trigger : ℚ) : Prop where
  target : i.OnTarget trigger
  bracket : ∃ before row after, i.brackets = before ++ row :: after ∧ InBracket env row i.notional ∧
    (∀ other ∈ before ++ after, ¬InBracket env other i.notional) ∧
    ∃ fields allowed, row = .obj fields ∧ env.numeric true (Fields.at fields "initialLeverage") = .ok allowed ∧ i.leverage ≤ allowed
  covered : ∀ p, min i.price trigger ≤ p → p ≤ max i.price trigger → ∃ row ∈ i.brackets, InBracket env row (i.notionalAt p)
  margin : ∀ p, min i.price trigger ≤ p → p ≤ max i.price trigger → ∀ row ∈ i.brackets, ∀ tier, tierOf env row = .ok tier →
    tier.Holds (i.notionalAt p) →
    tier.rate * i.notionalAt p < i.notional / i.leverage - i.lossAt p - costOf i.fee i.funding * i.notionalAt p

/-! ## The trigger -/

theorem numeric_true_pos {value : Json} {q : ℚ} (h : env.numeric true value = .ok q) : 0 < q := by
  rw [Env.numeric.eq_def] at h
  split at h
  · cases h
  · cases h
  · split at h
    · split at h
      · cases h
      · rename_i hpos
        obtain rfl := Except.ok.inj h
        simpa using hpos
    · cases h

theorem policy_eq_ok {value : Json} {frozen : Policy} (h : policy env value = .ok frozen) :
    1 ≤ frozen.leverage ∧ 0 < frozen.stop ∧ frozen.stop < 100 / frozen.leverage := by
  rw [policy.eq_def] at h
  split at h
  · obtain ⟨leverage, -, h⟩ := Answer.bind_eq_ok.mp h
    obtain ⟨stop, hstop, h⟩ := Answer.bind_eq_ok.mp h
    obtain ⟨_, hleverage, h⟩ := Answer.bind_eq_ok.mp h
    obtain ⟨_, hbound, h⟩ := Answer.bind_eq_ok.mp h
    obtain rfl := Except.ok.inj h
    exact ⟨(demand_eq_ok.mp hleverage).2.1, numeric_true_pos hstop, (demand_eq_ok.mp hbound).2⟩
  · cases h

/-- A target is rounded towards the entry by less than a tick. -/
theorem triggerOf_bounds (long : Bool) {target tick : ℚ} (htick : 0 < tick) (htarget : 0 ≤ target) :
    (∃ n : ℤ, triggerOf long target tick = n * tick) ∧
      (long = true → target ≤ triggerOf long target tick ∧ triggerOf long target tick < target + tick) ∧
      (long = false → triggerOf long target tick ≤ target ∧ target - tick < triggerOf long target tick) := by
  have hquotient : 0 ≤ target / tick := div_nonneg htarget htick.le
  have htimes : target / tick * tick = target := div_mul_cancel₀ target htick.ne'
  refine ⟨?_, ?_, ?_⟩
  · cases long
    · exact ⟨_, rfl⟩
    · exact ⟨_, rfl⟩
  · rintro rfl
    have hvalue : triggerOf true target tick = ⌈target / tick⌉ * tick := by
      rw [triggerOf, if_pos rfl, awayZ, if_pos hquotient]
    have hlow := mul_le_mul_of_nonneg_right (Int.le_ceil (target / tick)) htick.le
    have hhigh := mul_lt_mul_of_pos_right (Int.ceil_lt_add_one (target / tick)) htick
    rw [hvalue]
    constructor
    · linarith
    · linarith
  · rintro rfl
    have hvalue : triggerOf false target tick = ⌊target / tick⌋ * tick := by
      rw [triggerOf, if_neg Bool.false_ne_true, truncZ, if_pos hquotient]
    have hlow := mul_lt_mul_of_pos_right (Int.lt_floor_add_one (target / tick)) htick
    have hhigh := mul_le_mul_of_nonneg_right (Int.floor_le (target / tick)) htick.le
    rw [hvalue]
    constructor
    · linarith
    · linarith

theorem targetOf_pos {long : Bool} {price percent leverage : ℚ} (hprice : 0 < price) (hpercent : 0 < percent) (hleverage : 1 ≤ leverage)
    (hbound : percent < 100 / leverage) : 0 < targetOf long price percent := by
  have hhundred : percent < 100 := hbound.trans_le (div_le_self (by norm_num) hleverage)
  refine mul_pos hprice ?_
  cases long
  · show 0 < 1 + percent / 100
    linarith
  · show 0 < 1 - percent / 100
    linarith

theorem onTarget_of {i : StopInputs} (hprice : 0 < i.price) (htick : 0 < i.tick) (hpercent : 0 < i.percent) (hleverage : 1 ≤ i.leverage)
    (hbound : i.percent < 100 / i.leverage) {trigger : ℚ} (htrigger : trigger = triggerOf i.long (targetOf i.long i.price i.percent) i.tick)
    (hahead : Ahead i.long trigger i.price i.mark) : i.OnTarget trigger := by
  obtain ⟨⟨n, hn⟩, hlong, hshort⟩ := triggerOf_bounds i.long htick (targetOf_pos hprice hpercent hleverage hbound).le
  rw [← htrigger] at hn hlong hshort
  refine ⟨?_, ?_, ?_⟩
  · have hpos : (0 : ℚ) < n * i.tick := hn ▸ hahead.1
    have hn' : 0 < n := by exact_mod_cast (pos_iff_pos_of_mul_pos hpos).mpr htick
    obtain ⟨m, rfl⟩ := Int.eq_ofNat_of_zero_le hn'.le
    exact ⟨m, by exact_mod_cast hn', by rw [hn]; norm_cast⟩
  · intro h
    have hside := hahead.2
    have hbounds := hlong h
    rw [if_pos h] at hside
    rw [targetOf, if_pos h] at hbounds
    exact ⟨hside, hbounds⟩
  · intro h
    have hside := hahead.2
    have hbounds := hshort h
    rw [if_neg (by simp [h])] at hside
    rw [targetOf, if_neg (by simp [h])] at hbounds
    exact ⟨hside, hbounds⟩

/-! ## The brackets of the path -/

/-- The rows of a path are well formed, and those it meets are its tiers. -/
theorem pathTiers_eq_ok {low high : ℚ} : ∀ {rows : List Json} {tiers : List Tier}, pathTiers env low high rows = .ok tiers →
    (∀ row ∈ rows, ∃ tier, tierOf env row = .ok tier ∧ (low < tier.cap → tier.floor ≤ high → tier ∈ tiers)) ∧
      ∀ tier ∈ tiers, ∃ row ∈ rows, tierOf env row = .ok tier
  | [], tiers, h => by
    obtain rfl := Except.ok.inj h
    exact ⟨fun _ hrow => (List.not_mem_nil hrow).elim, fun _ htier => (List.not_mem_nil htier).elim⟩
  | row :: rows, tiers, h => by
    obtain ⟨tier, htier, h⟩ := Answer.bind_eq_ok.mp h
    obtain ⟨others, hothers, h⟩ := Answer.bind_eq_ok.mp h
    obtain rfl := Except.ok.inj h
    obtain ⟨hrows, hsound⟩ := pathTiers_eq_ok hothers
    have hmem : ∀ t ∈ others, t ∈ if low < tier.cap ∧ tier.floor ≤ high then tier :: others else others := by
      intro t ht
      split
      · exact List.mem_cons_of_mem _ ht
      · exact ht
    constructor
    · intro row' hrow'
      rcases List.mem_cons.mp hrow' with rfl | hrow'
      · refine ⟨tier, htier, fun hlow hhigh => ?_⟩
        rw [if_pos ⟨hlow, hhigh⟩]
        exact List.mem_cons_self
      · obtain ⟨t, ht, hin⟩ := hrows row' hrow'
        exact ⟨t, ht, fun hlow hhigh => hmem t (hin hlow hhigh)⟩
    · intro t ht
      have hcases : t = tier ∨ t ∈ others := by
        split at ht
        · exact List.mem_cons.mp ht
        · exact .inr ht
      rcases hcases with rfl | hother
      · exact ⟨row, List.mem_cons_self, htier⟩
      · obtain ⟨row', hrow', ht'⟩ := hsound t hother
        exact ⟨row', List.mem_cons_of_mem _ hrow', ht'⟩

/-- Brackets without a gap contain everything up to where they reach. -/
theorem holds_of_coveredUntil {x : ℚ} : ∀ {tiers : List Tier} {reached last : ℚ}, coveredUntil reached tiers = .ok last →
    reached ≤ x → x < last → ∃ tier ∈ tiers, tier.Holds x
  | [], reached, last, h, hlow, hhigh => by
    obtain rfl := Except.ok.inj h
    exact absurd hhigh (not_lt.mpr hlow)
  | tier :: tiers, reached, last, h, hlow, hhigh => by
    obtain ⟨_, hfloor, h⟩ := Answer.bind_eq_ok.mp h
    have hfloor : tier.floor = reached := demand_eq_ok.mp hfloor
    rcases lt_or_ge x tier.cap with hin | hbehind
    · exact ⟨tier, List.mem_cons_self, by rwa [hfloor], hin⟩
    · obtain ⟨t, ht, hholds⟩ := holds_of_coveredUntil h hbehind hhigh
      exact ⟨t, List.mem_cons_of_mem _ ht, hholds⟩

theorem le_foldl_max (rates : List Tier) : ∀ start : ℚ, start ≤ rates.foldl (fun rate tier => max rate tier.rate) start ∧
    ∀ tier ∈ rates, tier.rate ≤ rates.foldl (fun rate tier => max rate tier.rate) start := by
  induction rates with
  | nil => exact fun start => ⟨le_refl _, fun _ h => (List.not_mem_nil h).elim⟩
  | cons first rest ih =>
    intro start
    obtain ⟨hstart, hrest⟩ := ih (max start first.rate)
    refine ⟨(le_max_left _ _).trans hstart, ?_⟩
    intro tier htier
    rcases List.mem_cons.mp htier with rfl | htier
    · exact (le_max_right _ _).trans hstart
    · exact hrest tier htier

theorem rate_le_maintenanceOf {first tier : Tier} {rest : List Tier} (h : tier ∈ first :: rest) :
    tier.rate ≤ maintenanceOf first rest := by
  rcases List.mem_cons.mp h with rfl | h
  · exact (le_foldl_max rest _).1
  · exact (le_foldl_max rest _).2 tier h

/-- A path: its rows are well formed, they contain all of it, and none of them asks for more than its maintenance. -/
theorem pathOf_eq_ok {brackets : List Json} {low high : ℚ} {path : Tier × List Tier} (h : pathOf env brackets low high = .ok path) :
    (∀ row ∈ brackets, ∃ tier, tierOf env row = .ok tier) ∧
      (∀ x, low ≤ x → x ≤ high → ∃ row ∈ brackets, InBracket env row x) ∧
      ∀ x, low ≤ x → x ≤ high → ∀ row ∈ brackets, ∀ tier, tierOf env row = .ok tier → tier.Holds x →
        tier.rate ≤ maintenanceOf path.1 path.2 := by
  obtain ⟨tiers, htiers, h⟩ := Answer.bind_eq_ok.mp h
  obtain ⟨hrows, hsound⟩ := pathTiers_eq_ok htiers
  have hperm := List.perm_insertionSort (fun a b : Tier => a.floor ≤ b.floor) tiers
  split at h
  · cases h
  · rename_i first rest hsorted
    rw [hsorted] at hperm
    obtain ⟨_, hfirst, h⟩ := Answer.bind_eq_ok.mp h
    obtain ⟨reached, hreached, h⟩ := Answer.bind_eq_ok.mp h
    obtain ⟨_, hhigh, h⟩ := Answer.bind_eq_ok.mp h
    obtain rfl := Except.ok.inj h
    have hfirst : first.Holds low := demand_eq_ok.mp hfirst
    have hhigh : high < reached := demand_eq_ok.mp hhigh
    refine ⟨fun row hrow => (hrows row hrow).imp fun tier htier => htier.1, ?_, ?_⟩
    · intro x hlow hle
      have hholds : ∃ tier ∈ first :: rest, tier.Holds x := by
        rcases lt_or_ge x first.cap with hin | hbehind
        · exact ⟨first, List.mem_cons_self, hfirst.1.trans hlow, hin⟩
        · obtain ⟨tier, htier, hholds⟩ := holds_of_coveredUntil hreached hbehind (hle.trans_lt hhigh)
          exact ⟨tier, List.mem_cons_of_mem _ htier, hholds⟩
      obtain ⟨tier, htier, hholds⟩ := hholds
      obtain ⟨row, hrow, hread⟩ := hsound tier (hperm.mem_iff.mp htier)
      exact ⟨row, hrow, tier, hread, hholds⟩
    · intro x hlow hle row hrow tier hread hholds
      obtain ⟨tier', hread', hin⟩ := hrows row hrow
      obtain rfl := Except.ok.inj (hread.symm.trans hread')
      exact rate_le_maintenanceOf (hperm.mem_iff.mpr (hin (hlow.trans_lt hholds.2) (hholds.1.trans hle)))

/-! ## The bracket of the notional -/

/-- The rows that contain the notional are the candidates. -/
theorem holdsRow_eq {row : Json} {fields : Fields} {tier : Tier} {notional : ℚ} (hfields : rowFields row = .ok fields)
    (htier : tierOf env row = .ok tier) : holdsRow env notional fields = .ok (decide (tier.Holds notional)) := by
  obtain ⟨fields', hfields', h⟩ := Answer.bind_eq_ok.mp htier
  obtain rfl := Except.ok.inj (hfields.symm.trans hfields')
  obtain ⟨floor, hfloor, h⟩ := Answer.bind_eq_ok.mp h
  obtain ⟨cap, hcap, h⟩ := Answer.bind_eq_ok.mp h
  obtain ⟨rate, -, h⟩ := Answer.bind_eq_ok.mp h
  obtain ⟨_, -, h⟩ := Answer.bind_eq_ok.mp h
  obtain rfl := Except.ok.inj h
  refine Answer.bind_eq_ok.mpr ⟨floor, hfloor, ?_⟩
  by_cases hle : floor ≤ notional
  · rw [if_pos hle]
    refine Answer.bind_eq_ok.mpr ⟨cap, hcap, ?_⟩
    simp [Tier.Holds, hle, pure, Except.pure]
  · rw [if_neg hle]
    simp [Tier.Holds, hle, pure, Except.pure]

theorem not_inBracket {row : Json} {tier : Tier} {notional : ℚ} (htier : tierOf env row = .ok tier) (h : ¬tier.Holds notional) :
    ¬InBracket env row notional := by
  rintro ⟨tier', htier', hholds⟩
  obtain rfl := Except.ok.inj (htier.symm.trans htier')
  exact h hholds

/-- The first candidate stands in the rows behind others that do not contain the notional. -/
theorem candidates_split {notional : ℚ} : ∀ {rows : List Json} {found : List Fields}, candidates env notional rows = .ok found →
    (∀ row ∈ rows, ∃ tier, tierOf env row = .ok tier) →
    match found with
    | [] => ∀ row ∈ rows, ¬InBracket env row notional
    | fields :: others => ∃ before row after, rows = before ++ row :: after ∧ row = .obj fields ∧ InBracket env row notional ∧
        (∀ other ∈ before, ¬InBracket env other notional) ∧ candidates env notional after = .ok others
  | [], found, h, _ => by
    obtain rfl := Except.ok.inj h
    exact fun _ hrow => (List.not_mem_nil hrow).elim
  | row :: rows, found, h, hread => by
    obtain ⟨fields, hfields, h⟩ := Answer.bind_eq_ok.mp h
    obtain ⟨holds, hholds, h⟩ := Answer.bind_eq_ok.mp h
    obtain ⟨others, hothers, h⟩ := Answer.bind_eq_ok.mp h
    obtain rfl := Except.ok.inj h
    obtain ⟨tier, htier⟩ := hread row List.mem_cons_self
    obtain rfl := Except.ok.inj ((holdsRow_eq hfields htier).symm.trans hholds)
    have hrow : row = .obj fields := by
      cases row with
      | obj fields' => rw [Except.ok.inj hfields]
      | _ => cases hfields
    have hrest := candidates_split hothers fun row' hrow' => hread row' (List.mem_cons_of_mem _ hrow')
    by_cases hin : tier.Holds notional
    · rw [if_pos (by simpa using hin)]
      exact ⟨[], row, rows, rfl, hrow, ⟨tier, htier, hin⟩, fun _ h => (List.not_mem_nil h).elim, hothers⟩
    · rw [if_neg (by simpa using hin)]
      have hout := not_inBracket htier hin
      cases others with
      | nil =>
        intro row' hrow'
        rcases List.mem_cons.mp hrow' with rfl | hrow'
        · exact hout
        · exact hrest row' hrow'
      | cons fields' others =>
        obtain ⟨before, row', after, heq, hrow', hin', hbefore, hafter⟩ := hrest
        refine ⟨row :: before, row', after, by rw [heq]; rfl, hrow', hin', ?_, hafter⟩
        intro other hother
        rcases List.mem_cons.mp hother with rfl | hother
        · exact hout
        · exact hbefore other hother

/-- The notional has one bracket, which allows the leverage. -/
theorem bracketOf_eq_ok {brackets : List Json} {notional leverage : ℚ} {bracket : Fields}
    (h : bracketOf env brackets notional leverage = .ok bracket) (hread : ∀ row ∈ brackets, ∃ tier, tierOf env row = .ok tier) :
    ∃ before row after, brackets = before ++ row :: after ∧ InBracket env row notional ∧
      (∀ other ∈ before ++ after, ¬InBracket env other notional) ∧
      ∃ fields allowed, row = .obj fields ∧ env.numeric true (Fields.at fields "initialLeverage") = .ok allowed ∧ leverage ≤ allowed := by
  obtain ⟨found, hfound, h⟩ := Answer.bind_eq_ok.mp h
  split at h
  · rename_i fields
    obtain ⟨allowed, hallowed, h⟩ := Answer.bind_eq_ok.mp h
    obtain ⟨_, hleverage, -⟩ := Answer.bind_eq_ok.mp h
    obtain ⟨before, row, after, heq, hrow, hin, hbefore, hafter⟩ := candidates_split hfound hread
    have hnone := candidates_split hafter fun row' hrow' => hread row' (heq ▸ List.mem_append_right _ (List.mem_cons_of_mem _ hrow'))
    refine ⟨before, row, after, heq, hin, ?_, fields, allowed, hrow, hallowed, demand_eq_ok.mp hleverage⟩
    intro other hother
    rcases List.mem_append.mp hother with hother | hother
    · exact hbefore other hother
    · exact hnone other hother
  · cases h

/-! ## The margin -/

theorem notionalOf_pos {order market : Fields} {price notional : ℚ} (hprice : 0 < price)
    (h : notionalOf env order market price = .ok notional) : 0 < notional := by
  obtain ⟨quantity, hquantity, h⟩ := Answer.bind_eq_ok.mp h
  obtain ⟨exposure, -, h⟩ := Answer.bind_eq_ok.mp h
  obtain ⟨krwPerQuote, -, h⟩ := Answer.bind_eq_ok.mp h
  obtain rfl := Except.ok.inj h
  exact lt_max_of_lt_left (mul_pos (numeric_true_pos hquantity) hprice)

/-- At a price that is not further from the entry than the trigger, the margin is more than the maintenance. -/
theorem margin_of_room {leverage maintenance cost price notional rate trigger p : ℚ} (hprice : 0 < price)
    (hnotional : 0 < notional) (hmaintenance : 0 ≤ maintenance) (hcost : 0 ≤ cost) (hrate : rate ≤ maintenance)
    (hp : 0 ≤ p) (hnear : |p - price| ≤ |trigger - price|) (hroom : |trigger - price| / price < roomOf leverage maintenance cost) :
    rate * (notional * p / price) < notional / leverage - notional * |p - price| / price - cost * (notional * p / price) := by
  set moved := |p - price| / price with hmoved
  have hmoved0 : 0 ≤ moved := div_nonneg (abs_nonneg _) hprice.le
  have hle : moved ≤ |trigger - price| / price := div_le_div_of_nonneg_right hnear hprice.le
  have hfactor : 0 < 1 + maintenance + cost := by linarith
  have hspent : moved * (1 + maintenance + cost) < 1 / leverage - maintenance - cost :=
    (lt_div_iff₀ hfactor).mp (hle.trans_lt hroom)
  -- the notional at p is at most that of the entry and the move together
  have hratio : p / price ≤ 1 + moved := by
    rw [div_le_iff₀ hprice, add_mul, one_mul, hmoved, div_mul_cancel₀ _ hprice.ne']
    have := le_abs_self (p - price)
    linarith
  have hratio0 : 0 ≤ p / price := div_nonneg hp hprice.le
  have hcharge : (rate + cost) * (p / price) ≤ (maintenance + cost) * (1 + moved) := by
    calc (rate + cost) * (p / price) ≤ (maintenance + cost) * (p / price) :=
          mul_le_mul_of_nonneg_right (by linarith) hratio0
      _ ≤ (maintenance + cost) * (1 + moved) := mul_le_mul_of_nonneg_left hratio (by linarith)
  have htotal : (rate + cost) * (p / price) + moved < 1 / leverage := by nlinarith
  have hscaled := mul_lt_mul_of_pos_left htotal hnotional
  have h1 : notional * p / price = notional * (p / price) := mul_div_assoc ..
  have h2 : notional * |p - price| / price = notional * moved := mul_div_assoc ..
  have h3 : notional / leverage = notional * (1 / leverage) := by rw [mul_one_div]
  rw [h1, h2, h3]
  linarith

theorem near_of_between {price trigger p : ℚ} (hlow : min price trigger ≤ p) (hhigh : p ≤ max price trigger) :
    |p - price| ≤ |trigger - price| := by
  rcases le_total price trigger with hle | hle
  · rw [min_eq_left hle] at hlow
    rw [max_eq_right hle] at hhigh
    rw [abs_of_nonneg (sub_nonneg.mpr hlow), abs_of_nonneg (sub_nonneg.mpr hle)]
    linarith
  · rw [min_eq_right hle] at hlow
    rw [max_eq_left hle] at hhigh
    rw [abs_of_nonpos (sub_nonpos.mpr hhigh), abs_of_nonpos (sub_nonpos.mpr hle)]
    linarith

/-- The notional of a price between the two lies between their notionals. -/
theorem notionalAt_between {price trigger p notional : ℚ} (hprice : 0 < price) (hnotional : 0 < notional) (hlow : min price trigger ≤ p)
    (hhigh : p ≤ max price trigger) : min notional (notional * trigger / price) ≤ notional * p / price ∧
      notional * p / price ≤ max notional (notional * trigger / price) := by
  have hmono : ∀ {a b : ℚ}, a ≤ b → notional * a / price ≤ notional * b / price := fun hab =>
    div_le_div_of_nonneg_right (mul_le_mul_of_nonneg_left hab hnotional.le) hprice.le
  have hentry : notional * price / price = notional := mul_div_cancel_right₀ notional hprice.ne'
  constructor
  · rcases min_le_iff.mp hlow with h | h
    · exact (min_le_left _ _).trans (hentry.ge.trans (hmono h))
    · exact (min_le_right _ _).trans (hmono h)
  · rcases le_max_iff.mp hhigh with h | h
    · exact (hmono h).trans (hentry.le.trans (le_max_left _ _))
    · exact (hmono h).trans (le_max_right _ _)

/-! ## The stop -/

/-- An accepted stop lies before maintenance liquidation. -/
theorem stop_before_liquidation {order market : Fields} {frozenPolicy : Json} {trigger : ℚ}
    (h : stopPrice env order market frozenPolicy = .ok trigger) :
    ∃ i : StopInputs, i.Reads env order market frozenPolicy ∧ i.Safe env trigger := by
  obtain ⟨frozen, hpolicy, h⟩ := Answer.bind_eq_ok.mp h
  obtain ⟨price, hprice, h⟩ := Answer.bind_eq_ok.mp h
  obtain ⟨mark, hmark, h⟩ := Answer.bind_eq_ok.mp h
  obtain ⟨tick, htick, h⟩ := Answer.bind_eq_ok.mp h
  obtain ⟨_, hahead, h⟩ := Answer.bind_eq_ok.mp h
  obtain ⟨notional, hnotional, h⟩ := Answer.bind_eq_ok.mp h
  obtain ⟨_, -, h⟩ := Answer.bind_eq_ok.mp h
  obtain ⟨brackets, hbrackets, h⟩ := Answer.bind_eq_ok.mp h
  obtain ⟨bracket, hbracket, h⟩ := Answer.bind_eq_ok.mp h
  obtain ⟨path, hpath, h⟩ := Answer.bind_eq_ok.mp h
  obtain ⟨_, hroom, h⟩ := Answer.bind_eq_ok.mp h
  have htrigger : triggerOf (isLong order) (targetOf (isLong order) price frozen.stop) tick = trigger := Except.ok.inj h
  rw [htrigger] at hahead hpath hroom
  obtain ⟨fee, hfee, hroom⟩ := Answer.bind_eq_ok.mp hroom
  obtain ⟨funding, hfunding, hroom⟩ := Answer.bind_eq_ok.mp hroom
  obtain ⟨hleverage1, hpercent, hbound⟩ := policy_eq_ok hpolicy
  obtain ⟨hread, hcovered, hrate⟩ := pathOf_eq_ok hpath
  have hprice0 := numeric_true_pos hprice
  have hnotional0 := notionalOf_pos hprice0 hnotional
  have hahead : Ahead (isLong order) trigger price mark := demand_eq_ok.mp hahead
  have hbracketsAt : market.at "leverageBrackets" = .arr brackets := by
    rw [bracketRows.eq_def] at hbrackets
    split at hbrackets
    · rename_i hat
      rw [hat, Except.ok.inj hbrackets]
    · cases hbrackets
  split at hroom
  · cases hroom
  have hroom := demand_eq_ok.mp hroom
  refine ⟨⟨isLong order, frozen.leverage, frozen.stop, price, mark, tick, notional, fee, funding, brackets⟩,
    ⟨rfl, hpolicy, hprice, hmark, htick, hnotional, hbracketsAt, hfee, hfunding⟩, ?_, ?_, ?_, ?_⟩
  · exact onTarget_of hprice0 (numeric_true_pos htick) hpercent hleverage1 hbound htrigger.symm hahead
  · exact bracketOf_eq_ok hbracket hread
  · intro p hlow hhigh
    obtain ⟨hlow', hhigh'⟩ := notionalAt_between hprice0 hnotional0 hlow hhigh
    exact hcovered _ hlow' hhigh'
  · intro p hlow hhigh row hrow tier htier hholds
    obtain ⟨hlow', hhigh'⟩ := notionalAt_between hprice0 hnotional0 hlow hhigh
    have hp : 0 ≤ p := (le_min hprice0.le hahead.1.le).trans hlow
    have hcost : 0 ≤ costOf fee funding := add_nonneg (mul_nonneg zero_le_two hroom.2.1) (abs_nonneg funding)
    exact margin_of_room hprice0 hnotional0 hroom.1 hcost (hrate _ hlow' hhigh' row hrow tier htier hholds) hp
      (near_of_between hlow hhigh) hroom.2.2.2

/-- `Decimal(str(value))` of an integer and of a text. -/
def exactDecimal : Json → Option ℚ
  | .int n => some n
  | .str s =>
    match decimal? s with
    | some (.finite d) => some d.value
    | _ => none
  | _ => none

/-- An order to buy, at an exchange that lists its higher bracket first. -/
def sampleEntry : Fields := [("positionDirection", .str "long"), ("referencePrice", .str "100"), ("quantity", .str "1")]

def sampleBrackets : List Json :=
  [.obj [("notionalFloor", .int 90), ("notionalCap", .int 1000), ("initialLeverage", .int 5), ("maintMarginRatio", .str "0.02")],
    .obj [("notionalFloor", .int 0), ("notionalCap", .int 90), ("initialLeverage", .int 10), ("maintMarginRatio", .str "0.01")]]

def sampleMarket : Fields :=
  [("markPrice", .str "100.3"), ("priceTick", .str "0.1"), ("krwPerQuote", .int 1400), ("leverageBrackets", .arr sampleBrackets),
    ("feeRate", .str "0.001"), ("fundingRate", .str "-0.0002")]

def samplePolicy : Json := .obj [("leverage", .int 4), ("stopLossPercent", .str "12.55"), ("marginMode", .str "ISOLATED")]

theorem stopPrice_sample : stopPrice { sampleEnv with decimal := exactDecimal } sampleEntry sampleMarket samplePolicy = .ok (175 / 2) := by
  decide +kernel

/-- The way of a long order down into the lower bracket. -/
theorem stop_before_liquidation_sample : ∃ i : StopInputs,
    i.Reads { sampleEnv with decimal := exactDecimal } sampleEntry sampleMarket samplePolicy ∧
      i.Safe { sampleEnv with decimal := exactDecimal } (175 / 2) :=
  stop_before_liquidation stopPrice_sample

end margin

end LiveTrader.FuturesProtection
