/-
# `FuturesProtection.Manager` — stops for the legs of a futures account

`FuturesProtectionManager` keeps one claim for each stop that it has placed, and for each symbol the
stop that is active.  The exchange, the clock, the reservations and the records are code of somebody
else (`World`): the answer to a call depends on how many calls were made before it and on what it is
asked, and it may be anything.  Each call of the manager keeps what it has done when it raises.

A relation between states that every write of the manager respects goes through all of its code.  Which events
may be noted is left open: a poll notes no cancel, and a cancel does.
-/
import LiveTrader.Lib.Json
import LiveTrader.Lib.Proc

namespace LiveTrader.FuturesProtection

open Lib Lib.Py

/-! ## Values -/

inductive Direction where
  | long
  | short
  deriving DecidableEq

inductive PositionMode where
  | hedge
  | oneWay
  deriving DecidableEq

/-- What a call raises. -/
inductive Raised where
  /-- `FuturesProtectionError`. -/
  | protection (code : String)
  /-- Any other `Exception`. -/
  | other (name : String)
  /-- A `BaseException` that is no `Exception`. -/
  | exit (name : String)
  deriving DecidableEq

/-- `except Exception`. -/
def Raised.caught : Raised → Bool
  | .exit _ => false
  | _ => true

/-- `except FuturesProtectionError`. -/
def Raised.isProtection : Raised → Bool
  | .protection _ => true
  | _ => false

/-- `str(exc)`. -/
def Raised.text : Raised → String
  | .protection code => code
  | .other name => name
  | .exit name => name

abbrev Answer (α : Type) := Except Raised α

/-- An exception of the language. -/
def Raised.ofError : Error → Raised
  | .type _ => .other "TypeError"
  | .key _ => .other "KeyError"
  | .value _ => .other "ValueError"
  | .runtime _ => .other "RuntimeError"
  | .invalidOperation => .other "InvalidOperation"
  | .integrity _ => .other "IntegrityError"
  | .os _ => .other "OSError"

def Answer.of {α : Type} (x : Result α) : Answer α := x.mapError Raised.ofError

theorem Answer.bind_eq_ok {α β : Type} {x : Answer α} {f : α → Answer β} {b : β} :
    (x >>= f) = .ok b ↔ ∃ a, x = .ok a ∧ f a = .ok b := by
  cases x <;> simp [bind, Except.bind]

theorem Answer.of_eq_ok {α : Type} {x : Result α} {a : α} (h : Answer.of x = .ok a) : x = .ok a := by
  cases x with
  | ok b =>
    obtain rfl := Except.ok.inj h
    rfl
  | error e => cases h

/-- The fields of an order that the manager reads. -/
structure Order where
  route : String
  sessionId : String
  manifestHash : String
  accountId : String
  symbol : String
  positionDirection : Direction
  positionMode : PositionMode
  clientOrderId : String
  /-- What only the price of the stop is made of. -/
  rest : Fields

/-- The claim of a stop. -/
structure Claim where
  route : String
  sessionId : String
  manifestHash : String
  accountId : String
  symbol : String
  positionDirection : Direction
  positionMode : PositionMode
  clientAlgoId : String
  parentClientOrderId : String
  triggerPrice : String
  side : String
  /-- The id of the exchange, or the empty text. -/
  algoId : String := ""
  observation : Option Fields := none
  cancelAttempted : Bool := false
  lastReadVerified : Bool := false

/-- `"SELL" if direction == "long" else "BUY"`. -/
def Direction.closingSide : Direction → String
  | .long => "SELL"
  | .short => "BUY"

/-- The position side that the exchange names. -/
def positionSide (mode : PositionMode) (direction : Direction) : String :=
  match mode, direction with
  | .oneWay, _ => "BOTH"
  | .hedge, .long => "LONG"
  | .hedge, .short => "SHORT"

/-- `claim.get("observation", {})`. -/
def Claim.observed (claim : Claim) : Fields := claim.observation.getD []

/-! ## What is given -/

/-- The functions of the language that are left open, and the price of a stop. -/
structure Env where
  /-- `Decimal(str(value))`, where it is a finite number. -/
  decimal : Json → Option ℚ
  /-- `str(Decimal(str(value)))`. -/
  decimalStr : Json → String
  /-- `str(value)`. -/
  str : Json → String
  /-- `text.isdigit()` and `int(text) > 0`. -/
  positiveId : String → Answer Bool
  /-- `epoch(value)`. -/
  epoch : Json → Answer ℚ
  /-- The digest of session, manifest, symbol, trigger and entry. -/
  digest : List String → String
  /-- The product of two decimals, in the context of the thread. -/
  product : ℚ → ℚ → ℚ
  /-- `stop_price`. -/
  stopPrice : Order → Fields → Json → Answer String

/-- `numeric`. -/
def Env.numeric (env : Env) (positive : Bool) (value : Json) : Answer ℚ :=
  match value with
  | .null | .bool _ => .error (.protection "FUTURES_PROTECTION_NUMBER_UNKNOWN")
  | value =>
    match env.decimal value with
    | some q =>
      if positive && decide (q ≤ 0) then .error (.protection "FUTURES_PROTECTION_NUMBER_UNKNOWN") else .ok q
    | none => .error (.protection "FUTURES_PROTECTION_NUMBER_UNKNOWN")

/-- What a reservation is for. -/
inductive Operation where
  | protect
  | cancelProtection
  deriving DecidableEq

/-- The answers of everybody else; the number is how many calls came before. -/
structure World where
  reader : ℕ → Claim → Answer Json
  clock : ℕ → Answer ℚ
  /-- The truth of what `reserve` returns. -/
  reserve : ℕ → Operation → Claim → Answer Bool
  record : ℕ → Answer Unit
  protect : ℕ → Claim → Answer Unit
  cancel : ℕ → Claim → Answer Unit

/-! ## The state -/

/-- Why a stop is cancelled. -/
inductive Cause where
  /-- Another stop has taken its place. -/
  | replacedBy (clientAlgoId : String)
  /-- The position is flat. -/
  | finishing
  deriving DecidableEq

/-- What the manager has done, and what its calls have returned. -/
inductive Event where
  | granted (operation : Operation) (claim : Claim)
  | protect (claim : Claim)
  | cancel (claim : Claim) (cause : Cause)
  /-- `observe` has returned, with this status. -/
  | observed (clientAlgoId : String) (status : Json)
  /-- `ensure` has returned, for this order and this trigger. -/
  | ensured (order : Order) (trigger : String) (observation : Fields)
  /-- `poll` has returned: the claims behind it, the incidents and the executions. -/
  | polled (claims : List Claim) (active : List (String × String)) (incidents : List Fields)
      (executions : List (Claim × Fields))
  /-- `finish_flat` has returned. -/
  | flat

/-- `FuturesProtectionManager`; the log has the last event first. -/
structure Manager where
  claims : Dict String Claim := []
  activeBySymbol : Dict String String := []
  incidents : List Fields := []
  log : List Event := []
  /-- The calls of the world so far. -/
  calls : ℕ := 0

/-- A piece of the manager's code. -/
abbrev Code (α : Type) := Proc Manager Raised α

variable (env : Env) (world : World)

/-- A call of the world. -/
def ask {α : Type} (answer : ℕ → Answer α) : Code α := do
  let calls ← Proc.read Manager.calls
  Proc.modify fun m => { m with calls := calls + 1 }
  Proc.of (answer calls)

def note (e : Event) : Code Unit := Proc.modify fun m => { m with log := e :: m.log }

/-- `self.claims[client]`. -/
def claimOf (client : String) : Code Claim := do
  let claims ← Proc.read Manager.claims
  match claims.lookup client with
  | some claim => pure claim
  | none => Proc.raise (.other "KeyError")

/-- What is written to a claim. -/
def putClaim (client : String) (claim : Claim) : Code Unit :=
  Proc.modify fun m => { m with claims := m.claims.set client claim }

/-- Two incidents are the same. -/
def sameIncident (item item' : Fields) : Bool := (Json.obj item).eq (.obj item')

/-- `_incident`. -/
def incident (code : String) (detail : Fields) : Code Unit := do
  let item : Fields := ("code", .str code) :: detail
  let incidents ← Proc.read Manager.incidents
  if incidents.any (sameIncident item) then pure ()
  else do
    Proc.modify fun m => { m with incidents := m.incidents ++ [item] }
    ask world.record

/-! ## Reading a stop -/

/-- The observation has the identity of the claim. -/
def Claim.named (claim : Claim) (observed : Fields) : Bool :=
  (observed.at "known").isTrue && (observed.at "clientAlgoId").eq (.str claim.clientAlgoId) &&
    (observed.at "symbol").eq (.str claim.symbol) && (observed.at "side").eq (.str claim.side) &&
    (observed.at "positionSide").eq (.str (positionSide claim.positionMode claim.positionDirection)) &&
    (observed.at "closePosition").isTrue && (observed.at "workingType").eq (.str "MARK_PRICE") &&
    ((observed.lookup "type").getD (observed.at "orderType")).eq (.str "STOP_MARKET") &&
    (observed.at "priceProtect").isFalse

/-- The observation is one of the claim. -/
def Env.identifies (claim : Claim) (observed : Fields) : Answer Bool :=
  if claim.named observed then do
    let trigger ← env.numeric true (observed.at "triggerPrice")
    let expected ← env.numeric true (.str claim.triggerPrice)
    pure (decide (trigger = expected) && (claim.algoId == "" || env.str (observed.at "algoId") == claim.algoId))
  else .ok false

/-- `str(observed.get("algoId", ""))`. -/
def Env.algoIdOf (observed : Fields) : String := env.str ((observed.lookup "algoId").getD (.str ""))

/-- `observe`. -/
def observe (client : String) : Code Fields := do
  let claim ← claimOf client
  putClaim client { claim with lastReadVerified := false }
  let answer ← ask fun n => world.reader n { claim with lastReadVerified := false }
  let observed ← Proc.of (Answer.of answer.dict)
  let same ← Proc.of (env.identifies claim observed)
  Proc.check (same = true) (.protection "FUTURES_PROTECTION_ACK_UNKNOWN")
  let positive ← Proc.of (env.positiveId (env.algoIdOf observed))
  Proc.check (positive = true) (.protection "FUTURES_PROTECTION_ID_UNKNOWN")
  let now ← ask world.clock
  let observedAt ← Proc.of (env.epoch (observed.at "observedAt"))
  Proc.check (-2 ≤ now - observedAt ∧ now - observedAt ≤ 30) (.protection "FUTURES_PROTECTION_OBSERVATION_STALE")
  putClaim client { claim with algoId := env.algoIdOf observed, observation := some observed, lastReadVerified := true }
  note (.observed client (observed.at "status"))
  ask world.record
  pure observed

/-! ## Placing and cancelling -/

/-- The states of a stop that is gone. -/
def terminalStates : List String := ["CANCELED", "CANCELLED", "EXPIRED", "FINISHED", "REJECTED"]

/-- A cancel is reserved, and sent once; its reply does not matter. -/
def attemptCancel (client : String) (cause : Cause) : Code Unit := do
  let claim ← claimOf client
  if claim.cancelAttempted then pure ()
  else do
    let granted ← ask fun n => world.reserve n .cancelProtection claim
    Proc.check (granted = true) (.protection "FUTURES_PROTECTION_CANCEL_RESERVATION_REQUIRED")
    note (.granted .cancelProtection claim)
    putClaim client { claim with cancelAttempted := true }
    note (.cancel claim cause)
    Proc.attempt Raised.caught (ask fun n => world.cancel n claim)

/-- `cancel`. -/
def cancel (client : String) (cause : Cause) : Code Fields := do
  let observed ← observe env world client
  let gone ← Proc.of (Answer.of ((observed.at "status").isOneOf terminalStates))
  if gone then pure observed
  else do
    attemptCancel world client cause
    let current ← observe env world client
    let gone ← Proc.of (Answer.of ((current.at "status").isOneOf terminalStates))
    Proc.check (gone = true) (.protection "FUTURES_PROTECTION_CANCEL_UNKNOWN")
    pure current

/-- The first trigger is at least as tight as the second one. -/
def Direction.atLeast (direction : Direction) (trigger trigger' : ℚ) : Prop :=
  match direction with
  | .long => trigger' ≤ trigger
  | .short => trigger ≤ trigger'

instance (direction : Direction) (trigger trigger' : ℚ) : Decidable (direction.atLeast trigger trigger') := by
  cases direction <;> exact inferInstanceAs (Decidable (_ ≤ _))

/-- The stop that is active, if it is as tight as the one that is asked for. -/
def reuse (order : Order) (market : Fields) (trigger : String) (previous : String) : Code (Option Fields) := do
  let current ← observe env world previous
  Proc.check ((current.at "status").eq (.str "NEW") = true) (.protection "FUTURES_PROTECTION_NOT_ACTIVE")
  let old ← Proc.of (env.numeric false (current.at "triggerPrice"))
  let new ← Proc.of (env.numeric false (.str trigger))
  let mark ← Proc.of (env.numeric true (market.at "markPrice"))
  Proc.check (¬ order.positionDirection.atLeast old mark) (.protection "FUTURES_EXISTING_STOP_ALREADY_TRIGGERED")
  pure (if order.positionDirection.atLeast old new then some current else none)

/-- The id of the stop of an order. -/
def Env.clientOf (order : Order) (trigger : String) : String :=
  "slp-" ++ env.digest [order.sessionId, order.manifestHash, order.symbol, trigger, order.clientOrderId]

/-- The claim of the stop of an order. -/
def Order.claim (order : Order) (client trigger : String) : Claim where
  route := order.route
  sessionId := order.sessionId
  manifestHash := order.manifestHash
  accountId := order.accountId
  symbol := order.symbol
  positionDirection := order.positionDirection
  positionMode := order.positionMode
  clientAlgoId := client
  parentClientOrderId := order.clientOrderId
  triggerPrice := trigger
  side := order.positionDirection.closingSide

/-- A stop is reserved, and placed once; its reply does not matter. -/
def submit (claim : Claim) : Code Unit := do
  let granted ← ask fun n => world.reserve n .protect claim
  Proc.check (granted = true) (.protection "FUTURES_PROTECTION_RESERVATION_REQUIRED")
  note (.granted .protect claim)
  putClaim claim.clientAlgoId claim
  ask world.record
  note (.protect claim)
  Proc.attempt Raised.caught (ask fun n => world.protect n claim)

/-- `self.active_by_symbol[symbol] = client`. -/
def activate (symbol client : String) : Code Unit :=
  Proc.modify fun m => { m with activeBySymbol := m.activeBySymbol.set symbol client }

/-- The claim of this client, unless there is one. -/
def submitOnce (claim : Claim) : Code Unit := do
  let claims ← Proc.read Manager.claims
  if (claims.lookup claim.clientAlgoId).isNone then submit world claim else pure ()

/-- The end of a stop that was replaced. -/
def retire (previous : Option String) (client : String) : Code Unit :=
  match previous with
  | some previous =>
    if previous = client then pure ()
    else do
      let _ ← cancel env world previous (.replacedBy client)
      pure ()
  | none => pure ()

/-- A stop of the order's own, and the end of the one it replaces. -/
def place (order : Order) (trigger : String) (previous : Option String) : Code Fields := do
  let client := env.clientOf order trigger
  submitOnce world (order.claim client trigger)
  let current ← observe env world client
  Proc.check ((current.at "status").eq (.str "NEW") = true) (.protection "FUTURES_PROTECTION_NOT_ACTIVE")
  activate order.symbol client
  retire env world previous client
  pure current

/-- `ensure`, with the stop that is active. -/
def ensureWith (order : Order) (market : Fields) (trigger : String) : Option String → Code Fields
  | none => place env world order trigger none
  | some previous => do
    let settled ← reuse env world order market trigger previous
    match settled with
    | some current => pure current
    | none => place env world order trigger (some previous)

/-- `ensure`. -/
def ensure (order : Order) (market : Fields) (frozenPolicy : Json) : Code Fields := do
  let trigger ← Proc.of (env.stopPrice order market frozenPolicy)
  let active ← Proc.read Manager.activeBySymbol
  let current ← ensureWith env world order market trigger (active.lookup order.symbol)
  note (.ensured order trigger current)
  pure current

/-! ## Polling -/

/-- The executed order is the one of the claim. -/
def Claim.executedBy (claim : Claim) (actualOrderId : Json) (actual : Fields) : Bool :=
  env.str (actual.at "brokerOrderId") == env.str actualOrderId && (actual.at "symbol").eq (.str claim.symbol) &&
    (actual.at "side").eq (.str claim.side) &&
    (actual.at "positionSide").eq (.str (positionSide claim.positionMode claim.positionDirection))

/-- What the stop has executed. -/
def execution (claim : Claim) (observed : Fields) : Code (Option (Claim × Fields)) :=
  if (observed.at "actualOrderId").truthy then
    match observed.at "actualOrder" with
    | .obj actual => do
      Proc.check ((observed.at "executionKnown").isTrue = true) (.protection "FUTURES_PROTECTIVE_EXECUTION_UNKNOWN")
      Proc.check (claim.executedBy env (observed.at "actualOrderId") actual = true)
        (.protection "FUTURES_PROTECTIVE_EXECUTION_IDENTITY_CHANGED")
      incident world "FUTURES_PROTECTIVE_STOP_TRIGGERED" [("symbol", .str claim.symbol), ("algoId", .str claim.algoId),
        ("brokerOrderId", .str (env.str (observed.at "actualOrderId")))]
      pure (some (claim, actual))
    | _ => Proc.raise (.protection "FUTURES_PROTECTIVE_EXECUTION_UNKNOWN")
  else pure none

/-- The active stop is gone, and nothing explains it. -/
def Claim.lost (claim : Claim) (active : Dict String String) : Bool :=
  active.lookup claim.symbol == some claim.clientAlgoId && !(claim.observed.at "status").eq (.str "NEW") &&
    !(claim.observed.at "actualOrderId").truthy && !claim.cancelAttempted

/-- The incident of a stop that was lost. -/
def tellLost (claim : Claim) (active : Dict String String) : Code Unit :=
  if claim.lost active then
    incident world "FUTURES_PROTECTION_NOT_ACTIVE" [("symbol", .str claim.symbol), ("algoId", .str claim.algoId)]
  else pure ()

/-- One claim of `poll`. -/
def pollClaim (client : String) : Code (Option (Claim × Fields)) := do
  let observed ← observe env world client
  let claim ← claimOf client
  let executed ← execution env world claim observed
  let active ← Proc.read Manager.activeBySymbol
  tellLost world claim active
  pure executed

/-- `poll`. -/
def poll : Code (List (Claim × Fields)) := do
  let claims ← Proc.read Manager.claims
  let executions ← Proc.mapEach (pollClaim env world) (claims.map Prod.fst)
  let executions := executions.filterMap id
  let m ← Proc.read id
  note (.polled (m.claims.map Prod.snd) m.activeBySymbol m.incidents executions)
  pure executions

/-! ## Positions -/

/-- A key of a dictionary of the manager. -/
def keyOf : Json → Answer (Option String)
  | .str key => .ok (some key)
  | .arr _ | .obj _ => .error (.other "TypeError")
  | _ => .ok none

/-- A long position that is fully paid for has no liquidation price. -/
def Env.covered (env : Env) (claim : Claim) (position : Fields) (quantity : ℚ) : Bool :=
  decide (0 < quantity) && (position.at "marginMode").eq (.str "ISOLATED") && claim.positionDirection == .long &&
    match env.numeric false (position.at "isolatedWallet"), env.numeric true (position.at "entryPrice") with
    | .ok wallet, .ok entry => decide (env.product |quantity| entry ≤ wallet)
    | _, _ => false

/-- The prices of a position against the stop. -/
def checkPrices (claim : Claim) (symbol : Json) (position : Fields) (quantity : ℚ) : Code Unit := do
  let mark ← Proc.of (env.numeric true (position.at "markPrice"))
  let liquidation ← Proc.of (env.numeric false (position.at "liquidationPrice"))
  let trigger ← Proc.of (env.numeric true (.str claim.triggerPrice))
  Proc.check (0 ≤ liquidation) (.protection "FUTURES_LIQUIDATION_PRICE_UNKNOWN")
  if liquidation = 0 ∧ env.covered claim position quantity = false then
    incident world "FUTURES_LIQUIDATION_PRICE_UNVERIFIED" [("symbol", symbol)]
  else if 0 < liquidation ∧
      ¬ (if 0 < quantity then liquidation < trigger ∧ trigger < mark else mark < trigger ∧ trigger < liquidation) then
    incident world "FUTURES_ACTUAL_LIQUIDATION_BUFFER_BREACHED" [("symbol", symbol),
      ("liquidationPrice", .str (env.decimalStr (position.at "liquidationPrice"))),
      ("markPrice", .str (env.decimalStr (position.at "markPrice"))),
      ("triggerPrice", .str (env.decimalStr (.str claim.triggerPrice)))]
  else if (if 0 < quantity then mark ≤ trigger else trigger ≤ mark) then
    incident world "FUTURES_STOP_TRIGGER_PENDING" [("symbol", symbol)]
  else pure ()

/-- One position of `check_positions`. -/
def checkPosition (position : Fields) : Code Unit := do
  let quantity ← Proc.of (env.numeric false (position.at "quantity"))
  if quantity = 0 then pure ()
  else do
    let symbol ← Proc.of (Answer.of (position.item "symbol"))
    let key ← Proc.of (keyOf symbol)
    let m ← Proc.read id
    let client := key.bind fun symbol => m.activeBySymbol.lookup symbol
    match client.bind fun client => m.claims.lookup client with
    | none => incident world "FUTURES_POSITION_UNPROTECTED" [("symbol", symbol)]
    | some claim =>
      if (claim.observed.at "status").eq (.str "NEW") = false then
        incident world "FUTURES_POSITION_UNPROTECTED" [("symbol", symbol)]
      else if (claim.lastReadVerified && (position.at "positionSide").eq
          (.str (positionSide claim.positionMode claim.positionDirection))) = false then
        incident world "FUTURES_POSITION_PROTECTION_UNVERIFIED" [("symbol", symbol)]
      else checkPrices env world claim symbol position quantity

/-- `check_positions`. -/
def checkPositions (positions : List Fields) : Code Unit := Proc.forEach (checkPosition env world) positions

/-! ## The end of a position -/

/-- The stop is gone for good: cancelled, or executed to the end. -/
def Claim.retired (claim : Claim) : Result Bool := do
  let observed := claim.observed
  if claim.lastReadVerified && (observed.at "known").isTrue then
    let gone ← (observed.at "status").isOneOf terminalStates
    if !gone || ((observed.at "status").eq (.str "FINISHED") && !(observed.at "actualOrderId").truthy) then pure false
    else if (observed.at "actualOrderId").truthy then do
      let actual ← ((observed.lookup "actualOrder").getD (.obj [])).fields
      if (observed.at "executionKnown").isTrue then
        (actual.at "status").isOneOf ["FILLED", "CANCELED", "REJECTED", "EXPIRED"]
      else pure false
    else pure true
  else pure false

/-- `retirement_verified`. -/
def retirementVerified : List Claim → Result Bool
  | [] => .ok true
  | claim :: claims => do
    let retired ← claim.retired
    if retired then retirementVerified claims else pure false

/-- `finish_flat`. -/
def finishFlat : Code Unit := do
  let claims ← Proc.read Manager.claims
  Proc.forEach (fun client => do
    let _ ← cancel env world client .finishing
    pure ()) (claims.map Prod.fst)
  let claims ← Proc.read Manager.claims
  let retired ← Proc.of (Answer.of (retirementVerified (claims.map Prod.snd)))
  Proc.check (retired = true) (.protection "FUTURES_PROTECTION_RETIREMENT_UNKNOWN")
  Proc.modify fun m => { m with activeBySymbol := [] }
  note .flat

end LiveTrader.FuturesProtection

namespace LiveTrader.FuturesProtection

open Lib Lib.Py

/-! ## What the manager leaves as it was -/

/-- The relation goes through calls, notes and incidents. -/
structure Frame (r : Manager → Manager → Prop) (ok : Event → Prop) : Prop where
  refl : ∀ m, r m m
  trans : ∀ m m' m'', r m m' → r m' m'' → r m m''
  called : ∀ m calls, r m { m with calls }
  noted : ∀ m e, ok e → r m { m with log := e :: m.log }
  incidents : ∀ m incidents, r m { m with incidents }

/-- The relation goes through every write of the manager. -/
structure FullFrame (r : Manager → Manager → Prop) (ok : Event → Prop) : Prop extends Frame r ok where
  claims : ∀ m client claim, r m { m with claims := m.claims.set client claim }
  active : ∀ m activeBySymbol, r m { m with activeBySymbol }

variable {env : Env} {world : World} {r : Manager → Manager → Prop} {ok : Event → Prop} {α β : Type}

namespace Frame

variable (f : Frame r ok)

include f

theorem pure (a : α) : Proc.Keeps r (Pure.pure a : Code α) := Proc.keeps_pure f.refl a

theorem of (answer : Answer α) : Proc.Keeps r (Proc.of answer) := Proc.keeps_of f.refl answer

theorem check (c : Prop) [Decidable c] (e : Raised) : Proc.Keeps r (Proc.check c e) := Proc.keeps_check f.refl c e

theorem read (g : Manager → α) : Proc.Keeps r (Proc.read g : Code α) := Proc.keeps_read f.refl g

theorem bind {m : Code α} {g : α → Code β} (h : Proc.Keeps r m) (hg : ∀ a, Proc.Keeps r (g a)) : Proc.Keeps r (m >>= g) :=
  h.bind f.trans hg

theorem ask (answer : ℕ → Answer α) : Proc.Keeps r (FuturesProtection.ask answer) :=
  f.bind (f.read _) fun _ => f.bind (Proc.keeps_modify fun m => f.called m _) fun _ => f.of _

theorem note {e : Event} (h : ok e) : Proc.Keeps r (FuturesProtection.note e) := Proc.keeps_modify fun m => f.noted m e h

theorem claimOf (client : String) : Proc.Keeps r (FuturesProtection.claimOf client) := by
  refine f.bind (f.read _) fun claims => ?_
  cases claims.lookup client with
  | none => exact f.of _
  | some claim => exact f.pure claim

theorem incident (code : String) (detail : Fields) : Proc.Keeps r (FuturesProtection.incident world code detail) := by
  refine f.bind (f.read _) fun incidents => .ite (f.pure ()) ?_
  exact f.bind (Proc.keeps_modify fun m => f.incidents m _) fun _ => f.ask _

/-! ## Positions -/

theorem execution (claim : Claim) (observed : Fields) : Proc.Keeps r (FuturesProtection.execution env world claim observed) := by
  refine .ite ?_ (f.pure none)
  split
  · refine f.bind (f.check _ _) fun _ => f.bind (f.check _ _) fun _ => ?_
    exact f.bind (f.incident _ _) fun _ => f.pure _
  · exact f.of _

theorem checkPrices (claim : Claim) (symbol : Json) (position : Fields) (quantity : ℚ) :
    Proc.Keeps r (FuturesProtection.checkPrices env world claim symbol position quantity) := by
  refine f.bind (f.of _) fun mark => f.bind (f.of _) fun liquidation => f.bind (f.of _) fun trigger => f.bind (f.check _ _) fun _ => ?_
  exact .ite (f.incident _ _) (.ite (f.incident _ _) (.ite (f.incident _ _) (f.pure ())))

theorem checkPosition (position : Fields) : Proc.Keeps r (FuturesProtection.checkPosition env world position) := by
  refine f.bind (f.of _) fun quantity => .ite (f.pure ()) ?_
  refine f.bind (f.of _) fun symbol => f.bind (f.of _) fun key => f.bind (f.read _) fun m => ?_
  dsimp only
  split
  · exact f.incident _ _
  · exact .ite (f.incident _ _) (.ite (f.incident _ _) (f.checkPrices _ _ _ _))

theorem checkPositions (positions : List Fields) : Proc.Keeps r (FuturesProtection.checkPositions env world positions) :=
  Proc.Keeps.forEach f.refl f.trans f.checkPosition positions

end Frame

namespace FullFrame

variable (f : FullFrame r ok)

include f

theorem putClaim (client : String) (claim : Claim) : Proc.Keeps r (FuturesProtection.putClaim client claim) :=
  Proc.keeps_modify fun m => f.claims m client claim

/-! ## Reading -/

theorem observe (hobserved : ∀ client status, ok (.observed client status)) (client : String) :
    Proc.Keeps r (FuturesProtection.observe env world client) := by
  refine f.bind (f.claimOf client) fun claim => f.bind (f.putClaim _ _) fun _ => f.bind (f.ask _) fun answer => ?_
  refine f.bind (f.of _) fun observed => f.bind (f.of _) fun same => f.bind (f.check _ _) fun _ => ?_
  refine f.bind (f.of _) fun positive => f.bind (f.check _ _) fun _ => f.bind (f.ask _) fun now => ?_
  refine f.bind (f.of _) fun observedAt => f.bind (f.check _ _) fun _ => f.bind (f.putClaim _ _) fun _ => ?_
  exact f.bind (f.note (hobserved _ _)) fun _ => f.bind (f.ask _) fun _ => f.pure _

theorem pollClaim (hobserved : ∀ client status, ok (.observed client status)) (client : String) :
    Proc.Keeps r (FuturesProtection.pollClaim env world client) := by
  refine f.bind (f.observe hobserved client) fun observed => f.bind (f.claimOf client) fun claim => ?_
  refine f.bind (f.execution claim observed) fun executed => f.bind (f.read _) fun active => ?_
  exact f.bind (.ite (f.incident _ _) (f.pure ())) fun _ => f.pure _

theorem poll (hobserved : ∀ client status, ok (.observed client status))
    (hpolled : ∀ claims active incidents executions, ok (.polled claims active incidents executions)) :
    Proc.Keeps r (FuturesProtection.poll env world) := by
  refine f.bind (f.read _) fun claims => ?_
  refine f.bind (Proc.Keeps.mapEach f.refl f.trans (f.pollClaim hobserved) _) fun executions => ?_
  exact f.bind (f.read _) fun m => f.bind (f.note (hpolled _ _ _ _)) fun _ => f.pure _

end FullFrame

end LiveTrader.FuturesProtection
