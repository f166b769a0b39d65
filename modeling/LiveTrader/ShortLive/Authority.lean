/-
# `ShortLive.Authority` — owners of the exchange routes

`_ACTIVE` says which session owns a route; routes belong to exchanges, two of them to one.
A dispatch keeps its reserved order in a variable of its thread, and
`check_short_live_authority` compares the owners of an exchange with that order, asks the
guard of the dispatch and lets nothing else pass.

Activation and release hold the locks of the routes and `_LOCK` and are steps of their own;
a check reads the owners under `_LOCK`, and what it makes of them is a later step.  `log`
keeps what the checks have seen and returned.
-/
import LiveTrader.Lib.Json
import LiveTrader.Lib.Runs

namespace LiveTrader.ShortLive

open Lib Lib.Py Lib.Runs

/-- What the calls use of hashes and texts, and the comparison of an order with its payload. -/
structure Env where
  /-- `str` on a value that is not a text. -/
  repr : Json → String
  /-- `_digest`, which raises on a number that is not finite. -/
  digest : Json → Result String
  /-- `_exact_native`. -/
  exactNative : Fields → Json → Result Unit

/-- `str(value)`. -/
def Env.str (env : Env) : Json → String
  | .str s => s
  | v => env.repr v

/-! ## Routes -/

/-- `_EXCHANGES`. -/
def exchanges : Dict String String :=
  [("KIS_KR_CASH", "KIS"), ("UPBIT_KRW_SPOT", "UPBIT"), ("BINANCE_SPOT", "BINANCE"),
    ("BINANCE_USDM_FUTURES", "BINANCE")]

/-- `_EXCHANGES[route]`. -/
def exchangeOf (route : String) : Option String := exchanges.lookup route

/-- `value in _EXCHANGES`, as the route it is. -/
def routeOf : Json → Result (Option String)
  | .str route => .ok (if (exchangeOf route).isSome then some route else none)
  | .arr _ => .error (.type "unhashable type: 'list'")
  | .obj _ => .error (.type "unhashable type: 'dict'")
  | _ => .ok none

/-- A session and the hash of its manifest. -/
abbrev Owner := String × String

/-- `_ACTIVE`. -/
abbrev Active := Dict String Owner

/-- The owner a row or an order names. -/
def ownerOf (env : Env) (row : Fields) : Owner :=
  (env.str (row.at "sessionId"), env.str (row.at "manifestHash"))

/-! ## `activate_short_live_routes` -/

/-- A row names a route, a session and a manifest. -/
def checkRow (env : Env) (row : Fields) : Result (String × Owner) := do
  let route ← routeOf (row.at "route")
  match route with
  | some route => do
    require ((row.at "sessionId").truthy ∧ (row.at "manifestHash").truthy)
      (.runtime "SHORT_LIVE_EXACT_ACTIVATION_REQUIRED")
    pure (route, ownerOf env row)
  | none => .error (.runtime "SHORT_LIVE_EXACT_ACTIVATION_REQUIRED")

def checkRows (env : Env) (rows : List Fields) : Result (List (String × Owner)) := do
  require (rows ≠ []) (.runtime "SHORT_LIVE_EXACT_ACTIVATION_REQUIRED")
  rows.mapM (checkRow env)

/-- No route of the exchange has another owner. -/
def checkOwner (active : Active) (row : String × Owner) : Result Unit := do
  require (∀ e ∈ active, exchangeOf e.1 = exchangeOf row.1 → e.2 = row.2)
    (.runtime "SHORT_LIVE_EXCHANGE_ALREADY_OWNED")
  match active.lookup row.1 with
  | some previous => require (previous = row.2) (.runtime "SHORT_LIVE_ROUTE_ALREADY_OWNED")
  | none => pure ()

def checkOwners (active : Active) : List (String × Owner) → Result Unit
  | [] => .ok ()
  | row :: rows => do
    checkOwner active row
    checkOwners active rows

def write (active : Active) (row : String × Owner) : Active := active.set row.1 row.2

/-- `activate_short_live_routes`: the owners after the call, and whether it raises. -/
def activateShortLiveRoutes (env : Env) (active : Active) (manifests : List Fields) : Active × Result Unit :=
  match checkRows env manifests with
  | .error e => (active, .error e)
  | .ok rows =>
    match checkOwners active rows with
    | .error e => (active, .error e)
    | .ok _ => (rows.foldl write active, .ok ())

/-- `release_short_live_routes`. -/
def releaseShortLiveRoutes (active : Active) (sessionId manifestHash : String) : Active :=
  active.filter fun e => e.2 ≠ (sessionId, manifestHash)

/-! ## Dispatches -/

/-- The context of a dispatch; `reserved` is the order it was entered with. -/
structure Context where
  order : Fields
  orderHash : String
  nativeHash : String
  exchange : String
  route : String
  thread : ℕ
  routerEntered : Bool := false
  reserved : Fields

/-- The operations a final send of the order may have. -/
def allowedOperations (context : Context) : List String :=
  let routePrefix := if context.route = "BINANCE_SPOT" then "SPOT_"
    else if context.route = "BINANCE_USDM_FUTURES" then "FUTURES_" else ""
  let operation := context.order.at "operation"
  if operation.eq (.str "PROTECT") then ["FUTURES_PROTECT"]
  else if operation.eq (.str "CANCEL_PROTECTION") then ["FUTURES_CANCEL_PROTECTION"]
  else if operation.eq (.str "CANCEL") then ["CANCEL_ORDER", routePrefix ++ "CANCEL_ORDER"]
  else ["PLACE_ORDER", routePrefix ++ "PLACE_ORDER"]

/-- The owners of the routes of an exchange. -/
def ownersOf (active : Active) (exchange : String) : Active :=
  active.filter fun e => exchangeOf e.1 = some exchange

/-- `check_short_live_authority`, for the owners it has read; `guard` is what the guard of the
dispatch returns or raises. -/
def checkShortLiveAuthority (env : Env) (owners : Active) (context : Option Context) (thread : ℕ)
    (exchange : String) (operation : Option String) (guard : Result Json) : Result Bool :=
  if owners = [] then
    match context with
    | some context =>
      if context.exchange = exchange then .error (.runtime "SHORT_LIVE_ROUTE_NOT_ACTIVE") else .ok false
    | none => .ok false
  else
    match context with
    | none => .error (.runtime "SHORT_LIVE_EXCLUSIVE_ROUTE_FENCE")
    | some context => do
      let changed : Error := .runtime "SHORT_LIVE_DURABLE_RESERVATION_CHANGED"
      require (context.exchange = exchange ∧ context.thread = thread)
        (.runtime "SHORT_LIVE_EXCLUSIVE_ROUTE_FENCE")
      require (owners.lookup context.route = some (ownerOf env context.order)) changed
      let orderHash ← env.digest (.obj context.order)
      require (orderHash = context.orderHash) changed
      let accepted ← guard
      require (accepted.isTrue = true) changed
      match operation with
      | some operation => do
        require (context.routerEntered = true) (.runtime "SHORT_LIVE_ROUTER_ENTRY_REQUIRED")
        require (operation ∈ allowedOperations context) (.runtime "SHORT_LIVE_OPERATION_MISMATCH")
        pure true
      | none => pure true

/-- `short_live_dispatch` up to its check: the context of the dispatch. -/
def openContext (env : Env) (thread : ℕ) (present : Bool) (order : Fields) (native : Json) (callable : Bool) :
    Result Context := do
  require (present = false ∧ callable = true) (.runtime "SHORT_LIVE_NESTED_OR_UNOWNED_DISPATCH")
  let route ← routeOf (order.at "route")
  match route with
  | none => .error (.runtime "SHORT_LIVE_ROUTE_INVALID")
  | some route => do
    let exchange ← orRaise (.runtime "SHORT_LIVE_ROUTE_INVALID") (exchangeOf route)
    env.exactNative order native
    let orderHash ← env.digest (.obj order)
    let nativeHash ← env.digest native
    pure { order, orderHash, nativeHash, exchange, route, thread, reserved := order }

/-! ## Threads -/

/-- What a check is made for. -/
inductive Purpose where
  /-- The entry of a dispatch. -/
  | enter
  /-- `validate_short_live_native_payload`. -/
  | router
  /-- A call from elsewhere. -/
  | send (operation : Option String)

def Purpose.operation : Purpose → Option String
  | .send operation => operation
  | _ => none

/-- A check that has read the owners. -/
structure Pending where
  purpose : Purpose
  exchange : String
  owners : Active

structure Thread where
  dispatch : Option Context := none
  pending : Option Pending := none

/-- A check that has ended. -/
structure Checked where
  thread : ℕ
  exchange : String
  owners : Active
  context : Option Context
  guard : Result Json
  result : Result Bool

structure System where
  active : Active := []
  thread : ℕ → Thread := fun _ => {}
  log : List Checked := []

namespace System

def setThread (s : System) (n : ℕ) (t : Thread) : System := { s with thread := Function.update s.thread n t }

end System

/-- What may happen. -/
inductive Label where
  | activate (manifests : List Fields)
  | release (sessionId manifestHash : String)
  /-- A dispatch is entered and its check reads the owners. -/
  | enter (thread : ℕ) (order : Fields) (native : Json) (callable : Bool)
  | leave (thread : ℕ)
  /-- A check reads the owners. -/
  | check (thread : ℕ) (exchange : String) (operation : Option String)
  | router (thread : ℕ) (native : Json)
  /-- A check ends, with what the guard has answered. -/
  | answer (thread : ℕ) (guard : Result Json)
  /-- The order of a dispatch is changed in place. -/
  | tamper (thread : ℕ) (order : Fields)

/-- A check of a thread reads the owners. -/
def begin (s : System) (n : ℕ) (dispatch : Option Context) (purpose : Purpose) (exchange : String) : System :=
  s.setThread n { dispatch, pending := some ⟨purpose, exchange, ownersOf s.active exchange⟩ }

/-- The context of a dispatch after a check: a dispatch whose first check raises is not entered,
and the router is entered once its check has passed. -/
def afterCheck (purpose : Purpose) (result : Result Bool) (dispatch : Option Context) : Option Context :=
  match purpose, result with
  | .enter, .error _ => none
  | .router, .ok _ => dispatch.map fun context => { context with routerEntered := true }
  | _, _ => dispatch

/-- A check of a thread ends. -/
def conclude (env : Env) (s : System) (n : ℕ) (pending : Pending) (guard : Result Json) : System :=
  let dispatch := (s.thread n).dispatch
  let result := checkShortLiveAuthority env pending.owners dispatch n pending.exchange
    pending.purpose.operation guard
  { s.setThread n { dispatch := afterCheck pending.purpose result dispatch, pending := none } with
    log := s.log ++ [⟨n, pending.exchange, pending.owners, dispatch, guard, result⟩] }

/-- A step. -/
def step (env : Env) (s : System) : Label → Option System
  | .activate manifests => some { s with active := (activateShortLiveRoutes env s.active manifests).1 }
  | .release sessionId manifestHash =>
    some { s with active := releaseShortLiveRoutes s.active sessionId manifestHash }
  | .enter n order native callable =>
    match (s.thread n).pending, openContext env n (s.thread n).dispatch.isSome order native callable with
    | none, .ok context => some (begin s n (some context) .enter context.exchange)
    | none, .error _ => some s
    | some _, _ => none
  | .leave n =>
    match (s.thread n).pending, (s.thread n).dispatch with
    | none, some _ => some (s.setThread n {})
    | _, _ => none
  | .check n exchange operation =>
    match (s.thread n).pending with
    | none => some (begin s n (s.thread n).dispatch (.send operation) exchange)
    | some _ => none
  | .router n native =>
    match (s.thread n).pending, (s.thread n).dispatch with
    | none, some context =>
      if context.routerEntered = false ∧ env.digest native = .ok context.nativeHash then
        some (begin s n (some context) .router context.exchange)
      else some s
    | none, none => some s
    | some _, _ => none
  | .answer n guard => (s.thread n).pending.map fun pending => conclude env s n pending guard
  | .tamper n order =>
    some (s.setThread n { s.thread n with
      dispatch := (s.thread n).dispatch.map fun context => { context with order } })

end LiveTrader.ShortLive
