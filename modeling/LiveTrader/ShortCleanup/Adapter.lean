/-
# `ShortCleanup.Adapter` — the cleanup of a short live session

`cleanup` reads the account, cancels the open orders of the session, reads again, closes the positions,
and retires the protection of a flat account; it is called again until it is complete.  The marks that
one pass leaves for the next are in memory: the claims, the cancels that were tried, and the claims of
the protection manager.

The exchange, the clock and the callbacks of the service are code of somebody else (`World`): the answer
to a call depends on how many calls were made before it, and it may be anything.  `other` stands for
what may raise in between and changes none of these marks.

A read of the account polls the stops and holds them against the positions, and neither cancels one.
What it adds to the log of the adapter are reads; the claims only grow, and the cancels that were tried
stay the same.
-/
import LiveTrader.FuturesProtection.Manager

namespace LiveTrader.ShortCleanup

open Lib Lib.Py

open FuturesProtection (Manager Raised Answer Direction)

/-! ## What is given -/

/-- A position of the session: `row.get("positionDirection") == "short"` is `short`, and the row is what the
protection manager looks at. -/
structure Position where
  symbol : String
  quantity : ℚ
  short : Bool
  row : Fields

structure Env where
  /-- `str(value)`. -/
  str : Json → String
  /-- `epoch(value)`. -/
  epoch : Json → Answer ℚ
  /-- `"sl-clean-"` and the digest of session, symbol and direction. -/
  closingId : String → Direction → String
  protection : FuturesProtection.Env

/-- The route, and `m["specs"]` with their symbols and directions. -/
structure Setup where
  futures : Bool
  specs : List (String × Direction)

structure World where
  protection : FuturesProtection.World
  /-- `snapshot_reader`. -/
  account : ℕ → Answer Fields
  clock : ℕ → Answer ℚ
  /-- The positions that are left when the orders are joined and the inventory is set apart. -/
  positions : ℕ → Answer (List Position)
  /-- Every row is the session's. -/
  owned : ℕ → Json → Answer Bool
  reserveCancel : ℕ → Answer Bool
  reserveClose : ℕ → Answer Bool
  guard : ℕ → Answer Bool
  enabled : ℕ → Answer Bool
  /-- The quantity that `size_order` comes to. -/
  sized : ℕ → Answer ℚ
  cancel : ℕ → Answer Unit
  submit : ℕ → Answer Unit
  /-- The ids under which executions of the exchange are claimed meanwhile. -/
  recorded : ℕ → List String
  other : ℕ → Answer Unit

/-! ## The state -/

/-- What an account read has shown, with the stops as they were read before it. -/
structure Seen where
  raw : Fields
  now : ℚ
  positions : List Position
  stops : List FuturesProtection.Claim

/-- What `reconcile` returns of an account that is known. -/
structure Current where
  pendingOrders : List Json
  positions : List Position
  protectionOrders : Json
  retired : Bool

inductive Event where
  /-- The account is read. -/
  | looked
  /-- The read has passed every check. -/
  | read (seen : Seen)
  | reconciled (current : Current)
  | cancelReserved (symbol brokerOrderId : String)
  | cancelAuthorized (symbol brokerOrderId : String)
  | cancelled (symbol brokerOrderId : String)
  | closed (symbol : String) (direction : Direction) (side : String) (quantity : ℚ)
  | stopCancelled (claim : FuturesProtection.Claim)
  /-- `cleanup` returns, with `complete`. -/
  | returned (complete : Bool)

/-- The marks in memory; the log has the last event first. -/
structure Adapter where
  /-- The client ids of the claims. -/
  claims : List String := []
  cancelAttempts : List (String × String) := []
  protection : Option Manager := none
  log : List Event := []
  calls : ℕ := 0

abbrev Code (α : Type) := Proc Adapter Raised α

/-! ## Calls -/

/-- A call of the world. -/
def ask {α : Type} (answer : ℕ → Answer α) : Code α := do
  let calls ← Proc.read Adapter.calls
  Proc.modify fun s => { s with calls := calls + 1 }
  Proc.of (answer calls)

def note (e : Event) : Code Unit := Proc.modify fun s => { s with log := e :: s.log }

/-- A `ShortLiveBrokerBlocked`. -/
def blocked (code : String) : Raised := .other code

/-- `if callback(…) is not True: raise`. -/
def permitted (answer : ℕ → Answer Bool) (code : String) : Code Unit := do
  let granted ← ask answer
  Proc.check (granted = true) (blocked code)

/-- A cancel of the manager, as an event of the adapter. -/
def stopOf : FuturesProtection.Event → Option Event
  | .cancel claim _ => some (.stopCancelled claim)
  | _ => none

/-- What the manager has cancelled meanwhile. -/
def stopEvents (m m' : Manager) : List Event := (m'.log.take (m'.log.length - m.log.length)).filterMap stopOf

/-- A piece of the manager's code, if there is a manager. -/
def onProtection {α : Type} (absent : α) (code : FuturesProtection.Code α) : Code α := fun s =>
  match s.protection with
  | none => (.ok absent, s)
  | some m => ((code m).1, { s with protection := some (code m).2, log := stopEvents m (code m).2 ++ s.log })

/-- `except Exception`. -/
def caughtUnit (e : Raised) : Option Unit := if e.caught then some () else none

/-- `try: …` with `except Exception: …`, where nothing of the exception is kept. -/
def trying {α : Type} (code : Code α) : Code (Option α) := do
  let result ← Proc.outcome caughtUnit code
  pure result.toOption

section code

variable (env : Env) (setup : Setup) (world : World)

/-! ## Reading the account -/

/-- Executions that are no order of the session are claimed under ids of their own. -/
def recordExecutions : Code Unit := do
  let recorded ← ask fun n => .ok (world.recorded n)
  Proc.modify fun s => { s with claims := recorded ++ s.claims }
  ask world.other

/-- `_poll_futures_protection`: an exception of the manager is an incident. -/
def pollFuturesProtection : Code Unit :=
  Proc.rescue Raised.isProtection (do
      let items ← onProtection [] (FuturesProtection.poll env.protection world.protection)
      Proc.forEach (fun _ => recordExecutions world) items)
    fun e => onProtection () (FuturesProtection.incident world.protection e.text [])

/-- A list of the reply. -/
def listOf (value : Json) : Answer (List Json) :=
  match value with
  | .arr items => .ok items
  | _ => .error (blocked "ACCOUNT_ROWS_UNKNOWN")

/-- The read is known and complete. -/
def complete (raw : Fields) : Bool :=
  (raw.at "known").isTrue && (raw.at "ordersComplete").isTrue && (raw.at "positionsComplete").isTrue

/-- `_fresh`. -/
def fresh (now observedAt : ℚ) : Prop := -2 ≤ now - observedAt ∧ now - observedAt ≤ 30

instance (now observedAt : ℚ) : Decidable (fresh now observedAt) := inferInstanceAs (Decidable (_ ∧ _))

/-- The position has the side of the first spec of its symbol. -/
def specAgrees (position : Position) : Bool :=
  match setup.specs.lookup position.symbol with
  | some direction => (position.quantity < 0) = (direction = .short)
  | none => true

/-- What the futures route asks of a read. -/
def checkFutures (raw : Fields) (positions : List Position) : Code Unit := do
  let algos ← Proc.of (listOf (raw.at "openAlgoOrders"))
  let protection ← Proc.read Adapter.protection
  Proc.check (protection.isSome = true ∨ algos = []) (blocked "UNOWNED_FUTURES_CONDITIONAL_ORDER")
  recordExecutions world
  Proc.check (∀ position ∈ positions, position.quantity ≠ 0 → specAgrees setup position = true)
    (blocked "UNOWNED_FUTURES_POSITION_SIDE")

/-- What the route asks of a read. -/
def checkRoute (raw : Fields) (positions : List Position) : Code Unit :=
  if setup.futures = true then checkFutures setup world raw positions else pure ()

/-- The stops are held against the positions, once the session has sent an order. -/
def checkProtection (positions : List Position) : Code Unit := do
  let claims ← Proc.read Adapter.claims
  if claims = [] then pure ()
  else onProtection () (FuturesProtection.checkPositions env.protection world.protection (positions.map Position.row))

/-- `_snapshot`. -/
def snapshot : Code Seen := do
  pollFuturesProtection env world
  note .looked
  let raw ← ask world.account
  Proc.check (complete raw = true) (blocked "COMPLETE_ACCOUNT_TRUTH_REQUIRED")
  let now ← ask world.clock
  let observedAt ← Proc.of (env.epoch (raw.at "observedAt"))
  Proc.check (fresh now observedAt) (blocked "ACCOUNT_OBSERVATION_STALE")
  let _ ← Proc.of (listOf (raw.at "openOrders"))
  let positions ← ask world.positions
  checkRoute setup world raw positions
  ask world.other
  checkProtection env world positions
  let protection ← Proc.read Adapter.protection
  let seen : Seen := ⟨raw, now, positions, protection.elim [] fun m => m.claims.map Prod.snd⟩
  note (.read seen)
  pure seen

/-- `retirement_verified`, where there is a manager. -/
def retirementVerified : Code Bool := do
  let protection ← Proc.read Adapter.protection
  Proc.of (protection.elim (.ok true) fun m => Answer.of (FuturesProtection.retirementVerified (m.claims.map Prod.snd)))

/-- `reconcile`, where nothing raises: the values, the reservations that are given back, and the result. -/
def reconcileAccount : Code Current := do
  ask world.other
  let seen ← snapshot env setup world
  ask world.other
  let pendingOrders ← Proc.of (listOf (seen.raw.at "openOrders"))
  let retired ← retirementVerified
  let current : Current := ⟨pendingOrders, seen.positions, seen.raw.at "openAlgoOrders", retired⟩
  note (.reconciled current)
  pure current

/-- `reconcile`; `none` is `known: False`. -/
def reconcile : Code (Option Current) := trying (reconcileAccount env setup world)

/-! ## Cancelling -/

/-- The key of a cancel: symbol and broker id, as texts. -/
def cancelKey (row : Json) : Answer (String × String) :=
  match row with
  | .obj fields => .ok (env.str (Fields.at fields "symbol"), env.str (Fields.at fields "brokerOrderId"))
  | _ => .error (.other "AttributeError")

/-- `row.get("brokerOrderId")` is there. -/
def hasBrokerId : Json → Bool
  | .obj fields => (Fields.at fields "brokerOrderId").truthy
  | _ => false

/-- The cancel itself, after its reservation and its authority. -/
def sendCancel (key : String × String) : Code Unit := do
  permitted world.reserveCancel "DURABLE_CANCEL_RESERVATION_REQUIRED"
  note (.cancelReserved key.1 key.2)
  permitted world.guard "CLEANUP_AUTHORITY_REQUIRED"
  note (.cancelAuthorized key.1 key.2)
  Proc.modify fun s => { s with cancelAttempts := key :: s.cancelAttempts }
  ask world.other
  note (.cancelled key.1 key.2)
  ask world.cancel

/-- One open order. -/
def cancelOrder (row : Json) : Code Unit := do
  let owned ← ask fun n => world.owned n row
  Proc.check (owned = true ∧ hasBrokerId row = true) (blocked "EXACT_OWNED_CANCEL_REQUIRED")
  let key ← Proc.of (cancelKey env row)
  let attempts ← Proc.read Adapter.cancelAttempts
  if attempts.contains key then pure () else sendCancel world key

/-! ## Closing -/

/-- `"BUY" if direction == "short" else "SELL"`. -/
def closingSide : Direction → String
  | .long => "SELL"
  | .short => "BUY"

/-- The positions of a symbol that are not zero. -/
def matching (positions : List Position) (symbol : String) : List Position :=
  positions.filter fun position => position.quantity ≠ 0 && position.symbol = symbol

/-- The position that an order reduces. -/
def reduced (positions : List Position) (symbol : String) : Answer Position :=
  match matching positions symbol with
  | [position] => .ok position
  | _ => .error (blocked "OWNED_REDUCING_POSITION_REQUIRED")

/-- `size_order` for a closing order; `reserved` is the quantity that was sized before. -/
def sizeAccount (symbol : String) (direction : Direction) (reserved : Option ℚ) : Code ℚ := do
  ask world.other
  let seen ← snapshot env setup world
  ask world.other
  Proc.check (setup.futures = true ∨ direction = .long) (blocked "SPOT_SHORT_FORBIDDEN")
  let position ← Proc.of (reduced seen.positions symbol)
  Proc.check (∀ quantity ∈ reserved, quantity ≤ |position.quantity|) (blocked "RESERVED_NATIVE_QUANTITY_NO_LONGER_VALID")
  ask world.sized

/-- `size_order`; `none` is `ready: False`. -/
def sizeOrder (symbol : String) (direction : Direction) (reserved : Option ℚ) : Code (Option ℚ) :=
  trying (sizeAccount env setup world symbol direction reserved)

/-- What comes before the transport is called. -/
def submitClaim (symbol : String) (direction : Direction) (quantity : ℚ) : Code Unit := do
  permitted world.guard "FRESH_MANUAL_AUTHORITY_REQUIRED"
  permitted world.enabled "FRESH_MANUAL_AUTHORITY_REQUIRED"
  ask world.other
  let checked ← sizeOrder env setup world symbol direction (some quantity)
  Proc.check (checked = some quantity) (blocked "ORDER_CHANGED_AT_DISPATCH")
  ask world.other
  Proc.modify fun s => { s with claims := env.closingId symbol direction :: s.claims }

/-- `submit`, where nothing raises. -/
def submitOrder (symbol : String) (direction : Direction) (quantity : ℚ) : Code Unit := do
  ask world.other
  let claims ← Proc.read Adapter.claims
  if env.closingId symbol direction ∈ claims then pure ()
  else do
    submitClaim env setup world symbol direction quantity
    ask world.other
    note (.closed symbol direction (closingSide direction) quantity)
    ask world.submit

/-- `submit` of a closing order, which never raises. -/
def submit (symbol : String) (direction : Direction) (quantity : ℚ) : Code Unit := do
  let _ ← trying (submitOrder env setup world symbol direction quantity)
  pure ()

/-- The direction of a position. -/
def Position.direction (position : Position) : Direction :=
  if position.quantity < 0 ∨ position.short = true then .short else .long

/-- A closing order that is sized, reserved, sent and observed. -/
def sendClose (position : Position) : Code Unit := do
  let sized ← sizeOrder env setup world position.symbol position.direction none
  match sized with
  | none => Proc.raise (blocked "CLEANUP_SIZING_BLOCKED")
  | some quantity => do
    permitted world.reserveClose "DURABLE_CLEANUP_RESERVATION_REQUIRED"
    submit env setup world position.symbol position.direction quantity
    ask world.other

/-- One position. -/
def closePosition (position : Position) : Code Unit :=
  if position.quantity = 0 then pure ()
  else do
    ask world.other
    let claims ← Proc.read Adapter.claims
    if env.closingId position.symbol position.direction ∈ claims then ask world.other
    else sendClose env setup world position

/-! ## The passes -/

/-- No open order and no position. -/
def Current.flat (current : Current) : Bool :=
  current.pendingOrders.isEmpty && current.positions.all fun position => position.quantity = 0

/-- `complete`. -/
def isComplete : Option Current → Bool
  | some current => current.flat && current.retired
  | none => false

/-- `finish_flat`, in the coordination of the session. -/
def finishFlat : Code Unit := do
  ask world.other
  onProtection () (FuturesProtection.finishFlat env.protection world.protection)

/-- The end of a pass: a flat account has its protection retired. -/
def finish (final : Option Current) : Code Bool := do
  let protection ← Proc.read Adapter.protection
  if protection.isSome = true ∧ final.any Current.flat = true then do
    finishFlat env world
    let final ← reconcile env setup world
    pure (isComplete final)
  else pure (isComplete final)

/-- The positions are closed after a read that shows no open order. -/
def flatten : Option Current → Code Bool
  | none => pure false
  | some current =>
    if current.pendingOrders = [] then do
      Proc.forEach (closePosition env setup world) current.positions
      let final ← reconcile env setup world
      finish env setup world final
    else pure false

/-- `cleanup` after its first read. -/
def cleanupAccount (current : Current) : Code Bool := do
  ask world.other
  Proc.forEach (cancelOrder env world) current.pendingOrders
  let current ← reconcile env setup world
  flatten env setup world current

/-- `cleanup`, and `continue_cleanup`. -/
def cleanup : Code Unit := do
  let current ← reconcile env setup world
  match current with
  | none => note (.returned false)
  | some current => do
    let result ← trying (cleanupAccount env setup world current)
    note (.returned (result.getD false))

/-- The stops are retired, if there is a manager. -/
def finishProtection : Code Unit := do
  let protection ← Proc.read Adapter.protection
  if protection.isSome = true then finishFlat env world else pure ()

/-- `retire_flat_protection`. -/
def retireFlatProtection : Code Bool := do
  let current ← reconcile env setup world
  if current.any Current.flat = true then do
    finishProtection env world
    let final ← reconcile env setup world
    pure (final.any fun current => current.flat && current.retired && !current.protectionOrders.truthy)
  else pure false

/-! ## Calls of the adapter -/

inductive Call where
  | cleanup
  | continueCleanup
  | retireFlatProtection

/-- A call, whatever it raises. -/
def perform (s : Adapter) : Call → Adapter
  | .cleanup | .continueCleanup => (cleanup env setup world s).2
  | .retireFlatProtection => (retireFlatProtection env setup world s).2

end code

end LiveTrader.ShortCleanup

namespace LiveTrader.ShortCleanup

open Lib Lib.Py

/-! ## What a read leaves as it was -/

open FuturesProtection (Manager)

/-! ## The manager -/

/-- The log of the manager grows by events that are no cancel. -/
def NoCancel (m m' : Manager) : Prop := ∃ delta, m'.log = delta ++ m.log ∧ delta.filterMap stopOf = []

theorem NoCancel.refl (m : Manager) : NoCancel m m := ⟨[], rfl, rfl⟩

theorem NoCancel.trans (m m' m'' : Manager) (h : NoCancel m m') (h' : NoCancel m' m'') : NoCancel m m'' := by
  obtain ⟨delta, hlog, hnone⟩ := h
  obtain ⟨delta', hlog', hnone'⟩ := h'
  refine ⟨delta' ++ delta, ?_, ?_⟩
  · rw [hlog', hlog, List.append_assoc]
  · rw [List.filterMap_append, hnone, hnone', List.append_nil]

theorem NoCancel.same {m m' : Manager} (h : m'.log = m.log) : NoCancel m m' := ⟨[], h, rfl⟩

theorem NoCancel.stopEvents {m m' : Manager} (h : NoCancel m m') : stopEvents m m' = [] := by
  obtain ⟨delta, hlog, hnone⟩ := h
  rw [ShortCleanup.stopEvents, hlog, List.length_append, Nat.add_sub_cancel, List.take_left, hnone]

/-- Every write of the manager but the note of a cancel. -/
theorem noCancel_frame : FuturesProtection.FullFrame NoCancel fun e => stopOf e = none where
  refl := NoCancel.refl
  trans := NoCancel.trans
  called _ _ := .same rfl
  noted _ e h := ⟨[e], rfl, by rw [List.filterMap_cons_none h, List.filterMap_nil]⟩
  claims _ _ _ := .same rfl
  incidents _ _ := .same rfl
  active _ _ := .same rfl

/-! ## The adapter -/

/-- The log grows by events of a kind, and the claims grow. -/
structure Adds (kind : Event → Bool) (s s' : Adapter) : Prop where
  log : ∃ delta, s'.log = delta ++ s.log ∧ ∀ e ∈ delta, kind e = true
  claims : ∀ client ∈ s.claims, client ∈ s'.claims
  attempts : s'.cancelAttempts = s.cancelAttempts

/-- An account read. -/
def Event.isRead : Event → Bool
  | .looked | .read _ => true
  | _ => false

/-- An account read, or a reconcile. -/
def Event.isReconcile : Event → Bool
  | .reconciled _ => true
  | e => e.isRead

variable {env : Env} {setup : Setup} {world : World} {kind : Event → Bool} {α β : Type}

theorem Adds.refl (s : Adapter) : Adds kind s s := ⟨⟨[], rfl, fun _ h => absurd h List.not_mem_nil⟩, fun _ h => h, rfl⟩

theorem Adds.trans (s s' s'' : Adapter) (h : Adds kind s s') (h' : Adds kind s' s'') : Adds kind s s'' := by
  obtain ⟨delta, hlog, hkind⟩ := h.log
  obtain ⟨delta', hlog', hkind'⟩ := h'.log
  refine ⟨⟨delta' ++ delta, ?_, fun e he => ?_⟩, fun client hclient => h'.claims client (h.claims client hclient),
    h'.attempts.trans h.attempts⟩
  · rw [hlog', hlog, List.append_assoc]
  · exact (List.mem_append.mp he).elim (hkind' e) (hkind e)

theorem Adds.mono {kind' : Event → Bool} {s s' : Adapter} (h : Adds kind s s') (himp : ∀ e, kind e = true → kind' e = true) :
    Adds kind' s s' := by
  obtain ⟨delta, hlog, hkind⟩ := h.log
  exact ⟨⟨delta, hlog, fun e he => himp e (hkind e he)⟩, h.claims, h.attempts⟩

/-- What is written to neither the log nor the cancels. -/
theorem Adds.same {s s' : Adapter} (hlog : s'.log = s.log) (hclaims : ∀ client ∈ s.claims, client ∈ s'.claims)
    (hattempts : s'.cancelAttempts = s.cancelAttempts) : Adds kind s s' :=
  ⟨⟨[], hlog, fun _ h => absurd h List.not_mem_nil⟩, hclaims, hattempts⟩

theorem adds_pure (a : α) : Proc.Keeps (Adds kind) (pure a : Code α) := Proc.keeps_pure Adds.refl a

theorem adds_of (answer : FuturesProtection.Answer α) : Proc.Keeps (Adds kind) (Proc.of answer) := Proc.keeps_of Adds.refl answer

theorem adds_check (c : Prop) [Decidable c] (e : FuturesProtection.Raised) : Proc.Keeps (Adds kind) (Proc.check c e) :=
  Proc.keeps_check Adds.refl c e

theorem adds_read (f : Adapter → α) : Proc.Keeps (Adds kind) (Proc.read f : Code α) := Proc.keeps_read Adds.refl f

theorem adds_bind {m : Code α} {f : α → Code β} (h : Proc.Keeps (Adds kind) m) (hf : ∀ a, Proc.Keeps (Adds kind) (f a)) :
    Proc.Keeps (Adds kind) (m >>= f) :=
  h.bind Adds.trans hf

theorem adds_ask (answer : ℕ → FuturesProtection.Answer α) : Proc.Keeps (Adds kind) (ask answer) :=
  adds_bind (adds_read _) fun _ => adds_bind (Proc.keeps_modify fun _ => .same rfl (fun _ h => h) rfl) fun _ => adds_of _

theorem adds_note {e : Event} (h : kind e = true) : Proc.Keeps (Adds kind) (note e) :=
  Proc.keeps_modify fun _ => ⟨⟨[e], rfl, fun _ he => List.mem_singleton.mp he ▸ h⟩, fun _ hc => hc, rfl⟩

/-- The manager may do what it likes, as long as it cancels nothing. -/
theorem adds_onProtection {absent : α} {code : FuturesProtection.Code α} (h : Proc.Keeps NoCancel code) :
    Proc.Keeps (Adds kind) (onProtection absent code) := by
  intro s
  rw [onProtection.eq_def]
  cases s.protection with
  | none => exact .refl s
  | some m =>
    have hlog : stopEvents m (code m).2 ++ s.log = s.log := by rw [NoCancel.stopEvents (h m), List.nil_append]
    exact .same hlog (fun _ hc => hc) rfl

theorem adds_trying {code : Code α} (h : Proc.Keeps (Adds kind) code) : Proc.Keeps (Adds kind) (trying code) :=
  adds_bind (Proc.Keeps.outcome h) fun _ => adds_pure _

theorem adds_permitted (answer : ℕ → FuturesProtection.Answer Bool) (code : String) : Proc.Keeps (Adds kind) (permitted answer code) :=
  adds_bind (adds_ask _) fun _ => adds_check _ _

theorem adds_recordExecutions : Proc.Keeps (Adds kind) (recordExecutions world) := by
  refine adds_bind (adds_ask _) fun recorded => adds_bind (Proc.keeps_modify fun s => ?_) fun _ => adds_ask _
  exact .same rfl (fun _ hc => List.mem_append_right _ hc) rfl

theorem adds_pollFuturesProtection : Proc.Keeps (Adds kind) (pollFuturesProtection env world) := by
  refine Proc.Keeps.rescue Adds.trans (adds_bind (adds_onProtection (noCancel_frame.poll (fun _ _ => rfl) fun _ _ _ _ => rfl)) fun items => ?_) fun e => ?_
  · exact Proc.Keeps.forEach Adds.refl Adds.trans (fun _ => adds_recordExecutions) items
  · exact adds_onProtection (noCancel_frame.incident _ _)

theorem adds_checkFutures (raw : Fields) (positions : List Position) :
    Proc.Keeps (Adds kind) (checkFutures setup world raw positions) := by
  refine adds_bind (adds_of _) fun algos => adds_bind (adds_read _) fun protection => ?_
  exact adds_bind (adds_check _ _) fun _ => adds_bind adds_recordExecutions fun _ => adds_check _ _

theorem adds_checkProtection (positions : List Position) : Proc.Keeps (Adds kind) (checkProtection env world positions) :=
  adds_bind (adds_read _) fun _ => .ite (adds_pure ()) (adds_onProtection (noCancel_frame.checkPositions _))

theorem adds_snapshot : Proc.Keeps (Adds Event.isRead) (snapshot env setup world) := by
  refine adds_bind adds_pollFuturesProtection fun _ => adds_bind (adds_note rfl) fun _ => ?_
  refine adds_bind (adds_ask _) fun raw => adds_bind (adds_check _ _) fun _ => adds_bind (adds_ask _) fun now => ?_
  refine adds_bind (adds_of _) fun observedAt => adds_bind (adds_check _ _) fun _ => adds_bind (adds_of _) fun _ => ?_
  refine adds_bind (adds_ask _) fun positions => adds_bind (.ite (adds_checkFutures raw positions) (adds_pure ())) fun _ => ?_
  refine adds_bind (adds_ask _) fun _ => adds_bind (adds_checkProtection positions) fun _ => adds_bind (adds_read _) fun protection => ?_
  exact adds_bind (adds_note rfl) fun _ => adds_pure _

theorem adds_sizeOrder (symbol : String) (direction : FuturesProtection.Direction) (reserved : Option ℚ) :
    Proc.Keeps (Adds Event.isRead) (sizeOrder env setup world symbol direction reserved) := by
  refine adds_trying (adds_bind (adds_ask _) fun _ => adds_bind adds_snapshot fun seen => adds_bind (adds_ask _) fun _ => ?_)
  exact adds_bind (adds_check _ _) fun _ => adds_bind (adds_of _) fun position => adds_bind (adds_check _ _) fun _ => adds_ask _

theorem adds_reconcile : Proc.Keeps (Adds Event.isReconcile) (reconcile env setup world) := by
  have hsnapshot : Proc.Keeps (Adds Event.isReconcile) (snapshot env setup world) :=
    adds_snapshot.mono fun _ _ h => h.mono fun e he => by cases e <;> first | rfl | exact he
  refine adds_trying (adds_bind (adds_ask _) fun _ => adds_bind hsnapshot fun seen => adds_bind (adds_ask _) fun _ => ?_)
  refine adds_bind (adds_of _) fun pendingOrders => ?_
  refine adds_bind (adds_bind (adds_read _) fun _ => adds_of _) fun retired => adds_bind (adds_note rfl) fun _ => adds_pure _

end LiveTrader.ShortCleanup
