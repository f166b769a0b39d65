/-
# `Dispatch.Journal` — the durable journal of one-attempt intents

The table `continuous_intents`, the control authority of a process, and the
operations that read and write them: `enqueue`, `claim`, `finish`, `reconcile`
and `continuous_dispatch_allowed`.

Every journal method is one SQLite transaction that is rolled back when it
raises, so a method is a function from a journal to `Result` of a journal.  The
authority is read outside the transaction in `enqueue` and inside it in `claim`;
`enqueue` is therefore split at that point into `draft` and `insertDraft`.

An intent is the dictionary of its dataclass fields, so `asdict` and
`OrderIntent(**…)` are the identity.  The columns `created_at` and `updated_at`
are read by the listing `rows()` only and are left out.
-/
import LiveTrader.Lib.Json

namespace LiveTrader.Dispatch

open Lib.Py

/-! ## Control authority -/

/-- The published pair `_AUTHORITY`. -/
structure Authority where
  epoch : String
  blocked : Bool
  deriving DecidableEq

/-- The authority of one process and the set of its open controls. -/
structure Control where
  authority : Authority
  tokens : List String
  deriving DecidableEq

/-- `begin_control`, with the token and the epoch it draws. -/
def beginControl (c : Control) (token epoch : String) : Control :=
  ⟨⟨epoch, true⟩, token :: c.tokens⟩

/-- `end_control`. -/
def endControl (c : Control) (token epoch : String) : Control :=
  let tokens := c.tokens.filter (· ≠ token)
  ⟨⟨epoch, !tokens.isEmpty⟩, tokens⟩

/-! ## Intents and their seals -/

/-- An `OrderIntent` by its fields. -/
structure OrderIntent where
  fields : Fields

namespace OrderIntent

def metadata (intent : OrderIntent) : Json := intent.fields.at "metadata"

def mode (intent : OrderIntent) : Json := intent.fields.at "mode"

/-- `asdict(intent)`. -/
def asdict (intent : OrderIntent) : Json := .obj intent.fields

end OrderIntent

/-- `_META`. -/
def metaKey : String := "continuous_dispatch"

/-- The metadata keys a submission may add to a sealed intent. -/
def derivedKeys : List String :=
  ["trace_id", "traceId", "risk_reducing", "risk_reducing_claim_rejected", "capital_rollout",
    "functional_test_reservation_id", metaKey]

/-- `continuous_dispatch_allowed`: the context is what the dispatcher set for the
attempt under way, the seal and the sealed payload. -/
def continuousDispatchAllowed (authority : Authority) (context : Option (Json × Fields))
    (intent : OrderIntent) : Result (Bool × String) := do
  let metadata : Fields := match intent.metadata with
    | .obj fields => fields
    | _ => []
  match metadata.at metaKey with
  | .null => pure (true, "")
  | carried =>
    match context with
    | none => pure (false, "continuous-dispatch-capability-missing")
    | some (sealed, original) =>
      if !carried.isObj || !carried.eq sealed then
        pure (false, "continuous-dispatch-capability-missing")
      else do
        let fields ← carried.fields
        if authority.blocked || !(fields.at "epoch").eq (.str authority.epoch) then
          pure (false, "continuous-dispatch-control-generation-changed")
        else do
          let kept ← original.section "metadata"
          if metadata.any fun e => (kept.lookup e.1).isNone && e.1 ∉ derivedKeys then
            pure (false, "continuous-dispatch-metadata-key-added")
          else if original.any fun e =>
              e.1 ≠ "metadata" && !(intent.fields.at e.1).eq e.2 then
            pure (false, "continuous-dispatch-intent-changed")
          else if kept.any fun e =>
              e.1 ∉ ["risk_reducing", "risk_reducing_claim_rejected"] &&
                !(metadata.at e.1).eq e.2 then
            pure (false, "continuous-dispatch-metadata-changed")
          else pure (true, "")

/-! ## Rows -/

inductive RowState where
  | queued
  | dispatching
  | completed
  | blocked
  | unknown
  | aborted
  | resolved
  deriving DecidableEq

/-- The states that no operation leaves. -/
def RowState.final : RowState → Bool
  | .completed | .blocked | .aborted | .resolved => true
  | _ => false

/-- The `result` column. -/
structure Summary where
  ok : Bool
  orderId : String
  orderState : String
  deriving DecidableEq

def Summary.empty : Summary := ⟨false, "", ""⟩

structure Row where
  commandId : String
  owner : String
  epoch : String
  payload : Fields
  payloadHash : String
  state : RowState
  result : Summary

/-- The seal the dispatcher attaches and the reconciliation expects. -/
def Row.sealDict (row : Row) : Json :=
  .obj [("commandId", .str row.commandId), ("epoch", .str row.epoch),
    ("payloadHash", .str row.payloadHash), ("owner", .str row.owner)]

/-- The intent as it is handed over: `replace(intent, metadata={**metadata, _META: seal})`. -/
def Row.sealedIntent (row : Row) : Result OrderIntent := do
  let metadata ← (row.payload.at "metadata").fields
  pure ⟨row.payload.put "metadata" (.obj (metadata.put metaKey row.sealDict))⟩

/-! ## The table -/

/-- The table, with its primary key. -/
structure Journal where
  rows : List Row
  unique : (rows.map Row.commandId).Nodup

namespace Journal

def empty : Journal := ⟨[], List.nodup_nil⟩

/-- `SELECT * … WHERE command_id=?`. -/
def row? (j : Journal) (id : String) : Option Row := j.rows.find? (·.commandId = id)

/-- `INSERT OR IGNORE`, and whether a row was created. -/
def insert (j : Journal) (row : Row) : Journal × Bool :=
  if h : row.commandId ∈ j.rows.map Row.commandId then (j, false)
  else (⟨j.rows ++ [row], by
    rw [List.map_append, List.nodup_append]
    refine ⟨j.unique, List.nodup_cons.mpr ⟨List.not_mem_nil, List.nodup_nil⟩, ?_⟩
    rintro id hid _ hrow rfl
    exact h (List.mem_singleton.mp hrow ▸ hid)⟩, true)

/-- Rewrite the row with this key, keeping the key. -/
def update (j : Journal) (id : String) (state : RowState) (result : Option Summary) : Journal :=
  ⟨j.rows.map fun row =>
      if row.commandId = id then { row with state, result := result.getD row.result } else row, by
    rw [List.map_map]
    convert j.unique using 2
    funext row
    simp only [Function.comp]
    split <;> rfl⟩

/-- `_unresolved`: an unknown outcome, or another owner's attempt under way. -/
def unresolved (j : Journal) (owner : String) : Bool :=
  j.rows.any fun row =>
    row.state = .unknown || (row.state = .dispatching && row.owner ≠ owner)

end Journal

/-! ## The operations -/

/-- `_MAX_PAYLOAD`. -/
def maxPayload : ℕ := 128 * 1024

/-- What `enqueue` seals as the identity of an intent. -/
def identity (evaluation : String) (intent : OrderIntent) (metadata : Fields) : Json :=
  .obj [("evaluation", .str evaluation), ("strategy", intent.fields.at "strategy_id"),
    ("broker", metadata.at "broker_id"), ("symbol", intent.fields.at "symbol"),
    ("side", intent.fields.at "side"), ("deployment", metadata.at "deployment_id"),
    ("portfolio", metadata.at "portfolio_id")]

/-- What `enqueue` has at hand when its transaction begins; `blocked` is the flag of
the authority it read. -/
structure Draft where
  commandId : String
  owner : String
  epoch : String
  payload : Fields
  payloadHash : String
  blocked : Bool

/-- `enqueue` up to the read of the authority. -/
def draft (codec : Codec) (authority : Authority) (owner : String) (intent : OrderIntent) :
    Result Draft := do
  let metadata ← (intent.metadata.orElse (.obj [])).fields
  require (metadata.lookup metaKey).isNone
    (.value "continuous-dispatch-seal-cannot-be-inherited")
  let evaluation := strip (codec.text (metadata.at "runtime_evaluation_key"))
  require (evaluation ≠ "" ∧ (intent.mode.eq (.str "SMALL_LIVE") ∨ intent.mode.eq (.str "FULL_LIVE")))
    (.value "continuous-intent-evaluation-and-live-mode-required")
  require (codec.byteLength intent.asdict ≤ maxPayload)
    (.value "continuous-intent-payload-too-large")
  pure {
    commandId := codec.sha256 (identity evaluation intent metadata)
    owner
    epoch := authority.epoch
    payload := intent.fields
    payloadHash := codec.sha256 intent.asdict
    blocked := authority.blocked }

/-- The row a draft is inserted as. -/
def Draft.row (d : Draft) (unresolved : Bool) : Row where
  commandId := d.commandId
  owner := d.owner
  epoch := d.epoch
  payload := d.payload
  payloadHash := d.payloadHash
  state := if d.blocked || unresolved then .blocked else .queued
  result := .empty

/-- The transaction of `enqueue`. -/
def insertDraft (j : Journal) (d : Draft) : Journal × Bool := j.insert (d.row (j.unresolved d.owner))

/-- `claim`: the row is returned when it is now being dispatched. -/
def claim (codec : Codec) (authority : Authority) (owner : String) (j : Journal) (id : String) :
    Result (Journal × Option Row) :=
  match j.row? id with
  | none => .ok (j, none)
  | some row =>
    if row.owner ≠ owner ∨ row.state ≠ .queued then .ok (j, none)
    else if authority.blocked || row.epoch ≠ authority.epoch || j.unresolved owner then
      .ok (j.update id .blocked none, none)
    else do
      require (codec.sha256 (.obj row.payload) = row.payloadHash)
        (.value "continuous-intent-journal-hash-mismatch")
      pure (j.update id .dispatching none, some row)

/-- The outcomes `finish` accepts. -/
inductive Outcome where
  | completed
  | blocked
  | unknown
  | aborted
  deriving DecidableEq

def Outcome.state : Outcome → RowState
  | .completed => .completed
  | .blocked => .blocked
  | .unknown => .unknown
  | .aborted => .aborted

/-- What `finish` keeps of a result. -/
def summary (codec : Codec) (result : Fields) : Result Summary := do
  let order ← ((result.at "order").orElse (.obj [])).fields
  pure ⟨(result.at "ok").isTrue, codec.text (order.at "order_id"), codec.text (order.at "state")⟩

/-- `finish`: a compare-and-set on the owner's own open row. -/
def finish (codec : Codec) (owner : String) (j : Journal) (id : String) (outcome : Outcome)
    (result : Fields) : Result Journal := do
  let kept ← summary codec result
  match j.row? id with
  | none => .error (.runtime "continuous-intent-outcome-cas-failed")
  | some row =>
    if row.owner = owner ∧ (row.state = .queued ∨ row.state = .dispatching) then
      pure (j.update id outcome.state (some kept))
    else .error (.runtime "continuous-intent-outcome-cas-failed")

/-! ## Reconciliation -/

/-- The order states that settle an attempt. -/
def knownStates : List String :=
  ["acknowledged", "partially_filled", "filled", "cancelled", "canceled", "rejected",
    "risk_blocked", "adapter_blocked"]

/-- What `reconcile` demands of a dispatch row before it closes an open row. -/
def matchesOrder (codec : Codec) (row : Row) (carried order : Fields) : Result Bool := do
  if !(Json.obj carried).eq row.sealDict then pure false
  else if codec.sha256 (.obj row.payload) ≠ row.payloadHash then pure false
  else do
    let acknowledged ← (order.at "state").isOneOf ["acknowledged", "partially_filled", "filled"]
    if acknowledged && strip (codec.text (order.at "broker_order_id")) ∈ ["", "-"] then pure false
    else do
      let metadata ← row.payload.section "metadata"
      pure ((order.at "symbol").eq (row.payload.at "symbol") &&
        (order.at "broker_id").eq (metadata.at "broker_id") &&
        (metadata.at "portfolio_execution").eq (order.at "portfolio_execution"))

/-- One dispatch row of `reconcile`. -/
def reconcileOne (codec : Codec) (owner : String) (j : Journal) (order : Fields) :
    Result (Journal × ℕ) :=
  match order.at metaKey with
  | .obj carried => do
    let known ← (order.at "state").isOneOf knownStates
    if !known then pure (j, 0)
    else match j.row? (codec.text (Fields.at carried "commandId")) with
      | none => pure (j, 0)
      | some row =>
        if row.state = .unknown ∨ (row.state = .dispatching ∧ row.owner ≠ owner) then do
          let matched ← matchesOrder codec row carried order
          if matched then pure (j.update row.commandId .resolved none, 1) else pure (j, 0)
        else pure (j, 0)
  | _ => pure (j, 0)

/-- `reconcile`. -/
def reconcile (codec : Codec) (owner : String) : Journal → List Fields → Result (Journal × ℕ)
  | j, [] => .ok (j, 0)
  | j, order :: orders => do
    let (j', n) ← reconcileOne codec owner j order
    let (j'', m) ← reconcile codec owner j' orders
    pure (j'', n + m)

end LiveTrader.Dispatch
