/-
# `ProgramLedger.Equity` — the loss watermarks of a functional test

The tables `functional_test_equity_scopes` and `functional_test_equity_observations`, the call that appends an equity
point and the reading that checks a stored scope.  An observation is one transaction: what raises in it changes nothing.
A scope keeps its first equity, the peak, the worst drawdown and the number of points, each updated from the point before.

Times are texts in the tables and compared as texts.  Equities are exact; one that is not finite is absent.
-/
import LiveTrader.Lib.Drawdown
import LiveTrader.Lib.IsoTime
import LiveTrader.Lib.Python
import LiveTrader.Lib.Table

namespace LiveTrader.ProgramLedger

open Lib Lib.Py Lib.Drawdown

/-! ## Tables -/

/-- The contents of a row of `functional_test_equity_scopes`, which its integrity hash seals. -/
structure EquityScope where
  scopeKey : String
  permitId : String
  accountFingerprint : String
  startingEquity : ℚ
  peakEquity : ℚ
  currentEquity : ℚ
  worstDrawdown : ℚ
  firstObservedAt : String
  lastObservedAt : String
  observationCount : ℕ
  latestObservationHash : String
  deriving DecidableEq

structure EquityScopeRow extends EquityScope where
  integrityHash : String
  deriving DecidableEq

def EquityScopeRow.key (row : EquityScopeRow) : String := row.scopeKey

/-- What the content hash of an observation seals. -/
structure EquityPoint where
  scopeKey : String
  permitId : String
  accountFingerprint : String
  observedAt : String
  equity : ℚ
  peakEquity : ℚ
  drawdown : ℚ
  worstDrawdown : ℚ
  previousHash : String
  deriving DecidableEq

/-- A row of `functional_test_equity_observations`. -/
structure EquityObservation where
  eventId : String
  scopeKey : String
  observedAt : String
  equity : ℚ
  peakEquity : ℚ
  drawdown : ℚ
  worstDrawdown : ℚ
  previousHash : String
  contentHash : String
  deriving DecidableEq

structure EquityStore where
  scopes : Table EquityScopeRow.key
  observations : List EquityObservation

def EquityStore.empty : EquityStore := ⟨.empty, []⟩

/-- `_functional_equity_scope_key`, and `_functional_equity_integrity_hash` on the two kinds of contents. -/
structure EquityHashes where
  scopeKey : String → String → String
  point : EquityPoint → String
  scope : EquityScope → String

/-- The points of a scope, in the order of `rowid`. -/
def EquityStore.pointsOf (s : EquityStore) (key : String) : List EquityObservation :=
  s.observations.filter (·.scopeKey = key)

/-! ## Arguments -/

/-- The normalized permit and account. -/
structure EquityIdentity where
  permitId : String
  accountFingerprint : String
  deriving DecidableEq

def EquityHashes.keyOf (H : EquityHashes) (id : EquityIdentity) : String := H.scopeKey id.permitId id.accountFingerprint

/-- `_validate_functional_test_equity_identity`. -/
def validateFunctionalTestEquityIdentity (permitId accountFingerprint : String) : Result EquityIdentity := do
  let permit := strip permitId
  let account := lower (strip accountFingerprint)
  require (permit ≠ "") (.value "functional-test-equity-permit-id-required")
  require (16 ≤ account.length) (.value "functional-test-equity-account-fingerprint-invalid")
  pure ⟨permit, account⟩

/-- The argument of `_utc_observation_text`: what `datetime.fromisoformat` and `astimezone` make of it. -/
inductive ObservedAt where
  | missing
  | malformed
  | naive
  | outOfRange
  | utc (t : Utc)
  deriving DecidableEq

/-- `_utc_observation_text`. -/
def utcObservationText : ObservedAt → Result String
  | .missing => .error (.value "functional-test-equity-observed-at-required")
  | .malformed => .error (.value "functional-test-equity-observed-at-invalid")
  | .naive => .error (.value "functional-test-equity-observed-at-timezone-required")
  | .outOfRange => .error (.runtime "date value out of range")
  | .utc t => .ok t.isoformat

/-- The arguments of `observe_functional_test_equity`; `nonce` is the hexadecimal text of the new event's `uuid4`. -/
structure EquityCall where
  permitId : String
  accountFingerprint : String
  currentEquity : Option ℚ
  observedAt : ObservedAt
  allowCreate : Bool
  nonce : String
  deriving DecidableEq

/-- `math.isclose(a, b, rel_tol=0.0, abs_tol=1e-9)`. -/
def IsClose (a b : ℚ) : Prop := |a - b| ≤ 1 / 10 ^ 9

instance (a b : ℚ) : Decidable (IsClose a b) := inferInstanceAs (Decidable (_ ≤ _))

/-! ## Reading a scope -/

/-- `ORDER BY observed_at DESC, rowid DESC LIMIT 1`. -/
def latestOf (points : List EquityObservation) : Option EquityObservation :=
  points.foldl (fun best row => if best.any fun b => row.observedAt < b.observedAt then best else some row) none

/-- `_validated_functional_test_equity_row`. -/
def validatedFunctionalTestEquityRow (H : EquityHashes) (row : EquityScopeRow) (latestObservation : Option EquityObservation)
    (historyCount : ℕ) : Result EquityScope := do
  let payload := row.toEquityScope
  require (0 < payload.startingEquity ∧ payload.startingEquity ≤ payload.peakEquity ∧ 0 ≤ payload.currentEquity ∧
      0 ≤ payload.worstDrawdown ∧ 0 < payload.observationCount ∧ historyCount = payload.observationCount)
    (.value "functional-test-equity-scope-corrupt")
  let latest ← orRaise (.value "functional-test-equity-scope-corrupt") latestObservation
  require (row.integrityHash = H.scope payload) (.value "functional-test-equity-scope-integrity-failed")
  require (latest.contentHash = payload.latestObservationHash ∧ latest.observedAt = payload.lastObservedAt ∧
      IsClose latest.equity payload.currentEquity ∧ IsClose latest.peakEquity payload.peakEquity ∧
      IsClose latest.worstDrawdown payload.worstDrawdown)
    (.value "functional-test-equity-history-mismatch")
  pure payload

/-- `functional_test_equity_scope` without a maximum age. -/
def functionalTestEquityScope (H : EquityHashes) (s : EquityStore) (permitId accountFingerprint : String) : Result EquityScope := do
  let id ← validateFunctionalTestEquityIdentity permitId accountFingerprint
  let row ← orRaise (.value "functional-test-equity-scope-missing") (s.scopes.get? (H.keyOf id))
  require (row.permitId = id.permitId ∧ lower row.accountFingerprint = id.accountFingerprint)
    (.value "functional-test-equity-scope-binding-mismatch")
  let points := s.pointsOf (H.keyOf id)
  validatedFunctionalTestEquityRow H row (latestOf points) points.length

/-! ## Observing -/

/-- The watermarks after a point. -/
structure EquityMarks where
  starting : ℚ
  peak : ℚ
  worst : ℚ
  count : ℕ
  firstObserved : String
  previousHash : String
  deriving DecidableEq

/-- The marks of a new scope. -/
def startMarks (allowCreate : Bool) (equity : ℚ) (observed : String) : Result EquityMarks := do
  require (allowCreate = true) (.value "functional-test-equity-scope-missing")
  require (0 < equity) (.value "functional-test-equity-starting-value-invalid")
  pure ⟨equity, equity, 0, 1, observed, ""⟩

/-- The marks of an existing scope after one more point. -/
def nextMarks (row : EquityScope) (equity : ℚ) : EquityMarks where
  starting := row.startingEquity
  peak := max row.peakEquity equity
  worst := max row.worstDrawdown (max 0 (max row.peakEquity equity - equity))
  count := row.observationCount + 1
  firstObserved := row.firstObservedAt
  previousHash := row.latestObservationHash

/-- `event_payload`. -/
def equityPoint (H : EquityHashes) (id : EquityIdentity) (equity : ℚ) (observed : String) (marks : EquityMarks) : EquityPoint where
  scopeKey := H.keyOf id
  permitId := id.permitId
  accountFingerprint := id.accountFingerprint
  observedAt := observed
  equity := equity
  peakEquity := marks.peak
  drawdown := max 0 (marks.peak - equity)
  worstDrawdown := marks.worst
  previousHash := marks.previousHash

/-- The observation that is inserted. -/
def equityObservation (H : EquityHashes) (eventId : String) (point : EquityPoint) : EquityObservation where
  eventId := eventId
  scopeKey := point.scopeKey
  observedAt := point.observedAt
  equity := point.equity
  peakEquity := point.peakEquity
  drawdown := point.drawdown
  worstDrawdown := point.worstDrawdown
  previousHash := point.previousHash
  contentHash := H.point point

/-- `scope_payload`. -/
def scopePayload (H : EquityHashes) (id : EquityIdentity) (equity : ℚ) (observed : String) (marks : EquityMarks) : EquityScope where
  scopeKey := H.keyOf id
  permitId := id.permitId
  accountFingerprint := id.accountFingerprint
  startingEquity := marks.starting
  peakEquity := marks.peak
  currentEquity := equity
  worstDrawdown := marks.worst
  firstObservedAt := marks.firstObserved
  lastObservedAt := observed
  observationCount := marks.count
  latestObservationHash := H.point (equityPoint H id equity observed marks)

/-- `ON CONFLICT(scope_key) DO UPDATE`: the columns that an upsert takes over. -/
def EquityScopeRow.take (payload : EquityScope) (integrityHash : String) (row : EquityScopeRow) : EquityScopeRow :=
  { row with
    peakEquity := payload.peakEquity
    currentEquity := payload.currentEquity
    worstDrawdown := payload.worstDrawdown
    lastObservedAt := payload.lastObservedAt
    observationCount := payload.observationCount
    latestObservationHash := payload.latestObservationHash
    integrityHash }

theorem EquityScopeRow.key_take (payload : EquityScope) (integrityHash : String) (row : EquityScopeRow) :
    (row.take payload integrityHash).key = row.key := rfl

/-- The upsert of a scope. -/
def upsertScope (scopes : Table EquityScopeRow.key) (payload : EquityScope) (integrityHash : String) :
    Result (Table EquityScopeRow.key) :=
  match scopes.get? payload.scopeKey with
  | some _ => .ok (scopes.update payload.scopeKey (EquityScopeRow.take payload integrityHash) (EquityScopeRow.key_take payload integrityHash))
  | none => do
    require (∀ row ∈ scopes.rows, ¬ (row.permitId = payload.permitId ∧ row.accountFingerprint = payload.accountFingerprint))
      (.integrity "UNIQUE constraint failed: functional_test_equity_scopes.permit_id, functional_test_equity_scopes.account_fingerprint")
    orRaise (.integrity "UNIQUE constraint failed: functional_test_equity_scopes.scope_key") (scopes.insert ⟨payload, integrityHash⟩)

/-- The two writes of an observation. -/
def writePoint (H : EquityHashes) (s : EquityStore) (id : EquityIdentity) (equity : ℚ) (observed nonce : String) (marks : EquityMarks) :
    Result EquityStore := do
  let eventId := "functional-equity:" ++ H.keyOf id ++ ":" ++ nonce
  let observation := equityObservation H eventId (equityPoint H id equity observed marks)
  require (∀ row ∈ s.observations, row.eventId ≠ eventId)
    (.integrity "UNIQUE constraint failed: functional_test_equity_observations.event_id")
  require (∀ row ∈ s.observations, row.contentHash ≠ observation.contentHash)
    (.integrity "UNIQUE constraint failed: functional_test_equity_observations.content_hash")
  let payload := scopePayload H id equity observed marks
  let scopes ← upsertScope s.scopes payload (H.scope payload)
  pure ⟨scopes, s.observations ++ [observation]⟩

/-- What a transaction leaves: whose point it was, the tables, and whether a point was written. -/
structure Observed where
  id : EquityIdentity
  store : EquityStore
  written : Bool

/-- The branch of an existing scope. -/
def observeAgain (H : EquityHashes) (s : EquityStore) (row : EquityScopeRow) (id : EquityIdentity) (equity : ℚ)
    (observed nonce : String) : Result Observed := do
  require (row.permitId = id.permitId ∧ lower row.accountFingerprint = id.accountFingerprint)
    (.value "functional-test-equity-scope-binding-mismatch")
  require (¬ observed < row.lastObservedAt) (.value "functional-test-equity-observation-regressed")
  if observed = row.lastObservedAt then do
    require (IsClose equity row.currentEquity) (.value "functional-test-equity-observation-conflict")
    pure ⟨id, s, false⟩
  else do
    let s' ← writePoint H s id equity observed nonce (nextMarks row.toEquityScope equity)
    pure ⟨id, s', true⟩

/-- The branch of a scope that does not exist. -/
def observeFirst (H : EquityHashes) (s : EquityStore) (allowCreate : Bool) (id : EquityIdentity) (equity : ℚ) (observed nonce : String) :
    Result Observed := do
  let marks ← startMarks allowCreate equity observed
  let s' ← writePoint H s id equity observed nonce marks
  pure ⟨id, s', true⟩

/-- The transaction of `observe_functional_test_equity`. -/
def recordObservation (H : EquityHashes) (s : EquityStore) (c : EquityCall) : Result Observed := do
  let id ← validateFunctionalTestEquityIdentity c.permitId c.accountFingerprint
  let equity ← orRaise (.value "functional-test-equity-value-invalid") c.currentEquity
  require (0 ≤ equity) (.value "functional-test-equity-value-invalid")
  let observed ← utcObservationText c.observedAt
  match s.scopes.get? (H.keyOf id) with
  | none => observeFirst H s c.allowCreate id equity observed c.nonce
  | some row => observeAgain H s row id equity observed c.nonce

/-- `observe_functional_test_equity`: the scope is read after the commit. -/
def observeFunctionalTestEquity (H : EquityHashes) (s : EquityStore) (c : EquityCall) : EquityStore × Result EquityScope :=
  match recordObservation H s c with
  | .error e => (s, .error e)
  | .ok seen => (seen.store, functionalTestEquityScope H seen.store seen.id.permitId seen.id.accountFingerprint)

/-! ## Accepted points -/

/-- The tables after a sequence of calls, accepted or rejected. -/
def observeAll (H : EquityHashes) (s : EquityStore) (calls : List EquityCall) : EquityStore :=
  calls.foldl (fun s c => (observeFunctionalTestEquity H s c).1) s

/-- The time and the equity of a call that has both. -/
def EquityCall.point (c : EquityCall) : Option (Utc × ℚ) :=
  match c.observedAt, c.currentEquity with
  | .utc t, some equity => some (t, equity)
  | _, _ => none

/-- The point that a call adds to the scope under a key. -/
def acceptedPoint (H : EquityHashes) (key : String) (s : EquityStore) (c : EquityCall) : Option (Utc × ℚ) :=
  match recordObservation H s c with
  | .ok seen => if seen.written = true ∧ H.keyOf seen.id = key then c.point else none
  | .error _ => none

/-- The accepted points of a scope, in the order of the calls. -/
def acceptedPoints (H : EquityHashes) (key : String) : EquityStore → List EquityCall → List (Utc × ℚ)
  | _, [] => []
  | s, c :: calls => (acceptedPoint H key s c).toList ++ acceptedPoints H key (observeFunctionalTestEquity H s c).1 calls

end LiveTrader.ProgramLedger
