/-
# `OrderDispatch.Crossed` — when a crossed order is kept

A dispatch has three parts: the checks and the checkpoint in `order_dispatch_journal`, the call of
the router with the classification of its outcome, and the `finally` block that writes the outcome
to the journal.  Any number of dispatches run at once, of any number of processes; a process may
be lost between any two parts.

The OMS is not part of this repository: its operations on a managed order are given (`Oms`).

A request that was handed to the transport may have crossed, whatever came back.  The order is
kept for the reconciliation exactly when the attempt is `Clear`: no exception that is taken for a
broker that was not ready comes out of it, and no response that is not a rejection looks like one
(`kept_iff_clear`).
-/
import LiveTrader.Lib.Runs
import LiveTrader.OrderDispatch.Router
import Mathlib.Logic.Function.Basic

namespace LiveTrader.OrderDispatch

open Lib Lib.Py Lib.Runs

/-- The operations of `LIVE_OMS` on the status of a managed order. -/
structure Oms where
  transition : String → String → Answer String
  acknowledge : String → String → Answer String
  markUnknown : String → Answer String

/-- What an order that is being submitted can become. -/
structure Oms.Lawful (oms : Oms) : Prop where
  submitting : ∀ {status status'}, oms.transition status "SUBMITTING" = .ok status' → status' = "SUBMITTING"
  rejected : oms.transition "SUBMITTING" "REJECTED" = .ok "REJECTED"
  acknowledged : ∀ {id}, id ≠ "" → oms.acknowledge "SUBMITTING" id = .ok "ACKNOWLEDGED"
  unknown : oms.markUnknown "SUBMITTING" = .ok "UNKNOWN"

/-- The order record. -/
structure Order where
  orderId : String
  idempotencyKey : String
  brokerId : String
  brokerOrderId : String := "-"
  state : String
  queueState : String
  reason : String
  deriving DecidableEq

/-- A row of `order_dispatch_journal`; `order_id` and `idempotency_key` are unique. -/
structure Row where
  orderId : String
  idempotencyKey : String
  brokerId : String
  brokerOrderId : String
  state : String
  order : Order
  deriving DecidableEq

/-! ## Parts of a dispatch -/

/-- What a check says: the reason of its veto, if any. -/
abbrev Gate := Answer (Option String)

/-- The first part: the checks, and the faults of the checkpoint and of its mirror. -/
structure Opening where
  gate : Gate := .ok none
  checkpoint : Option Raised := none
  mirror : Option Raised := none

/-- The second part: the final checks, and the call of the router. -/
structure Sending where
  final : Gate := .ok none
  attempt : Attempt

/-- The last part: what the write to the journal raises, and whether it takes place then. -/
structure Saving where
  fault : Option Raised := none
  written : Bool := false

inductive Phase where
  /-- The row is in the journal. -/
  | dispatching
  /-- In the `finally` block, with what it returns or raises afterwards; a value of the end of
  the function is computed anew. -/
  | closing (falls : Bool) (returns : Answer (Bool × String))
  | done (returns : Answer (Bool × String))

structure Dispatch where
  order : Order
  /-- The status of the managed order. -/
  status : String
  phase : Phase
  /-- The call of the router, once it is reached. -/
  sent : Option Attempt := none
  /-- The journal has the outcome. -/
  saved : Bool := false
  /-- The dispatch has blocked new entries. -/
  blocks : Bool := false
  /-- What the write of the outcome has raised. -/
  fault : Option Raised := none

structure State where
  journal : List Row := []
  newEntriesBlocked : Bool := false
  dispatches : ℕ → Option Dispatch := fun _ => none
  /-- The rows that were created, and the calls of `place_order`, by key and dispatch. -/
  created : List (String × ℕ) := []
  placed : List (String × ℕ) := []

/-! ## The journal -/

/-- `checkpoint_order_dispatch`: whether the row is new. -/
def checkpointOrderDispatch (journal : List Row) (order : Order) : Result (Bool × List Row) := do
  let orderId := strip order.orderId
  let idempotencyKey := strip order.idempotencyKey
  let brokerId := lower (strip order.brokerId)
  require (orderId ≠ "" ∧ idempotencyKey ≠ "" ∧ brokerId ≠ "")
    (.value "order_id, idempotency_key, and broker_id are required")
  if journal.any fun row => row.orderId = orderId || row.idempotencyKey = idempotencyKey then return (false, journal)
  return (true, journal ++ [{ orderId, idempotencyKey, brokerId, brokerOrderId := order.brokerOrderId,
                              state := Py.orElse order.state "dispatch_pending", order }])

/-- The row of an order. -/
def Order.owns (order : Order) (row : Row) : Bool :=
  row.orderId = strip order.orderId && row.idempotencyKey = strip order.idempotencyKey

/-- `update_order_dispatch`: whether one row was changed. -/
def updateOrderDispatch (journal : List Row) (order : Order) : Bool × List Row :=
  if strip order.orderId = "" ∨ strip order.idempotencyKey = "" then (false, journal)
  else (journal.countP order.owns = 1, journal.map fun row =>
    if order.owns row then { row with brokerOrderId := order.brokerOrderId, state := order.state, order } else row)

/-! ## The first part -/

/-- `except (OSError, sqlite3.Error, ValueError)`. -/
def Raised.isCaught : Raised → Bool
  | .sqlite _ | .error (.os _) | .error (.value _) | .error (.integrity _) => true
  | _ => false

/-- `except (OSError, ValueError, TypeError)`. -/
def Raised.isMirrorFault : Raised → Bool
  | .error (.os _) | .error (.value _) | .error (.type _) => true
  | _ => false

def Order.mark (order : Order) (state queueState reason : String) : Order := { order with state, queueState, reason }

/-- The dispatch ends with a managed order of this status, or with what the OMS raises. -/
def endWith (d : Dispatch) (oms : Answer String) (order : Order) (reason : String) : Dispatch :=
  match oms with
  | .ok status => { d with status, order, phase := .done (.ok (false, reason)) }
  | .error e => { d with phase := .done (.error e) }

/-- The checkpoint, and what follows from it. -/
def checkpoint (oms : Oms) (s : State) (n : ℕ) (d : Dispatch) (opening : Opening) : State :=
  let order := d.order.mark "dispatch_pending" "reconcile_required" "broker-dispatch-pending"
  let d := { d with order }
  let failed (e : Raised) : Dispatch :=
    if e.isCaught then
      endWith d (oms.transition d.status "REJECTED") (order.mark "adapter_blocked" "held" "durable-dispatch-checkpoint-failed")
        "durable-dispatch-checkpoint-failed"
    else { d with phase := .done (.error e) }
  match opening.checkpoint, checkpointOrderDispatch s.journal order with
  | some e, _ => { s with dispatches := Function.update s.dispatches n (some (failed e)) }
  | none, .error e => { s with dispatches := Function.update s.dispatches n (some (failed (.error e))) }
  | none, .ok (false, _) =>
    { s with dispatches := Function.update s.dispatches n (some (endWith d (oms.markUnknown d.status)
        (order.mark "unknown" "reconcile_required" "durable-dispatch-idempotency-key-exists")
        "durable-dispatch-idempotency-key-exists")) }
  | none, .ok (true, journal) =>
    let phase := match opening.mirror with
      | some e => if e.isMirrorFault then .dispatching else .done (.error e)
      | none => .dispatching
    { s with
      journal
      created := s.created ++ [(strip order.idempotencyKey, n)]
      dispatches := Function.update s.dispatches n (some { d with phase }) }

/-- A dispatch is called. -/
def openDispatch (oms : Oms) (s : State) (n : ℕ) (order : Order) (status : String) (opening : Opening) : State :=
  let d : Dispatch := { order, status, phase := .dispatching }
  match opening.gate with
  | .error e => { s with dispatches := Function.update s.dispatches n (some { d with phase := .done (.error e) }) }
  | .ok (some reason) =>
    { s with dispatches := Function.update s.dispatches n (some (endWith d (oms.transition status "REJECTED")
        (order.mark "risk_blocked" "blocked" reason) reason)) }
  | .ok none => checkpoint oms s n d opening

/-! ## The second part -/

/-- What an outcome makes of the status of the managed order. -/
def Outcome.status (oms : Oms) (status : String) : Outcome → Answer String
  | .acknowledged id => oms.acknowledge status id
  | .rejected _ | .adapterBlocked _ => oms.transition status "REJECTED"
  | .escaped e => .error e
  | _ => oms.markUnknown status

/-- What an outcome makes of the order record. -/
def Outcome.order (order : Order) : Outcome → Order
  | .acknowledged id => { order.mark "acknowledged" "submitted" "broker-acknowledged" with brokerOrderId := id }
  | .missingId => order.mark "unknown" "reconcile_required" "broker-response-missing-order-id"
  | .ambiguous _ => order.mark "unknown" "reconcile_required" "broker-dispatch-outcome-ambiguous"
  | .network => order.mark "unknown" "reconcile_required" "network-outcome-unknown"
  | .rejected reason => order.mark "broker_rejected" "failed" reason
  | .adapterBlocked reason => order.mark "adapter_blocked" "failed" reason
  | .unknown => order.mark "unknown" "reconcile_required" "broker-dispatch-outcome-unknown"
  | .escaped _ => order

/-- The outcome is written down, or what the OMS raises escapes. -/
def Dispatch.settle (oms : Oms) (d : Dispatch) (outcome : Outcome) : Dispatch :=
  match outcome.status oms d.status with
  | .ok status =>
    let order := outcome.order d.order
    { d with status, order, phase := .closing true (.ok (order.state = "acknowledged", order.reason)) }
  | .error e => { d with phase := .closing false (.error e) }

/-- The handlers around the second part. -/
def Dispatch.handle (env : Env) (oms : Oms) (d : Dispatch) (e : Raised) : Dispatch := d.settle oms (conclude env (.error e))

/-- The outcome of the call of the router; what the OMS raises for it is handled. -/
def Dispatch.finish (env : Env) (oms : Oms) (d : Dispatch) (answer : Answer Json) : Dispatch :=
  let outcome := conclude env answer
  match answer, outcome.status oms d.status with
  | .ok _, .error e => d.handle env oms e
  | _, _ => d.settle oms outcome

/-- The second part of a dispatch. -/
def sendDispatch (env : Env) (oms : Oms) (s : State) (n : ℕ) (d : Dispatch) (sending : Sending) : State :=
  let setDispatch (d : Dispatch) : State := { s with dispatches := Function.update s.dispatches n (some d) }
  match sending.final with
  | .error e => setDispatch (d.handle env oms e)
  | .ok (some reason) =>
    match oms.transition d.status "REJECTED" with
    | .ok status => setDispatch { d with
        status, order := d.order.mark "risk_blocked" "blocked" reason, phase := .closing false (.ok (false, reason)) }
    | .error e => setDispatch (d.handle env oms e)
  | .ok none =>
    match oms.transition d.status "SUBMITTING" with
    | .error e => setDispatch (d.handle env oms e)
    | .ok status =>
      let d := { d with status, sent := some sending.attempt }
      { setDispatch (d.finish env oms (sendOrder env d.order.brokerId sending.attempt).answer) with
        placed := s.placed ++ [(strip d.order.idempotencyKey, n)] }

/-! ## The last part -/

/-- The `finally` block. -/
def closeDispatch (s : State) (n : ℕ) (d : Dispatch) (falls : Bool) (returns : Answer (Bool × String)) (saving : Saving) :
    State :=
  let (updated, journal) := updateOrderDispatch s.journal d.order
  let setDispatch (s : State) (d : Dispatch) : State :=
    { s with dispatches := Function.update s.dispatches n (some { d with fault := saving.fault }) }
  let failed : State := setDispatch { s with newEntriesBlocked := true, journal := if saving.written then journal else s.journal }
    { d with
      order := d.order.mark "unknown" "reconcile_required" "dispatch-terminal-checkpoint-failed"
      blocks := true
      phase := .done (if falls then .ok (false, "dispatch-terminal-checkpoint-failed") else returns) }
  match saving.fault with
  | none =>
    if updated then setDispatch { s with journal } { d with saved := true, phase := .done returns }
    else failed
  | some e =>
    if e.isCaught then failed
    else setDispatch { s with journal := if saving.written then journal else s.journal } { d with phase := .done (.error e) }

/-! ## Steps -/

inductive Label where
  | openDispatch (n : ℕ) (order : Order) (status : String) (opening : Opening)
  | sendDispatch (n : ℕ) (sending : Sending)
  | closeDispatch (n : ℕ) (saving : Saving)
  /-- The process of a dispatch is lost. -/
  | lost (n : ℕ)

def step (env : Env) (oms : Oms) (s : State) : Label → Option State
  | .openDispatch n order status opening =>
    match s.dispatches n with
    | some _ => none
    | none => some (openDispatch oms s n order status opening)
  | .sendDispatch n sending =>
    match s.dispatches n with
    | some d =>
      match d.phase with
      | .dispatching => some (sendDispatch env oms s n d sending)
      | _ => none
    | none => none
  | .closeDispatch n saving =>
    match s.dispatches n with
    | some d =>
      match d.phase with
      | .closing falls returns => some (closeDispatch s n d falls returns saving)
      | _ => none
    | none => none
  | .lost n => some { s with dispatches := Function.update s.dispatches n none }

open Lib Lib.Py

/-! ## When a crossed order is kept -/

variable {env : Env}

/-! ## What crosses -/

/-- The request was sent, or the transport has answered. -/
def Reply.sent : Reply → Bool
  | .returned _ => true
  | .raised _ sent => sent

/-- What the call of the transport gives the coordinator. -/
def submitted (brokerId : String) (a : Attempt) : Answer Json :=
  if brokerId = "toss" then submitToss a else a.reply.answer

/-- The request was handed to the transport and may have crossed. -/
def Crossed (env : Env) (brokerId : String) (a : Attempt) : Prop :=
  (sendOrder env brokerId a).reached = true ∧ a.reply.sent = true

/-- A definite rejection of the broker came back. -/
def Definite (env : Env) (brokerId : String) (a : Attempt) : Prop :=
  ∃ response id, submitted brokerId a = .ok response ∧ result env response = .ok ("REJECTED", id)

/-! ## The condition -/

/-- What is taken for a broker that was not ready, or is not handled at all. -/
def Raised.fails : Raised → Bool
  | .notReady _ | .exit _ => true
  | _ => false

/-- A response that is neither ok nor ambiguous, with no attempt and with a status code. -/
structure LooksRejected (env : Env) (d : Fields) : Prop where
  readable : ∃ id, brokerOrderIdOf env (dictOr (d.at "json")) = .ok id
  notOk : (d.at "ok").isTrue = false
  notAmbiguous : (d.at "outcomeAmbiguous").isTrue = false
  attempts : ∃ n, env.count (d.at "physicalAttemptCount") = .ok n ∧ n ≤ 0
  code : ∃ n, env.count (d.at "statusCode") = .ok n ∧ n ≠ 0

/-- What is raised where a block is left does not fail; where nothing is, `p` holds. -/
def Exits (leave : Option Raised) (f : Raised → Raised) (p : Prop) : Prop :=
  match leave with
  | some e => (f e).fails = false
  | none => p

/-- The coordinator lets `p` decide about a response that it can read. -/
def Settles (env : Env) (f : Raised → Raised) (a : Attempt) (submitted : Answer Json) (p : Json → Prop) : Prop :=
  match submitted with
  | .error e => (f (a.record.getD e)).fails = false
  | .ok response => (∃ v, result env response = .ok v) → Exits a.record f (Exits a.note f (p response))

/-- The response of a KIS order, with its own account, does not look like a rejection. -/
def BoundClear (env : Env) (a : Attempt) (response : Json) : Prop :=
  ∀ d, dictOf response = .ok d → sameAccount env a.environment (d.put "kisOrderAccountBinding" a.binding) = true →
    ¬ LooksRejected env (d.put "kisOrderAccountBinding" a.binding)

/-- Nothing that comes back is taken for an order that was not sent. -/
def Clear (env : Env) (brokerId : String) (a : Attempt) : Prop :=
  Exits a.release id <|
    if brokerId = "toss" then Settles env uncoordinated a (submitToss a) fun _ => True
    else if brokerId = "kis" then
      Exits a.deauthenticate (unauthorized "kis") <| Exits a.leave (unauthorized "kis") <|
        Settles env (unauthorized "kis" ∘ uncoordinated) a a.reply.answer (BoundClear env a)
    else
      Exits a.leave (unauthorized (authorityOf brokerId)) <|
        Settles env (unauthorized (authorityOf brokerId) ∘ uncoordinated) a a.reply.answer fun response =>
          ¬ LooksRejected env (dictOr response)

/-! ## Outcomes -/

/-- The outcome of an answer is kept. -/
def Good (env : Env) (answer : Answer Json) : Prop := (conclude env answer).kept = true

theorem good_error {e : Raised} : Good env (.error e) ↔ e.fails = false := by
  cases e <;> simp [Good, conclude, Outcome.kept, Raised.fails]

theorem classify_of_ok {d : Fields} (h : (d.at "ok").isTrue = true) {outcome : Outcome}
    (hclassify : classify env d = .ok outcome) : outcome.kept = true := by
  simp only [classify, h, if_true, bind_eq_ok] at hclassify
  obtain ⟨id, -, houtcome⟩ := hclassify
  split at houtcome <;> cases houtcome <;> rfl

/-- **The rest of the responses are rejections.** -/
theorem classify_kept_iff {d : Fields} {outcome : Outcome} (h : classify env d = .ok outcome) :
    outcome.kept = true ↔ ¬ LooksRejected env d := by
  by_cases hok : (d.at "ok").isTrue = true
  · have hkept := classify_of_ok hok h
    simp only [hkept, true_iff]
    intro hlooks
    rw [hlooks.notOk] at hok
    cases hok
  · rw [Bool.not_eq_true] at hok
    simp only [classify, hok, bind_eq_ok] at h
    obtain ⟨id, hid, h⟩ := h
    cases hambiguous : (d.at "outcomeAmbiguous").isTrue with
    | true =>
      simp only [hambiguous, if_true, Bool.false_eq_true, if_false, bind_eq_ok, pure_eq_ok] at h
      obtain ⟨n, -, rfl⟩ := h
      refine ⟨fun _ hlooks => ?_, fun _ => rfl⟩
      cases hambiguous.symm.trans hlooks.notAmbiguous
    | false =>
      simp only [hambiguous, Bool.false_eq_true, if_false, bind_eq_ok] at h
      obtain ⟨n, hn, h⟩ := h
      split at h
      · next hpos =>
        cases h
        refine ⟨fun _ hlooks => ?_, fun _ => rfl⟩
        obtain ⟨m, hm, hle⟩ := hlooks.attempts
        obtain rfl := Except.ok.inj (hn.symm.trans hm)
        exact absurd hpos (not_lt.mpr hle)
      · next hpos =>
        simp only [bind_eq_ok] at h
        obtain ⟨code, hcode, h⟩ := h
        split at h
        · next hzero =>
          cases h
          refine ⟨fun _ hlooks => ?_, fun _ => rfl⟩
          obtain ⟨m, hm, hne⟩ := hlooks.code
          obtain rfl := Except.ok.inj (hcode.symm.trans hm)
          exact absurd hzero hne
        · next hzero =>
          cases h
          refine ⟨fun hkept => ?_, fun hlooks => ?_⟩
          · cases hkept
          · exact absurd ⟨⟨id, hid⟩, hok, hambiguous, ⟨n, hn, not_lt.mp hpos⟩, ⟨code, hcode, hzero⟩⟩ hlooks

/-- A response that looks rejected is classified. -/
theorem exists_classify {d : Fields} (h : LooksRejected env d) : ∃ outcome, classify env d = .ok outcome := by
  obtain ⟨⟨id, hid⟩, hok, hambiguous, ⟨n, hn, hle⟩, ⟨code, hcode, hne⟩⟩ := h
  simp only [classify, hid, ok_bind, hok, hambiguous, hn, hcode, Bool.false_eq_true, if_false, if_neg (not_lt.mpr hle),
    if_neg hne]
  exact ⟨_, rfl⟩

theorem good_ok {response : Json} : Good env (.ok response) ↔ ¬ LooksRejected env (dictOr response) := by
  rw [Good, conclude]
  cases hclassify : classify env (dictOr response) with
  | ok outcome => exact classify_kept_iff hclassify
  | error e =>
    simp only [Outcome.kept, true_iff]
    intro hlooks
    obtain ⟨outcome, houtcome⟩ := exists_classify hlooks
    rw [hclassify] at houtcome
    cases houtcome

/-! ## Exceptions on the way -/

/-- A translation of the exceptions of the order path. -/
def Translates (f : Raised → Raised) : Prop := ∀ e : Error, f (.error e) = .error e

theorem translates_unauthorized (broker : String) : Translates (unauthorized broker) := fun _ => rfl

theorem good_of_error {f : Raised → Raised} (hf : Translates f) (e : Error) : Good env (.error (f (.error e))) := by
  rw [good_error, hf e]
  rfl

theorem good_release {leave : Option Raised} {x : Answer Json} :
    Good env (leaving leave x) ↔ Exits leave id (Good env x) := by
  cases leave with
  | some e => exact good_error
  | none => exact Iff.rfl

theorem good_leaving {leave : Option Raised} {f : Raised → Raised} {x : Answer Json} {k k' : Json → Answer Json} :
    Good env ((leaving leave x >>= k).mapError f >>= k') ↔ Exits leave f (Good env ((x >>= k).mapError f >>= k')) := by
  cases leave with
  | some e => exact good_error
  | none => exact Iff.rfl

/-- A transport is called after the reservation only. -/
theorem answer_coordinate {a : Attempt} {answer : Answer Json} (h : (coordinate env a answer).reached = true) :
    (coordinate env a answer).answer = coordinated env a answer := by
  unfold coordinate at h ⊢
  split at h
  · cases h
  · cases h
  · cases h
  · rfl

/-- **What the coordinator lets through.** -/
theorem good_coordinated {a : Attempt} {answer : Answer Json} {f : Raised → Raised} {k k' : Json → Answer Json}
    (hf : Translates f) (h : (coordinate env a answer).reached = true) :
    Good env (((coordinatedSend env a answer).answer >>= k).mapError f >>= k') ↔
      Settles env (f ∘ uncoordinated) a answer fun response => Good env ((k response).mapError f >>= k') := by
  have hanswer : (coordinatedSend env a answer).answer = (coordinate env a answer).answer.mapError uncoordinated := rfl
  rw [hanswer, answer_coordinate h]
  cases answer with
  | error e => exact good_error
  | ok response =>
    rw [Settles, coordinated]
    cases hresult : result env response with
    | error e =>
      have hgood : Good env (.error (f (.error e))) := good_of_error hf e
      exact iff_of_true hgood fun hread => by
        obtain ⟨v, hv⟩ := hread
        cases hv
    | ok v =>
      have hread : ∃ w, (Except.ok v : Result (String × String)) = .ok w := ⟨v, rfl⟩
      rw [forall_prop_of_true hread]
      cases a.record with
      | some e => exact good_error
      | none =>
        cases a.note with
        | some e => exact good_error
        | none => exact Iff.rfl

theorem Settles.congr {f : Raised → Raised} {a : Attempt} {answer : Answer Json} {p q : Json → Prop}
    (h : ∀ response, answer = .ok response → (p response ↔ q response)) :
    Settles env f a answer p ↔ Settles env f a answer q := by
  cases answer with
  | error e => exact Iff.rfl
  | ok response =>
    simp only [Settles, h response rfl]

/-! ## Routes -/

theorem pairOf_eq_error {v : Json} {e : Raised} (h : pairOf v = .error e) : ∃ e', e = .error e' := by
  unfold pairOf at h
  split at h <;> try cases h
  all_goals first
    | exact ⟨_, rfl⟩
    | skip
  split at h <;> cases h
  exact ⟨_, rfl⟩

theorem mapM_pairOf_eq_error {items : List Json} {e : Raised} (h : items.mapM pairOf = .error e) :
    ∃ e', e = .error e' := by
  induction items with
  | nil => cases h
  | cons v items ih =>
    rw [List.mapM_cons] at h
    cases hv : pairOf v with
    | error e' =>
      rw [hv] at h
      cases h
      exact pairOf_eq_error hv
    | ok pair =>
      rw [hv] at h
      cases hrest : items.mapM pairOf with
      | error e' =>
        rw [hrest] at h
        cases h
        exact ih hrest
      | ok pairs =>
        rw [hrest] at h
        cases h

theorem dictOf_eq_error {v : Json} {e : Raised} (h : dictOf v = .error e) : ∃ e', e = .error e' := by
  unfold dictOf at h
  split at h
  · cases h
  · next items =>
    cases hpairs : items.mapM pairOf with
    | error e' =>
      rw [hpairs] at h
      cases h
      exact mapM_pairOf_eq_error hpairs
    | ok pairs =>
      rw [hpairs] at h
      cases h
  · cases h
  · cases h
    exact ⟨_, rfl⟩
  · cases h
    exact ⟨_, rfl⟩

/-- A KIS order whose account is not confirmed is ambiguous. -/
theorem good_bindAccount {a : Attempt} {d : Fields} : Good env (bindAccount env a (.obj d)) ↔
    (sameAccount env a.environment d = true → ¬ LooksRejected env d) := by
  rw [bindAccount]
  split
  · next hsame => exact good_ok.trans ⟨fun h _ => h, fun h => h hsame⟩
  · next hsame =>
    refine iff_of_true ?_ fun h => absurd h hsame
    cases env.count ((dictOr (.obj d)).at "physicalAttemptCount") with
    | error e => exact good_of_error (f := id) (fun _ => rfl) e
    | ok attempts =>
      refine good_ok.mpr fun hlooks => ?_
      have hnot := hlooks.notAmbiguous
      rw [dictOr, Fields.at_put_ne _ (by decide), Fields.at_put_ne _ (by decide), Fields.at_put_ne _ (by decide),
        Fields.at_put] at hnot
      cases hnot

theorem good_withBinding {a : Attempt} {response : Json} :
    Good env ((withBinding a response).mapError (unauthorized "kis") >>= bindAccount env a) ↔ BoundClear env a response := by
  rw [withBinding, BoundClear]
  cases hdict : dictOf response with
  | error e =>
    obtain ⟨e', rfl⟩ := dictOf_eq_error hdict
    refine iff_of_true (good_of_error (translates_unauthorized "kis") e') fun d hd => ?_
    cases hd
  | ok d =>
    refine good_bindAccount.trans ⟨fun h d' hd' => ?_, fun h => h d rfl⟩
    obtain rfl := Except.ok.inj hd'
    exact h

/-- An order of the Toss route that is named by its response does not look rejected. -/
theorem good_submitToss {a : Attempt} {response : Json} (h : submitToss a = .ok response) : Good env (.ok response) := by
  rw [submitToss] at h
  cases hreply : a.reply.answer with
  | error e =>
    rw [hreply] at h
    cases h
  | ok r =>
    rw [hreply] at h
    dsimp only [Except.bind, bind] at h
    split at h
    · cases h
      refine good_ok.mpr fun hlooks => ?_
      cases hlooks.notOk
    · cases h

theorem Exits.congr {leave : Option Raised} {f : Raised → Raised} {p q : Prop} (h : p ↔ q) :
    Exits leave f p ↔ Exits leave f q := by
  cases leave with
  | some e => exact Iff.rfl
  | none => exact h

theorem bind_ok_id {x : Answer Json} : x >>= (fun response => .ok response) = x := by
  cases x <;> rfl

theorem good_block {leave : Option Raised} {f : Raised → Raised} {x : Answer Json} {k : Json → Answer Json} :
    Good env ((leaving leave x).mapError f >>= k) ↔ Exits leave f (Good env (x.mapError f >>= k)) := by
  cases leave with
  | some e => exact good_error
  | none => exact Iff.rfl

/-- What the coordinator lets through, where nothing follows. -/
theorem good_sent {a : Attempt} {answer : Answer Json} {f : Raised → Raised} (hf : Translates f)
    (h : (coordinate env a answer).reached = true) :
    Good env ((coordinatedSend env a answer).answer.mapError f) ↔
      Settles env (f ∘ uncoordinated) a answer fun response => ¬ LooksRejected env (dictOr response) := by
  have hsettles : Good env (((coordinatedSend env a answer).answer >>= fun response => .ok response).mapError f >>=
      fun response => .ok response) ↔ _ := good_coordinated hf h
  rw [bind_ok_id, bind_ok_id] at hsettles
  exact hsettles.trans (Settles.congr fun response _ => good_ok)

theorem mapError_id (x : Answer Json) : x.mapError id = x := by
  cases x <;> rfl

theorem good_toss {a : Attempt} (h : (placeOrder env "toss" a).reached = true) :
    Good env (placeOrder env "toss" a).answer ↔ Settles env uncoordinated a (submitToss a) fun _ => True := by
  unfold placeOrder at h ⊢
  rw [if_pos rfl] at h ⊢
  split at h
  · cases h
  · have hsent := good_sent (f := id) (fun _ => rfl) h
    rw [mapError_id] at hsent
    refine hsent.trans (Settles.congr fun response hresponse => ?_)
    exact iff_of_true (good_ok.mp (good_submitToss hresponse)) trivial

/-- The KIS route, with the account that is bound afterwards. -/
theorem good_kis {a : Attempt} (h : (placeOrder env "kis" a).reached = true) :
    Good env ((placeOrder env "kis" a).answer >>= bindAccount env a) ↔
      Exits a.deauthenticate (unauthorized "kis") (Exits a.leave (unauthorized "kis")
        (Settles env (unauthorized "kis" ∘ uncoordinated) a a.reply.answer (BoundClear env a))) := by
  unfold placeOrder at h ⊢
  rw [if_neg (by decide), if_pos rfl] at h ⊢
  cases hprepare : a.prepare with
  | some e =>
    rw [hprepare] at h
    cases h
  | none =>
    rw [hprepare] at h
    refine good_block.trans (Exits.congr (good_leaving.trans (Exits.congr ?_)))
    exact (good_coordinated (translates_unauthorized "kis") h).trans (Settles.congr fun response _ => good_withBinding)

theorem good_crypto {brokerId : String} {a : Attempt} (hbroker : brokerId ∈ ["binance", "binance-futures", "upbit"])
    (h : (placeOrder env brokerId a).reached = true) :
    Good env (placeOrder env brokerId a).answer ↔ Exits a.leave (unauthorized (authorityOf brokerId))
      (Settles env (unauthorized (authorityOf brokerId) ∘ uncoordinated) a a.reply.answer fun response =>
        ¬ LooksRejected env (dictOr response)) := by
  have htoss : brokerId ≠ "toss" := fun heq => by
    rw [heq] at hbroker
    exact absurd hbroker (by decide)
  have hkis : brokerId ≠ "kis" := fun heq => by
    rw [heq] at hbroker
    exact absurd hbroker (by decide)
  unfold placeOrder at h ⊢
  rw [if_neg htoss, if_neg hkis, if_pos hbroker] at h ⊢
  cases hprepare : a.prepare with
  | some e =>
    rw [hprepare] at h
    cases h
  | none =>
    rw [hprepare] at h
    have hblock : Good env ((leaving a.leave (coordinatedSend env a a.reply.answer).answer).mapError
        (unauthorized (authorityOf brokerId)) >>= fun response => .ok response) ↔ _ := good_block
    rw [bind_ok_id, bind_ok_id] at hblock
    exact hblock.trans (Exits.congr (good_sent (translates_unauthorized (authorityOf brokerId)) h))

/-- **An attempt that has reached the transport is kept exactly when it is clear.** -/
theorem kept_iff_clear {brokerId : String} {a : Attempt} (h : (sendOrder env brokerId a).reached = true) :
    (conclude env (sendOrder env brokerId a).answer).kept = true ↔ Clear env brokerId a := by
  have hplaced : (placeOrder env brokerId a).reached = true := h
  have hrelease : Good env (leaving a.release
      (if brokerId = "kis" then (placeOrder env brokerId a).answer >>= bindAccount env a
        else (placeOrder env brokerId a).answer)) ↔ _ := good_release
  refine hrelease.trans (Exits.congr ?_)
  by_cases htoss : brokerId = "toss"
  · subst htoss
    exact good_toss hplaced
  · by_cases hkis : brokerId = "kis"
    · subst hkis
      exact good_kis hplaced
    · rw [if_neg htoss, if_neg hkis, if_neg hkis]
      by_cases hbroker : brokerId ∈ ["binance", "binance-futures", "upbit"]
      · exact good_crypto hbroker hplaced
      · rw [placeOrder, if_neg htoss, if_neg hkis, if_neg hbroker] at hplaced
        cases hplaced

end LiveTrader.OrderDispatch
