/-
# `MutationEdge.Reports` — what the edges say about an order

Each mutation of either edge calls its sender once at most, behind the claim that is read back.
What it says afterwards is right exactly when the ways out of its context managers are clear
(`reported_iff`): a manager that raises on the way out, behind the sender, is taken for a route
that was closed before it.
-/
import LiveTrader.MutationEdge.Upbit
import LiveTrader.MutationEdge.Binance

namespace LiveTrader.MutationEdge

open Lib Lib.Py

/-- One mutation of one of the edges. -/
inductive Mutation where
  | post (edge : Upbit.Edge) (a : Upbit.Attempt) (claimId requestHash : String) (payload : Fields)
  | cancel (edge : Upbit.Edge) (a : Upbit.Attempt) (claimId requestHash identifier : String)
  | spot (edge : Binance.Edge) (args : Binance.Arguments) (a : Binance.Attempt)

namespace Mutation

/-- The call of the edge. -/
def run : Mutation → Calls Event Raised Json
  | post edge a claimId requestHash payload => Upbit.post edge a claimId requestHash payload
  | cancel edge a claimId requestHash identifier => Upbit.cancel edge a claimId requestHash identifier
  | spot edge args a => Binance.call edge args a

/-- The id of the claim that the readers are asked for. -/
def claimId : Mutation → String
  | post _ _ claimId _ _ | cancel _ _ claimId _ _ => strip claimId
  | spot _ args _ => strip args.claimId

/-- The claim is the one of the mutation, in the state `POST_MAY_HAVE_CROSSED`. -/
def crossed : Mutation → Fields → Bool
  | post edge _ claimId _ _ | cancel edge _ claimId _ _ => Upbit.crossed edge claimId
  | spot edge args _ => Binance.crossed edge args

/-- All checks before the sender let the mutation through. -/
def Ready : Mutation → Prop
  | post edge a claimId requestHash _ | cancel edge a claimId requestHash _ => Upbit.Ready edge a claimId requestHash
  | spot edge args a => Binance.Ready edge args a

/-- The ways out of the context managers leave what the sender gave, or say that nobody knows. -/
def Clear : Mutation → Prop
  | post _ a _ _ _ | cancel _ a _ _ _ => Upbit.Clear a
  | spot edge _ a => Binance.Clear edge a

end Mutation

/-- **A mutation is reported as it went, exactly when its ways out are clear.** -/
theorem reported_iff (m : Mutation) : Reported m.claimId m.crossed m.run ↔ (m.Ready → m.Clear) := by
  cases m with
  | post edge a claimId requestHash payload => exact Upbit.reported_submit_iff
  | cancel edge a claimId requestHash identifier => exact Upbit.reported_submit_iff
  | spot edge args a => exact Binance.reported_call_iff

/-! ## A way out that raises -/

/-- A functional session. -/
def sampleEdge : Upbit.Edge :=
  { sessionId := "session", permitId := "permit", permitHash := "permit-hash", sessionScopeHash := "scope-hash",
    repr := fun _ => "" }

/-- The claim behind the boundary. -/
def sampleClaim : Json :=
  .obj [("session_id", .str "session"), ("permit_id", .str "permit"), ("permit_hash", .str "permit-hash"),
    ("scope_hash", .str "scope-hash"), ("claim_id", .str "claim"), ("request_hash", .str "request-hash"),
    ("claim_state", .str "POST_MAY_HAVE_CROSSED")]

/-- The order that the broker returns. -/
def sampleOrder : Fields :=
  [("uuid", .str "order"), ("identifier", .str "uft"), ("market", .str "KRW-BTC"), ("side", .str "bid")]

/-- The sender returns an accepted order; the lock of the shared route cannot be released. -/
def sampleAttempt : Upbit.Attempt where
  prepared := .ok { method := "POST", blockedReasons := [] }
  reserved := .ok (.obj [])
  marker := .ok (.obj [("claimId", .str "claim"), ("state", .str "POST_MAY_HAVE_CROSSED")])
  durable := .ok sampleClaim
  reply := .ok (.obj [("ok", .bool true), ("json", .obj sampleOrder)])
  release := fun _ => .error (.other "OSError" "lock release failed")

/-- An order of the broker, reported as not sent. -/
theorem sample_sent_reported_not_sent : ∃ m : Mutation, ¬ Reported m.claimId m.crossed m.run := by
  refine ⟨.post sampleEdge sampleAttempt "claim" "request-hash" [("identifier", .str "uft"), ("side", .str "bid")], ?_⟩
  intro h
  have hsent := h.notSent (.fence "upbit-mutation-global-first-live-dispatch-reservation-unavailable") rfl rfl
  exact hsent (.sent sampleAttempt.reply) (List.mem_of_getElem? (i := 2) rfl) trivial

end LiveTrader.MutationEdge
