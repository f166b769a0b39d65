/-
# `MutationEdge.Answers` — what a mutation edge is told

The edge sends one order or one cancel of a functional test.  All that it reads or calls belongs to
somebody else: readers, the marker of the boundary, the sender and the two context managers.  Each
of them returns anything or raises anything (`Raised`), and what the edge does about that is to be
told apart: the order was not sent, or nobody knows.
-/
import LiveTrader.Lib.Calls
import LiveTrader.Lib.Json

namespace LiveTrader.MutationEdge

open Lib Lib.Py

/-! ## Exceptions -/

/-- What a call raises, as the edge at hand tells exceptions apart. -/
inductive Raised where
  /-- The `NotSent` exception of the edge. -/
  | notSent (reason : String)
  /-- `UpbitGlobalFirstLiveFenceNotSent`, of the same family. -/
  | fence (reason : String)
  /-- The `OutcomeUnknown` exception of the edge. -/
  | outcomeUnknown (reason : String)
  /-- `UpbitFunctionalBlocked`, or `BinanceSpotExclusivityError`. -/
  | blocked (reason : String)
  /-- Any other `Exception`, with the name of its class. -/
  | other (name reason : String)
  /-- A `BaseException` that is no `Exception`. -/
  | exit (name : String)
  deriving DecidableEq

/-- What a call returns, unless it raises. -/
abbrev Answer (α : Type) := Except Raised α

/-- The exception says that nothing was sent. -/
def Raised.isNotSent : Raised → Bool
  | .notSent _ | .fence _ => true
  | _ => false

/-- The exception says that nobody knows. -/
def Raised.isUnknown : Raised → Bool
  | .outcomeUnknown _ => true
  | _ => false

theorem Raised.isNotSent_of_isUnknown {e : Raised} (h : e.isUnknown = true) : e.isNotSent = false := by
  cases e with
  | outcomeUnknown reason => rfl
  | notSent reason | fence reason | blocked reason => cases h
  | other name reason => cases h
  | exit name => cases h

/-- `except Exception as exc: raise …`. -/
def Raised.orElse (f : Raised → Raised) : Raised → Raised
  | .exit name => .exit name
  | e => f e

/-- An exception of the language. -/
def Raised.ofError : Error → Raised
  | .value msg => .other "ValueError" msg
  | .runtime msg => .other "RuntimeError" msg
  | .key name => .other "KeyError" name
  | .type msg => .other "TypeError" msg
  | .invalidOperation => .other "InvalidOperation" ""
  | .integrity constraint => .other "IntegrityError" constraint
  | .os msg => .other "OSError" msg

/-- What a built-in function returns, unless it raises. -/
def Answer.of {α : Type} (x : Result α) : Answer α := x.mapError Raised.ofError

/-! ## Calls -/

/-- A request that is ready to be sent, unless something blocks it. -/
structure Request where
  method : String
  blockedReasons : List String

/-- `PreparedRequest.can_send`. -/
def Request.canSend (prepared : Request) : Bool := prepared.blockedReasons.isEmpty

/-- The calls of an edge that matter for what it says about the order. -/
inductive Event where
  /-- The claim reader is asked for a claim. -/
  | claimRead (claimId : String) (answer : Answer Json)
  /-- The marker of the boundary is called. -/
  | marked (claimId : String)
  /-- The sender is called. -/
  | sent (reply : Answer Json)

/-- The sender is called. -/
def Event.isSent : Event → Prop
  | .sent _ => True
  | _ => False

/-- `dict(self.claim_reader(claim_id))`. -/
def readClaim (claimId : String) (answer : Answer Json) : Calls Event Raised Fields := do
  let value ← Calls.call (.claimRead claimId answer) answer
  Calls.of (Answer.of value.dict)

/-- The payload of a response of the broker. -/
def orderOf (notAccepted notObject : String) (response : Json) : Answer Json :=
  match response with
  | .obj d =>
    if (Fields.at d "ok").isTrue then
      match Fields.at d "json" with
      | .obj payload => .ok (.obj payload)
      | _ => .error (.outcomeUnknown notObject)
    else .error (.outcomeUnknown notAccepted)
  | _ => .error (.outcomeUnknown notAccepted)

/-! ## What is asked of an edge -/

/-- The claim was read, in the state that `crossed` looks for. -/
def Event.readsCrossed (claimId : String) (crossed : Fields → Bool) : Event → Prop
  | .claimRead id (.ok value) => id = claimId ∧ ∃ claim, value.dict = .ok claim ∧ crossed claim = true
  | _ => False

/-- The order of the broker's reply comes back, or the exception that nobody knows. -/
def Settled (reply answer : Answer Json) : Prop :=
  (∃ response order, reply = .ok (.obj response) ∧ Fields.at response "json" = .obj order ∧ answer = .ok (.obj order)) ∨
    ∃ e, answer = .error e ∧ e.isUnknown = true

/-- What a call of the edge owes its caller. -/
structure Reported (claimId : String) (crossed : Fields → Bool) (x : Calls Event Raised Json) : Prop where
  /-- The sender is called once at most. -/
  once : ∀ before reply after, x.calls = before ++ .sent reply :: after →
    Calls.Quiet Event.isSent before ∧ Calls.Quiet Event.isSent after
  /-- The claim was read back before. -/
  behind : Calls.Guarded (Event.readsCrossed claimId crossed) Event.isSent x.calls
  /-- What is said not to be sent is not. -/
  notSent : ∀ e, x.answer = .error e → e.isNotSent = true → Calls.Quiet Event.isSent x.calls
  /-- Once the sender was called, there is an order, or nobody knows. -/
  settled : ∀ reply, .sent reply ∈ x.calls → Settled reply x.answer

variable {claimId : String} {crossed : Fields → Bool} {x : Calls Event Raised Json}

theorem quiet_of_not_mem {calls : List Event} (h : ∀ reply, .sent reply ∉ calls) : Calls.Quiet Event.isSent calls := by
  intro e he hsent
  cases e with
  | sent reply => exact h reply he
  | claimRead _ _ => exact hsent
  | marked _ => exact hsent

/-- A call that does not reach the sender owes nothing. -/
theorem reported_of_quiet (h : ∀ reply, .sent reply ∉ x.calls) : Reported claimId crossed x := by
  have hquiet : Calls.Quiet Event.isSent x.calls := quiet_of_not_mem h
  refine ⟨?_, hquiet.guarded, fun _ _ _ => hquiet, fun reply hreply => absurd hreply (h reply)⟩
  intro before reply after hcalls
  exact absurd (hcalls ▸ List.mem_append_right _ List.mem_cons_self) (h reply)

/-- **A call that reaches the sender once is told by its answer.** -/
theorem reported_iff_settled {before after : List Event} {reply : Answer Json}
    (hcalls : x.calls = before ++ .sent reply :: after) (hbefore : Calls.Quiet Event.isSent before)
    (hafter : Calls.Quiet Event.isSent after) (hread : ∃ e ∈ before, e.readsCrossed claimId crossed) :
    Reported claimId crossed x ↔ Settled reply x.answer := by
  constructor
  · intro h
    exact h.settled reply (hcalls ▸ List.mem_append_right _ List.mem_cons_self)
  intro hsettled
  have honly : ∀ reply', .sent reply' ∈ x.calls → reply' = reply := by
    intro reply' hreply'
    rw [hcalls] at hreply'
    rcases List.mem_append.mp hreply' with hmem | hmem
    · exact absurd trivial (hbefore _ hmem)
    · rcases List.mem_cons.mp hmem with heq | hmem
      · exact Event.sent.inj heq
      · exact absurd trivial (hafter _ hmem)
  refine ⟨?_, ?_, ?_, fun reply' hreply' => (honly reply' hreply').symm ▸ hsettled⟩
  · intro before' reply' after' hsplit
    rw [hcalls] at hsplit
    rcases List.append_eq_append_iff.mp hsplit with ⟨rest, rfl, hrest⟩ | ⟨rest, rfl, hrest⟩
    · cases rest with
      | nil =>
        obtain ⟨-, rfl⟩ := List.cons.inj hrest
        exact ⟨(List.append_nil before).symm ▸ hbefore, hafter⟩
      | cons e rest =>
        obtain ⟨rfl, rfl⟩ := List.cons.inj hrest
        exact absurd trivial (hafter (.sent reply') (List.mem_append_right _ List.mem_cons_self))
    · cases rest with
      | nil =>
        obtain ⟨-, rfl⟩ := List.cons.inj hrest
        exact ⟨fun e he => hbefore e (List.mem_append_left _ he), hafter⟩
      | cons e rest =>
        obtain ⟨rfl, -⟩ := List.cons.inj hrest
        exact absurd trivial (hbefore (.sent reply') (List.mem_append_right _ List.mem_cons_self))
  · exact hcalls ▸ Calls.guarded_of_split hbefore hread
  · intro e he hnot
    rcases hsettled with ⟨response, order, -, -, hok⟩ | ⟨e', he', hunknown⟩
    · rw [he] at hok
      cases hok
    · obtain rfl := Except.error.inj (he.symm.trans he')
      rw [Raised.isNotSent_of_isUnknown hunknown] at hnot
      cases hnot

/-- A response of the sender settles the call. -/
theorem settled_orderOf {notAccepted notObject : String} {response : Json} :
    Settled (.ok response) (orderOf notAccepted notObject response) := by
  unfold orderOf
  split
  · next d =>
    split
    · split
      · next payload hpayload => exact Or.inl ⟨d, payload, rfl, hpayload, rfl⟩
      · exact Or.inr ⟨_, rfl, rfl⟩
    · exact Or.inr ⟨_, rfl, rfl⟩
  · exact Or.inr ⟨_, rfl, rfl⟩

/-- An exception settles a call if it says that nobody knows. -/
theorem settled_error {reply : Answer Json} {e : Raised} : Settled reply (.error e) ↔ e.isUnknown = true := by
  constructor
  · rintro (⟨response, order, -, -, h⟩ | ⟨e', he', h⟩)
    · cases h
    · rwa [Except.error.inj he']
  · exact fun h => Or.inr ⟨e, rfl, h⟩

/-! ## Reading a claim -/

theorem answer_readClaim {answer : Answer Json} {claim : Fields} :
    (readClaim claimId answer).answer = .ok claim ↔ ∃ value, answer = .ok value ∧ value.dict = .ok claim := by
  rw [readClaim, Calls.answer_bind_eq_ok]
  exact exists_congr fun value => and_congr_right fun _ => Calls.mapError_eq_ok

theorem not_sent_of_readClaim {answer reply : Answer Json} : .sent reply ∉ (readClaim claimId answer).calls := by
  intro h
  rcases Calls.mem_bind.mp h with h | ⟨value, -, h⟩
  · cases Calls.mem_call.mp h
  · exact Calls.not_mem_of h

theorem readClaim_of_dict {answer : Answer Json} {value : Json} {claim : Fields} (hanswer : answer = .ok value)
    (hdict : value.dict = .ok claim) : readClaim claimId answer = ⟨[.claimRead claimId answer], .ok claim⟩ := by
  rw [readClaim, hanswer, Calls.call_bind, hdict]
  rfl

end LiveTrader.MutationEdge
