/-
# `MutationEdge.Upbit` — the edge of the KRW-BTC lane

`post` and `cancel` check all they can, enter the reservation of the shared route, mark the
boundary, read the durable claim back and call the sender once.  The reservation is a context
manager: its way out comes after the sender, and what it raises is told apart by its type.
-/
import LiveTrader.MutationEdge.Answers

namespace LiveTrader.MutationEdge.Upbit

open Lib Lib.Py

/-- `UpbitFunctionalMutationEdge`. -/
structure Edge where
  /-- `UPBIT_FUNCTIONAL_MUTATION_AVAILABLE`. -/
  available : Bool := true
  sessionId : String
  permitId : String
  permitHash : String
  sessionScopeHash : String
  /-- `str` of a value that is no text. -/
  repr : Json → String

/-- The answers to one call of the edge, in the order of the calls. -/
structure Attempt where
  /-- The request that is built from the payload. -/
  prepared : Answer Request
  /-- `_assert_authority`: the authority readers and the durable claim before the boundary. -/
  authority : Answer Unit := .ok ()
  /-- The reserver is called and its context entered. -/
  reserved : Answer Json
  /-- `_verify_reserved_global_snapshot`. -/
  verified : Answer Unit := .ok ()
  /-- `check_short_live_authority("UPBIT")`. -/
  allowed : Answer Unit := .ok ()
  marker : Answer Json
  /-- The claim that is read back after the marker. -/
  durable : Answer Json
  reply : Answer Json
  /-- The context of the reservation is left; it is told what is in flight. -/
  release : Option Raised → Answer Bool := fun _ => .ok false

/-- `_text`. -/
def Edge.text (edge : Edge) (value : Json) : String := value.text edge.repr

/-- The first field of the claim that is not as expected. -/
def Edge.compareFields (edge : Edge) (durable : Fields) : List (String × String) → Answer Unit
  | [] => .ok ()
  | (field, expected) :: rest => do
    let same ← Answer.of (compareDigest (edge.text (durable.at field)) expected)
    if same then edge.compareFields durable rest
    else .error (.notSent ("upbit-mutation-post-boundary-durable-" ++ field ++ "-mismatch"))

variable (edge : Edge) (a : Attempt) (claimId requestHash : String)

/-! ## Behind the boundary -/

/-- `type(exc).__name__`. -/
def typeName : Raised → String
  | .notSent _ => "UpbitFunctionalMutationNotSent"
  | .fence _ => "UpbitGlobalFirstLiveFenceNotSent"
  | .outcomeUnknown _ => "UpbitFunctionalMutationOutcomeUnknown"
  | .blocked _ => "UpbitFunctionalBlocked"
  | .other name _ | .exit name => name

/-- The marker says that the boundary is crossed for this claim. -/
def Edge.marks : Json → Bool
  | .obj marker =>
    edge.text (Fields.at marker "claimId") = strip claimId &&
      edge.text (Fields.at marker "state") = "POST_MAY_HAVE_CROSSED"
  | _ => false

/-- `exact` of `_assert_durable_post_boundary`. -/
def Edge.exact : List (String × String) :=
  [("session_id", edge.sessionId), ("permit_id", edge.permitId), ("permit_hash", edge.permitHash),
    ("scope_hash", edge.sessionScopeHash), ("claim_id", strip claimId), ("request_hash", lower (strip requestHash)),
    ("claim_state", "POST_MAY_HAVE_CROSSED")]

/-- `_assert_durable_post_boundary`. -/
def assertDurablePostBoundary : Calls Event Raised Unit := do
  let durable ← (readClaim (strip claimId) a.durable).mapError
    (Raised.orElse fun _ => .notSent "upbit-mutation-post-boundary-durable-read-failed")
  Calls.of (edge.compareFields durable (edge.exact claimId requestHash))

/-- What the exception of the sender becomes. -/
def transportRaised : Raised → Raised :=
  Raised.orElse fun e => .outcomeUnknown ("upbit-mutation-transport-raised:" ++ typeName e)

/-- `mark_and_send`. -/
def markAndSend : Calls Event Raised Json := do
  Calls.of a.allowed
  let marker ← (Calls.call (.marked claimId) a.marker).mapError
    (Raised.orElse fun _ => .notSent "upbit-mutation-post-boundary-marker-failed")
  Calls.check (edge.marks claimId marker = true) (.notSent "upbit-mutation-post-boundary-marker-invalid")
  assertDurablePostBoundary edge a claimId requestHash
  Calls.call (.sent a.reply) (a.reply.mapError transportRaised)

/-! ## The reservation -/

/-- What an exception that comes out of the reservation becomes. -/
def fenced : Raised → Raised
  | .blocked _ => .fence "upbit-mutation-global-first-live-dispatch-reservation-closed"
  | .other _ _ => .fence "upbit-mutation-global-first-live-dispatch-reservation-unavailable"
  | e => e

/-- The sender inside of the reservation; there is no response where an exception was dropped. -/
def dispatch : Calls Event Raised (Option Json) :=
  (Calls.block a.reserved a.release fun snapshot => do
    Calls.check (snapshot.isObj = true) (.blocked "upbit-global-first-live-reservation-snapshot-invalid")
    Calls.of a.verified
    markAndSend edge a claimId requestHash).mapError fenced

/-- The order in the response of the broker. -/
def received : Option Json → Answer Json
  | some response =>
    orderOf "upbit-mutation-broker-acceptance-unproven" "upbit-mutation-broker-response-not-object" response
  | none => .error (.other "UnboundLocalError" "cannot access local variable where it is not associated with a value")

/-- `_send_once`. -/
def sendOnce (prepared : Request) : Calls Event Raised Json := do
  Calls.check (edge.available = true) (.notSent "upbit-functional-mutation-production-unavailable")
  Calls.of a.authority
  Calls.check (prepared.canSend = true)
    (.notSent ("upbit-mutation-request-not-ready:" ++ ",".intercalate prepared.blockedReasons))
  let response ← dispatch edge a claimId requestHash
  Calls.of (received response)

/-! ## Orders and cancels -/

/-- One mutation, with the check of its receipt. -/
def submit (receipt : Fields → Bool) (mismatch : String) : Calls Event Raised Json := do
  Calls.check (edge.available = true) (.notSent "upbit-functional-mutation-production-unavailable")
  let prepared ← Calls.of a.prepared
  let result ← sendOnce edge a claimId requestHash prepared
  Calls.check ((result.fields?.map receipt).getD false = true) (.outcomeUnknown mismatch)
  pure result

/-- `post`. -/
def post (payload : Fields) : Calls Event Raised Json :=
  submit edge a claimId requestHash (fun result =>
    edge.text (result.at "uuid") ≠ "" && edge.text (result.at "identifier") = edge.text (payload.at "identifier") &&
      upper (edge.text (result.at "market")) = "KRW-BTC" &&
        lower (edge.text (result.at "side")) = lower (edge.text (payload.at "side")))
    "upbit-mutation-order-receipt-identity-mismatch"

/-- `cancel`. -/
def cancel (identifier : String) : Calls Event Raised Json :=
  submit edge a claimId requestHash (fun result =>
    edge.text (result.at "uuid") ≠ "" && edge.text (result.at "identifier") = strip identifier &&
      ["cancel", "done"].contains (lower (edge.text (result.at "state"))))
    "upbit-mutation-cancel-receipt-identity-mismatch"

/-! ## The condition -/

/-- All that is checked before the sender lets the mutation through. -/
structure Ready (edge : Edge) (a : Attempt) (claimId requestHash : String) : Prop where
  available : edge.available = true
  prepared : ∃ prepared, a.prepared = .ok prepared ∧ prepared.canSend = true
  authority : a.authority = .ok ()
  reserved : ∃ snapshot, a.reserved = .ok snapshot ∧ snapshot.isObj = true
  verified : a.verified = .ok ()
  allowed : a.allowed = .ok ()
  marker : ∃ marker, a.marker = .ok marker ∧ edge.marks claimId marker = true
  durable : ∃ value claim, a.durable = .ok value ∧ value.dict = .ok claim ∧
    edge.compareFields claim (edge.exact claimId requestHash) = .ok ()

/-- A response, or the exception that nobody knows. -/
def Settles : Answer (Option Json) → Prop
  | .ok response => response.isSome = true
  | .error e => e.isUnknown = true

/-- The way out of the reservation leaves the sender's response, or says that nobody knows. -/
def Clear (a : Attempt) : Prop := Settles (Calls.leave a.release (a.reply.mapError transportRaised))

/-- The claim is of this id and may have crossed. -/
def crossed (claim : Fields) : Bool :=
  edge.text (claim.at "claim_id") = strip claimId && edge.text (claim.at "claim_state") = "POST_MAY_HAVE_CROSSED"

/-! ## Up to the sender -/

section

variable {edge : Edge} {a : Attempt} {claimId requestHash : String}

theorem answer_assertDurablePostBoundary : (assertDurablePostBoundary edge a claimId requestHash).answer = .ok () ↔
    ∃ value claim, a.durable = .ok value ∧ value.dict = .ok claim ∧
        edge.compareFields claim (edge.exact claimId requestHash) = .ok () := by
  rw [assertDurablePostBoundary, Calls.answer_bind_eq_ok]
  constructor
  · rintro ⟨claim, hclaim, hfields⟩
    obtain ⟨value, hvalue, hdict⟩ := answer_readClaim.mp (Calls.mapError_eq_ok.mp hclaim)
    exact ⟨value, claim, hvalue, hdict, hfields⟩
  · rintro ⟨value, claim, hvalue, hdict, hfields⟩
    exact ⟨claim, Calls.mapError_eq_ok.mpr (answer_readClaim.mpr ⟨value, hvalue, hdict⟩), hfields⟩

theorem not_sent_of_assertDurablePostBoundary {reply : Answer Json} :
    .sent reply ∉ (assertDurablePostBoundary edge a claimId requestHash).calls := by
  intro h
  rcases Calls.mem_bind.mp h with h | ⟨claim, -, h⟩
  · exact not_sent_of_readClaim h
  · exact Calls.not_mem_of h

/-- The marker, the claim that is read back and the call of the sender. -/
theorem mem_markAndSend {reply : Answer Json} (h : .sent reply ∈ (markAndSend edge a claimId requestHash).calls) :
    a.allowed = .ok () ∧ (∃ marker, a.marker = .ok marker ∧ edge.marks claimId marker = true) ∧
      (∃ value claim, a.durable = .ok value ∧ value.dict = .ok claim ∧
        edge.compareFields claim (edge.exact claimId requestHash) = .ok ()) ∧ reply = a.reply := by
  obtain ⟨⟨⟩, hallowed, h⟩ := Calls.mem_ok_bind.mp h
  rcases Calls.mem_bind.mp h with h | ⟨marker, hmarker, h⟩
  · cases Calls.mem_call.mp h
  obtain ⟨hmarks, h⟩ := Calls.mem_check_bind.mp h
  rcases Calls.mem_bind.mp h with h | ⟨⟨⟩, hdurable, h⟩
  · exact absurd h not_sent_of_assertDurablePostBoundary
  · refine ⟨hallowed, ⟨marker, Calls.mapError_eq_ok.mp hmarker, hmarks⟩, answer_assertDurablePostBoundary.mp hdurable, ?_⟩
    cases Calls.mem_call.mp h
    rfl

theorem ready_of_sent {receipt : Fields → Bool} {mismatch : String} {reply : Answer Json}
    (h : .sent reply ∈ (submit edge a claimId requestHash receipt mismatch).calls) :
    Ready edge a claimId requestHash ∧ reply = a.reply := by
  obtain ⟨havailable, h⟩ := Calls.mem_check_bind.mp h
  obtain ⟨prepared, hprepared, h⟩ := Calls.mem_ok_bind.mp h
  rcases Calls.mem_bind.mp h with h | ⟨result, -, h⟩
  · obtain ⟨-, h⟩ := Calls.mem_check_bind.mp h
    obtain ⟨⟨⟩, hauthority, h⟩ := Calls.mem_ok_bind.mp h
    obtain ⟨hcan, h⟩ := Calls.mem_check_bind.mp h
    rcases Calls.mem_bind.mp h with h | ⟨response, -, h⟩
    · obtain ⟨snapshot, hsnapshot, h⟩ := Calls.mem_block.mp h
      obtain ⟨hobj, h⟩ := Calls.mem_check_bind.mp h
      obtain ⟨⟨⟩, hverified, h⟩ := Calls.mem_ok_bind.mp h
      obtain ⟨hallowed, hmarker, hdurable, hreply⟩ := mem_markAndSend h
      exact ⟨⟨havailable, ⟨prepared, hprepared, hcan⟩, hauthority, ⟨snapshot, hsnapshot, hobj⟩, hverified, hallowed,
        hmarker, hdurable⟩, hreply⟩
    · exact absurd h Calls.not_mem_of
  · obtain ⟨-, h⟩ := Calls.mem_check_bind.mp h
    exact absurd h Calls.not_mem_pure

/-- What comes of a mutation that reached the sender. -/
def conclusion (a : Attempt) (receipt : Fields → Bool) (mismatch : String) : Answer Json := do
  let response ← (Calls.leave a.release (a.reply.mapError transportRaised)).mapError fenced
  let result ← received response
  if (result.fields?.map receipt).getD false = true then .ok result else .error (.outcomeUnknown mismatch)

theorem markAndSend_of_ready (h : Ready edge a claimId requestHash) : markAndSend edge a claimId requestHash =
    ⟨[.marked claimId, .claimRead (strip claimId) a.durable, .sent a.reply], a.reply.mapError transportRaised⟩ := by
  obtain ⟨marker, hmarker, hmarks⟩ := h.marker
  obtain ⟨value, claim, hvalue, hdict, hfields⟩ := h.durable
  have hassert : assertDurablePostBoundary edge a claimId requestHash = ⟨[.claimRead (strip claimId) a.durable], .ok ()⟩ := by
    rw [assertDurablePostBoundary, readClaim, hvalue, Calls.call_bind, hdict]
    exact congrArg (Calls.mk _) hfields
  rw [markAndSend, h.allowed, Calls.ok_bind, hassert, hmarker]
  show (⟨_ :: (Calls.check (edge.marks claimId marker = true) _ >>= _).calls,
    (Calls.check (edge.marks claimId marker = true) _ >>= _).answer⟩ : Calls Event Raised Json) = _
  rw [Calls.check_bind hmarks]
  rfl

/-- The events and the answer of a mutation that is ready. -/
theorem submit_of_ready (h : Ready edge a claimId requestHash) (receipt : Fields → Bool) (mismatch : String) :
    submit edge a claimId requestHash receipt mismatch =
      ⟨[.marked claimId, .claimRead (strip claimId) a.durable, .sent a.reply], conclusion a receipt mismatch⟩ := by
  obtain ⟨prepared, hprepared, hcan⟩ := h.prepared
  obtain ⟨snapshot, hsnapshot, hobj⟩ := h.reserved
  have hdispatch : dispatch edge a claimId requestHash =
      ⟨[.marked claimId, .claimRead (strip claimId) a.durable, .sent a.reply],
        (Calls.leave a.release (a.reply.mapError transportRaised)).mapError fenced⟩ := by
    rw [dispatch, Calls.block, hsnapshot, Calls.ok_bind, Calls.check_bind hobj, h.verified, Calls.ok_bind,
      markAndSend_of_ready h]
    rfl
  rw [submit, Calls.check_bind h.available, hprepared, Calls.ok_bind, sendOnce, Calls.check_bind h.available, h.authority,
    Calls.ok_bind, Calls.check_bind hcan, hdispatch, Calls.bind_of]
  simp only [Calls.check_pure]
  rw [Calls.bind_of, bind_assoc]
  rfl

/-- All fields of a claim that is let through are as expected. -/
theorem text_of_compareFields {claim : Fields} {exact : List (String × String)}
    (h : edge.compareFields claim exact = .ok ()) : ∀ e ∈ exact, edge.text (claim.at e.1) = e.2 := by
  induction exact with
  | nil => exact fun e he => absurd he List.not_mem_nil
  | cons f exact ih =>
    obtain ⟨field, expected⟩ := f
    rw [Edge.compareFields] at h
    cases hsame : compareDigest (edge.text (claim.at field)) expected with
    | error e =>
      rw [hsame] at h
      cases h
    | ok same =>
      cases same with
      | false =>
        rw [hsame] at h
        cases h
      | true =>
        rw [hsame] at h
        intro e he
        rcases List.mem_cons.mp he with rfl | he
        · exact compareDigest_eq_true hsame
        · exact ih h e he

theorem readsCrossed_of_ready (h : Ready edge a claimId requestHash) :
    (Event.claimRead (strip claimId) a.durable).readsCrossed (strip claimId) (crossed edge claimId) := by
  obtain ⟨value, claim, hvalue, hdict, hfields⟩ := h.durable
  rw [hvalue]
  have htext := text_of_compareFields hfields
  refine ⟨rfl, claim, hdict, ?_⟩
  rw [crossed, Bool.and_eq_true, decide_eq_true_eq, decide_eq_true_eq]
  exact ⟨htext ("claim_id", strip claimId) (by simp [Edge.exact]),
    htext ("claim_state", "POST_MAY_HAVE_CROSSED") (by simp [Edge.exact])⟩

/-! ## From the sender on -/

theorem isUnknown_fenced (e : Raised) : (fenced e).isUnknown = e.isUnknown := by
  cases e <;> rfl

theorem settled_conclusion {receipt : Fields → Bool} {mismatch : String} {response : Json} :
    Settled (.ok response) (received (some response) >>= fun result =>
      if (result.fields?.map receipt).getD false = true then .ok result else .error (.outcomeUnknown mismatch)) := by
  have hreceived : Settled (.ok response) (received (some response)) := settled_orderOf
  rcases hreceived with ⟨d, order, hd, horder, hok⟩ | ⟨e, he, hunknown⟩
  · rw [hok]
    show Settled _ (if _ then _ else _)
    split
    · exact Or.inl ⟨d, order, hd, horder, rfl⟩
    · exact Or.inr ⟨_, rfl, rfl⟩
  · rw [he]
    exact Or.inr ⟨e, rfl, hunknown⟩

/-- **What comes of the sender's reply.** -/
theorem settled_conclusion_iff {receipt : Fields → Bool} {mismatch : String} :
    Settled a.reply (conclusion a receipt mismatch) ↔ Clear a := by
  rw [conclusion, Clear]
  cases hleave : Calls.leave a.release (a.reply.mapError transportRaised) with
  | error e =>
    show Settled _ (.error (fenced e)) ↔ e.isUnknown = true
    rw [settled_error, isUnknown_fenced]
  | ok response =>
    cases response with
    | none =>
      refine iff_of_false (fun h => ?_) Bool.false_ne_true
      have hnever := settled_error.mp h
      cases hnever
    | some response =>
      rw [Calls.mapError_eq_ok.mp (Calls.leave_eq_some hleave)]
      exact iff_of_true settled_conclusion rfl

/-- **A mutation is reported as it went, exactly when the way out of the reservation is clear.** -/
theorem reported_submit_iff {receipt : Fields → Bool} {mismatch : String} :
    Reported (strip claimId) (crossed edge claimId) (submit edge a claimId requestHash receipt mismatch) ↔
      (Ready edge a claimId requestHash → Clear a) := by
  by_cases hready : Ready edge a claimId requestHash
  · have hcalls : (submit edge a claimId requestHash receipt mismatch).calls =
        [.marked claimId, .claimRead (strip claimId) a.durable] ++ .sent a.reply :: [] := by
      rw [submit_of_ready hready]
      rfl
    rw [forall_prop_of_true hready, reported_iff_settled hcalls (quiet_of_not_mem (by simp)) (quiet_of_not_mem (by simp))
      ⟨_, by simp, readsCrossed_of_ready hready⟩, submit_of_ready hready]
    exact settled_conclusion_iff
  · refine iff_of_true (reported_of_quiet fun reply hreply => hready (ready_of_sent hreply).1) fun h => absurd h hready

end

end LiveTrader.MutationEdge.Upbit
