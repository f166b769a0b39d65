/-
# `MutationEdge.Binance` — the edge of the Binance Spot lane

The call enters the reservation of the shared route and in it the lease of the Binance route; under
the lease it checks the durable claim, marks the boundary, reads the claim back and calls the
sender once.  An exception that comes out of the two blocks is told apart by its type, for some
types after the claim was read again.
-/
import LiveTrader.MutationEdge.Answers

namespace LiveTrader.MutationEdge.Binance

open Lib Lib.Py

/-- `BinanceSpotFunctionalMutationEdge`. -/
structure Edge where
  /-- `PRODUCTION_MUTATION_AVAILABLE`. -/
  available : Bool := true
  /-- `callable(self.dispatch_lease_factory)`. -/
  leaseFactory : Bool := true
  /-- `callable(self.global_first_live_dispatch_reservation)`. -/
  reservation : Bool := true
  /-- `callable(self.claim_marker)`. -/
  claimMarker : Bool := true
  /-- `str` of a value that is no text. -/
  repr : Json → String
  /-- `json.loads`. -/
  loads : String → Answer Json
  /-- `_action_hash`. -/
  actionHash : Fields → Answer String

/-- `_text`. -/
def Edge.text (edge : Edge) (value : Json) : String := value.text edge.repr

/-- The arguments of the call. -/
structure Arguments where
  action : Fields
  claimId : String
  sealedActionHash : String
  sessionId : String
  permitId : String
  permitHash : String
  accountFingerprint : String

/-- The answers to one call of the edge, in the order of the calls. -/
structure Attempt where
  /-- The reserver is called. -/
  reserver : Answer Unit := .ok ()
  /-- The context of the reservation is entered. -/
  snapshot : Answer Json
  /-- `verify_global_first_live_authority`. -/
  verified : Answer Unit := .ok ()
  /-- The lease factory is called and its context entered; is its reader callable? -/
  leaseReader : Answer Bool := .ok true
  lease : Answer Json
  /-- The claim before the boundary. -/
  claim : Answer Json
  /-- `_assert_exact_authority`. -/
  authority : Answer Unit := .ok ()
  /-- `build_binance_spot_functional_mutation_request`. -/
  prepared : Answer Request
  /-- The health reader, where there is one. -/
  health : Option (Answer Json) := none
  marker : Answer Unit := .ok ()
  /-- The claim that is read back after the marker. -/
  marked : Answer Json
  finalLease : Answer Json
  reply : Answer Json
  /-- The context of the lease is left; it is told what is in flight. -/
  leaseRelease : Option Raised → Answer Bool := fun _ => .ok false
  /-- The context of the reservation is left. -/
  release : Option Raised → Answer Bool := fun _ => .ok false
  /-- The claim, for an exception that came out of the reservation. -/
  after : Answer Json

variable (edge : Edge) (args : Arguments) (a : Attempt)

/-! ## Checks -/

/-- `action.get("cleanupOnly") is True`. -/
def Arguments.cleanupOnly : Bool := (args.action.at "cleanupOnly").isTrue

/-- The lease is active, and of this session and claim. -/
def Edge.leaseActive (lease : Fields) : Bool :=
  (lease.at "active").isTrue && ["", strip args.sessionId].contains (edge.text (lease.at "sessionId")) &&
    ["", strip args.claimId].contains (edge.text (lease.at "claimId")) &&
      ((lease.lookup "ordinaryRoutesClosed").getD (.bool true)).isTrue

/-- The ends of the client ids of cleanup orders, with the kinds of their claims. -/
def cleanupKinds : List (String × String) :=
  [("-f", "CLEANUP_SELL"), ("-c", "CANCEL")].flatMap fun kind =>
    kind :: (List.range' 2 11).map fun generation =>
      (kind.1 ++ toString generation, kind.2 ++ "_" ++ toString generation)

/-- The kind of the claim of this action. -/
def Edge.expectedKind : String :=
  let clientOrderId := edge.text (args.action.at "clientOrderId")
  match cleanupKinds.find? fun kind => kind.1.toList.isSuffixOf clientOrderId.toList with
  | some kind => kind.2
  | none => upper (edge.text (args.action.at "kind"))

/-- The action in the claim. -/
def Edge.durableAction (claim : Fields) : Answer Fields :=
  match edge.loads (edge.text (claim.at "sealed_action_json")) with
  | .ok (.obj d) => .ok d
  | .ok _ => .error (.notSent "durable functional claim action is malformed")
  | .error (.other name reason) =>
    if name ∈ ["TypeError", "ValueError", "JSONDecodeError"] then
      .error (.notSent "durable functional claim action is malformed")
    else .error (.other name reason)
  | .error e => .error e

/-- The claim is submitting, and seals this action. -/
def Edge.seals (claim durable : Fields) (exactHash : String) : Bool :=
  edge.text (claim.at "claim_id") = strip args.claimId && edge.text (claim.at "session_id") = strip args.sessionId &&
    upper (edge.text (claim.at "state")) = "SUBMITTING" &&
    upper (edge.text (claim.at "action_kind")) = edge.expectedKind args &&
    edge.text (claim.at "client_order_id") = edge.text (args.action.at "clientOrderId") &&
    (Json.obj durable).eq (.obj args.action) && lower (strip args.sealedActionHash) = exactHash

/-- The claim that is read back is the one that was marked. -/
def Edge.marks (claim marked : Fields) : Bool :=
  edge.text (marked.at "claim_id") = strip args.claimId && edge.text (marked.at "session_id") = strip args.sessionId &&
    upper (edge.text (marked.at "state")) = "POST_MAY_HAVE_CROSSED" &&
    edge.text (marked.at "sealed_action_json") = edge.text (claim.at "sealed_action_json")

/-- What the health reader says has not changed. -/
def Edge.healthUnchanged (health : Fields) : Result Bool := do
  if (health.at "healthy").isTrue && upper (edge.text (health.at "purpose")) = "MUTATION_FINAL_PRE_MARKER" &&
      edge.text (health.at "sessionId") = strip args.sessionId && edge.text (health.at "permitId") = strip args.permitId then
    let permit ← compareDigest (lower (edge.text (health.at "permitHash"))) (lower (strip args.permitHash))
    if permit then
      let credential ← compareDigest (lower (edge.text (health.at "credentialFingerprint")))
        (lower (strip args.accountFingerprint))
      pure (credential && ["otherApiKeyInventoryProven", "accountWideCausalClosureProven", "promotionEligible",
        "realE2EEligible", "productionPromotionAllowed"].all fun field => (health.at field).isFalse)
    else pure false
  else pure false

/-- What an exception of the health reader becomes. -/
def healthRaised : Raised → Raised
  | .blocked reason => .blocked reason
  | e => e.orElse fun _ => .notSent "final independent exclusivity health read failed closed"

/-- The health of the observer, for orders that are no cleanup. -/
def Edge.checkHealth : Answer Unit :=
  match a.health with
  | none => .ok ()
  | some answer =>
    if args.cleanupOnly then .ok ()
    else do
      let health ← (answer >>= fun value => Answer.of value.dict).mapError healthRaised
      let unchanged ← Answer.of (edge.healthUnchanged args health)
      if unchanged then .ok () else .error (.notSent "final independent exclusivity health changed")

/-! ## Under the lease -/

/-- `type(exc).__name__`. -/
def typeName : Raised → String
  | .notSent _ => "BinanceSpotFunctionalMutationNotSent"
  | .fence _ => "UpbitGlobalFirstLiveFenceNotSent"
  | .outcomeUnknown _ => "BinanceSpotFunctionalMutationOutcomeUnknown"
  | .blocked _ => "BinanceSpotExclusivityError"
  | .other name _ | .exit name => name

/-- What the exception of the sender becomes. -/
def transportRaised : Raised → Raised :=
  Raised.orElse fun e => .outcomeUnknown ("transport raised after boundary marker: " ++ typeName e)

/-- The order in the response of the broker. -/
def received (response : Json) : Answer Json :=
  orderOf "broker acceptance is unproven after boundary marker" "broker response body is not an order object" response

/-- `_dispatch_under_lease`, from the marker on. -/
def markAndSend (claim : Fields) : Calls Event Raised Json := do
  Calls.call (.marked args.claimId) a.marker
  let marked ← readClaim (strip args.claimId) a.marked
  Calls.check (edge.marks args claim marked = true) (.notSent "durable may-have-crossed marker CAS is absent")
  let finalLease ← Calls.of (a.finalLease >>= fun value => Answer.of value.dict)
  Calls.check (edge.leaseActive args finalLease = true)
    (.outcomeUnknown "dispatch lease changed after durable boundary marker")
  let response ← Calls.call (.sent a.reply) (a.reply.mapError transportRaised)
  Calls.of (received response)

/-- `_dispatch_under_lease`. -/
def dispatchUnderLease : Calls Event Raised Json := do
  let claim ← readClaim (strip args.claimId) a.claim
  let durable ← Calls.of (edge.durableAction claim)
  let exactHash ← Calls.of (edge.actionHash args.action)
  Calls.check (edge.seals args claim durable exactHash = true)
    (.notSent "exact durable SUBMITTING claim/action seal is absent")
  Calls.of a.authority
  let prepared ← Calls.of a.prepared
  Calls.check (prepared.canSend = true)
    (.notSent ("mutation request is not credential/gate ready: " ++ ",".intercalate prepared.blockedReasons))
  Calls.of (edge.checkHealth args a)
  markAndSend edge args a claim

/-- The dispatch inside of the lease. -/
def underLease : Calls Event Raised (Option Json) :=
  Calls.block a.leaseReader a.leaseRelease fun callable => do
    Calls.check (callable = true) (.notSent "functional dispatch lease reader is malformed")
    let lease ← Calls.of (a.lease >>= fun value => Answer.of value.dict)
    Calls.check (edge.leaseActive args lease = true)
      (.notSent "cross-route functional dispatch lease is inactive")
    dispatchUnderLease edge args a

/-- The lease inside of the reservation. -/
def underReservation : Calls Event Raised (Option (Option Json)) :=
  Calls.block a.snapshot a.release fun snapshot => do
    Calls.check (snapshot.isObj = true) (.blocked "global first-live dispatch reservation returned no snapshot")
    Calls.of a.verified
    underLease edge args a

/-! ## What comes out of the reservation -/

/-- `boundary_state`. -/
def boundaryState : Calls Event Raised String :=
  (do
    let claim ← readClaim (strip args.claimId) a.after
    pure (upper (edge.text (claim.at "state")))).handle fun e =>
      match e with
      | .exit name => Calls.raise (.exit name)
      | _ => pure "UNREADABLE"

/-- An exception, or the unknown outcome if the boundary was crossed. -/
def unlessCrossed (unknown : String) (e : Raised) : Calls Event Raised (Option (Option Json)) := do
  let state ← boundaryState edge args a
  if state = "POST_MAY_HAVE_CROSSED" then Calls.raise (.outcomeUnknown unknown) else Calls.raise e

/-- The handlers around the reservation. -/
def concludeRaised : Raised → Calls Event Raised (Option (Option Json))
  | .outcomeUnknown reason => Calls.raise (.outcomeUnknown reason)
  | .notSent reason =>
    unlessCrossed edge args a "final dispatch failed after durable boundary marker" (.notSent reason)
  | .blocked reason => Calls.raise (.notSent reason)
  | .fence _ | .other _ _ =>
    unlessCrossed edge args a "final dispatch reservation failed after durable marker"
      (.notSent "final dispatch reservation failed closed")
  | .exit name => Calls.raise (.exit name)

/-- `BinanceSpotFunctionalMutationEdge.__call__`; where an exception was dropped it returns `None`. -/
def call : Calls Event Raised Json := do
  Calls.check (edge.available = true) (.notSent "Binance functional mutation production edge is unavailable")
  Calls.check (edge.leaseFactory = true) (.notSent "production mutation edge lacks a cross-route dispatch lease")
  Calls.check (edge.reservation = true) (.notSent "production mutation edge lacks the global dispatch reservation")
  Calls.check (edge.claimMarker = true) (.notSent "production mutation edge has no backend-owned durable marker CAS")
  Calls.of (a.reserver.mapError
    (Raised.orElse fun _ => .notSent "global first-live dispatch reservation failed closed"))
  let order ← (underReservation edge args a).handle (concludeRaised edge args a)
  pure (order.join.getD .null)

/-! ## The condition -/

/-- A claim before the boundary that seals the action, and the same claim behind it. -/
structure Sealed (claim : Fields) : Prop where
  read : ∃ value, a.claim = .ok value ∧ value.dict = .ok claim
  seals : ∃ durable exactHash, edge.durableAction claim = .ok durable ∧ edge.actionHash args.action = .ok exactHash ∧
    edge.seals args claim durable exactHash = true
  marks : ∃ value marked, a.marked = .ok value ∧ value.dict = .ok marked ∧ edge.marks args claim marked = true

/-- All that is checked before the sender lets the mutation through. -/
structure Ready : Prop where
  available : edge.available = true
  leaseFactory : edge.leaseFactory = true
  reservation : edge.reservation = true
  claimMarker : edge.claimMarker = true
  reserver : a.reserver = .ok ()
  snapshot : ∃ snapshot, a.snapshot = .ok snapshot ∧ snapshot.isObj = true
  verified : a.verified = .ok ()
  leaseReader : a.leaseReader = .ok true
  lease : ∃ value lease, a.lease = .ok value ∧ value.dict = .ok lease ∧ edge.leaseActive args lease = true
  claim : ∃ claim, Sealed edge args a claim
  authority : a.authority = .ok ()
  prepared : ∃ prepared, a.prepared = .ok prepared ∧ prepared.canSend = true
  health : edge.checkHealth args a = .ok ()
  marker : a.marker = .ok ()
  finalLease : ∃ value lease, a.finalLease = .ok value ∧ value.dict = .ok lease ∧ edge.leaseActive args lease = true

/-- The claim that is read for an exception is behind the boundary. -/
def CrossedAfter : Prop :=
  ∃ value claim, a.after = .ok value ∧ value.dict = .ok claim ∧
    upper (edge.text (claim.at "state")) = "POST_MAY_HAVE_CROSSED"

/-- An order, the exception that nobody knows, or one that the claim makes unknown. -/
def Settles : Answer (Option (Option Json)) → Prop
  | .ok order => order.join.isSome = true
  | .error (.outcomeUnknown _) => True
  | .error (.notSent _) | .error (.fence _) | .error (.other _ _) => CrossedAfter edge a
  | .error (.blocked _) | .error (.exit _) => False

/-- The broker's order, or the exception instead of it. -/
def Attempt.answered : Answer Json := a.reply.mapError transportRaised >>= received

/-- The ways out of the lease and of the reservation leave the order, or an exception that nobody
knows. -/
def Clear : Prop := Settles edge a (Calls.leave a.release (Calls.leave a.leaseRelease a.answered))

/-- The claim is of this id and may have crossed. -/
def crossed (claim : Fields) : Bool :=
  edge.text (claim.at "claim_id") = strip args.claimId && upper (edge.text (claim.at "state")) = "POST_MAY_HAVE_CROSSED"

/-! ## Up to the sender -/

section

variable {edge : Edge} {args : Arguments} {a : Attempt}

theorem dict_of_bind {answer : Answer Json} {d : Fields}
    (h : (answer >>= fun value => Answer.of value.dict) = .ok d) : ∃ value, answer = .ok value ∧ value.dict = .ok d := by
  cases answer with
  | error e => cases h
  | ok value => exact ⟨value, rfl, Calls.mapError_eq_ok.mp h⟩

theorem bind_of_dict {answer : Answer Json} {value : Json} {d : Fields} (hanswer : answer = .ok value)
    (hdict : value.dict = .ok d) : (answer >>= fun value => Answer.of value.dict) = .ok d := by
  rw [hanswer]
  exact Calls.mapError_eq_ok.mpr hdict

/-- The sender is called after the marker, the claim and the lease. -/
theorem mem_markAndSend {claim : Fields} {reply : Answer Json}
    (h : .sent reply ∈ (markAndSend edge args a claim).calls) :
    a.marker = .ok () ∧ (∃ value marked, a.marked = .ok value ∧ value.dict = .ok marked ∧
      edge.marks args claim marked = true) ∧
    (∃ value lease, a.finalLease = .ok value ∧ value.dict = .ok lease ∧ edge.leaseActive args lease = true) ∧
      reply = a.reply := by
  rcases Calls.mem_bind.mp h with h | ⟨⟨⟩, hmarker, h⟩
  · cases Calls.mem_call.mp h
  rcases Calls.mem_bind.mp h with h | ⟨marked, hmarked, h⟩
  · exact absurd h not_sent_of_readClaim
  obtain ⟨hmarks, h⟩ := Calls.mem_check_bind.mp h
  obtain ⟨lease, hlease, h⟩ := Calls.mem_ok_bind.mp h
  obtain ⟨hactive, h⟩ := Calls.mem_check_bind.mp h
  obtain ⟨value, hvalue, hdict⟩ := answer_readClaim.mp hmarked
  obtain ⟨value', hvalue', hdict'⟩ := dict_of_bind hlease
  refine ⟨hmarker, ⟨value, marked, hvalue, hdict, hmarks⟩, ⟨value', lease, hvalue', hdict', hactive⟩, ?_⟩
  rcases Calls.mem_bind.mp h with h | ⟨response, -, h⟩
  · cases Calls.mem_call.mp h
    rfl
  · exact absurd h Calls.not_mem_of

theorem not_sent_of_concludeRaised {e : Raised} {reply : Answer Json} :
    .sent reply ∉ (concludeRaised edge args a e).calls := by
  have hstate : .sent reply ∉ (boundaryState edge args a).calls := by
    intro h
    rcases Calls.mem_handle.mp h with h | ⟨e', -, h⟩
    · rcases Calls.mem_bind.mp h with h | ⟨claim, -, h⟩
      · exact absurd h not_sent_of_readClaim
      · exact absurd h Calls.not_mem_pure
    · cases e' <;> exact absurd h Calls.not_mem_of
  have hunless : ∀ unknown e, .sent reply ∉ (unlessCrossed edge args a unknown e).calls := by
    intro unknown e h
    rcases Calls.mem_bind.mp h with h | ⟨state, -, h⟩
    · exact hstate h
    · split at h <;> exact absurd h Calls.not_mem_of
  cases e with
  | notSent reason | fence reason => exact hunless _ _
  | other name reason => exact hunless _ _
  | outcomeUnknown reason | blocked reason | exit name => exact Calls.not_mem_of

theorem ready_of_sent {reply : Answer Json} (h : .sent reply ∈ (call edge args a).calls) :
    Ready edge args a ∧ reply = a.reply := by
  obtain ⟨havailable, h⟩ := Calls.mem_check_bind.mp h
  obtain ⟨hfactory, h⟩ := Calls.mem_check_bind.mp h
  obtain ⟨hreservation, h⟩ := Calls.mem_check_bind.mp h
  obtain ⟨hclaimMarker, h⟩ := Calls.mem_check_bind.mp h
  obtain ⟨⟨⟩, hreserver, h⟩ := Calls.mem_ok_bind.mp h
  rcases Calls.mem_bind.mp h with h | ⟨order, -, h⟩
  swap
  · exact absurd h Calls.not_mem_pure
  rcases Calls.mem_handle.mp h with h | ⟨e, -, h⟩
  swap
  · exact absurd h not_sent_of_concludeRaised
  -- inside of the two blocks
  obtain ⟨snapshot, hsnapshot, h⟩ := Calls.mem_block.mp h
  obtain ⟨hobj, h⟩ := Calls.mem_check_bind.mp h
  obtain ⟨⟨⟩, hverified, h⟩ := Calls.mem_ok_bind.mp h
  obtain ⟨callable, hcallable, h⟩ := Calls.mem_block.mp h
  obtain ⟨htrue, h⟩ := Calls.mem_check_bind.mp h
  obtain ⟨lease, hlease, h⟩ := Calls.mem_ok_bind.mp h
  obtain ⟨hactive, h⟩ := Calls.mem_check_bind.mp h
  obtain ⟨leaseValue, hleaseValue, hleaseDict⟩ := dict_of_bind hlease
  -- under the lease
  rcases Calls.mem_bind.mp h with h | ⟨claim, hclaim, h⟩
  · exact absurd h not_sent_of_readClaim
  obtain ⟨durable, hdurable, h⟩ := Calls.mem_ok_bind.mp h
  obtain ⟨exactHash, hexact, h⟩ := Calls.mem_ok_bind.mp h
  obtain ⟨hseals, h⟩ := Calls.mem_check_bind.mp h
  obtain ⟨⟨⟩, hauthority, h⟩ := Calls.mem_ok_bind.mp h
  obtain ⟨prepared, hprepared, h⟩ := Calls.mem_ok_bind.mp h
  obtain ⟨hcan, h⟩ := Calls.mem_check_bind.mp h
  obtain ⟨⟨⟩, hhealth, h⟩ := Calls.mem_ok_bind.mp h
  obtain ⟨hmarker, hmarks, hfinal, hreply⟩ := mem_markAndSend h
  exact ⟨⟨havailable, hfactory, hreservation, hclaimMarker, Calls.mapError_eq_ok.mp hreserver,
    ⟨snapshot, hsnapshot, hobj⟩, hverified, htrue ▸ hcallable, ⟨leaseValue, lease, hleaseValue, hleaseDict, hactive⟩,
    ⟨claim, answer_readClaim.mp hclaim, ⟨durable, exactHash, hdurable, hexact, hseals⟩, hmarks⟩, hauthority,
    ⟨prepared, hprepared, hcan⟩, hhealth, hmarker, hfinal⟩, hreply⟩

/-- The events up to the call of the sender. -/
def eventsBefore (args : Arguments) (a : Attempt) : List Event :=
  [.claimRead (strip args.claimId) a.claim, .marked args.claimId, .claimRead (strip args.claimId) a.marked]

theorem markAndSend_of_ready (h : Ready edge args a) {claim : Fields} (hclaim : Sealed edge args a claim) :
    markAndSend edge args a claim =
      ⟨[.marked args.claimId, .claimRead (strip args.claimId) a.marked, .sent a.reply], a.answered⟩ := by
  obtain ⟨value, marked, hvalue, hdict, hmarks⟩ := hclaim.marks
  obtain ⟨value', lease, hvalue', hdict', hactive⟩ := h.finalLease
  have hsend : (Calls.call (Event.sent a.reply) (a.reply.mapError transportRaised) >>= fun response =>
      Calls.of (received response)) = ⟨[Event.sent a.reply], a.answered⟩ := Calls.bind_of _ _
  rw [markAndSend, h.marker, Calls.call_bind, readClaim_of_dict hvalue hdict, Calls.mk_bind, Calls.check_bind hmarks,
    bind_of_dict hvalue' hdict', Calls.ok_bind, Calls.check_bind hactive, hsend]
  rfl

theorem underReservation_of_ready (h : Ready edge args a) : underReservation edge args a =
    ⟨eventsBefore args a ++ [.sent a.reply], Calls.leave a.release (Calls.leave a.leaseRelease a.answered)⟩ := by
  obtain ⟨snapshot, hsnapshot, hobj⟩ := h.snapshot
  obtain ⟨leaseValue, lease, hleaseValue, hleaseDict, hactive⟩ := h.lease
  obtain ⟨claim, hclaim⟩ := h.claim
  obtain ⟨value, hvalue, hdict⟩ := hclaim.read
  obtain ⟨durable, exactHash, hdurable, hexact, hseals⟩ := hclaim.seals
  obtain ⟨prepared, hprepared, hcan⟩ := h.prepared
  have hdispatch : dispatchUnderLease edge args a = ⟨eventsBefore args a ++ [.sent a.reply], a.answered⟩ := by
    rw [dispatchUnderLease, readClaim_of_dict hvalue hdict, Calls.mk_bind, hdurable, Calls.ok_bind, hexact, Calls.ok_bind,
      Calls.check_bind hseals, h.authority, Calls.ok_bind, hprepared, Calls.ok_bind, Calls.check_bind hcan, h.health,
      Calls.ok_bind, markAndSend_of_ready h hclaim]
    rfl
  have hlease : underLease edge args a =
      ⟨eventsBefore args a ++ [.sent a.reply], Calls.leave a.leaseRelease a.answered⟩ := by
    rw [underLease, Calls.block, h.leaseReader, Calls.ok_bind, Calls.check_bind rfl, bind_of_dict hleaseValue hleaseDict,
      Calls.ok_bind, Calls.check_bind hactive, hdispatch]
  rw [underReservation, Calls.block, hsnapshot, Calls.ok_bind, Calls.check_bind hobj, h.verified, Calls.ok_bind, hlease]

theorem readsCrossed_of_ready (h : Ready edge args a) :
    ∃ e ∈ eventsBefore args a, e.readsCrossed (strip args.claimId) (crossed edge args) := by
  obtain ⟨claim, hclaim⟩ := h.claim
  obtain ⟨value, marked, hvalue, hdict, hmarks⟩ := hclaim.marks
  refine ⟨.claimRead (strip args.claimId) a.marked, by simp [eventsBefore], ?_⟩
  rw [hvalue]
  refine ⟨rfl, marked, hdict, ?_⟩
  simp only [Edge.marks, Bool.and_eq_true] at hmarks
  rw [crossed, Bool.and_eq_true]
  exact ⟨hmarks.1.1.1, hmarks.1.2⟩

/-! ## From the sender on -/

/-- The state that is read for an exception. -/
theorem boundaryState_of_crossed (h : CrossedAfter edge a) :
    (boundaryState edge args a).answer = .ok "POST_MAY_HAVE_CROSSED" := by
  obtain ⟨value, claim, hvalue, hdict, hstate⟩ := h
  rw [boundaryState, readClaim_of_dict hvalue hdict, Calls.mk_bind]
  exact congrArg Except.ok hstate

/-- A claim that cannot be read says nothing. -/
theorem boundaryState_of_error {e : Raised} (h : (readClaim (strip args.claimId) a.after).answer = .error e) :
    (boundaryState edge args a).answer = .ok "UNREADABLE" ∨
      ∃ name, (boundaryState edge args a).answer = .error (.exit name) := by
  rw [boundaryState, Calls.handle_of_error (Calls.answer_bind_of_error h _)]
  cases e with
  | exit name => exact Or.inr ⟨name, rfl⟩
  | notSent _ | fence _ | outcomeUnknown _ => exact Or.inl rfl
  | blocked _ | other _ _ => exact Or.inl rfl

theorem boundaryState_of_not_crossed (h : ¬ CrossedAfter edge a) :
    (∃ state, (boundaryState edge args a).answer = .ok state ∧ state ≠ "POST_MAY_HAVE_CROSSED") ∨
      ∃ name, (boundaryState edge args a).answer = .error (.exit name) := by
  cases hclaim : (readClaim (strip args.claimId) a.after).answer with
  | error e =>
    have herror : (boundaryState edge args a).answer = .ok "UNREADABLE" ∨ _ := boundaryState_of_error hclaim
    rcases herror with hstate | hexit
    · exact Or.inl ⟨_, hstate, by decide⟩
    · exact Or.inr hexit
  | ok claim =>
    obtain ⟨value, hvalue, hdict⟩ := answer_readClaim.mp hclaim
    refine Or.inl ⟨upper (edge.text (claim.at "state")), ?_, fun hstate => h ⟨value, claim, hvalue, hdict, hstate⟩⟩
    rw [boundaryState, readClaim_of_dict hvalue hdict]
    rfl

/-- An exception that nobody knows comes of a claim behind the boundary. -/
theorem answer_unlessCrossed {e : Raised} (he : e.isUnknown = false) (unknown : String) :
    ∃ e', (unlessCrossed edge args a unknown e).answer = .error e' ∧ (e'.isUnknown = true ↔ CrossedAfter edge a) := by
  rw [unlessCrossed]
  by_cases hcrossed : CrossedAfter edge a
  · rw [Calls.answer_bind_of_ok (boundaryState_of_crossed hcrossed), if_pos rfl]
    exact ⟨.outcomeUnknown unknown, rfl, iff_of_true rfl hcrossed⟩
  · have hnot : _ ∨ ∃ name, (boundaryState edge args a).answer = _ := boundaryState_of_not_crossed hcrossed
    rcases hnot with ⟨state, hstate, hne⟩ | ⟨name, hexit⟩
    · rw [Calls.answer_bind_of_ok hstate, if_neg hne]
      exact ⟨e, rfl, iff_of_false (by simp [he]) hcrossed⟩
    · rw [Calls.answer_bind_of_error hexit]
      exact ⟨.exit name, rfl, iff_of_false Bool.false_ne_true hcrossed⟩

variable (edge args a) in
theorem answer_concludeRaised (e : Raised) : ∃ e', (concludeRaised edge args a e).answer = .error e' ∧
    (e'.isUnknown = true ↔ Settles edge a (.error e)) := by
  cases e with
  | outcomeUnknown reason => exact ⟨_, rfl, iff_of_true rfl trivial⟩
  | blocked reason => exact ⟨_, rfl, iff_of_false Bool.false_ne_true id⟩
  | exit name => exact ⟨_, rfl, iff_of_false Bool.false_ne_true id⟩
  | notSent reason => exact answer_unlessCrossed rfl _
  | fence reason => exact answer_unlessCrossed rfl _
  | other name reason => exact answer_unlessCrossed rfl _

/-- An order that was returned is the one of the broker. -/
theorem settled_of_answered {order : Json} (h : a.answered = .ok order) : Settled a.reply (.ok order) := by
  rw [Attempt.answered] at h
  cases hreply : a.reply with
  | error e =>
    rw [hreply] at h
    cases h
  | ok response =>
    rw [hreply] at h
    have hsettled : Settled (.ok response) (received response) := settled_orderOf
    rwa [show received response = .ok order from h] at hsettled

/-- A call that returns `None` has no order. -/
theorem not_settled_null {reply : Answer Json} : ¬ Settled reply (.ok .null) := by
  rintro (⟨response, order, -, -, h⟩ | ⟨e, h, -⟩)
  · cases h
  · cases h

/-- The call of an edge that is ready, from the blocks on. -/
theorem call_of_ready (h : Ready edge args a) : call edge args a =
    (underReservation edge args a).handle (concludeRaised edge args a) >>= fun order => pure (order.join.getD .null) := by
  rw [call, Calls.check_bind h.available, Calls.check_bind h.leaseFactory, Calls.check_bind h.reservation,
    Calls.check_bind h.claimMarker, h.reserver]
  rfl

/-- **What comes of the broker's order, or of the exception instead of it.** -/
theorem settled_call_iff (h : Ready edge args a) : Settled a.reply (call edge args a).answer ↔ Clear edge a := by
  have hunder := underReservation_of_ready h
  rw [call_of_ready h, Clear]
  cases hleave : Calls.leave a.release (Calls.leave a.leaseRelease a.answered) with
  | error e =>
    have herror : (underReservation edge args a).answer = .error e := by rw [hunder, hleave]
    obtain ⟨e', he', hunknown⟩ := answer_concludeRaised edge args a e
    rw [Calls.handle_of_error herror, he']
    exact settled_error.trans hunknown
  | ok order =>
    have hok : (underReservation edge args a).answer = .ok order := by rw [hunder, hleave]
    rw [Calls.handle_of_ok hok, Calls.answer_bind_of_ok hok]
    cases order with
    | none => exact iff_of_false not_settled_null Bool.false_ne_true
    | some order =>
      cases order with
      | none => exact iff_of_false not_settled_null Bool.false_ne_true
      | some order =>
        refine iff_of_true (settled_of_answered ?_) rfl
        exact Calls.leave_eq_some (Calls.leave_eq_some hleave)

theorem calls_of_ready (h : Ready edge args a) : ∃ after, (call edge args a).calls =
    eventsBefore args a ++ .sent a.reply :: after ∧ Calls.Quiet Event.isSent after := by
  have hunder := underReservation_of_ready h
  rw [call_of_ready h]
  cases hleave : Calls.leave a.release (Calls.leave a.leaseRelease a.answered) with
  | error e =>
    have herror : (underReservation edge args a).answer = .error e := by rw [hunder, hleave]
    obtain ⟨e', he', -⟩ := answer_concludeRaised edge args a e
    refine ⟨(concludeRaised edge args a e).calls, ?_, quiet_of_not_mem fun reply => not_sent_of_concludeRaised⟩
    rw [Calls.handle_of_error herror, he', hunder]
    exact List.append_assoc _ _ _
  | ok order =>
    have hok : (underReservation edge args a).answer = .ok order := by rw [hunder, hleave]
    refine ⟨[], ?_, fun e he => absurd he List.not_mem_nil⟩
    rw [Calls.handle_of_ok hok, hunder, hleave]
    exact List.append_nil _

/-- **A mutation is reported as it went, exactly when the ways out of the two blocks are clear.** -/
theorem reported_call_iff : Reported (strip args.claimId) (crossed edge args) (call edge args a) ↔
    (Ready edge args a → Clear edge a) := by
  by_cases hready : Ready edge args a
  · obtain ⟨after, hcalls, hafter⟩ := calls_of_ready hready
    rw [forall_prop_of_true hready, ← settled_call_iff hready]
    exact reported_iff_settled hcalls (quiet_of_not_mem (by simp [eventsBefore])) hafter (readsCrossed_of_ready hready)
  · exact iff_of_true (reported_of_quiet fun reply hreply => hready (ready_of_sent hreply).1) fun h => absurd h hready

end

end LiveTrader.MutationEdge.Binance
