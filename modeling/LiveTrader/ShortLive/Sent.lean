/-
# `ShortLive.Sent` — the requests of a dispatch

The calls of a dispatch leave its order and its route as they are, and the first request that is passed for sending bars every other.
So one request at most is sent, and it carries the reserved order exactly if it is unambiguous.
-/
import LiveTrader.ShortLive.Faithful
import LiveTrader.ShortLive.Owners

namespace LiveTrader.ShortLive

open Lib Lib.Py

section dispatch

variable {env : Env}

/-! ## The dispatch that is entered -/

theorem routeOf_eq_ok {value : Json} {route : String} (h : routeOf value = .ok (some route)) : value = .str route := by
  cases value with
  | str s =>
    have hroute := Except.ok.inj h
    split at hroute
    · rw [Option.some.inj hroute]
    · cases hroute
  | null | bool | int | float | arr | obj => cases h

/-- A dispatch is entered for an order whose payload is that of its route. -/
theorem openContext_withNative {n : ℕ} {present callable : Bool} {order : Fields} {native : Json} {c : Context}
    (h : openContext env.withNative n present order native callable = .ok c) :
    c.order = order ∧ exchangeOf c.route = some c.exchange ∧ ∃ fields, exactNativeOf env c.route order fields = .ok () := by
  obtain ⟨_, -, h⟩ := bind_eq_ok.mp h
  obtain ⟨found, hroute, h⟩ := bind_eq_ok.mp h
  cases found with
  | none => cases h
  | some route =>
    obtain ⟨exchange, hexchange, h⟩ := bind_eq_ok.mp h
    obtain ⟨_, hnative, h⟩ := bind_eq_ok.mp h
    obtain ⟨orderHash, -, h⟩ := bind_eq_ok.mp h
    obtain ⟨nativeHash, -, h⟩ := bind_eq_ok.mp h
    obtain rfl := Except.ok.inj h
    refine ⟨rfl, orRaise_eq_ok.mp hexchange, ?_⟩
    change exactNative env order native = .ok _ at hnative
    obtain ⟨fields, -, hexact⟩ := bind_eq_ok.mp hnative
    rw [routeOf_eq_ok hroute] at hexact
    exact ⟨fields, hexact⟩

/-! ## The calls -/

namespace Dispatch

/-- A dispatch of the order, route and exchange of a context. -/
structure IsOf (c : Context) (d : Dispatch) : Prop where
  order : d.context.order = c.order
  route : d.context.route = c.route
  exchange : d.context.exchange = c.exchange

/-- What a call can do: the router is entered, or a request is marked, or nothing. -/
theorem call_cases {d d' : Dispatch} {call : Call} (h : d.call env call = .ok d') :
    d' = d ∨ d' = { d with context := { d.context with routerEntered := true } } ∨ d' = { d with wireMutationAttempted := true } := by
  cases call with
  | native payload owners guard =>
    obtain ⟨_, -, h⟩ := bind_eq_ok.mp h
    obtain ⟨_, -, h⟩ := bind_eq_ok.mp h
    obtain ⟨_, -, h⟩ := bind_eq_ok.mp h
    exact .inr (.inl (Except.ok.inj h).symm)
  | normalized payload =>
    obtain ⟨_, -, h⟩ := bind_eq_ok.mp h
    exact .inl (Except.ok.inj h).symm
  | prepared request consume owners guard =>
    change d.prepare env request consume owners guard = .ok d' at h
    rw [prepare] at h
    split at h
    · exact .inl (Except.ok.inj h).symm
    · obtain ⟨_, -, h⟩ := bind_eq_ok.mp h
      obtain ⟨_, -, h⟩ := bind_eq_ok.mp h
      obtain ⟨_, -, h⟩ := bind_eq_ok.mp h
      obtain rfl := Except.ok.inj h
      cases consume with
      | true =>
        rw [Bool.or_true]
        exact .inr (.inr rfl)
      | false =>
        rw [Bool.or_false]
        exact .inl rfl

variable (env) in
theorem after_cases (d : Dispatch) (call : Call) : d.after env call = d ∨
    d.after env call = { d with context := { d.context with routerEntered := true } } ∨
    d.after env call = { d with wireMutationAttempted := true } := by
  rw [after]
  split
  · next hcall => exact call_cases hcall
  · exact .inl rfl

theorem IsOf.after {c : Context} {d : Dispatch} (h : d.IsOf c) (call : Call) : (d.after env call).IsOf c := by
  rcases d.after_cases env call with hafter | hafter | hafter
  · rw [hafter]
    exact h
  · rw [hafter]
    exact ⟨h.order, h.route, h.exchange⟩
  · rw [hafter]
    exact ⟨h.order, h.route, h.exchange⟩

/-- A request that is marked stays marked. -/
theorem attempted_after {d : Dispatch} (h : d.wireMutationAttempted = true) (call : Call) :
    (d.after env call).wireMutationAttempted = true := by
  rcases d.after_cases env call with hafter | hafter | hafter
  · rw [hafter]
    exact h
  · rw [hafter]
    exact h
  · rw [hafter]

/-- A request that is passed for sending has passed the checks, and is the first. -/
theorem sentBy_eq_some {d : Dispatch} {call : Call} {request : PreparedRequest} (h : d.sentBy env call = some request) :
    checkWire env d.context.route d.context.order request d.context.exchange = .ok () ∧ d.wireMutationAttempted = false ∧
      (d.after env call).wireMutationAttempted = true := by
  cases call with
  | native | normalized => cases h
  | prepared sent consume owners guard =>
    cases consume with
    | false => cases h
    | true =>
      cases hcall : d.call env (.prepared sent true owners guard) with
      | error e =>
        simp only [sentBy, hcall, reduceCtorEq] at h
      | ok d' =>
        have hafter : d.after env (.prepared sent true owners guard) = d' := by
          rw [after, hcall]
        rw [hafter]
        simp only [sentBy, hcall] at h
        split at h
        · cases h
        · next hget =>
          obtain rfl := Option.some.inj h
          change d.prepare env sent true owners guard = .ok d' at hcall
          rw [prepare, if_neg hget] at hcall
          obtain ⟨_, -, hcall⟩ := bind_eq_ok.mp hcall
          obtain ⟨_, hwire, hcall⟩ := bind_eq_ok.mp hcall
          obtain ⟨_, hfirst, hcall⟩ := bind_eq_ok.mp hcall
          obtain rfl := Except.ok.inj hcall
          exact ⟨hwire, require_eq_ok.mp hfirst rfl, Bool.or_true _⟩

/-! ## Runs of calls -/

/-- Once a request is marked, none is sent. -/
theorem sent_of_attempted {d : Dispatch} (h : d.wireMutationAttempted = true) (calls : List Call) : d.sent env calls = [] := by
  induction calls generalizing d with
  | nil => rfl
  | cons call calls ih =>
    have hnone : d.sentBy env call = none := by
      cases hsent : d.sentBy env call with
      | none => rfl
      | some request =>
        obtain ⟨-, hfirst, -⟩ := sentBy_eq_some hsent
        rw [h] at hfirst
        cases hfirst
    rw [sent, hnone, ih (attempted_after h call)]
    rfl

/-- One request at most is sent. -/
theorem length_sent_le (d : Dispatch) (calls : List Call) : (d.sent env calls).length ≤ 1 := by
  induction calls generalizing d with
  | nil => exact Nat.zero_le 1
  | cons call calls ih =>
    rw [sent]
    cases hsent : d.sentBy env call with
    | none => exact ih (d.after env call)
    | some request =>
      obtain ⟨-, -, hattempted⟩ := sentBy_eq_some hsent
      rw [sent_of_attempted hattempted]
      rfl

/-- A request that is sent in a run has passed the checks of the order. -/
theorem checkWire_of_mem_sent {c : Context} {d : Dispatch} (h : d.IsOf c) {calls : List Call} {request : PreparedRequest}
    (hmem : request ∈ d.sent env calls) : checkWire env c.route c.order request c.exchange = .ok () := by
  induction calls generalizing d with
  | nil => cases hmem
  | cons call calls ih =>
    rw [sent, List.mem_append] at hmem
    rcases hmem with hnow | hlater
    · obtain ⟨hwire, -⟩ := sentBy_eq_some (Option.mem_toList.mp hnow)
      rw [h.route, h.order, h.exchange] at hwire
      exact hwire
    · exact ih (h.after call) hlater

end Dispatch

/-- **One request at most is sent in a dispatch, and what goes on the wire is what was reserved** exactly if the request is
unambiguous. -/
theorem sent_is_reserved_iff {n : ℕ} {present callable : Bool} {order : Fields} {native : Json} {c : Context}
    (h : openContext env.withNative n present order native callable = .ok c) (calls : List Call) :
    (Dispatch.sent env { context := c } calls).length ≤ 1 ∧
      ∀ request ∈ Dispatch.sent env { context := c } calls,
        (Faithful env c.route order request ↔ Unambiguous c.route order request) := by
  obtain ⟨rfl, hexchange, fields, hnative⟩ := openContext_withNative h
  refine ⟨Dispatch.length_sent_le _ calls, ?_⟩
  intro request hmem
  exact checkWire_faithful_iff hexchange hnative (Dispatch.checkWire_of_mem_sent ⟨rfl, rfl, rfl⟩ hmem)

end dispatch

/-! ## Two dispatches -/

/-- An order of a session. -/
def reservedSample (route operation symbol : String) (fields : Fields) : Fields :=
  [("route", .str route), ("operation", .str operation), ("symbol", .str symbol), ("accountId", .str "account"),
    ("sessionId", .str "session"), ("manifestHash", .str "manifest")] ++ fields

/-- The context of its dispatch, after the router was entered. -/
def contextSample (order native : Fields) (exchange route : String) : Context where
  order
  orderHash := sampleText (.obj order)
  nativeHash := sampleText (.obj native)
  exchange
  route
  thread := 0
  reserved := order

/-- The router is entered and a request passed for sending, twice. -/
def callsSample (route : String) (native : Fields) (request : PreparedRequest) : List Call :=
  [.native (.obj native) [(route, "session", "manifest")] (.ok (.bool true)),
    .prepared request true [(route, "session", "manifest")] (.ok (.bool true)),
    .prepared request true [(route, "session", "manifest")] (.ok (.bool true))]

/-- A futures order of a hedged account. -/
def placedSample : Fields := reservedSample "BINANCE_USDM_FUTURES" "PLACE" "BTCUSDT"
  [("side", .str "BUY"), ("quantity", .str "0.010"), ("referencePrice", .str "60000"), ("clientOrderId", .str "c-1"),
    ("riskReducing", .bool false), ("positionMode", .str "HEDGE"), ("positionDirection", .str "long")]

def placeSample : Fields :=
  [("broker_id", .str "binance-futures"), ("symbol", .str "BTCUSDT"), ("side", .str "BUY"), ("quantity", .str "0.01"),
    ("price", .str "60000.0"), ("identifier", .str "c-1"), ("new_client_order_id", .str "c-1"), ("session_id", .str "session"),
    ("manifest_hash", .str "manifest"), ("execution_purpose", .str "FUNCTIONAL_TEST_ONLY"), ("order_type", .str "LIMIT"),
    ("risk_reducing", .bool false), ("reduce_only", .bool false), ("position_direction", .str "long"),
    ("position_mode", .str "HEDGE")]

def placeRequest : PreparedRequest where
  provider := "binance-futures"
  method := "POST"
  url := ⟨"https", "fapi.binance.com", "/fapi/v1/order", [("symbol", "BTCUSDT"), ("side", "BUY"), ("type", "LIMIT"),
    ("quantity", "0.01"), ("price", "60000"), ("newClientOrderId", "c-1"), ("positionSide", "LONG"), ("timestamp", "1"),
    ("signature", "s")], ""⟩
  endpoint := "/fapi/v1/order"
  headers := []
  body := none

theorem openContext_placed : openContext Env.sample.withNative 0 false placedSample (.obj placeSample) true =
    .ok (contextSample placedSample placeSample "BINANCE" "BINANCE_USDM_FUTURES") := by with_unfolding_all rfl

set_option maxRecDepth 4000 in
theorem sent_is_reserved_sample : ∃ c,
    openContext Env.sample.withNative 0 false placedSample (.obj placeSample) true = .ok c ∧
    Dispatch.sent Env.sample { context := c } (callsSample "BINANCE_USDM_FUTURES" placeSample placeRequest) = [placeRequest] ∧
    Faithful Env.sample c.route placedSample placeRequest := by
  obtain ⟨-, hiff⟩ := sent_is_reserved_iff openContext_placed (callsSample "BINANCE_USDM_FUTURES" placeSample placeRequest)
  have hsent : Dispatch.sent Env.sample { context := contextSample placedSample placeSample "BINANCE" "BINANCE_USDM_FUTURES" }
      (callsSample "BINANCE_USDM_FUTURES" placeSample placeRequest) = [placeRequest] := by with_unfolding_all rfl
  refine ⟨_, openContext_placed, hsent, (hiff placeRequest ?_).mpr ⟨?_, ?_, ?_⟩⟩
  · rw [hsent]
    exact List.mem_cons_self
  · intro hroute
    exact absurd hroute (by decide)
  · intro hroute
    exact absurd hroute (by decide)
  · intro _ key _ _
    rfl

/-- A domestic order that is cancelled. -/
def cancelledSample : Fields := reservedSample "KIS_KR_CASH" "CANCEL" "005930"
  [("brokerOrderId", .str "17"), ("organizationNo", .str "00950"), ("remainingQuantity", .str "3")]

def cancelSample : Fields :=
  [("broker_id", .str "kis"), ("symbol", .str "005930"), ("asset", .str "KR_STOCK"), ("broker_order_id", .str "17")]

/-- A request to cancel it, with a transaction. -/
def cancelRequest (transaction : String) : PreparedRequest where
  provider := "kis"
  method := "POST"
  url := ⟨"https", "openapi.koreainvestment.com:9443", "/uapi/domestic-stock/v1/trading/order-rvsecncl", [], ""⟩
  endpoint := "/uapi/domestic-stock/v1/trading/order-rvsecncl"
  headers := [("tr_id", transaction)]
  body := some [("ORD_DVSN", .str "00"), ("ORGN_ODNO", .str "17"), ("KRX_FWDG_ORD_ORGNO", .str "00950"),
    ("RVSE_CNCL_DVSN_CD", .str "02"), ("ORD_QTY", .str "3")]

theorem openContext_cancelled : openContext Env.sample.withNative 0 false cancelledSample (.obj cancelSample) true =
    .ok (contextSample cancelledSample cancelSample "KIS" "KIS_KR_CASH") := by rfl

set_option maxRecDepth 4000 in
/-- **A purchase's transaction passes for a cancellation.**  What KIS reads is no cancellation of the reserved order. -/
theorem sample_not_reserved : ∃ c,
    openContext Env.sample.withNative 0 false cancelledSample (.obj cancelSample) true = .ok c ∧
    Dispatch.sent Env.sample { context := c } (callsSample "KIS_KR_CASH" cancelSample (cancelRequest "TTTC0012U")) =
      [cancelRequest "TTTC0012U"] ∧
    ¬ Faithful Env.sample c.route cancelledSample (cancelRequest "TTTC0012U") := by
  refine ⟨_, openContext_cancelled, by with_unfolding_all rfl, ?_⟩
  intro h
  obtain ⟨wire, hwire, -⟩ := h.carries
  have hnone : decode Env.sample "KIS_KR_CASH" (cancelRequest "TTTC0012U") = none := by rfl
  exact absurd (hnone.symm.trans hwire) (by simp only [reduceCtorEq, not_false_eq_true])

end LiveTrader.ShortLive
