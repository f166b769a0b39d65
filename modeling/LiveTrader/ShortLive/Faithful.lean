/-
# `ShortLive.Faithful` — what goes on the wire is what was reserved

For each exchange: a request that passes the checks carries the reserved order exactly if it is unambiguous.
-/
import LiveTrader.Lib.Calls
import LiveTrader.ShortLive.Decoded

namespace LiveTrader.ShortLive

open Lib Lib.Py

section exchanges

variable {env : Env} {route : String} {order : Fields} {request : PreparedRequest}

/-! ## KIS -/

/-- The transaction of a side is read as that side, or as a sale. -/
theorem kisSide_kisTransaction (side : Json) :
    kisSide (some (kisTransaction side)) = some (if side.eq (.str "BUY") then "BUY" else "SELL") := by
  rw [kisTransaction]
  split
  · rfl
  · rfl

/-- The side that is read is the reserved one exactly if that is one of the two. -/
theorem side_eq_iff {side : Json} : (Json.str (if side.eq (.str "BUY") then "BUY" else "SELL")).eq side = true ↔
    side.eq (.str "BUY") = true ∨ side.eq (.str "SELL") = true := by
  cases hbuy : side.eq (.str "BUY") with
  | true =>
    rw [if_pos rfl, str_eq_iff]
    exact iff_of_true (eq_str_iff.mp hbuy) (.inl rfl)
  | false =>
    rw [if_neg Bool.false_ne_true, str_eq_iff, eq_str_iff]
    simp only [Bool.false_eq_true, false_or]

theorem kisEndpoint_ne : kisEndpoint true ≠ kisEndpoint false := by decide

theorem decodeKis_cancel (hcancel : isCancel order = true) (hkind : kindOf order = .cancel) (h : kisWire env order request = .ok ()) :
    request.endpoint = kisEndpoint true ∧ ((∃ wire, decodeKis env request = some wire ∧ Carries env order wire) ↔
      request.headers.lookup "tr_id" = some kisCancellation) := by
  obtain ⟨_, hplace, h⟩ := bind_eq_ok.mp h
  obtain ⟨hmethod, hendpoint, hdivision⟩ := require_eq_ok.mp hplace
  rw [hcancel] at hendpoint h
  rw [if_pos rfl] at h
  obtain ⟨_, hids, h⟩ := bind_eq_ok.mp h
  obtain ⟨hid, horganization, hcode⟩ := require_eq_ok.mp hids
  obtain ⟨q, hq, hremaining⟩ := sameNumber_eq_ok.mp h
  refine ⟨hendpoint, ?_⟩
  have hnotPlace : ¬(request.method = "POST" ∧ request.endpoint = kisEndpoint false ∧
      (request.fields.at "ORD_DVSN").eq (.str "00") = true) := by
    rintro ⟨-, hcash, -⟩
    exact kisEndpoint_ne (hendpoint.symm.trans hcash)
  rw [decodeKis]
  rw [if_neg hnotPlace]
  by_cases htransaction : request.headers.lookup "tr_id" = some kisCancellation
  · rw [if_pos ⟨hmethod, hendpoint, hcode, htransaction⟩, hq]
    refine iff_of_true ⟨_, rfl, hkind, ?_, hid, ?_, ?_⟩ htransaction
    · intro s hs
      cases hs
    · intro number hnumber
      rw [← Option.some.inj hnumber]
      exact horganization
    · intro x hx
      rw [← Option.some.inj hx]
      exact hremaining
  · rw [if_neg fun hall => htransaction hall.2.2.2]
    refine iff_of_false ?_ htransaction
    rintro ⟨wire, hwire, -⟩
    cases hwire

theorem decodeKis_place (hcancel : isCancel order = false) (hkind : kindOf order = .place)
    (hemergency : isOperation order "EMERGENCY_CLOSE" = false) (h : kisWire env order request = .ok ()) :
    request.endpoint = kisEndpoint false ∧ ((∃ wire, decodeKis env request = some wire ∧ Carries env order wire) ↔
      (order.at "side").eq (.str "BUY") = true ∨ (order.at "side").eq (.str "SELL") = true) := by
  obtain ⟨_, hplace, h⟩ := bind_eq_ok.mp h
  obtain ⟨hmethod, hendpoint, hdivision⟩ := require_eq_ok.mp hplace
  rw [hcancel] at hendpoint h
  rw [if_neg Bool.false_ne_true] at h
  obtain ⟨symbol, hsymbolAt, h⟩ := bind_eq_ok.mp h
  obtain ⟨_, hsymbol, h⟩ := bind_eq_ok.mp h
  obtain ⟨quantity, hquantityAt, h⟩ := bind_eq_ok.mp h
  obtain ⟨_, hquantity, h⟩ := bind_eq_ok.mp h
  obtain ⟨price, hpriceAt, h⟩ := bind_eq_ok.mp h
  obtain ⟨_, hprice, h⟩ := bind_eq_ok.mp h
  obtain ⟨side, hsideAt, h⟩ := bind_eq_ok.mp h
  have hsymbol := require_eq_ok.mp hsymbol
  have htransaction := require_eq_ok.mp h
  obtain ⟨q, hq, hq'⟩ := sameNumber_eq_ok.mp hquantity
  obtain ⟨p, hp, hp'⟩ := sameNumber_eq_ok.mp hprice
  rw [← item_eq_ok hsymbolAt] at hsymbol
  rw [← item_eq_ok hquantityAt] at hq'
  rw [← item_eq_ok hpriceAt] at hp'
  rw [← item_eq_ok hsideAt] at htransaction
  refine ⟨hendpoint, ?_⟩
  rw [decodeKis]
  rw [if_pos ⟨hmethod, hendpoint, hdivision⟩, htransaction, kisSide_kisTransaction, hq, hp, ← side_eq_iff]
  constructor
  · rintro ⟨wire, hwire, hcarries⟩
    obtain rfl := Option.some.inj hwire
    exact hcarries.2.2.1
  · intro hside
    refine ⟨_, rfl, hkind, hsymbol, hside, hq', ?_, ?_, ?_⟩
    · rw [hemergency, if_neg Bool.false_ne_true, hp']
    · intro id hid
      cases hid
    · intro s hs
      cases hs

/-! ## Upbit -/

theorem upbitSideOf_upbitSide {side body : Json} (h : body.eq (.str (upbitSide side)) = true) :
    upbitSideOf body = some (if side.eq (.str "BUY") then "BUY" else "SELL") := by
  rw [eq_str_iff.mp h, upbitSide]
  split
  · rfl
  · rfl

theorem decodeUpbit_cancel (hcancel : isCancel order = true) (hkind : kindOf order = .cancel) (h : upbitWire env order request = .ok ()) :
    request.endpoint ∈ ["/v1/order", "/v1/orders"] ∧ ∃ wire, decodeUpbit env request = some wire ∧ Carries env order wire := by
  obtain ⟨_, hplace, h⟩ := bind_eq_ok.mp h
  have hendpoint := require_eq_ok.mp hplace
  rw [hcancel] at hendpoint h
  rw [if_pos rfl] at h
  obtain ⟨brokerOrderId, hidAt, h⟩ := bind_eq_ok.mp h
  obtain ⟨hmethod, hid⟩ := require_eq_ok.mp h
  rw [← item_eq_ok hidAt] at hid
  refine ⟨?_, .cancel none (env.str (request.queryAt "uuid")) none none, ?_, hkind, ?_, ?_, ?_, ?_⟩
  · rcases hendpoint with hone | ⟨hno, -⟩
    · exact hone ▸ List.mem_cons_self
    · cases hno
  · rw [decodeUpbit]
    rw [if_neg, if_pos hmethod]
    rintro ⟨hpost, -⟩
    rw [hmethod] at hpost
    exact absurd hpost (by decide)
  · intro s hs
    cases hs
  · rw [queryAt_of_lookup hid]
    rfl
  · intro number hnumber
    cases hnumber
  · intro q hq
    cases hq

theorem decodeUpbit_place (hcancel : isCancel order = false) (hkind : kindOf order = .place)
    (hemergency : isOperation order "EMERGENCY_CLOSE" = false) (h : upbitWire env order request = .ok ()) :
    request.endpoint ∈ ["/v1/order", "/v1/orders"] ∧ ((∃ wire, decodeUpbit env request = some wire ∧ Carries env order wire) ↔
      (order.at "side").eq (.str "BUY") = true ∨ (order.at "side").eq (.str "SELL") = true) := by
  obtain ⟨_, hplace, h⟩ := bind_eq_ok.mp h
  have hendpoint := require_eq_ok.mp hplace
  rw [hcancel] at hendpoint h
  rw [if_neg Bool.false_ne_true] at h
  obtain ⟨_, hmethod, h⟩ := bind_eq_ok.mp h
  obtain ⟨symbol, hsymbolAt, h⟩ := bind_eq_ok.mp h
  obtain ⟨clientOrderId, hclientAt, h⟩ := bind_eq_ok.mp h
  obtain ⟨_, hids, h⟩ := bind_eq_ok.mp h
  obtain ⟨side, hsideAt, h⟩ := bind_eq_ok.mp h
  obtain ⟨_, hsides, h⟩ := bind_eq_ok.mp h
  obtain ⟨quantity, hquantityAt, h⟩ := bind_eq_ok.mp h
  obtain ⟨_, hquantity, h⟩ := bind_eq_ok.mp h
  obtain ⟨price, hpriceAt, h⟩ := bind_eq_ok.mp h
  have hmethod := require_eq_ok.mp hmethod
  obtain ⟨hsymbol, hclient, htype⟩ := require_eq_ok.mp hids
  have hside := upbitSideOf_upbitSide (require_eq_ok.mp hsides)
  obtain ⟨q, hq, hq'⟩ := sameNumber_eq_ok.mp hquantity
  obtain ⟨p, hp, hp'⟩ := sameNumber_eq_ok.mp h
  rw [← item_eq_ok hsymbolAt] at hsymbol
  rw [← item_eq_ok hclientAt] at hclient
  rw [← item_eq_ok hsideAt] at hside
  rw [← item_eq_ok hquantityAt] at hq'
  rw [← item_eq_ok hpriceAt] at hp'
  refine ⟨?_, ?_⟩
  · rcases hendpoint with hone | ⟨-, hmany⟩
    · exact hone ▸ List.mem_cons_self
    · exact hmany ▸ List.mem_cons_of_mem _ List.mem_cons_self
  rw [decodeUpbit]
  rw [if_pos ⟨hmethod, htype⟩, hside, hq, hp, ← side_eq_iff]
  constructor
  · rintro ⟨wire, hwire, hcarries⟩
    obtain rfl := Option.some.inj hwire
    exact hcarries.2.2.1
  · intro hcarried
    refine ⟨_, rfl, hkind, hsymbol, hcarried, hq', ?_, ?_, ?_⟩
    · rw [hemergency, if_neg Bool.false_ne_true, hp']
    · intro id hid
      rw [← Option.some.inj hid]
      exact hclient
    · intro s hs
      cases hs

/-! ## Binance -/

theorem lookup_filter_signing {key : String} (h : key ∉ signingKeys) (query : List (String × String)) :
    ((query.filter fun entry => decide (entry.1 ∉ signingKeys)).map fun entry => (entry.1, Json.str entry.2)).lookup key =
      (query.lookup key).map Json.str := by
  induction query with
  | nil => rfl
  | cons entry rest ih =>
    by_cases hkey : key = entry.1
    · have hkept : decide (entry.1 ∉ signingKeys) = true := decide_eq_true (hkey ▸ h)
      have hfirst : List.lookup key (entry :: rest) = some entry.2 := by
        rw [hkey]
        exact List.lookup_cons_self
      rw [List.filter_cons, hkept, if_pos rfl, List.map_cons, hfirst, hkey, List.lookup_cons_self]
      rfl
    · have hrest : List.lookup key (entry :: rest) = rest.lookup key := by
        rw [List.lookup_cons, beq_eq_false_iff_ne.mpr hkey]
      rw [hrest, ← ih, List.filter_cons]
      split
      · rw [List.map_cons, List.lookup_cons, beq_eq_false_iff_ne.mpr hkey]
      · rfl

/-- A query without the parameters of the signature still has the others. -/
theorem lookup_unsigned {key : String} (h : key ∉ signingKeys) :
    (unsigned request).lookup key = (request.url.query.lookup key).map Json.str := lookup_filter_signing h _

theorem forall_mem_place {p : String → Prop} : (∀ key ∈ comparedKeys .place, p key) ↔ p "symbol" ∧ p "side" ∧ p "newClientOrderId" := by
  rw [comparedKeys, List.forall_mem_cons, List.forall_mem_cons, List.forall_mem_singleton]

theorem decodeBinance_cancel (hcancel : isCancel order = true) (hkind : kindOf order = .cancel)
    (h : binanceWire env route order request = .ok ()) :
    request.endpoint = binanceEndpoint route ∧ ((∃ wire, decodeBinance env route request = some wire ∧ Carries env order wire) ↔
      ∀ key ∈ comparedKeys .cancel, request.url.query.lookup key = none → request.fields.at key = .null) := by
  obtain ⟨symbol, hsymbolAt, h⟩ := bind_eq_ok.mp h
  obtain ⟨_, hplace, h⟩ := bind_eq_ok.mp h
  obtain ⟨hendpoint, hmethod, hsymbol⟩ := require_eq_ok.mp hplace
  rw [hcancel] at hmethod h
  rw [if_pos rfl] at hmethod h
  obtain ⟨brokerOrderId, hidAt, h⟩ := bind_eq_ok.mp h
  have hid := require_eq_ok.mp h
  rw [← item_eq_ok hidAt] at hid
  rw [← item_eq_ok hsymbolAt] at hsymbol
  refine ⟨hendpoint, ?_⟩
  have hpost : ¬request.method = "POST" := by
    rw [hmethod]
    decide
  rw [decodeBinance, if_pos hendpoint, if_neg hpost, if_pos hmethod, comparedKeys, List.forall_mem_singleton,
    ← parameter_eq_iff hsymbol]
  constructor
  · rintro ⟨wire, hwire, hcarries⟩
    obtain rfl := Option.some.inj hwire
    exact hcarries.2.1 _ rfl
  · intro hcarried
    refine ⟨_, rfl, hkind, ?_, ?_, ?_, ?_⟩
    · intro s hs
      rw [← Option.some.inj hs]
      exact hcarried
    · rw [parameter_of_lookup hid]
      rfl
    · intro number hnumber
      cases hnumber
    · intro q hq
      cases hq

/-- The price that is read is the reserved one, or that of a market order. -/
theorem binancePriceOf_eq {emergency : Bool} (htype : request.url.query.lookup "type" = some (if emergency then "MARKET" else "LIMIT"))
    (h : binancePrice env order request emergency = .ok ()) : binancePriceOf env request (parameter request "type") =
      some (if emergency then none else positive env (order.at "referencePrice")) := by
  rw [parameter_of_lookup htype]
  cases emergency with
  | true => rfl
  | false =>
    obtain ⟨price, hpriceAt, hprice⟩ := bind_eq_ok.mp h
    obtain ⟨p, hp, hp'⟩ := sameNumber_eq_ok.mp hprice
    rw [← item_eq_ok hpriceAt] at hp'
    have hread : positive env (parameter request "price") = some p := by
      rw [parameter_of_queryAt (positive_ne_null hp), hp]
    show (positive env (parameter request "price")).map some = some (positive env (order.at "referencePrice"))
    rw [hread, hp']
    rfl

theorem decodeBinance_place (hcancel : isCancel order = false) (hkind : kindOf order = .place)
    (h : binanceWire env route order request = .ok ()) :
    request.endpoint = binanceEndpoint route ∧ ((∃ wire, decodeBinance env route request = some wire ∧ Carries env order wire) ↔
      ∀ key ∈ comparedKeys .place, request.url.query.lookup key = none → request.fields.at key = .null) := by
  obtain ⟨symbol, hsymbolAt, h⟩ := bind_eq_ok.mp h
  obtain ⟨_, hplace, h⟩ := bind_eq_ok.mp h
  obtain ⟨hendpoint, hmethod, hsymbol⟩ := require_eq_ok.mp hplace
  rw [hcancel] at hmethod h
  rw [if_neg Bool.false_ne_true] at hmethod h
  obtain ⟨clientOrderId, hclientAt, h⟩ := bind_eq_ok.mp h
  obtain ⟨_, hclient, h⟩ := bind_eq_ok.mp h
  obtain ⟨side, hsideAt, h⟩ := bind_eq_ok.mp h
  obtain ⟨_, hsides, h⟩ := bind_eq_ok.mp h
  obtain ⟨quantity, hquantityAt, h⟩ := bind_eq_ok.mp h
  obtain ⟨_, hquantity, h⟩ := bind_eq_ok.mp h
  obtain ⟨_, hprice, hposition⟩ := bind_eq_ok.mp h
  have hclient := require_eq_ok.mp hclient
  obtain ⟨hside, htype⟩ := require_eq_ok.mp hsides
  obtain ⟨q, hq, hq'⟩ := sameNumber_eq_ok.mp hquantity
  rw [← item_eq_ok hsymbolAt] at hsymbol
  rw [← item_eq_ok hclientAt] at hclient
  rw [← item_eq_ok hsideAt] at hside
  rw [← item_eq_ok hquantityAt] at hq'
  refine ⟨hendpoint, ?_⟩
  have hread : positive env (parameter request "quantity") = some q := by
    rw [parameter_of_queryAt (positive_ne_null hq), hq]
  rw [decodeBinance, if_pos hendpoint, if_pos hmethod, decodeOrder, hread, binancePriceOf_eq htype hprice, forall_mem_place,
    ← parameter_eq_iff hsymbol, ← parameter_eq_iff hside, ← parameter_eq_iff hclient]
  constructor
  · rintro ⟨wire, hwire, hcarries⟩
    obtain rfl := Option.some.inj hwire
    exact ⟨hcarries.2.1, hcarries.2.2.1, hcarries.2.2.2.2.2.1 _ rfl⟩
  · rintro ⟨hsymbolRead, hsideRead, hclientRead⟩
    refine ⟨_, rfl, hkind, hsymbolRead, hsideRead, hq', rfl, ?_, ?_⟩
    · intro id hid
      rw [← Option.some.inj hid]
      exact hclientRead
    · intro s hs
      by_cases hfutures : route = "BINANCE_USDM_FUTURES"
      · rw [futuresSide, if_pos hfutures] at hposition
        rw [if_pos hfutures] at hs
        rw [← Option.some.inj hs, parameter_of_lookup (require_eq_ok.mp hposition).1]
      · rw [if_neg hfutures] at hs
        cases hs

/-! ## Protections -/

/-- What an equal mapping holds under a key of the query. -/
theorem lookup_of_eq {expected sent : Fields} (h : Json.eq (.obj expected) (.obj sent) = true) {key : String} {value : Json}
    (hvalue : expected.lookup key = some value) : ∃ found, sent.lookup key = some found ∧ value.eq found = true := by
  rw [Json.eq, Bool.and_eq_true] at h
  exact Json.eqFields_lookup h.2 hvalue

/-- A parameter of a protection is the text it was compared with. -/
theorem parameter_of_expected {key : String} (hkey : key ∉ signingKeys) {value found : Json}
    (hfound : (unsigned request).lookup key = some found) (heq : value.eq found = true) :
    parameter request key = value ∧ (parameter request key).eq value = true := by
  rw [lookup_unsigned hkey] at hfound
  obtain ⟨text, htext, rfl⟩ := Option.map_eq_some_iff.mp hfound
  rw [parameter_of_lookup htext, eq_str_iff.mp heq]
  exact ⟨rfl, eq_self_str text⟩

theorem str_str (text : String) : env.str (.str text) = text := rfl

theorem positive_str {value : Json} {d : Dec} (h : positive? env value = some d) : positive? env (.str (env.str value)) = some d := by
  cases value with
  | null => cases h
  | bool => cases h
  | int | float | str | arr | obj =>
    simp only [positive?, str_str] at h ⊢
    exact h

theorem reservedSide_eq {positionSide : String} (h : protectedSide order = .ok positionSide) : reservedSide env order = positionSide := by
  obtain ⟨mode, hmodeAt, h⟩ := bind_eq_ok.mp h
  rw [reservedSide, item_eq_ok hmodeAt]
  cases hmode : mode.eq (.str "HEDGE") with
  | false =>
    rw [hmode, if_neg Bool.false_ne_true] at h
    rw [if_neg Bool.false_ne_true]
    exact Except.ok.inj h
  | true =>
    rw [hmode, if_pos rfl] at h
    rw [if_pos rfl]
    obtain ⟨direction, hdirection, h⟩ := bind_eq_ok.mp h
    rw [getOr, orRaise_eq_ok.mp hdirection, Option.getD_some]
    cases direction with
    | str text => exact Except.ok.inj h
    | null | bool | int | float | arr | obj => cases h

/-- The trigger price of a protection whose payload was accepted. -/
theorem trigger_of_native {exact : Fields} (h : protectionNative env order = .ok exact)
    (hcancel : isOperation order "CANCEL_PROTECTION" = false) : ∃ d, positive? env (order.at "triggerPrice") = some d := by
  obtain ⟨_, -, h⟩ := bind_eq_ok.mp h
  obtain ⟨_, -, h⟩ := bind_eq_ok.mp h
  obtain ⟨_, -, h⟩ := bind_eq_ok.mp h
  rw [isOperation] at hcancel
  rw [hcancel, if_neg Bool.false_ne_true] at h
  obtain ⟨_, -, h⟩ := bind_eq_ok.mp h
  obtain ⟨_, -, h⟩ := bind_eq_ok.mp h
  obtain ⟨_, -, h⟩ := bind_eq_ok.mp h
  obtain ⟨d, hd, -⟩ := bind_eq_ok.mp h
  exact ⟨d, orRaise_eq_ok.mp hd⟩

theorem binanceEndpoint_ne : binanceEndpoint "BINANCE_USDM_FUTURES" ≠ "/fapi/v1/algoOrder" := by decide

theorem decode_cancelProtection (hcancel : isOperation order "CANCEL_PROTECTION" = true)
    (h : protectionWire env route order request = .ok ()) : route = "BINANCE_USDM_FUTURES" ∧
      request.endpoint = "/fapi/v1/algoOrder" ∧ ∃ wire, decodeBinance env route request = some wire ∧ Carries env order wire := by
  obtain ⟨_, hplace, h⟩ := bind_eq_ok.mp h
  obtain ⟨hroute, hendpoint, hmethod, -⟩ := require_eq_ok.mp hplace
  rw [hcancel, if_pos rfl] at hmethod h
  obtain ⟨algoId, halgoAt, h⟩ := bind_eq_ok.mp h
  have hsame := require_eq_ok.mp h
  obtain ⟨found, hfound, heq⟩ := lookup_of_eq hsame List.lookup_cons_self
  obtain ⟨hparameter, -⟩ := parameter_of_expected (by decide) hfound heq
  refine ⟨hroute, hendpoint, .cancelProtection (env.str (parameter request "algoId")), ?_, ?_, ?_⟩
  · have hother : ¬request.endpoint = binanceEndpoint route := by
      rw [hendpoint, hroute]
      exact binanceEndpoint_ne.symm
    have hpost : ¬request.method = "POST" := by
      rw [hmethod]
      decide
    rw [decodeBinance, if_neg hother, if_pos ⟨hroute, hendpoint⟩, if_neg hpost, if_pos hmethod]
  · rw [kindOf, if_pos hcancel]
  · rw [hparameter, item_eq_ok halgoAt]
    rfl

theorem expectedProtection_eq_ok {expected : Fields} (h : expectedProtection env order = .ok expected) :
    expected = protectionParameters (order.at "symbol") (order.at "side") (.str (env.str (order.at "triggerPrice")))
      (.str (reservedSide env order)) (order.at "clientAlgoId") := by
  obtain ⟨symbol, hsymbol, h⟩ := bind_eq_ok.mp h
  obtain ⟨side, hside, h⟩ := bind_eq_ok.mp h
  obtain ⟨trigger, htrigger, h⟩ := bind_eq_ok.mp h
  obtain ⟨positionSide, hposition, h⟩ := bind_eq_ok.mp h
  obtain ⟨clientAlgoId, hclient, h⟩ := bind_eq_ok.mp h
  rw [item_eq_ok hsymbol, item_eq_ok hside, item_eq_ok htrigger, item_eq_ok hclient, reservedSide_eq hposition]
  exact (Except.ok.inj h).symm

/-- The parameters that were sent, up to the spelling of the trigger price. -/
theorem sameTrigger_eq_ok {expected sent : Fields} (h : sameTrigger env request expected = .ok sent) :
    (∃ q, positive env ((unsigned request).at "triggerPrice") = some q ∧ positive env (expected.at "triggerPrice") = some q ∧
      sent = (unsigned request).put "triggerPrice" (expected.at "triggerPrice")) ∨
    (unsigned request).lookup "triggerPrice" = none ∧ sent = unsigned request := by
  rw [sameTrigger] at h
  split at h
  · obtain ⟨_, hnumber, h⟩ := bind_eq_ok.mp h
    obtain ⟨q, hq, hq'⟩ := sameNumber_eq_ok.mp hnumber
    exact .inl ⟨q, hq, hq', (Except.ok.inj h).symm⟩
  · next hnone =>
    rw [Bool.not_eq_true, Option.isSome_eq_false_iff, Option.isNone_iff_eq_none] at hnone
    exact .inr ⟨hnone, (Except.ok.inj h).symm⟩

/-- A number of the query is the parameter of its key. -/
theorem positive_parameter {key : String} (hkey : key ∉ signingKeys) {q : ℚ} (h : positive env ((unsigned request).at key) = some q) :
    positive env (parameter request key) = some q := by
  rw [Fields.at, lookup_unsigned hkey] at h
  cases hlookup : request.url.query.lookup key with
  | none =>
    rw [hlookup] at h
    cases h
  | some text =>
    rw [hlookup] at h
    rw [parameter_of_lookup hlookup]
    exact h

theorem trigger_expected {symbol side trigger positionSide clientAlgoId : Json} :
    (protectionParameters symbol side trigger positionSide clientAlgoId).lookup "triggerPrice" = some trigger := rfl

theorem decode_protect (hprotect : isOperation order "PROTECT" = true) (hcancel : isOperation order "CANCEL_PROTECTION" = false)
    {d : Dec} (hd : positive? env (order.at "triggerPrice") = some d) (h : protectionWire env route order request = .ok ()) :
    route = "BINANCE_USDM_FUTURES" ∧ request.endpoint = "/fapi/v1/algoOrder" ∧
      ∃ wire, decodeBinance env route request = some wire ∧ Carries env order wire := by
  obtain ⟨_, hplace, h⟩ := bind_eq_ok.mp h
  obtain ⟨hroute, hendpoint, hmethod, -⟩ := require_eq_ok.mp hplace
  rw [hcancel, if_neg Bool.false_ne_true] at hmethod h
  obtain ⟨expected, hexpected, h⟩ := bind_eq_ok.mp h
  obtain ⟨sent, hsent, h⟩ := bind_eq_ok.mp h
  have hsame := require_eq_ok.mp h
  obtain rfl := expectedProtection_eq_ok hexpected
  rcases sameTrigger_eq_ok hsent with ⟨q, hq, hq', rfl⟩ | ⟨hnone, rfl⟩
  · -- every other parameter is compared as it is
    have hother : ∀ (key : String) (value : Json), key ≠ "triggerPrice" → key ∉ signingKeys →
        (protectionParameters (order.at "symbol") (order.at "side") (.str (env.str (order.at "triggerPrice")))
          (.str (reservedSide env order)) (order.at "clientAlgoId")).lookup key = some value →
        parameter request key = value ∧ (parameter request key).eq value = true := by
      intro key value hne hkey hvalue
      obtain ⟨found, hfound, heq⟩ := lookup_of_eq hsame hvalue
      rw [Fields.lookup_put, if_neg hne] at hfound
      exact parameter_of_expected hkey hfound heq
    obtain ⟨-, hsymbol⟩ := hother "symbol" _ (by decide) (by decide) rfl
    obtain ⟨-, hside⟩ := hother "side" _ (by decide) (by decide) rfl
    obtain ⟨hposition, -⟩ := hother "positionSide" _ (by decide) (by decide) rfl
    obtain ⟨-, hclient⟩ := hother "clientAlgoId" _ (by decide) (by decide) rfl
    have hreserved : positive env (order.at "triggerPrice") = some q := by
      have hnumber : positive env (.str (env.str (order.at "triggerPrice"))) = some q := hq'
      rw [positive, positive_str hd] at hnumber
      rw [positive, hd]
      exact hnumber
    have hdifferent : ¬request.endpoint = binanceEndpoint route := by
      rw [hendpoint, hroute]
      exact binanceEndpoint_ne.symm
    refine ⟨hroute, hendpoint, ?_⟩
    rw [decodeBinance, if_neg hdifferent, if_pos ⟨hroute, hendpoint⟩, if_pos hmethod, decodeProtection,
      positive_parameter (by decide) hq]
    refine ⟨_, rfl, ?_, hsymbol, hside, hreserved, hposition, hclient⟩
    rw [kindOf, hcancel, hprotect]
    rfl
  · obtain ⟨found, hfound, -⟩ := lookup_of_eq hsame trigger_expected
    rw [hnone] at hfound
    cases hfound

/-! ## Every request -/

theorem exchangeOf_cases {exchange : String} (h : exchangeOf route = some exchange) :
    (route = "KIS_KR_CASH" ∧ exchange = "KIS") ∨ (route = "UPBIT_KRW_SPOT" ∧ exchange = "UPBIT") ∨
      (route = "BINANCE_SPOT" ∨ route = "BINANCE_USDM_FUTURES") ∧ exchange = "BINANCE" := by
  have hmem := Dict.mem_of_lookup h
  simp only [exchanges, List.mem_cons, Prod.mk.injEq, List.not_mem_nil, or_false] at hmem
  rcases hmem with ⟨rfl, rfl⟩ | ⟨rfl, rfl⟩ | ⟨rfl, rfl⟩ | ⟨rfl, rfl⟩
  · exact .inl ⟨rfl, rfl⟩
  · exact .inr (.inl ⟨rfl, rfl⟩)
  · exact .inr (.inr ⟨.inl rfl, rfl⟩)
  · exact .inr (.inr ⟨.inr rfl, rfl⟩)

theorem checkOrigin_eq_ok (h : checkOrigin route request = .ok ()) :
    request.url.scheme = "https" ∧ request.url.netloc = hostOf route ∧ request.url.path = request.endpoint := by
  obtain ⟨_, -, h⟩ := bind_eq_ok.mp h
  obtain ⟨_, horigin, -⟩ := bind_eq_ok.mp h
  obtain ⟨hscheme, hhost, hpath, -⟩ := require_eq_ok.mp horigin
  exact ⟨hscheme, hhost, hpath⟩

/-- What an accepted payload says of the order: an emergency close is one of a futures route, and a protection has a trigger price. -/
theorem exactNativeOf_eq_ok {fields : Fields} {protection : Bool} (hprotection : isProtection order = .ok protection)
    (h : exactNativeOf env route order fields = .ok ()) :
    (protection = true → isOperation order "CANCEL_PROTECTION" = false → ∃ d, positive? env (order.at "triggerPrice") = some d) ∧
      (protection = false → isCancel order = false → isOperation order "EMERGENCY_CLOSE" = true → route = "BINANCE_USDM_FUTURES") := by
  obtain ⟨_, -, h⟩ := bind_eq_ok.mp h
  obtain ⟨_, -, h⟩ := bind_eq_ok.mp h
  obtain ⟨_, hsame, h⟩ := bind_eq_ok.mp h
  rw [hprotection] at hsame
  obtain rfl := Except.ok.inj hsame
  cases protection with
  | true =>
    refine ⟨?_, fun hno => absurd hno.symm Bool.false_ne_true⟩
    intro _ hcancel
    obtain ⟨exact, hexact, -⟩ := bind_eq_ok.mp h
    exact trigger_of_native (Calls.mapError_eq_ok.mp hexact) hcancel
  | false =>
    refine ⟨fun hno => absurd hno Bool.false_ne_true, ?_⟩
    intro _ hcancel hemergency
    rw [isCancel] at hcancel
    rw [if_neg Bool.false_ne_true, hcancel, if_neg Bool.false_ne_true] at h
    obtain ⟨_, -, h⟩ := bind_eq_ok.mp h
    obtain ⟨_, -, h⟩ := bind_eq_ok.mp h
    obtain ⟨_, -, h⟩ := bind_eq_ok.mp h
    obtain ⟨_, -, h⟩ := bind_eq_ok.mp h
    obtain ⟨_, -, h⟩ := bind_eq_ok.mp h
    obtain ⟨_, -, h⟩ := bind_eq_ok.mp h
    obtain ⟨_, -, h⟩ := bind_eq_ok.mp h
    obtain ⟨_, -, h⟩ := bind_eq_ok.mp h
    obtain ⟨_, -, h⟩ := bind_eq_ok.mp h
    exact (require_eq_ok.mp h hemergency).1

/-- A request to its host carries the order if what is read from it does. -/
theorem faithful_iff_carries (horigin : checkOrigin route request = .ok ()) (hendpoint : request.endpoint ∈ endpointsOf route) :
    Faithful env route order request ↔ ∃ wire, decode env route request = some wire ∧ Carries env order wire := by
  obtain ⟨hscheme, hhost, hpath⟩ := checkOrigin_eq_ok horigin
  exact ⟨Faithful.carries, fun h => ⟨hscheme, hhost, hpath, hendpoint, h⟩⟩

theorem kindOf_protection (h : isOperation order "PROTECT" = true ∨ isOperation order "CANCEL_PROTECTION" = true) :
    kindOf order = .protect ∨ kindOf order = .cancelProtection := by
  rw [kindOf]
  split
  · exact .inr rfl
  · next hcancel =>
    rw [if_pos (h.resolve_right hcancel)]
    exact .inl rfl

/-- A protection that passes the checks carries the reserved one, and is unambiguous. -/
theorem faithful_protection (hprotection : isProtection order = .ok true) (horigin : checkOrigin route request = .ok ())
    (htrigger : isOperation order "CANCEL_PROTECTION" = false → ∃ d, positive? env (order.at "triggerPrice") = some d)
    (h : protectionWire env route order request = .ok ()) : Faithful env route order request ↔ Unambiguous route order request := by
  have hkind := (isProtection_eq_ok hprotection).mp rfl
  have hcarries : route = "BINANCE_USDM_FUTURES" ∧ request.endpoint = "/fapi/v1/algoOrder" ∧
      ∃ wire, decodeBinance env route request = some wire ∧ Carries env order wire := by
    cases hcancel : isOperation order "CANCEL_PROTECTION" with
    | true => exact decode_cancelProtection hcancel h
    | false =>
      obtain ⟨d, hd⟩ := htrigger hcancel
      refine decode_protect (hkind.resolve_right ?_) hcancel hd h
      rw [hcancel]
      exact Bool.false_ne_true
  obtain ⟨rfl, hendpoint, hcarries⟩ := hcarries
  have hmem : request.endpoint ∈ endpointsOf "BINANCE_USDM_FUTURES" := by
    rw [hendpoint]
    decide
  refine iff_of_true ((faithful_iff_carries horigin hmem).mpr hcarries) ⟨?_, ?_, ?_⟩
  · intro hroute
    exact absurd hroute (by decide)
  · intro hroute
    exact absurd hroute (by decide)
  · intro _ key hkey
    rcases kindOf_protection hkind with hprotect | hprotect
    · rw [hprotect] at hkey
      cases hkey
    · rw [hprotect] at hkey
      cases hkey

/-- An order of a route that is not one of futures is no emergency close. -/
theorem not_emergency (hroute : route ≠ "BINANCE_USDM_FUTURES")
    (h : isOperation order "EMERGENCY_CLOSE" = true → route = "BINANCE_USDM_FUTURES") : isOperation order "EMERGENCY_CLOSE" = false :=
  Bool.eq_false_iff.mpr fun hemergency => hroute (h hemergency)

theorem faithful_kis (hkind : kindOf order = if isCancel order then .cancel else .place)
    (hemergency : isCancel order = false → isOperation order "EMERGENCY_CLOSE" = true → "KIS_KR_CASH" = "BINANCE_USDM_FUTURES")
    (horigin : checkOrigin "KIS_KR_CASH" request = .ok ()) (h : kisWire env order request = .ok ()) :
    Faithful env "KIS_KR_CASH" order request ↔ Unambiguous "KIS_KR_CASH" order request := by
  cases hcancel : isCancel order with
  | true =>
    rw [hcancel, if_pos rfl] at hkind
    obtain ⟨hendpoint, hcarries⟩ := decodeKis_cancel hcancel hkind h
    have hmem : request.endpoint ∈ endpointsOf "KIS_KR_CASH" := by
      rw [hendpoint]
      decide
    rw [faithful_iff_carries horigin hmem]
    refine hcarries.trans ⟨?_, ?_⟩
    · intro htransaction
      refine ⟨fun _ _ => htransaction, ?_, ?_⟩
      · intro _ hplace
        rw [hkind] at hplace
        cases hplace
      · intro hroute
        exact absurd hroute (by decide)
    · intro hclear
      exact hclear.cancellation rfl hkind
  | false =>
    rw [hcancel, if_neg Bool.false_ne_true] at hkind
    obtain ⟨hendpoint, hcarries⟩ := decodeKis_place hcancel hkind (not_emergency (by decide) (hemergency hcancel)) h
    have hmem : request.endpoint ∈ endpointsOf "KIS_KR_CASH" := by
      rw [hendpoint]
      decide
    rw [faithful_iff_carries horigin hmem]
    refine hcarries.trans ⟨?_, ?_⟩
    · intro hside
      refine ⟨?_, fun _ _ => hside, ?_⟩
      · intro _ hcancelled
        rw [hkind] at hcancelled
        cases hcancelled
      · intro hroute
        exact absurd hroute (by decide)
    · intro hclear
      exact hclear.side List.mem_cons_self hkind

theorem faithful_upbit (hkind : kindOf order = if isCancel order then .cancel else .place)
    (hemergency : isCancel order = false → isOperation order "EMERGENCY_CLOSE" = true → "UPBIT_KRW_SPOT" = "BINANCE_USDM_FUTURES")
    (horigin : checkOrigin "UPBIT_KRW_SPOT" request = .ok ()) (h : upbitWire env order request = .ok ()) :
    Faithful env "UPBIT_KRW_SPOT" order request ↔ Unambiguous "UPBIT_KRW_SPOT" order request := by
  have hother : "UPBIT_KRW_SPOT" ≠ "KIS_KR_CASH" := by decide
  cases hcancel : isCancel order with
  | true =>
    rw [hcancel, if_pos rfl] at hkind
    obtain ⟨hendpoint, hcarries⟩ := decodeUpbit_cancel hcancel hkind h
    refine iff_of_true ((faithful_iff_carries horigin hendpoint).mpr hcarries) ⟨fun hroute => absurd hroute hother, ?_, ?_⟩
    · intro _ hplace
      rw [hkind] at hplace
      cases hplace
    · intro hroute
      exact absurd hroute (by decide)
  | false =>
    rw [hcancel, if_neg Bool.false_ne_true] at hkind
    obtain ⟨hendpoint, hcarries⟩ := decodeUpbit_place hcancel hkind (not_emergency (by decide) (hemergency hcancel)) h
    rw [faithful_iff_carries horigin hendpoint]
    refine hcarries.trans ⟨?_, ?_⟩
    · intro hside
      refine ⟨fun hroute => absurd hroute hother, fun _ _ => hside, ?_⟩
      intro hroute
      exact absurd hroute (by decide)
    · intro hclear
      exact hclear.side (List.mem_cons_of_mem _ List.mem_cons_self) hkind

theorem faithful_binance (hroute : route = "BINANCE_SPOT" ∨ route = "BINANCE_USDM_FUTURES")
    (hkind : kindOf order = if isCancel order then .cancel else .place) (horigin : checkOrigin route request = .ok ())
    (h : binanceWire env route order request = .ok ()) : Faithful env route order request ↔ Unambiguous route order request := by
  have hcarries : request.endpoint = binanceEndpoint route ∧
      ((∃ wire, decodeBinance env route request = some wire ∧ Carries env order wire) ↔
        ∀ key ∈ comparedKeys (kindOf order), request.url.query.lookup key = none → request.fields.at key = .null) := by
    cases hcancel : isCancel order with
    | true =>
      rw [hcancel, if_pos rfl] at hkind
      rw [hkind]
      exact decodeBinance_cancel hcancel hkind h
    | false =>
      rw [hcancel, if_neg Bool.false_ne_true] at hkind
      rw [hkind]
      exact decodeBinance_place hcancel hkind h
  obtain ⟨hendpoint, hcarries⟩ := hcarries
  have hread : request.endpoint ∈ endpointsOf route ∧ decode env route request = decodeBinance env route request ∧
      route ∉ ["KIS_KR_CASH", "UPBIT_KRW_SPOT"] ∧ route ∈ ["BINANCE_SPOT", "BINANCE_USDM_FUTURES"] := by
    rw [hendpoint]
    rcases hroute with rfl | rfl
    · exact ⟨by decide, rfl, by decide, by decide⟩
    · exact ⟨by decide, rfl, by decide, by decide⟩
  obtain ⟨hmem, hdecode, hnot, hin⟩ := hread
  rw [faithful_iff_carries horigin hmem, hdecode]
  refine hcarries.trans ⟨?_, ?_⟩
  · intro hkeys
    exact ⟨fun hkis => absurd (hkis ▸ List.mem_cons_self) hnot, fun hkis => absurd hkis hnot, fun _ => hkeys⟩
  · intro hclear
    exact hclear.parameters hin

/-- **A request that passes the checks carries the reserved order exactly if it is unambiguous.** -/
theorem checkWire_faithful_iff {exchange : String} {fields : Fields} (hexchange : exchangeOf route = some exchange)
    (hnative : exactNativeOf env route order fields = .ok ()) (h : checkWire env route order request exchange = .ok ()) :
    Faithful env route order request ↔ Unambiguous route order request := by
  obtain ⟨protection, hprotection, h⟩ := bind_eq_ok.mp h
  obtain ⟨_, horigin, h⟩ := bind_eq_ok.mp h
  obtain ⟨htrigger, hemergency⟩ := exactNativeOf_eq_ok hprotection hnative
  cases protection with
  | true => exact faithful_protection hprotection horigin (htrigger rfl) h
  | false =>
    have hkind := kindOf_cases hprotection
    have hemergency := hemergency rfl
    rw [if_neg Bool.false_ne_true] at h
    rcases exchangeOf_cases hexchange with ⟨rfl, rfl⟩ | ⟨rfl, rfl⟩ | ⟨hroute, rfl⟩
    · exact faithful_kis hkind hemergency horigin h
    · exact faithful_upbit hkind hemergency horigin h
    · exact faithful_binance hroute hkind horigin h

end exchanges

end LiveTrader.ShortLive
