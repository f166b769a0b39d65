/-
# `OrderEncoding.KisMarkets` — where the paths agree on a market

The builders of orders and of cancellations, and the test by which the dispatch tells a domestic order.  The builders look for a Korean
market anywhere in the symbol and the asset class; the dispatch matches the symbol alone.  `float` is given from outside.

The builders and the dispatch classify an instrument alike, and send codes and only codes to the domestic endpoint, where the symbol is a
code that says so or whose asset class does, or where neither of them has a marker in it; a code has no blanks around it, and the quantity
of an order that can be sent is a whole number that a float holds.
-/
import LiveTrader.Lib.UpperCase
import LiveTrader.OrderEncoding.Requests

namespace LiveTrader.OrderEncoding

open Lib Lib.Py Lib.Decimal

/-- `float`. -/
structure FloatReader where
  /-- `float(text)`, where it does not raise. -/
  float : String → Option Number
  /-- The float nearest to an integer is an integer. -/
  whole : ∀ {text : String} {d : Dec} {n : ℤ} {q : ℚ}, decimal? text = some (.finite d) → d.value = n →
    float text = some (.finite q) → ∃ m : ℤ, q = m

/-! ## Numbers -/

/-- `number <= 0`. -/
def atMostZero : Number → Bool
  | .finite q => q ≤ 0
  | .infinity negative => negative
  | .nan => false

/-- `number < 0`. -/
def belowZero : Number → Bool
  | .finite q => q < 0
  | .infinity negative => negative
  | .nan => false

/-- The number, made an integer by `rounding`. -/
def toInt (rounding : ℚ → ℤ) : Number → Result ℤ
  | .finite q => .ok (rounding q)
  | .infinity _ => .error (.value "cannot convert float infinity to integer")
  | .nan => .error (.value "cannot convert float NaN to integer")

/-- `f"{price:.4f}".rstrip("0").rstrip(".")`. -/
def shortPrice : Number → String
  | .finite q => shortText 4 q
  | .infinity negative => if negative then "-inf" else "inf"
  | .nan => "nan"

/-! ## Markets -/

/-- What names a Korean market. -/
def koreanMarkers : List (List Char) := [".KS".toList, ".KQ".toList, "KR".toList, "한국".toList]

/-- A marker is a part of the characters. -/
def Marked (cs : List Char) : Prop := ∃ marker ∈ koreanMarkers, marker <:+: cs

instance (cs : List Char) : Decidable (Marked cs) := inferInstanceAs (Decidable (∃ marker ∈ koreanMarkers, marker <:+: cs))

/-- `normalize_kis_market`: whether it is `"KR"`. -/
def isKoreanMarket (symbol assetClass : String) : Bool := decide (Marked (upperCase (symbol ++ " " ++ assetClass)).toList)

/-- `re.fullmatch(r"[0-9]{6}(?:\.K[QS])?", text)`. -/
def isCode (text : String) : Bool :=
  (text.toList.take 6).length = 6 && (text.toList.take 6).all Char.isDigit &&
    (text.toList.drop 6 = [] || text.toList.drop 6 = ".KQ".toList || text.toList.drop 6 = ".KS".toList)

/-- `is_domestic`, of the symbol of an intent that is dispatched. -/
def isDomestic (symbol : String) : Bool := isCode (upperCase symbol)

def domesticOrderEndpoint : String := "/uapi/domestic-stock/v1/trading/order-cash"

def overseasOrderEndpoint : String := "/uapi/overseas-stock/v1/trading/order"

def domesticCancelEndpoint : String := "/uapi/domestic-stock/v1/trading/order-rvsecncl"

def overseasCancelEndpoint : String := "/uapi/overseas-stock/v1/trading/order-rvsecncl"

section builders

variable (env : Env) (reader : FloatReader)

/-- `normalize_quantity`, `normalize_price`. -/
def readNumber (value : Json) : Number := (reader.float (uncommaed (env.str value))).getD (.finite 0)

/-- `str(intent.get("symbol") or "")`. -/
def symbolText (intent : Fields) : String := textOr env (intent.at "symbol") ""

/-- `str(intent.get("asset") or intent.get("asset_class") or "")`. -/
def assetText (intent : Fields) : String := textOr env ((intent.at "asset").orElse (intent.at "asset_class")) ""

/-- `str(intent.get("symbol") or "").strip().upper()`. -/
def kisSymbol (intent : Fields) : String := upperCase (strip (symbolText env intent))

/-- `intent.get("quantity") or intent.get("qty") or 0`. -/
def kisQuantityValue (intent : Fields) : Json := (quantityValue intent).orElse (.int 0)

def kisQuantity (intent : Fields) : Number := readNumber env reader (kisQuantityValue intent)

def kisPrice (intent : Fields) : Number := readNumber env reader ((intent.at "price").orElse (.int 0))

/-- `split_kis_account`. -/
def splitKisAccount (accountNo productCode : String) : String × String :=
  let text := (strip accountNo).toList.filter (· ≠ ' ')
  let product := orElse (strip productCode) "01"
  if '-' ∈ text then
    (strip (String.ofList (text.takeWhile (· ≠ '-'))), orElse (strip (String.ofList ((text.dropWhile (· ≠ '-')).drop 1))) product)
  else if 8 < text.length then
    (String.ofList (text.take 8), orElse (String.ofList ((text.drop 8).take 2)) product)
  else (String.ofList text, product)

def kisAccount : String × String := splitKisAccount (env.value "KIS_ACCOUNT_NO") (env.value "KIS_ACCOUNT_PRODUCT_CODE")

/-- What both builders require of the environment. -/
def kisMissing : List String := missingEnv env ["KIS_APP_KEY", "KIS_APP_SECRET", "KIS_ACCOUNT_NO", "KIS_ACCOUNT_PRODUCT_CODE"]

/-- `text.removesuffix(suffix)`. -/
def withoutSuffix (suffix text : String) : String :=
  if suffix.toList.isSuffixOf text.toList then String.ofList (text.toList.take (text.toList.length - suffix.toList.length)) else text

/-! ## `build_kis_live_order_request` -/

def domesticOrderBody (intent : Fields) (quantity price : ℤ) : Fields :=
  [("CANO", .str (kisAccount env).1), ("ACNT_PRDT_CD", .str (kisAccount env).2),
    ("PDNO", .str (withoutSuffix ".KQ" (withoutSuffix ".KS" (kisSymbol env intent)))),
    ("ORD_DVSN", .str (textOr env (intent.at "order_type") "00")), ("ORD_QTY", .str (Int.repr quantity)),
    ("ORD_UNPR", .str (Int.repr price))]

def overseasOrderBody (intent : Fields) (quantity : ℤ) (price : Number) : Fields :=
  [("CANO", .str (kisAccount env).1), ("ACNT_PRDT_CD", .str (kisAccount env).2),
    ("OVRS_EXCG_CD", .str (textOr env (intent.at "exchange") "NASD")), ("PDNO", .str (kisSymbol env intent)),
    ("ORD_QTY", .str (Int.repr quantity)), ("OVRS_ORD_UNPR", .str (shortPrice price)), ("ORD_SVR_DVSN_CD", .str "0"),
    ("ORD_DVSN", .str (textOr env (intent.at "order_type") "00"))]

/-- What blocks an order. -/
def kisOrderBlocked (intent : Fields) : List String :=
  kisMissing env ++ blocker (kisSymbol env intent = "") "symbol" ++ blocker (atMostZero (kisQuantity env reader intent) = true) "quantity" ++
    blocker (belowZero (kisPrice env reader intent) = true) "price"

def kisOrder (intent : Fields) (endpoint : String) (body : Fields) : PreparedRequest where
  provider := "kis"
  method := "POST"
  endpoint := endpoint
  body := some body
  query := none
  blockedReasons := kisOrderBlocked env reader intent

/-- The market of an intent or of an order. -/
def kisKorean (intent : Fields) : Bool := isKoreanMarket (kisSymbol env intent) (assetText env intent)

def buildKisLiveOrderRequest (intent : Fields) : Result PreparedRequest := do
  let quantity ← toInt truncZ (kisQuantity env reader intent)
  if kisKorean env intent then do
    let price ← toInt roundHalfEven (kisPrice env reader intent)
    pure (kisOrder env reader intent domesticOrderEndpoint (domesticOrderBody env intent quantity price))
  else pure (kisOrder env reader intent overseasOrderEndpoint (overseasOrderBody env intent quantity (kisPrice env reader intent)))

/-! ## `build_kis_cancel_order_request` -/

/-- `str(order.get("broker_order_id") or order.get("order_id") or "").strip()`. -/
def kisBrokerOrderId (order : Fields) : String := strip (textOr env ((order.at "broker_order_id").orElse (order.at "order_id")) "")

/-- `str(order.get("environment") or env_value("KIS_ENV") or "real").strip().lower()`. -/
def kisEnvironment (order : Fields) : String :=
  lower (strip (textOr env ((order.at "environment").orElse (.str (env.value "KIS_ENV"))) "real"))

/-- `str(order.get("organization_no") or order.get("krx_fwdg_ord_orgno") or "").strip()`. -/
def kisOrganization (order : Fields) : String := strip (textOr env ((order.at "organization_no").orElse (order.at "krx_fwdg_ord_orgno")) "")

def domesticCancelBody (order : Fields) (quantity : ℤ) : Fields :=
  [("CANO", .str (kisAccount env).1), ("ACNT_PRDT_CD", .str (kisAccount env).2), ("KRX_FWDG_ORD_ORGNO", .str (kisOrganization env order)),
    ("ORGN_ODNO", .str (kisBrokerOrderId env order)), ("ORD_DVSN", .str (textOr env (order.at "order_type") "00")),
    ("RVSE_CNCL_DVSN_CD", .str "02"), ("ORD_QTY", .str (Int.repr quantity)), ("ORD_UNPR", .str "0"), ("QTY_ALL_ORD_YN", .str "Y"),
    ("EXCG_ID_DVSN_CD", .str (textOr env (order.at "exchange") "KRX"))]

def overseasCancelBody (order : Fields) (quantity : ℤ) : Fields :=
  [("CANO", .str (kisAccount env).1), ("ACNT_PRDT_CD", .str (kisAccount env).2),
    ("OVRS_EXCG_CD", .str (textOr env (order.at "exchange") "NASD")), ("PDNO", .str (kisSymbol env order)),
    ("ORGN_ODNO", .str (kisBrokerOrderId env order)), ("RVSE_CNCL_DVSN_CD", .str "02"), ("ORD_QTY", .str (Int.repr quantity)),
    ("OVRS_ORD_UNPR", .str "0"), ("MGCO_APTM_ODNO", .str (textOr env (order.at "manager_order_id") "")), ("ORD_SVR_DVSN_CD", .str "0")]

/-- What blocks a cancellation. -/
def kisCancelBlocked (order : Fields) (accessToken : String) : List String :=
  kisMissing env ++ blocker (accessToken = "") "access_token" ++ blocker (kisSymbol env order = "") "symbol" ++
    blocker (kisBrokerOrderId env order = "") "broker_order_id" ++
    blocker (atMostZero (kisQuantity env reader order) = true) "quantity" ++
    blocker (kisEnvironment env order ∉ ["real", "demo"]) "environment"

def kisCancel (endpoint : String) (body : Fields) (blocked : List String) : PreparedRequest where
  provider := "kis"
  method := "POST"
  endpoint := endpoint
  body := some body
  query := none
  blockedReasons := blocked

def buildKisCancelOrderRequest (order : Fields) (accessToken : String) : Result PreparedRequest := do
  let quantity ← toInt truncZ (kisQuantity env reader order)
  let blocked := kisCancelBlocked env reader order accessToken
  if kisKorean env order then
    pure (kisCancel domesticCancelEndpoint (domesticCancelBody env order quantity)
      (blocked ++ blocker (kisOrganization env order = "") "organization_no"))
  else pure (kisCancel overseasCancelEndpoint (overseasCancelBody env order quantity) blocked)

end builders

/-! ## Codes and markers -/

theorem toList_append_blank (a b : String) : (upperCase (a ++ " " ++ b)).toList = (upperCase a).toList ++ ' ' :: (upperCase b).toList := by
  have hblank : upperChars ' ' = [' '] := upperChars_of_blank rfl
  simp only [upperCase, String.toList_ofList, String.toList_append, List.flatMap_append, List.append_assoc]
  show a.toList.flatMap upperChars ++ ([' '].flatMap upperChars ++ b.toList.flatMap upperChars) = _
  rw [List.flatMap_cons, List.flatMap_nil, hblank]
  rfl

theorem marked_separated (a b : List Char) : Marked (a ++ ' ' :: b) ↔ Marked a ∨ Marked b := by
  constructor
  · rintro ⟨marker, hmarker, hpart⟩
    have hblank : ∀ marker ∈ koreanMarkers, ' ' ∉ marker := by decide
    rcases infix_of_separated (hblank marker hmarker) hpart with h | h
    · exact .inl ⟨marker, hmarker, h⟩
    · exact .inr ⟨marker, hmarker, h⟩
  · rintro (⟨marker, hmarker, hpart⟩ | ⟨marker, hmarker, hpart⟩)
    · exact ⟨marker, hmarker, hpart.trans (List.prefix_append _ _).isInfix⟩
    · exact ⟨marker, hmarker, hpart.trans ((List.suffix_cons _ _).trans (List.suffix_append _ _)).isInfix⟩

theorem isKoreanMarket_iff (symbol assetClass : String) : isKoreanMarket symbol assetClass = true ↔
    Marked (upperCase symbol).toList ∨ Marked (upperCase assetClass).toList := by
  rw [isKoreanMarket, decide_eq_true_iff, toList_append_blank, marked_separated]

theorem isCode_iff {text : String} : isCode text = true ↔ (text.toList.take 6).length = 6 ∧ (∀ c ∈ text.toList.take 6, c.isDigit = true) ∧
    (text.toList.drop 6 = [] ∨ text.toList.drop 6 = ".KQ".toList ∨ text.toList.drop 6 = ".KS".toList) := by
  rw [isCode, Bool.and_eq_true, Bool.and_eq_true, Bool.or_eq_true, Bool.or_eq_true, decide_eq_true_iff, decide_eq_true_iff,
    decide_eq_true_iff, decide_eq_true_iff, List.all_eq_true, and_assoc, or_assoc]

/-- A code with a suffix says what market it is of. -/
theorem marked_of_suffix {text : String} (h : isCode text = true) (hsuffix : text.toList.drop 6 ≠ []) : Marked text.toList := by
  obtain ⟨-, -, hrest⟩ := isCode_iff.mp h
  have hpart : text.toList.drop 6 <:+: text.toList := (List.drop_suffix 6 _).isInfix
  rcases hrest.resolve_left hsuffix with hkq | hks
  · exact ⟨".KQ".toList, by decide, hkq ▸ hpart⟩
  · exact ⟨".KS".toList, by decide, hks ▸ hpart⟩

theorem not_marked_of_digits {cs : List Char} (h : ∀ c ∈ cs, c.isDigit = true) : ¬Marked cs := by
  rintro ⟨marker, hmarker, hpart⟩
  have hletter : (koreanMarkers.all fun marker => marker.any fun c => !c.isDigit) = true := by decide
  obtain ⟨c, hc, hnot⟩ := List.any_eq_true.mp (List.all_eq_true.mp hletter marker hmarker)
  rw [h c (hpart.subset hc)] at hnot
  cases hnot

theorem digits_of_bare {text : String} (h : isCode text = true) (hbare : text.toList.drop 6 = []) :
    ∀ c ∈ text.toList, c.isDigit = true := by
  obtain ⟨-, hdigits, -⟩ := isCode_iff.mp h
  intro c hc
  rw [← List.take_append_drop 6 text.toList, hbare, List.append_nil] at hc
  exact hdigits c hc

theorem isSpace_of_isCode {text : String} (h : isCode text = true) : ∀ c ∈ text.toList, isSpace c = false := by
  obtain ⟨-, hdigits, hrest⟩ := isCode_iff.mp h
  intro c hc
  rw [← List.take_append_drop 6 text.toList] at hc
  rcases List.mem_append.mp hc with hc | hc
  · exact (plain_of_isDigit (hdigits c hc)).1
  · rcases hrest with hnone | hkq | hks
    · rw [hnone] at hc
      cases hc
    · rw [hkq] at hc
      have hall : (".KQ".toList.all fun c => !isSpace c) = true := by decide
      exact Bool.not_eq_true' _ ▸ List.all_eq_true.mp hall c hc
    · rw [hks] at hc
      have hall : (".KS".toList.all fun c => !isSpace c) = true := by decide
      exact Bool.not_eq_true' _ ▸ List.all_eq_true.mp hall c hc

/-- The dispatch takes a symbol as it is: one with blanks around it is no code. -/
theorem isDomestic_iff (symbol : String) : isDomestic symbol = true ↔ isCode (upperCase (strip symbol)) = true ∧ strip symbol = symbol := by
  constructor
  · intro h
    have hplain : strip symbol = symbol := by
      have hspace : ∀ c ∈ symbol.toList, isSpace c = false := by
        intro c hc
        cases hblank : isSpace c with
        | false => rfl
        | true =>
          have hmem : c ∈ (upperCase symbol).toList := by
            rw [upperCase, String.toList_ofList]
            exact List.mem_flatMap.mpr ⟨c, hc, by rw [upperChars_of_blank hblank]; exact List.mem_singleton_self c⟩
          rw [isSpace_of_isCode h c hmem] at hblank
          cases hblank
      rw [strip, trim_of_trimmed ⟨fun c hc => hspace c (List.mem_of_mem_head? hc), fun c hc => hspace c (List.mem_of_mem_getLast? hc)⟩,
        String.ofList_toList]
    exact ⟨hplain.symm ▸ h, hplain⟩
  · rintro ⟨hcode, hplain⟩
    rwa [hplain] at hcode

/-! ## Quantities -/

theorem ofDigitChars_toDigits (n : ℕ) : Nat.ofDigitChars 10 (Nat.toDigits 10 n) 0 = n := Nat.ofDigitChars_toDigits (by norm_num) (by norm_num)

/-- The text of a natural number denotes it. -/
theorem decimal?_repr (n : ℕ) : decimal? (Int.repr n) = some (.finite ⟨false, n, 0⟩) := by
  have hnone : ∀ c ∈ ([] : List Char), c.isDigit = true := fun c hc => (List.not_mem_nil hc).elim
  have hne : Nat.toDigits 10 n ≠ [] := Nat.toDigits_ne_nil
  have h := decimal?_pointedDigits false hne (fun c hc => isDigit_toDigits hc) hnone
  rw [if_neg Bool.false_ne_true, pointedDigits, if_pos rfl, List.append_nil, ofDigitChars_toDigits] at h
  exact h

section agreement

variable (env : Env) (reader : FloatReader) (intent order : Fields)

/-- The quantity that the intent names, if it is a number. -/
def intentQuantity : Option ℚ := (decimal? (uncommaed (env.str (kisQuantityValue intent)))).bind finiteValue

/-- The quantity that is read from a request. -/
def orderedQuantity (request : PreparedRequest) : Option ℚ := request.body.bind (numberAt · "ORD_QTY")

/-- The paths agree on the market, which is the domestic one for codes only, and the quantity is sent as it is. -/
structure KisAgrees (request cancel : PreparedRequest) : Prop where
  cancel : request.endpoint = domesticOrderEndpoint ↔ cancel.endpoint = domesticCancelEndpoint
  dispatch : request.endpoint = domesticOrderEndpoint ↔ isDomestic (symbolText env intent) = true
  code : request.endpoint = domesticOrderEndpoint ↔ isCode (kisSymbol env intent) = true
  quantity : request.canSend = true → ∃ n : ℕ, 0 < n ∧ orderedQuantity request = some n ∧ intentQuantity env intent = some n

/-- The symbol or its asset class says whether it is a code, and neither says otherwise. -/
inductive KisNamed : Prop where
  | suffixed (code : isCode (kisSymbol env intent) = true) (suffix : (kisSymbol env intent).toList.drop 6 ≠ [])
  | classed (code : isCode (kisSymbol env intent) = true) (bare : (kisSymbol env intent).toList.drop 6 = [])
      (marked : Marked (upperCase (assetText env intent)).toList)
  | foreign (code : isCode (kisSymbol env intent) = false) (symbol : ¬Marked (kisSymbol env intent).toList)
      (asset : ¬Marked (upperCase (assetText env intent)).toList)

/-- Nothing but the quantity can be wrong with the order. -/
structure KisSendable : Prop where
  environment : kisMissing env = []
  symbol : kisSymbol env intent ≠ ""
  quantity : atMostZero (kisQuantity env reader intent) = false
  price : belowZero (kisPrice env reader intent) = false

/-- Where the paths agree. -/
structure KisClear : Prop where
  named : KisNamed env intent
  plain : isCode (kisSymbol env intent) = true → strip (symbolText env intent) = symbolText env intent
  whole : KisSendable env reader intent → ∃ n : ℕ, 0 < n ∧ intentQuantity env intent = some n ∧ kisQuantity env reader intent = .finite n

variable {env} {reader} {intent} {order} {request cancel : PreparedRequest}

theorem upperCase_kisSymbol : upperCase (kisSymbol env intent) = kisSymbol env intent := upperCase_upperCase _

theorem kisKorean_iff : kisKorean env intent = true ↔
    Marked (kisSymbol env intent).toList ∨ Marked (upperCase (assetText env intent)).toList := by
  rw [kisKorean, isKoreanMarket_iff, upperCase_kisSymbol]

/-- The market is that of the symbol where symbol and asset class are clear. -/
theorem kisNamed_iff : KisNamed env intent ↔ (kisKorean env intent = true ↔ isCode (kisSymbol env intent) = true) := by
  rw [kisKorean_iff]
  constructor
  · rintro (⟨hcode, hsuffix⟩ | ⟨hcode, -, hmarked⟩ | ⟨hcode, hsymbol, hasset⟩)
    · exact iff_of_true (.inl (marked_of_suffix hcode hsuffix)) hcode
    · exact iff_of_true (.inr hmarked) hcode
    · exact iff_of_false (not_or.mpr ⟨hsymbol, hasset⟩) (by rw [hcode]; exact Bool.false_ne_true)
  · intro h
    cases hcode : isCode (kisSymbol env intent) with
    | false =>
      have hnot := fun hmarked => Bool.false_ne_true (hcode.symm.trans (h.mp hmarked))
      exact .foreign hcode (fun hs => hnot (.inl hs)) fun ha => hnot (.inr ha)
    | true =>
      by_cases hbare : (kisSymbol env intent).toList.drop 6 = []
      · rcases h.mpr hcode with hsymbol | hasset
        · exact absurd hsymbol (not_marked_of_digits (digits_of_bare hcode hbare))
        · exact .classed hcode hbare hasset
      · exact .suffixed hcode hbare

/-- An order that is built goes to the endpoint of its market, with the quantity made an integer. -/
theorem buildKisLiveOrderRequest_eq_ok (h : buildKisLiveOrderRequest env reader intent = .ok request) :
    (request.endpoint = domesticOrderEndpoint ↔ kisKorean env intent = true) ∧
      request.blockedReasons = kisOrderBlocked env reader intent ∧
      ∃ q, kisQuantity env reader intent = .finite q ∧
        ∃ body, request.body = some body ∧ textAt body "ORD_QTY" = some (Int.repr (truncZ q)) := by
  obtain ⟨quantity, hquantity, h⟩ := bind_eq_ok.mp h
  obtain ⟨q, hq, rfl⟩ : ∃ q, kisQuantity env reader intent = .finite q ∧ truncZ q = quantity := by
    cases hnumber : kisQuantity env reader intent with
    | finite q =>
      rw [hnumber] at hquantity
      exact ⟨q, rfl, Except.ok.inj hquantity⟩
    | infinity negative =>
      rw [hnumber] at hquantity
      cases hquantity
    | nan =>
      rw [hnumber] at hquantity
      cases hquantity
  cases hmarket : kisKorean env intent with
  | true =>
    rw [hmarket, if_pos rfl] at h
    obtain ⟨price, -, h⟩ := bind_eq_ok.mp h
    obtain rfl := Except.ok.inj h
    exact ⟨iff_of_true rfl rfl, rfl, q, hq, _, rfl, rfl⟩
  | false =>
    rw [hmarket, if_neg Bool.false_ne_true] at h
    obtain rfl := Except.ok.inj h
    exact ⟨iff_of_false (by decide : overseasOrderEndpoint ≠ domesticOrderEndpoint) Bool.false_ne_true, rfl, q, hq, _, rfl, rfl⟩

theorem buildKisCancelOrderRequest_eq_ok {accessToken : String} (h : buildKisCancelOrderRequest env reader order accessToken = .ok cancel) :
    cancel.endpoint = domesticCancelEndpoint ↔ kisKorean env order = true := by
  obtain ⟨quantity, -, h⟩ := bind_eq_ok.mp h
  cases hmarket : kisKorean env order with
  | true =>
    rw [hmarket, if_pos rfl] at h
    obtain rfl := Except.ok.inj h
    exact iff_of_true rfl rfl
  | false =>
    rw [hmarket, if_neg Bool.false_ne_true] at h
    obtain rfl := Except.ok.inj h
    exact iff_of_false (by decide : overseasCancelEndpoint ≠ domesticCancelEndpoint) Bool.false_ne_true

theorem kisOrderBlocked_eq_nil : kisOrderBlocked env reader intent = [] ↔ KisSendable env reader intent := by
  rw [kisOrderBlocked, List.append_eq_nil_iff, List.append_eq_nil_iff, List.append_eq_nil_iff, blocker_eq_nil, blocker_eq_nil,
    blocker_eq_nil, Bool.not_eq_true, Bool.not_eq_true]
  constructor
  · rintro ⟨⟨⟨henvironment, hsymbol⟩, hquantity⟩, hprice⟩
    exact ⟨henvironment, hsymbol, hquantity, hprice⟩
  · rintro ⟨henvironment, hsymbol, hquantity, hprice⟩
    exact ⟨⟨⟨henvironment, hsymbol⟩, hquantity⟩, hprice⟩

theorem truncZ_intCast (n : ℤ) : truncZ n = n := by
  rw [truncZ]
  split
  · exact Int.floor_intCast n
  · exact Int.ceil_intCast n

/-- A positive number is cut to a natural number, which is what is read from the request. -/
theorem orderedQuantity_eq {q : ℚ} (hpos : 0 < q) {body : Fields} (hbody : request.body = some body)
    (htext : textAt body "ORD_QTY" = some (Int.repr (truncZ q))) : ∃ m : ℕ, truncZ q = m ∧ orderedQuantity request = some m := by
  have hnonneg : 0 ≤ truncZ q := by
    rw [truncZ, if_pos hpos.le]
    exact Int.floor_nonneg.mpr hpos.le
  obtain ⟨m, hm⟩ := Int.eq_ofNat_of_zero_le hnonneg
  refine ⟨m, hm, ?_⟩
  rw [orderedQuantity, hbody, Option.bind_some, numberAt, htext, hm, Option.bind_some]
  show (decimal? (Int.repr m)).bind finiteValue = _
  rw [decimal?_repr, Option.bind_some, finiteValue, Dec.value]
  simp

/-- The quantity of an order that can be sent is read as it is exactly where it is whole, and a float holds it. -/
theorem quantity_iff (hq : ∃ q, kisQuantity env reader intent = .finite q ∧ ∃ body, request.body = some body ∧
      textAt body "ORD_QTY" = some (Int.repr (truncZ q))) (hsendable : KisSendable env reader intent) :
    (∃ n : ℕ, 0 < n ∧ orderedQuantity request = some n ∧ intentQuantity env intent = some n) ↔
      ∃ n : ℕ, 0 < n ∧ intentQuantity env intent = some n ∧ kisQuantity env reader intent = .finite n := by
  obtain ⟨q, hq, body, hbody, htext⟩ := hq
  have hpos : 0 < q := by
    have h := hsendable.quantity
    rw [hq] at h
    exact not_le.mp (of_decide_eq_false h)
  obtain ⟨m, hm, hordered⟩ := orderedQuantity_eq hpos hbody htext
  constructor
  · rintro ⟨n, hn, hread, hnamed⟩
    rw [hordered] at hread
    have hmn : m = n := by exact_mod_cast Option.some.inj hread
    refine ⟨n, hn, hnamed, ?_⟩
    -- the float of a text that denotes an integer is an integer, and so it is not cut
    obtain ⟨d, hd, hvalue⟩ : ∃ d, decimal? (uncommaed (env.str (kisQuantityValue intent))) = some (.finite d) ∧ d.value = (n : ℤ) := by
      rw [intentQuantity] at hnamed
      obtain ⟨number, hnumber, hvalue⟩ := Option.bind_eq_some_iff.mp hnamed
      cases number with
      | finite d =>
        have hvalue : d.value = n := Option.some.inj hvalue
        exact ⟨d, hnumber, hvalue.trans (Int.cast_natCast n).symm⟩
      | special => cases hvalue
    have hfloat : reader.float (uncommaed (env.str (kisQuantityValue intent))) = some (.finite q) := by
      rw [kisQuantity, readNumber] at hq
      cases hread' : reader.float (uncommaed (env.str (kisQuantityValue intent))) with
      | some number =>
        rw [hread'] at hq
        exact congrArg some hq
      | none =>
        rw [hread'] at hq
        obtain rfl := Number.finite.inj hq
        exact absurd hpos (lt_irrefl _)
    obtain ⟨k, hk⟩ := reader.whole hd hvalue hfloat
    have hqn : q = n := by
      rw [hk, truncZ_intCast] at hm
      rw [hk, hm, hmn, Int.cast_natCast]
    rw [hq, hqn]
  · rintro ⟨n, hn, hnamed, hfinite⟩
    have hqn : q = (n : ℤ) := (Number.finite.inj (hq.symm.trans hfinite)).trans (Int.cast_natCast n).symm
    have hmn : m = n := by
      rw [hqn, truncZ_intCast] at hm
      exact_mod_cast hm.symm
    exact ⟨n, hn, hmn ▸ hordered, hnamed⟩

/-- **The paths agree exactly on intents whose market is clear.** -/
theorem kis_agrees_iff {accessToken : String} (hsymbol : symbolText env order = symbolText env intent)
    (hasset : assetText env order = assetText env intent) (hrequest : buildKisLiveOrderRequest env reader intent = .ok request)
    (hcancel : buildKisCancelOrderRequest env reader order accessToken = .ok cancel) :
    KisAgrees env intent request cancel ↔ KisClear env reader intent := by
  obtain ⟨hendpoint, hblocked, hquantity⟩ := buildKisLiveOrderRequest_eq_ok hrequest
  have hcancelEndpoint := buildKisCancelOrderRequest_eq_ok hcancel
  have hsame : kisKorean env order = kisKorean env intent := by
    rw [kisKorean, kisKorean, kisSymbol, kisSymbol, hsymbol, hasset]
  rw [hsame] at hcancelEndpoint
  have hsend : request.canSend = true ↔ KisSendable env reader intent := by
    rw [PreparedRequest.canSend, List.isEmpty_iff, hblocked, kisOrderBlocked_eq_nil]
  have hdispatch := isDomestic_iff (symbolText env intent)
  constructor
  · intro h
    have hcode : kisKorean env intent = true ↔ isCode (kisSymbol env intent) = true := hendpoint.symm.trans h.code
    refine ⟨kisNamed_iff.mpr hcode, ?_, ?_⟩
    · intro hcode'
      exact (hdispatch.mp (h.dispatch.mp (h.code.mpr hcode'))).2
    · intro hsendable
      exact (quantity_iff hquantity hsendable).mp (h.quantity (hsend.mpr hsendable))
  · rintro ⟨hnamed, hplain, hwhole⟩
    have hcode := hendpoint.trans (kisNamed_iff.mp hnamed)
    refine ⟨hendpoint.trans hcancelEndpoint.symm, ?_, hcode, ?_⟩
    · rw [hcode, hdispatch]
      exact ⟨fun h => ⟨h, hplain h⟩, fun h => h.1⟩
    · intro hcan
      have hsendable := hsend.mp hcan
      exact (quantity_iff hquantity hsendable).mpr (hwhole hsendable)

end agreement

/-! ## A foreign ticker -/

/-- `float`, where it is exact. -/
def exactFloat (text : String) : Option Number :=
  match decimal? text with
  | some (.finite d) => some (.finite d.value)
  | some .special => some .nan
  | none => none

theorem exactFloat_whole {text : String} {d : Dec} {n : ℤ} {q : ℚ} (hd : decimal? text = some (.finite d)) (hn : d.value = n)
    (hq : exactFloat text = some (.finite q)) : ∃ m : ℤ, q = m := by
  rw [exactFloat, hd] at hq
  exact ⟨n, (Number.finite.inj (Option.some.inj hq)).symm.trans hn⟩

def sampleReader : FloatReader where
  float := exactFloat
  whole := exactFloat_whole

/-- Every variable of the environment is set. -/
def Env.kisSample : Env where
  repr := fun _ => ""
  value := fun _ => "12345678"
  exchangeInfo := fun _ _ => .error (.runtime "offline")
  timestamp := 0

/-- An intent for a symbol and an asset class, with an id that a cancellation can name. -/
def kisIntent (symbol asset : String) : Fields :=
  [("symbol", .str symbol), ("asset", .str asset), ("side", .str "BUY"), ("quantity", .int 10), ("price", .str "70000"),
    ("broker_order_id", .str "7"), ("organization_no", .str "06010")]

/-- A domestic code is sent, and can be cancelled. -/
theorem domestic_builds : ∃ request, buildKisLiveOrderRequest Env.kisSample sampleReader (kisIntent "005930.KS" "stock") = .ok request ∧
    ∃ cancel, buildKisCancelOrderRequest Env.kisSample sampleReader (kisIntent "005930.KS" "stock") "token" = .ok cancel ∧
      request.canSend = true ∧ request.endpoint = domesticOrderEndpoint := by
  decide +kernel

theorem foreign_builds : ∃ request, buildKisLiveOrderRequest Env.kisSample sampleReader (kisIntent "KRYS" "stock") = .ok request ∧
    ∃ cancel, buildKisCancelOrderRequest Env.kisSample sampleReader (kisIntent "KRYS" "stock") "token" = .ok cancel ∧
      request.canSend = true ∧ request.endpoint = domesticOrderEndpoint := by
  decide +kernel

theorem kis_agrees_iff_sample : ∃ request cancel,
    buildKisLiveOrderRequest Env.kisSample sampleReader (kisIntent "005930.KS" "stock") = .ok request ∧ request.canSend = true ∧
      (KisAgrees Env.kisSample (kisIntent "005930.KS" "stock") request cancel ↔
        KisClear Env.kisSample sampleReader (kisIntent "005930.KS" "stock")) := by
  obtain ⟨request, hrequest, cancel, hcancel, hsend, -⟩ := domestic_builds
  exact ⟨request, cancel, hrequest, hsend, kis_agrees_iff rfl rfl hrequest hcancel⟩

/-- An order for a foreign ticker goes to the domestic endpoint. -/
theorem foreign_ticker_is_sent_home : ∃ request cancel,
    buildKisLiveOrderRequest Env.kisSample sampleReader (kisIntent "KRYS" "stock") = .ok request ∧
      buildKisCancelOrderRequest Env.kisSample sampleReader (kisIntent "KRYS" "stock") "token" = .ok cancel ∧ request.canSend = true ∧
      request.endpoint = domesticOrderEndpoint ∧ isCode (kisSymbol Env.kisSample (kisIntent "KRYS" "stock")) = false ∧
      ¬KisAgrees Env.kisSample (kisIntent "KRYS" "stock") request cancel := by
  obtain ⟨request, hrequest, cancel, hcancel, hsend, hendpoint⟩ := foreign_builds
  have hcode : isCode (kisSymbol Env.kisSample (kisIntent "KRYS" "stock")) = false := by decide
  refine ⟨request, cancel, hrequest, hcancel, hsend, hendpoint, hcode, ?_⟩
  intro h
  rw [h.code.mp hendpoint] at hcode
  cases hcode

end LiveTrader.OrderEncoding
