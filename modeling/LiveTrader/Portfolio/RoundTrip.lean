/-
# `Portfolio.RoundTrip` — a plan survives its metadata

`SymbolNetPlan.metadata` writes a plan with its numbers as texts, and `validate_symbol_net_plan_metadata` reads it
back at the POST edge: it takes every field apart, splits the deltas again, and compares the seal.

Every number of a plan is one the context has rounded or one that the caller sealed, so its text denotes it; a text
of a plan is normalised, so reading it changes nothing; and the deltas are split again as they were split before.
`metadata_round_trip` puts this together.  A reference price below the normal numbers of the context is lost in its
text (`subnormal_price_is_lost`).
-/
import LiveTrader.Lib.DecimalFormat
import LiveTrader.Portfolio.Context

namespace LiveTrader.Portfolio.Context

open Lib.Py Lib.Decimal

/-! ## Writing a plan -/

/-- `_decimal_text`. -/
def decimalText (value : ℚ) : String := if value = 0 then "0" else (Lib.Py.normalize value).fixed

def deltaJson (item : SleeveDelta) : Json :=
  .obj [("intentId", .str item.intentId.val), ("sleeveId", .str item.sleeveId.val),
    ("currentQuantity", .str (decimalText item.currentQuantity)), ("targetQuantity", .str (decimalText item.targetQuantity)),
    ("signedQuantity", .str (decimalText item.signedQuantity))]

def allocationJson (item : SleeveAllocation) : Json :=
  .obj [("intentId", .str item.intentId.val), ("sleeveId", .str item.sleeveId.val),
    ("signedQuantity", .str (decimalText item.signedQuantity))]

/-- The contents that are hashed. -/
def canonical (plan : PlanPayload) : Json :=
  .obj [("schemaVersion", .str plan.schemaVersion), ("scopeId", .str plan.scopeId.val), ("portfolioId", .str plan.portfolioId.val),
    ("portfolioHash", .str plan.portfolioHash), ("symbol", .str plan.symbol.val), ("side", .str plan.side.text),
    ("quantity", .str (decimalText plan.quantity)), ("referencePrice", .str (decimalText plan.referencePrice)),
    ("sleeveDeltas", .arr (plan.deltas.map deltaJson)),
    ("internalAllocations", .arr (plan.internalAllocations.map allocationJson)),
    ("allocations", .arr (plan.allocations.map allocationJson))]

/-- `SymbolNetPlan.metadata`. -/
def metadata (plan : SymbolNetPlan) : Json :=
  .obj [("schemaVersion", .str plan.schemaVersion), ("scopeId", .str plan.scopeId.val), ("planId", .str plan.planId),
    ("portfolioId", .str plan.portfolioId.val), ("portfolioHash", .str plan.portfolioHash), ("symbol", .str plan.symbol.val),
    ("side", .str plan.side.text), ("quantity", .str (decimalText plan.quantity)),
    ("referencePrice", .str (decimalText plan.referencePrice)), ("sleeveDeltas", .arr (plan.deltas.map deltaJson)),
    ("internalAllocations", .arr (plan.internalAllocations.map allocationJson)),
    ("allocations", .arr (plan.allocations.map allocationJson))]

/-! ## Reading a plan -/

section validate

variable (codec : Codec)

/-- `_text` of a value. -/
def textOf (value : Json) (field : String) : Result Text := text (codec.text value) field

/-- The argument of `_decimal`. -/
def rawOf (value : Json) : Raw :=
  match value with
  | .bool _ => .junk
  | value =>
    match decimal? (codec.str value) with
    | some (.finite d) => .number d.value
    | _ => .junk

/-- `_signed_quantity`. -/
def signedQuantity (value : Raw) (field : String) : Result ℤ := do
  let result ← decimal value field none
  require (result.den = 1) (.value (field ++ " must be a whole-share KIS quantity"))
  pure result.num

/-- One delta of a payload. -/
def deltaOf (raw : Fields) : Result SleeveDelta := do
  let current ← quantity (rawOf codec (raw.at "currentQuantity")) "currentQuantity" true
  let target ← quantity (rawOf codec (raw.at "targetQuantity")) "targetQuantity" true
  let signed ← signedQuantity (rawOf codec (raw.at "signedQuantity")) "signedQuantity"
  require (whole (target - current) = signed) (.value "portfolio execution sleeve delta does not conserve target")
  let intentId ← textOf codec (raw.at "intentId") "intentId"
  let sleeveId ← textOf codec (raw.at "sleeveId") "sleeveId"
  pure { intentId, sleeveId, currentQuantity := current, targetQuantity := target, signedQuantity := signed }

/-- An item of `sleeveDeltas`. -/
def deltaItem (value : Json) : Result SleeveDelta :=
  match value with
  | .obj raw => deltaOf codec raw
  | _ => .error (.value "portfolio execution sleeve delta is invalid")

/-- One allocation of a payload. -/
def allocationFrom (item : Fields) : Result SleeveAllocation := do
  let intentId ← textOf codec (item.at "intentId") "intentId"
  let sleeveId ← textOf codec (item.at "sleeveId") "sleeveId"
  let signed ← signedQuantity (rawOf codec (item.at "signedQuantity")) "signedQuantity"
  pure ⟨intentId, sleeveId, signed⟩

/-- An item of an allocation list; what is no mapping is left out. -/
def allocationItem (value : Json) : Result (Option SleeveAllocation) :=
  match value with
  | .obj item => do
    let allocation ← allocationFrom codec item
    pure (some allocation)
  | _ => .ok none

/-- `_allocations_from_metadata`; both callers allow an empty list. -/
def allocationsFromMetadata (payload : Fields) (field : String) : Result (List SleeveAllocation) :=
  match payload.at field with
  | .arr raw => do
    let items ← raw.mapM (allocationItem codec)
    let result := items.reduceOption
    require (result.length = raw.length ∧ ∀ item ∈ result, item.signedQuantity ≠ 0)
      (.value ("portfolio execution " ++ field ++ " are invalid"))
    require (result.map SleeveAllocation.sleeveKey).Nodup
      (.value ("portfolio execution " ++ field ++ " identity is duplicated"))
    pure result
  | _ => .error (.value ("portfolio execution " ++ field ++ " are required"))

/-- The deltas of a payload. -/
def deltasOf (payload : Fields) : Result (List SleeveDelta) :=
  match payload.at "sleeveDeltas" with
  | .arr (first :: rest) => do
    let deltas ← (first :: rest).mapM (deltaItem codec)
    require (deltas.map SleeveDelta.sleeveKey).Nodup (.value "portfolio execution sleeve delta identity is duplicated")
    pure deltas
  | _ => .error (.value "portfolio execution sleeveDeltas are required")

/-- `validate_symbol_net_plan_metadata` on a mapping. -/
def validateFields (payload : Fields) : Result SymbolNetPlan := do
  let schemaVersion ← textOf codec (payload.at "schemaVersion") "schemaVersion"
  require (schemaVersion.val = planSchema) (.value "portfolio execution schema is unsupported")
  let scopeId ← textOf codec (payload.at "scopeId") "scopeId"
  let portfolioId ← textOf codec (payload.at "portfolioId") "portfolioId"
  let portfolioHash ← textOf codec (payload.at "portfolioHash") "portfolioHash"
  let symbol ← canonicalKisSymbol (codec.text (payload.at "symbol"))
  let side ← textOf codec (payload.at "side") "side"
  let quantity ← quantity (rawOf codec (payload.at "quantity")) "quantity" true
  let referencePrice ← decimal (rawOf codec (payload.at "referencePrice")) "referencePrice" (some 0)
  let deltas ← deltasOf codec payload
  let internalAllocations ← allocationsFromMetadata codec payload "internalAllocations"
  let allocations ← allocationsFromMetadata codec payload "allocations"
  let expected ← splitInternalAndExternalAllocations deltas
  require (internalAllocations = expected.1) (.value "portfolio execution internal allocations do not match sleeve deltas")
  require (allocations = expected.2) (.value "portfolio execution allocations do not match sleeve deltas")
  require (¬ (internalAllocations ≠ [] ∧ referencePrice ≤ 0))
    (.value "portfolio execution internal cross requires a positive reference price")
  let net := total (deltas.map (·.signedQuantity))
  require (upper side.val = (sideOf net).text ∧ (quantity : ℤ) = whole |net|)
    (.value "portfolio execution side/quantity does not match sleeve net")
  let plan : PlanPayload :=
    { schemaVersion := planSchema, scopeId, portfolioId, portfolioHash := lower portfolioHash.val, symbol, side := sideOf net,
      quantity, referencePrice, deltas, internalAllocations, allocations }
  let planId ← textOf codec (payload.at "planId") "planId"
  require (codec.sha256 (canonical plan) = planId.val) (.value "portfolio execution plan seal is invalid")
  pure { plan with planId := planId.val }

/-- `validate_symbol_net_plan_metadata`. -/
def validateSymbolNetPlanMetadata (payload : Json) : Result SymbolNetPlan :=
  match payload with
  | .obj payload => validateFields codec payload
  | _ => .error (.value "portfolio execution metadata must be an object")

end validate

/-- The library with one digest, that of a sample's contents. -/
def digestCodec (digest : String) : Codec where
  sha256 _ := digest
  byteLength _ := 0
  repr _ := ""

/-! ## Numbers of the context -/

/-- The context rounds a whole number to a whole number. -/
theorem whole_cast (n : ℤ) : (whole n : ℚ) = ctx 28 n := by
  obtain ⟨m, hm⟩ : ∃ m : ℤ, ctx 28 (n : ℚ) = m := by
    by_cases hsmall : |n| < 10 ^ 28
    · exact ⟨n, ctx_intCast hsmall⟩
    · have hpos : (0 : ℚ) < |(n : ℚ)| := by
        have h : 0 < |n| := lt_of_lt_of_le (by norm_num) (not_lt.mp hsmall)
        exact_mod_cast h
      have hlog : 28 ≤ Int.log 10 |(n : ℚ)| := by
        refine (Int.zpow_le_iff_le_log (by norm_num) hpos).mp ?_
        have h := not_lt.mp hsmall
        exact_mod_cast h
      obtain ⟨k, hk⟩ := Int.eq_ofNat_of_zero_le (show 0 ≤ Int.log 10 |(n : ℚ)| + 1 - 28 by omega)
      refine ⟨roundHalfEven ((n : ℚ) / ulp 28 n) * 10 ^ k, ?_⟩
      have hulp : ulp 28 (n : ℚ) = 10 ^ k := by
        rw [ulp]
        push_cast
        rw [hk, zpow_natCast]
      rw [ctx, hulp]
      push_cast
      rfl
  rw [whole, hm, Int.floor_intCast]

theorem fits_whole (n : ℤ) : Fits 28 (whole n : ℚ) := by
  rw [whole_cast]
  exact fits_ctx (by norm_num) _

theorem whole_nonneg {n : ℤ} (h : 0 ≤ n) : 0 ≤ whole n := by
  have hctx : 0 ≤ ctx 28 (n : ℚ) := ctx_nonneg (by exact_mod_cast h)
  rw [← whole_cast] at hctx
  exact_mod_cast hctx

/-! ## Texts of numbers -/

variable {codec : Codec}

theorem rawOf_str {s : String} {d : Dec} (h : decimal? s = some (.finite d)) : rawOf codec (.str s) = .number d.value := by
  have hstr : codec.str (.str s) = s := rfl
  simp only [rawOf, hstr, h]

theorem rawOf_decimalText {x : ℚ} (hfits : Fits 28 x) (hnormal : x = 0 ∨ (10 : ℚ) ^ (-999999 : ℤ) ≤ |x|) :
    rawOf codec (.str (decimalText x)) = .number x := by
  rw [decimalText]
  by_cases hzero : x = 0
  · have hread : decimal? "0" = some (.finite ⟨false, 0, 0⟩) := by decide
    rw [if_pos hzero, rawOf_str hread, hzero]
    exact congrArg Raw.number (by norm_num [Dec.value])
  · obtain ⟨d, hread, hvalue⟩ := decimal?_fixed (Lib.Py.normalize x)
    rw [if_neg hzero, rawOf_str hread, hvalue, normalize_value hfits hnormal]

theorem rawOf_int {n : ℤ} (hfits : Fits 28 (n : ℚ)) : rawOf codec (.str (decimalText n)) = .number n := by
  refine rawOf_decimalText hfits ?_
  rcases eq_or_ne n 0 with rfl | hne
  · exact .inl rfl
  · refine .inr ?_
    have hone : (1 : ℚ) ≤ |(n : ℚ)| := by exact_mod_cast Int.one_le_abs hne
    exact (zpow_le_one_of_nonpos₀ (by norm_num) (by norm_num)).trans hone

theorem quantity_int {n : ℕ} {field : String} : quantity (.number (n : ℤ)) field true = .ok n := by
  have hmin : ∀ m ∈ (some 0 : Option ℚ), m ≤ ((n : ℤ) : ℚ) := by
    rintro m hm
    obtain rfl := Option.some.inj hm
    exact_mod_cast Nat.zero_le n
  rw [quantity, decimal, require_true hmin]
  exact bind_eq_ok.mpr ⟨_, rfl, bind_eq_ok.mpr ⟨(), require_true (Rat.den_intCast _),
    bind_eq_ok.mpr ⟨(), require_true (.inl rfl), rfl⟩⟩⟩

theorem signedQuantity_int {n : ℤ} {field : String} : signedQuantity (.number n) field = .ok n := by
  have hmin : ∀ m ∈ (none : Option ℚ), m ≤ (n : ℚ) := fun m hm => by cases hm
  rw [signedQuantity, decimal, require_true hmin]
  exact bind_eq_ok.mpr ⟨_, rfl, bind_eq_ok.mpr ⟨(), require_true (Rat.den_intCast _), rfl⟩⟩

/-! ## Texts that are normalised -/

theorem textOf_str {s field : String} (h : IsText s) : textOf codec (.str s) field = .ok ⟨s, h⟩ := by
  have htext : codec.text (.str s) = s := by
    rw [Codec.text, Json.orElse, if_pos]
    rw [Json.truthy]
    exact bne_iff_ne.mpr h.2.1
  have hstrip : IsText (strip s) := by rwa [h.strip_eq]
  rw [textOf, htext, text, dif_pos hstrip]
  exact congrArg Except.ok (Subtype.ext h.strip_eq)

/-- Texts of which every character is one of a kind. -/
theorem isText_of_forall {s : String} (hne : s ≠ "") (h : ∀ c ∈ s.toList, isSpace c = false ∧ 32 ≤ c.toNat) : IsText s :=
  ⟨⟨fun c hc => (h c (List.mem_of_mem_head? hc)).1, fun c hc => (h c (List.mem_of_mem_getLast? hc)).1⟩, hne,
    fun c hc => (h c hc).2⟩

theorem isText_of_isHash {s : String} (h : isHash s = true) : IsText s := by
  rw [isHash, Bool.and_eq_true, List.all_eq_true] at h
  refine isText_of_forall ?_ fun c hc => isSpace_of_alphanumeric ?_
  · rintro rfl
    exact absurd h.1 (by decide)
  · have hchar := h.2 c hc
    rw [Bool.or_eq_true, Bool.and_eq_true, Bool.and_eq_true, decide_eq_true_eq, decide_eq_true_eq, decide_eq_true_eq,
      decide_eq_true_eq] at hchar
    rcases hchar with ⟨hlow, hhigh⟩ | ⟨hlow, hhigh⟩
    · have hlow : 48 ≤ c.toNat := hlow
      have hhigh : c.toNat ≤ 57 := hhigh
      omega
    · have hlow : 97 ≤ c.toNat := hlow
      have hhigh : c.toNat ≤ 102 := hhigh
      omega

theorem isDigit_bounds {c : Char} (h : c.isDigit = true) : 48 ≤ c.toNat ∧ c.toNat ≤ 57 := by
  rw [Char.isDigit, Bool.and_eq_true, decide_eq_true_eq, decide_eq_true_eq] at h
  exact h

theorem isText_of_isSymbol {s : String} (h : IsSymbol s) : IsText s := by
  refine isText_of_forall ?_ fun c hc => isSpace_of_alphanumeric (.inl (isDigit_bounds (h.2 c hc)))
  rintro rfl
  exact absurd h.1 (by decide)

theorem upper_of_isSymbol {s : String} (h : IsSymbol s) : upper s = s := by
  have hmap : (s.toList.map fun c => if c.toNat = 0x17F then 'S' else if c.toNat = 0x131 then 'I' else c.toUpper) = s.toList := by
    refine (List.map_congr_left fun c hc => ?_).trans (List.map_id _)
    obtain ⟨hlow, hhigh⟩ := isDigit_bounds (h.2 c hc)
    have hcase : c.toUpper = c := by
      refine dif_neg ?_
      rintro ⟨hlower, -⟩
      have hlower : 97 ≤ c.toNat := hlower
      omega
    rw [if_neg (by omega), if_neg (by omega), id, hcase]
  rw [upper, hmap, String.ofList_toList]

theorem canonicalKisSymbol_symbol (symbol : Symbol) : canonicalKisSymbol symbol.val = .ok symbol := by
  obtain ⟨s, h⟩ := symbol
  have hstrip : IsText (strip s) := by
    rw [(isText_of_isSymbol h).strip_eq]
    exact isText_of_isSymbol h
  have htext : text s "symbol" = .ok ⟨s, isText_of_isSymbol h⟩ := by
    rw [text, dif_pos hstrip]
    exact congrArg Except.ok (Subtype.ext (isText_of_isSymbol h).strip_eq)
  have hlead : dropLeading s.toList "KRX:".toList = s.toList := by
    refine if_neg fun htake => ?_
    have hmem : 'K' ∈ s.toList.take "KRX:".toList.length := by
      rw [htake]
      decide
    exact absurd (h.2 'K' (List.mem_of_mem_take hmem)) (by decide)
  have htail : ¬ (s.toList.drop (s.toList.length - 3) = ".KS".toList ∨ s.toList.drop (s.toList.length - 3) = ".KQ".toList) := by
    rintro (hdrop | hdrop)
    all_goals
      have hmem : '.' ∈ s.toList.drop (s.toList.length - 3) := hdrop ▸ List.mem_cons_self
      exact absurd (h.2 '.' (List.mem_of_mem_drop hmem)) (by decide)
  have hsymbol : IsSymbol (String.ofList s.toList) := by rwa [String.ofList_toList]
  refine bind_eq_ok.mpr ⟨_, htext, ?_⟩
  show (if h : IsSymbol (String.ofList _) then _ else _) = _
  simp only [upper_of_isSymbol h, hlead, if_neg htail]
  rw [dif_pos hsymbol]
  exact congrArg Except.ok (Subtype.ext String.ofList_toList)

theorem isText_lower {s : String} (h : IsText s) : IsText (lower s) := by
  have hspace : ∀ c : Char, isSpace c = false ∧ 32 ≤ c.toNat →
      isSpace (if c.toNat = 0x212A then 'k' else c.toLower) = false ∧ 32 ≤ (if c.toNat = 0x212A then 'k' else c.toLower).toNat := by
    intro c hc
    rcases lowerChar_cases c with ⟨heq, -⟩ | hbounds
    · rwa [heq]
    · exact isSpace_of_alphanumeric (.inr ⟨by omega, hbounds.2⟩)
  obtain ⟨⟨hhead, hlast⟩, hne, hcontrol⟩ := h
  rw [IsText, Trimmed, lower, String.toList_ofList, List.head?_map, List.getLast?_map]
  refine ⟨⟨fun c hc => ?_, fun c hc => ?_⟩, fun hempty => hne ?_, fun c hc => ?_⟩
  · obtain ⟨a, ha, rfl⟩ := Option.map_eq_some_iff.mp hc
    exact (hspace a ⟨hhead a ha, hcontrol a (List.mem_of_mem_head? ha)⟩).1
  · obtain ⟨a, ha, rfl⟩ := Option.map_eq_some_iff.mp hc
    exact (hspace a ⟨hlast a ha, hcontrol a (List.mem_of_mem_getLast? ha)⟩).1
  · have hnil := congrArg String.toList hempty
    rw [String.toList_ofList, String.toList_empty, List.map_eq_nil_iff] at hnil
    exact String.toList_eq_nil_iff.mp hnil
  · obtain ⟨a, ha, rfl⟩ := List.mem_map.mp hc
    rcases lowerChar_cases a with ⟨heq, -⟩ | hbounds
    · rw [heq]
      exact hcontrol a ha
    · omega

/-! ## Numbers of a plan -/

theorem fits_intZero : Fits 28 ((0 : ℤ) : ℚ) := ⟨0, 0, by norm_num, by norm_num⟩

/-- Every crossed quantity is one of the context. -/
def AllFit (internal : SleeveKey → ℤ) : Prop := ∀ k, Fits 28 (internal k : ℚ)

theorem AllFit.bump {internal : SleeveKey → ℤ} (h : AllFit internal) (key : SleeveKey) (x : ℤ) : AllFit (bump internal key x) := by
  intro k
  rw [Context.bump]
  split
  · exact fits_whole _
  · exact h k

theorem AllFit.crossOne {positive : SleeveKey} : ∀ {negatives : List (SleeveKey × ℤ)} {remaining : ℤ} {internal : SleeveKey → ℤ},
    AllFit internal → AllFit (crossOne positive remaining negatives internal).2 := by
  intro negatives
  induction negatives with
  | nil => exact fun h => h
  | cons e negatives ih =>
    intro remaining internal h
    obtain ⟨negative, left⟩ := e
    have hbump := (h.bump positive (min remaining left)).bump negative (-min remaining left)
    rw [Context.crossOne]
    split
    · split
      · exact hbump
      · exact hbump
    · exact ih hbump

theorem AllFit.crossAll : ∀ {positives negatives : List (SleeveKey × ℤ)} {internal : SleeveKey → ℤ},
    AllFit internal → AllFit (crossAll positives negatives internal) := by
  intro positives
  induction positives with
  | nil => exact fun h => h
  | cons e positives ih =>
    intro negatives internal h
    obtain ⟨positive, remaining⟩ := e
    exact ih h.crossOne

theorem fits_internalCross (deltas : List SleeveDelta) : AllFit (internalCross deltas) :=
  AllFit.crossAll fun _ => fits_intZero

/-- What an allocation list has to be for its metadata to be read. -/
structure Writable (deltas : List SleeveDelta) (allocations : List SleeveAllocation) : Prop where
  keys : (allocations.map SleeveAllocation.sleeveKey).Sublist (deltas.map SleeveDelta.sleeveKey)
  nonzero : ∀ a ∈ allocations, a.signedQuantity ≠ 0
  fits : ∀ a ∈ allocations, Fits 28 (a.signedQuantity : ℚ)

theorem writable_allocationsOf (deltas : List SleeveDelta) {part : SleeveDelta → ℤ} (hpart : ∀ d, Fits 28 (part d : ℚ)) :
    Writable deltas (allocationsOf deltas part) := by
  refine ⟨allocationsOf_keys part deltas, fun a ha => ?_, fun a ha => ?_⟩
  · obtain ⟨d, -, hne, rfl⟩ := mem_allocationsOf.mp ha
    exact hne
  · obtain ⟨d, -, -, rfl⟩ := mem_allocationsOf.mp ha
    exact hpart d

theorem splitInternalAndExternalAllocations_writable {deltas : List SleeveDelta} {internal external : List SleeveAllocation}
    (h : splitInternalAndExternalAllocations deltas = .ok (internal, external)) :
    Writable deltas internal ∧ Writable deltas external := by
  obtain ⟨_, -, h⟩ := bind_eq_ok.mp h
  obtain ⟨_, -, h⟩ := bind_eq_ok.mp h
  obtain ⟨rfl, rfl⟩ := Prod.mk.inj (Except.ok.inj h)
  exact ⟨writable_allocationsOf deltas fun d => fits_internalCross deltas d.sleeveKey,
    writable_allocationsOf deltas fun d => fits_whole _⟩

/-! ## Reading what was written -/

theorem deltaItem_deltaJson {d : SleeveDelta} (hcurrent : Fits 28 (d.currentQuantity : ℚ)) (htarget : Fits 28 (d.targetQuantity : ℚ))
    (hsigned : d.signedQuantity = whole (d.targetQuantity - d.currentQuantity)) : deltaItem codec (deltaJson d) = .ok d := by
  have hread : ∀ n : ℕ, Fits 28 (n : ℚ) → rawOf codec (.str (decimalText n)) = .number (n : ℤ) := fun n h =>
    rawOf_int (n := n) h
  refine bind_eq_ok.mpr ⟨d.currentQuantity, (congrArg (quantity · _ true) (hread _ hcurrent)).trans quantity_int, ?_⟩
  refine bind_eq_ok.mpr ⟨d.targetQuantity, (congrArg (quantity · _ true) (hread _ htarget)).trans quantity_int, ?_⟩
  have hfits : Fits 28 (d.signedQuantity : ℚ) := by
    rw [hsigned]
    exact fits_whole _
  refine bind_eq_ok.mpr ⟨d.signedQuantity, (congrArg (signedQuantity · _) (rawOf_int hfits)).trans signedQuantity_int, ?_⟩
  refine bind_eq_ok.mpr ⟨(), require_true hsigned.symm, ?_⟩
  exact bind_eq_ok.mpr ⟨_, textOf_str d.intentId.2, bind_eq_ok.mpr ⟨_, textOf_str d.sleeveId.2, rfl⟩⟩

theorem allocationItem_allocationJson {a : SleeveAllocation} (hfits : Fits 28 (a.signedQuantity : ℚ)) :
    allocationItem codec (allocationJson a) = .ok (some a) := by
  refine bind_eq_ok.mpr ⟨a, ?_, rfl⟩
  refine bind_eq_ok.mpr ⟨_, textOf_str a.intentId.2, bind_eq_ok.mpr ⟨_, textOf_str a.sleeveId.2, ?_⟩⟩
  exact bind_eq_ok.mpr ⟨_, (congrArg (signedQuantity · _) (rawOf_int hfits)).trans signedQuantity_int, rfl⟩

theorem allocationsFromMetadata_map {deltas : List SleeveDelta} (hkeys : (deltas.map SleeveDelta.sleeveKey).Nodup)
    {allocations : List SleeveAllocation} (h : Writable deltas allocations) {payload : Fields} {field : String}
    (hfield : payload.at field = .arr (allocations.map allocationJson)) :
    allocationsFromMetadata codec payload field = .ok allocations := by
  have hitems : (allocations.map allocationJson).mapM (allocationItem codec) = .ok (allocations.map some) := by
    rw [mapM_eq_ok, List.forall₂_map_left_iff, List.forall₂_map_right_iff, List.forall₂_same]
    exact fun a ha => allocationItem_allocationJson (h.fits a ha)
  have hreduce : (allocations.map some).reduceOption = allocations := by
    show (allocations.map some).filterMap id = allocations
    rw [List.filterMap_map]
    exact List.filterMap_some
  rw [allocationsFromMetadata, hfield]
  refine bind_eq_ok.mpr ⟨_, hitems, ?_⟩
  dsimp only
  rw [hreduce, require_true ⟨(List.length_map _).symm, h.nonzero⟩, require_true (hkeys.sublist h.keys)]
  rfl

theorem isText_side (side : Side) : IsText side.text := by
  cases side with
  | buy => decide
  | sell => decide
  | none => decide

theorem upper_side (side : Side) : upper side.text = side.text := by
  cases side with
  | buy => decide
  | sell => decide
  | none => decide

theorem deltasOf_map {deltas : List SleeveDelta} (hne : deltas ≠ []) (hkeys : (deltas.map SleeveDelta.sleeveKey).Nodup)
    (hread : ∀ d ∈ deltas, deltaItem codec (deltaJson d) = .ok d) {payload : Fields}
    (hfield : payload.at "sleeveDeltas" = .arr (deltas.map deltaJson)) : deltasOf codec payload = .ok deltas := by
  obtain ⟨first, rest, rfl⟩ := List.exists_cons_of_ne_nil hne
  have hitems : ((first :: rest).map deltaJson).mapM (deltaItem codec) = .ok (first :: rest) := by
    rw [mapM_eq_ok, List.forall₂_map_left_iff, List.forall₂_same]
    exact hread
  rw [deltasOf, hfield]
  exact bind_eq_ok.mpr ⟨_, hitems, bind_eq_ok.mpr ⟨(), require_true hkeys, rfl⟩⟩

/-- The numbers that a plan takes over from its caller have at most 28 digits. -/
structure NumbersFit (plan : PlanPayload) : Prop where
  current : ∀ d ∈ plan.deltas, Fits 28 (d.currentQuantity : ℚ)
  target : ∀ d ∈ plan.deltas, Fits 28 (d.targetQuantity : ℚ)
  price : Fits 28 plan.referencePrice

/-- What comes back from the metadata of a built plan, by the price that its text denotes. -/
theorem validate_metadata {plan : SymbolNetPlan} (h : Built plan.toPlanPayload) (hnumbers : NumbersFit plan.toPlanPayload)
    (hhash : ∀ v, isHash (codec.sha256 v) = true) (hid : plan.planId = codec.sha256 (canonical plan.toPlanPayload)) {price : ℚ}
    (hread : rawOf codec (.str (decimalText plan.referencePrice)) = .number price) (hnonneg : 0 ≤ price)
    (hcross : plan.internalAllocations ≠ [] → 0 < price) (htext : decimalText price = decimalText plan.referencePrice) :
    validateSymbolNetPlanMetadata codec (metadata plan) = .ok { plan with referencePrice := price } := by
  obtain ⟨⟨schemaVersion, scopeId, portfolioId, portfolioHash, symbol, side, planned, referencePrice, deltas, internalAllocations,
    allocations⟩, planId⟩ := plan
  obtain ⟨hschema, ⟨name, hname⟩, hne, hkeys, -, hsigned, hsplit, hside, hquantity, -, -⟩ := h
  obtain ⟨hcurrent, htarget, -⟩ := hnumbers
  dsimp only at *
  subst hschema hname hside hid
  have hschema : IsText planSchema := by decide
  have hquantity' : (planned : ℤ) = whole |total (deltas.map (·.signedQuantity))| := by
    rw [hquantity, Int.natCast_natAbs, abs_of_nonneg (whole_nonneg (abs_nonneg _))]
  have hplanned : Fits 28 ((planned : ℤ) : ℚ) := by
    rw [hquantity']
    exact fits_whole _
  obtain ⟨hinternal, hexternal⟩ := splitInternalAndExternalAllocations_writable hsplit
  have hmin : ∀ m ∈ (some 0 : Option ℚ), m ≤ price := by
    rintro m hm
    obtain rfl := Option.some.inj hm
    exact hnonneg
  have hprice : decimal (.number price) "referencePrice" (some 0) = .ok price :=
    bind_eq_ok.mpr ⟨(), require_true hmin, rfl⟩
  refine bind_eq_ok.mpr ⟨_, textOf_str hschema, bind_eq_ok.mpr ⟨(), require_true rfl, ?_⟩⟩
  refine bind_eq_ok.mpr ⟨_, textOf_str scopeId.2, bind_eq_ok.mpr ⟨_, textOf_str portfolioId.2, ?_⟩⟩
  refine bind_eq_ok.mpr ⟨_, textOf_str (isText_lower name.2), ?_⟩
  have hsymbol : canonicalKisSymbol (codec.text (.str symbol.val)) = .ok symbol := by
    have hne : symbol.val ≠ "" := (isText_of_isSymbol symbol.2).2.1
    rw [Codec.text, Json.orElse, Json.truthy, if_pos (bne_iff_ne.mpr hne)]
    exact canonicalKisSymbol_symbol symbol
  refine bind_eq_ok.mpr ⟨symbol, hsymbol, bind_eq_ok.mpr ⟨_, textOf_str (isText_side _), ?_⟩⟩
  refine bind_eq_ok.mpr ⟨planned, (congrArg (quantity · _ true) (rawOf_int hplanned)).trans quantity_int, ?_⟩
  refine bind_eq_ok.mpr ⟨price, (congrArg (decimal · _ (some 0)) hread).trans hprice, ?_⟩
  refine bind_eq_ok.mpr ⟨deltas, deltasOf_map hne hkeys (fun d hd =>
    deltaItem_deltaJson (hcurrent d hd) (htarget d hd) (hsigned d hd)) rfl, ?_⟩
  refine bind_eq_ok.mpr ⟨_, allocationsFromMetadata_map hkeys hinternal rfl, ?_⟩
  refine bind_eq_ok.mpr ⟨_, allocationsFromMetadata_map hkeys hexternal rfl, ?_⟩
  refine bind_eq_ok.mpr ⟨_, hsplit, bind_eq_ok.mpr ⟨(), require_true rfl, bind_eq_ok.mpr ⟨(), require_true rfl, ?_⟩⟩⟩
  refine bind_eq_ok.mpr ⟨(), require_true fun hboth => hboth.2.not_gt (hcross hboth.1), ?_⟩
  refine bind_eq_ok.mpr ⟨(), require_true ⟨upper_side _, hquantity'⟩, ?_⟩
  refine bind_eq_ok.mpr ⟨_, textOf_str (isText_of_isHash (hhash _)), ?_⟩
  refine bind_eq_ok.mpr ⟨(), require_true ?_, ?_⟩
  · simp only [canonical, lower_lower, htext]
  · simp only [lower_lower]
    rfl

/-! ## The round trip -/

section build

variable {scopeId portfolioId portfolioHash : String} {targets : List SleeveTarget} {currentPositions : String → String → Raw}
  {brokerQuantity referencePrice : Raw} {plan : SymbolNetPlan}

/-- **A plan is read back from its metadata as it was built**: its numbers have at most 28 digits, and its price is none
below the normal numbers of the context. -/
theorem metadata_round_trip (hhash : ∀ v, isHash (codec.sha256 v) = true)
    (hplan : buildSymbolNetPlan (fun payload => codec.sha256 (canonical payload)) scopeId portfolioId portfolioHash targets
      currentPositions brokerQuantity referencePrice = .ok plan)
    (hnumbers : NumbersFit plan.toPlanPayload)
    (hnormal : plan.referencePrice = 0 ∨ (10 : ℚ) ^ (-999999 : ℤ) ≤ plan.referencePrice) :
    validateSymbolNetPlanMetadata codec (metadata plan) = .ok plan := by
  obtain ⟨hbuilt, hid⟩ := buildSymbolNetPlan_built hplan
  have habs : |plan.referencePrice| = plan.referencePrice := abs_of_nonneg hbuilt.price
  exact validate_metadata hbuilt hnumbers hhash hid (rawOf_decimalText hnumbers.price (by rwa [habs])) hbuilt.price hbuilt.crossPrice rfl

/-- Where nothing is crossed, the price decides nothing but the seal. -/
theorem buildSymbolNetPlan_price {hash : PlanPayload → String} {p q : ℚ}
    (h : buildSymbolNetPlan hash scopeId portfolioId portfolioHash targets currentPositions brokerQuantity (.number p) = .ok plan)
    (hnone : plan.internalAllocations = []) (hq : 0 ≤ q) :
    buildSymbolNetPlan hash scopeId portfolioId portfolioHash targets currentPositions brokerQuantity (.number q) =
      .ok { plan with referencePrice := q, planId := hash { plan.toPlanPayload with referencePrice := q } } := by
  obtain ⟨scopeId', hscope, h⟩ := bind_eq_ok.mp h
  obtain ⟨portfolioId', hportfolio, h⟩ := bind_eq_ok.mp h
  obtain ⟨portfolioHash', hname, h⟩ := bind_eq_ok.mp h
  cases targets with
  | nil => cases h
  | cons first rest =>
    obtain ⟨_, hsymbols, h⟩ := bind_eq_ok.mp h
    obtain ⟨_, hsleeves, h⟩ := bind_eq_ok.mp h
    obtain ⟨_, hintents, h⟩ := bind_eq_ok.mp h
    obtain ⟨deltas, hdeltas, h⟩ := bind_eq_ok.mp h
    obtain ⟨available, havailable, h⟩ := bind_eq_ok.mp h
    obtain ⟨_, hholding, h⟩ := bind_eq_ok.mp h
    obtain ⟨⟨internal, external⟩, hsplit, h⟩ := bind_eq_ok.mp h
    obtain ⟨price, hprice, h⟩ := bind_eq_ok.mp h
    obtain ⟨_, hcross, h⟩ := bind_eq_ok.mp h
    obtain rfl := Except.ok.inj h
    obtain rfl : internal = [] := hnone
    have hmin : ∀ m ∈ (some 0 : Option ℚ), m ≤ q := by
      rintro m hm
      obtain rfl := Option.some.inj hm
      exact hq
    have hprice' : decimal (.number q) "reference_price" (some 0) = .ok q := bind_eq_ok.mpr ⟨(), require_true hmin, rfl⟩
    refine bind_eq_ok.mpr ⟨_, hscope, bind_eq_ok.mpr ⟨_, hportfolio, bind_eq_ok.mpr ⟨_, hname, ?_⟩⟩⟩
    refine bind_eq_ok.mpr ⟨_, hsymbols, bind_eq_ok.mpr ⟨_, hsleeves, bind_eq_ok.mpr ⟨_, hintents, ?_⟩⟩⟩
    refine bind_eq_ok.mpr ⟨_, hdeltas, bind_eq_ok.mpr ⟨_, havailable, bind_eq_ok.mpr ⟨_, hholding, ?_⟩⟩⟩
    refine bind_eq_ok.mpr ⟨_, hsplit, bind_eq_ok.mpr ⟨_, hprice', ?_⟩⟩
    exact bind_eq_ok.mpr ⟨(), require_true fun hboth => hboth.1 rfl, rfl⟩

end build

theorem fits_nat {n : ℕ} (h : n < 10 ^ 28) : Fits 28 (n : ℚ) := by
  refine ⟨n, 0, by rw [zpow_zero, mul_one, Int.cast_natCast], ?_⟩
  rw [Nat.abs_cast]
  exact_mod_cast h

def crossingCodec : Codec := digestCodec "157b8606dc502c764888a5721bb30d8978b7f61da53902caa52e8c09e5d6dbaf"

theorem isHash_crossingCodec (v : Json) : isHash (crossingCodec.sha256 v) = true := by
  show isHash "157b8606dc502c764888a5721bb30d8978b7f61da53902caa52e8c09e5d6dbaf" = true
  decide

/-- A plan with two buyers' sellers comes back. -/
theorem metadata_round_trip_sample : ∃ plan : SymbolNetPlan, plan.quantity = 2 ∧ plan.referencePrice = 140001 / 2 ∧
    validateSymbolNetPlanMetadata crossingCodec (metadata plan) = .ok plan := by
  obtain ⟨targets, -, plan, hplan, hquantity, hprice, hdeltas⟩ : ∃ targets, crossingTargets = .ok targets ∧
      ∃ plan, buildSymbolNetPlan (fun payload => crossingCodec.sha256 (canonical payload)) "scope" "portfolio" "hash" targets
        crossingPositions (.number 4) (.number (140001 / 2)) = .ok plan ∧ plan.quantity = 2 ∧
        plan.referencePrice = 140001 / 2 ∧ ∀ d ∈ plan.deltas, d.currentQuantity < 10 ^ 28 ∧ d.targetQuantity < 10 ^ 28 := by
    decide +kernel
  have hnumbers : NumbersFit plan.toPlanPayload :=
    ⟨fun d hd => fits_nat (hdeltas d hd).1, fun d hd => fits_nat (hdeltas d hd).2, by
      rw [hprice]
      exact ⟨700005, -1, by norm_num, by norm_num⟩⟩
  refine ⟨plan, hquantity, hprice, metadata_round_trip isHash_crossingCodec hplan hnumbers (.inr ?_)⟩
  rw [hprice]
  exact (zpow_le_one_of_nonpos₀ (by norm_num) (by norm_num)).trans (by norm_num)

/-! ## A price that is lost -/

def tinyPrice : ℚ := (10 : ℚ) ^ (-1000050 : ℤ)

theorem tinyPrice_pos : 0 < tinyPrice := zpow_pos (by norm_num) _

/-- The text of the price is that of no price. -/
theorem decimalText_tinyPrice : decimalText tinyPrice = "0" := by
  have hsmall : |tinyPrice| * 2 < (10 : ℚ) ^ (-1000026 : ℤ) := by
    have hsplit : (10 : ℚ) ^ (-1000026 : ℤ) = tinyPrice * 10 ^ 24 := by
      rw [tinyPrice, ← zpow_natCast, ← zpow_add₀ (by norm_num)]
      congr 1
    rw [hsplit, abs_of_pos tinyPrice_pos]
    exact mul_lt_mul_of_pos_left (by norm_num) tinyPrice_pos
  rw [decimalText, if_neg tinyPrice_pos.ne', normalize_of_small hsmall, decide_eq_false tinyPrice_pos.not_gt]
  decide

def singleTarget : Result (List SleeveTarget) := do
  let a ← SleeveTarget.new "buy-a" "a" "005930" (.number 1)
  pure [a]

def singleCodec : Codec := digestCodec "213a3ca54931909062bf0533b92d71f8d8c6b8a6e23a77c0a1630324c734ae0c"

theorem isHash_singleCodec (v : Json) : isHash (singleCodec.sha256 v) = true := by
  show isHash "213a3ca54931909062bf0533b92d71f8d8c6b8a6e23a77c0a1630324c734ae0c" = true
  decide

/-- **A price of one digit that comes back as none.** -/
theorem subnormal_price_is_lost : ∃ targets, singleTarget = .ok targets ∧ ∃ plan,
    buildSymbolNetPlan (fun payload => singleCodec.sha256 (canonical payload)) "scope" "portfolio" "hash" targets
      (fun _ _ => .number 0) (.number 0) (.number tinyPrice) = .ok plan ∧ NumbersFit plan.toPlanPayload ∧
    validateSymbolNetPlanMetadata singleCodec (metadata plan) = .ok { plan with referencePrice := 0 } ∧
    validateSymbolNetPlanMetadata singleCodec (metadata plan) ≠ .ok plan := by
  obtain ⟨targets, htargets, free, hfree, hnone, hdeltas⟩ : ∃ targets, singleTarget = .ok targets ∧
      ∃ plan, buildSymbolNetPlan (fun payload => singleCodec.sha256 (canonical payload)) "scope" "portfolio" "hash" targets
        (fun _ _ => .number 0) (.number 0) (.number 0) = .ok plan ∧ plan.internalAllocations = [] ∧
        ∀ d ∈ plan.deltas, d.currentQuantity < 10 ^ 28 ∧ d.targetQuantity < 10 ^ 28 := by
    decide +kernel
  have hplan := buildSymbolNetPlan_price hfree hnone tinyPrice_pos.le
  obtain ⟨hbuilt, hid⟩ := buildSymbolNetPlan_built hplan
  have hnumbers : NumbersFit { free.toPlanPayload with referencePrice := tinyPrice } :=
    ⟨fun d hd => fits_nat (hdeltas d hd).1, fun d hd => fits_nat (hdeltas d hd).2,
      ⟨1, -1000050, by rw [Int.cast_one, one_mul, tinyPrice], by norm_num⟩⟩
  have hzero : decimalText 0 = "0" := if_pos rfl
  have hread : rawOf singleCodec (.str (decimalText tinyPrice)) = .number 0 := by
    rw [decimalText_tinyPrice, ← hzero]
    exact rawOf_decimalText fits_intZero (.inl rfl)
  have hback := validate_metadata hbuilt hnumbers isHash_singleCodec hid hread le_rfl (fun hne => absurd hnone hne)
    (hzero.trans decimalText_tinyPrice.symm)
  refine ⟨targets, htargets, _, hplan, hnumbers, hback, fun h => ?_⟩
  have hprice := congrArg (fun plan : SymbolNetPlan => plan.referencePrice) (Except.ok.inj (hback.symm.trans h))
  exact tinyPrice_pos.ne hprice

end LiveTrader.Portfolio.Context
