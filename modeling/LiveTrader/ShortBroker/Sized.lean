/-
# `ShortBroker.Sized` — sizing is sound, and stable

What `size_order` returns keeps the bounds of the exchange, of the balance and of the budget, and its own result comes out of it
unchanged.  A reducing order needs two things of its inputs: the position has the sign of the order's direction, and the price is not below
a tick.
-/
import LiveTrader.ShortBroker.Sizing
import LiveTrader.ShortBroker.System

namespace LiveTrader.ShortBroker

open Lib Lib.Py Lib.Decimal

/-! ## The grid -/

theorem Grid.floor_eq {grid : Grid} (hstep : 0 < grid.step) {raw : ℚ} (hraw : grid.minQty ≤ raw) :
    ∃ k : ℕ, grid.floor raw = grid.minQty + k * grid.step ∧ grid.floor raw ≤ raw := by
  have hnonneg : 0 ≤ (raw - grid.minQty) / grid.step := div_nonneg (sub_nonneg.mpr hraw) hstep.le
  obtain ⟨k, hk⟩ := Int.eq_ofNat_of_zero_le (Int.floor_nonneg.mpr hnonneg)
  have hfloor : grid.floor raw = grid.minQty + k * grid.step := by
    rw [Grid.floor, truncZ, if_pos hnonneg, hk]
    norm_cast
  refine ⟨k, hfloor, ?_⟩
  have hle := Int.floor_le ((raw - grid.minQty) / grid.step)
  rw [hk, le_div_iff₀ hstep] at hle
  rw [hfloor]
  push_cast at hle
  linarith

/-- What lies on the grid is a number of steps away, and is not rounded. -/
theorem Grid.onStep_of {grid : Grid} (hstep : 0 < grid.step) {q : ℚ} {k : ℕ} (h : q = grid.minQty + k * grid.step) :
    grid.OnStep q ∧ grid.floor q = q := by
  have hquotient : (q - grid.minQty) / grid.step = (k : ℤ) := by
    rw [h, add_sub_cancel_left, mul_div_cancel_right₀ _ hstep.ne', Int.cast_natCast]
  have htrunc : truncZ ((q - grid.minQty) / grid.step) = k := by
    rw [hquotient, truncZ, if_pos (Int.cast_nonneg (Int.natCast_nonneg k)), Int.floor_intCast]
  constructor
  · rw [Grid.OnStep, htrunc, h, add_sub_cancel_left, Int.cast_natCast]
  · rw [Grid.floor, htrunc, Int.cast_natCast]
    exact h.symm

section sized

variable {env : SizeEnv} {sizer : Sizer} {proposal market : Fields} {snapshot : Snapshot} {z : Sizing} {result : Fields}

/-! ## What is asked of a result -/

/-- A quantity within all bounds. -/
structure Sizing.Sound (env : SizeEnv) (sizer : Sizer) (proposal : Fields) (snapshot : Snapshot) (market : Fields) (z : Sizing)
    (grid : Grid) : Prop where
  positive : 0 < z.quantity
  onGrid : ∃ k : ℕ, z.quantity = grid.minQty + k * grid.step
  maximum : grid.maxQty = .null ∨ ∃ maxQty, positiveNumber env.toEnv grid.maxQty = .ok maxQty ∧ z.quantity ≤ maxQty
  notional : (z.asked.reducing = true ∧ sizer.route = .binanceUsdmFutures) ∨
    ∃ minNotional, number env.toEnv (market.at "minNotional") = .ok minNotional ∧ minNotional ≤ z.quantity * z.basis.price
  reducing : z.asked.reducing = true → ∃ row ∈ z.basis.positions, (row.at "symbol").eq (.str z.asked.symbol) = true ∧
    ∃ held, number env.toEnv (row.at "quantity") = .ok held ∧ z.quantity ≤ |held| ∧ (z.asked.side = "SELL" ↔ 0 < held)
  entry : z.asked.reducing = false → z.asked.side = entrySide (directionOf env proposal) ∧ z.required ≤ z.basis.available ∧
    z.basis.committed + z.required ≤ z.basis.routeLimit ∧
    (sizer.route = .kisKrCash → ∃ maxima maximum, (getOr snapshot.fields "maximumOrderQuantities" (.obj [])).fields = .ok maxima ∧
      number env.toEnv (maxima.at z.asked.symbol) = .ok maximum ∧ z.quantity ≤ maximum)

/-- The result is that of a sizing that keeps all bounds, and checking it again returns it. -/
structure SoundlySized (env : SizeEnv) (sizer : Sizer) (proposal : Fields) (snapshot : Snapshot) (market result : Fields) : Prop where
  sound : ∃ z grid, sizingOf env sizer proposal snapshot market = .ok z ∧ gridOf env sizer proposal market = .ok grid ∧
    number env.toEnv (result.at "quantity") = .ok z.quantity ∧ number env.toEnv (result.at "referencePrice") = .ok z.basis.price ∧
    z.Sound env sizer proposal snapshot market grid
  stable : ∃ again, sizeOrder env sizer true (recheckOf result) snapshot market = .ok again ∧
    again.at "quantity" = result.at "quantity" ∧ again.at "referencePrice" = result.at "referencePrice"

/-- A reducing order against a position of its own direction, at a price that is not below a tick. -/
def Aligned (env : SizeEnv) (proposal : Fields) (snapshot : Snapshot) (market : Fields) : Prop :=
  (proposal.at "riskReducing").isTrue = true →
    (∀ price tick, quotedPrice env proposal market = .ok price → market.at "priceTick" ≠ .null →
      positiveNumber env.toEnv (market.at "priceTick") = .ok tick → tick ≤ price) ∧
    ∀ rows, positionRows env snapshot = .ok rows → ∀ row ∈ rows, (row.at "symbol").eq (.str (askedOf env proposal).symbol) = true →
      ∀ held, number env.toEnv (row.at "quantity") = .ok held → (directionOf env proposal = "long" ↔ 0 < held)

/-! ## Numbers that are read -/

theorem positiveNumber_eq_ok {value : Json} {q : ℚ} (h : positiveNumber env.toEnv value = .ok q) :
    number env.toEnv value = .ok q ∧ 0 < q := by
  obtain ⟨amount, hamount, h⟩ := bind_eq_ok.mp h
  obtain ⟨_, hpos, h⟩ := bind_eq_ok.mp h
  obtain rfl := Except.ok.inj h
  exact ⟨hamount, require_eq_ok.mp hpos⟩

theorem positiveNumber_of {value : Json} {q : ℚ} (h : number env.toEnv value = .ok q) (hpos : 0 < q) :
    positiveNumber env.toEnv value = .ok q := by
  rw [positiveNumber, h]
  show (require (0 < q) _ >>= fun _ => pure q) = _
  rw [require_true hpos]
  rfl

theorem isDecimal_number {value : Json} {q : ℚ} (h : number env.toEnv value = .ok q) : IsDecimal q := by
  rw [number.eq_def] at h
  split at h
  · cases h
  · cases h
  · split at h
    · next hread =>
      obtain rfl := Except.ok.inj h
      exact env.reads_decimal hread
    · cases h

theorem number_text {q : ℚ} (h : IsDecimal q) : number env.toEnv (.str (env.decimalText q)) = .ok q := by
  simp only [number, env.reads_text h]

/-- A price on the tick is positive exactly where the quoted one is not below it. -/
theorem roundPrice_eq_ok {quoted price : ℚ} (hquoted : 0 < quoted) (h : roundPrice env market quoted = .ok price) :
    0 ≤ price ∧ roundPrice env market price = .ok price ∧ (IsDecimal quoted → IsDecimal price) ∧
      (0 < price ↔ ∀ tick, market.at "priceTick" ≠ .null → positiveNumber env.toEnv (market.at "priceTick") = .ok tick → tick ≤ quoted) := by
  cases htick : market.at "priceTick" with
  | null =>
    rw [roundPrice, htick] at h
    obtain rfl := Except.ok.inj h
    refine ⟨hquoted.le, by rw [roundPrice, htick]; rfl, id, ?_⟩
    exact iff_of_true hquoted fun _ hnull => absurd rfl hnull
  | bool | int | float | str | arr | obj =>
    rw [roundPrice, htick] at h
    obtain ⟨tick, hread, h⟩ := bind_eq_ok.mp h
    obtain rfl := Except.ok.inj h
    obtain ⟨hnumber, hpos⟩ := positiveNumber_eq_ok hread
    have hnonneg : 0 ≤ quoted / tick := div_nonneg hquoted.le hpos.le
    have hfloor : truncZ (quoted / tick) = ⌊quoted / tick⌋ := by rw [truncZ, if_pos hnonneg]
    have hfloor0 : (0 : ℚ) ≤ ⌊quoted / tick⌋ := Int.cast_nonneg (Int.floor_nonneg.mpr hnonneg)
    rw [hfloor]
    refine ⟨mul_nonneg hfloor0 hpos.le, ?_, fun _ => (isDecimal_intCast _).mul (isDecimal_number hnumber), ?_⟩
    · rw [roundPrice, htick]
      refine bind_eq_ok.mpr ⟨tick, hread, ?_⟩
      rw [mul_div_cancel_right₀ _ hpos.ne', truncZ, if_pos hfloor0, Int.floor_intCast]
      rfl
    · rw [mul_pos_iff_of_pos_right hpos, Int.cast_pos, Int.floor_pos, le_div_iff₀ hpos, one_mul]
      constructor
      · intro hle tick' _ htick'
        rw [Except.ok.inj (htick'.symm.trans hread)]
        exact hle
      · intro hall
        exact hall tick (by simp) hread

/-! ## The stages of a sizing -/

/-- Every stage of a sizing, with what it finds. -/
structure Stages (env : SizeEnv) (sizer : Sizer) (proposal : Fields) (snapshot : Snapshot) (market : Fields) (z : Sizing) (grid : Grid)
    (raw : ℚ × Option ℚ) (reserved orderable : ℚ) : Prop where
  scope : scopeOf env sizer proposal = .ok z.basis.manifest
  listed : listsSymbol z.basis.manifest z.asked.symbol = .ok true
  side : z.asked.side ∈ ["BUY", "SELL"]
  asked : z.asked = askedOf env proposal
  basis : basisOf env sizer z.basis.manifest proposal snapshot market = .ok z.basis
  computed : rawQuantity env sizer proposal market z.basis z.asked = .ok raw
  rounding : gridOf env sizer proposal market = .ok grid
  replaced : reservedQuantity env proposal grid raw.2 raw.1 = .ok reserved
  lowered : orderableQuantity env sizer snapshot z.asked reserved = .ok orderable
  bounds : checkBounds env sizer market z.basis grid z.asked.reducing orderable (grid.floor orderable) = .ok ()
  quantity : z.quantity = grid.floor orderable

theorem basisOf_manifest {manifest : Fields} {b : Basis} (h : basisOf env sizer manifest proposal snapshot market = .ok b) :
    b.manifest = manifest := by
  obtain ⟨_, -, h⟩ := bind_eq_ok.mp h
  obtain ⟨_, -, h⟩ := bind_eq_ok.mp h
  obtain ⟨_, -, h⟩ := bind_eq_ok.mp h
  obtain ⟨_, -, h⟩ := bind_eq_ok.mp h
  obtain ⟨_, -, h⟩ := bind_eq_ok.mp h
  obtain ⟨_, -, h⟩ := bind_eq_ok.mp h
  obtain ⟨_, -, h⟩ := bind_eq_ok.mp h
  obtain ⟨_, -, h⟩ := bind_eq_ok.mp h
  obtain ⟨_, -, h⟩ := bind_eq_ok.mp h
  obtain ⟨_, -, h⟩ := bind_eq_ok.mp h
  obtain ⟨_, -, h⟩ := bind_eq_ok.mp h
  obtain ⟨_, -, h⟩ := bind_eq_ok.mp h
  obtain ⟨_, -, h⟩ := bind_eq_ok.mp h
  obtain rfl := Except.ok.inj h
  rfl

theorem sizingOf_eq_ok (h : sizingOf env sizer proposal snapshot market = .ok z) :
    ∃ grid raw reserved orderable, Stages env sizer proposal snapshot market z grid raw reserved orderable := by
  obtain ⟨manifest, hscope, h⟩ := bind_eq_ok.mp h
  obtain ⟨listed, hlisted, h⟩ := bind_eq_ok.mp h
  obtain ⟨_, hin, h⟩ := bind_eq_ok.mp h
  obtain ⟨basis, hbasis, h⟩ := bind_eq_ok.mp h
  obtain ⟨raw, hraw, h⟩ := bind_eq_ok.mp h
  obtain ⟨grid, hgrid, h⟩ := bind_eq_ok.mp h
  obtain ⟨reserved, hreserved, h⟩ := bind_eq_ok.mp h
  obtain ⟨orderable, horderable, h⟩ := bind_eq_ok.mp h
  obtain ⟨_, hbounds, h⟩ := bind_eq_ok.mp h
  obtain rfl := Except.ok.inj h
  have hin := require_eq_ok.mp hin
  have hmanifest := basisOf_manifest hbasis
  obtain rfl := hmanifest
  exact ⟨grid, raw, reserved, orderable, hscope, hin.1 ▸ hlisted, hin.2, rfl, hbasis, hraw, hgrid, hreserved, horderable, hbounds, rfl⟩

theorem sizingOf_of {grid : Grid} {raw : ℚ × Option ℚ} {reserved orderable : ℚ}
    (h : Stages env sizer proposal snapshot market z grid raw reserved orderable) :
    sizingOf env sizer proposal snapshot market = .ok z := by
  have hasked := h.asked
  refine bind_eq_ok.mpr ⟨_, h.scope, ?_⟩
  rw [← hasked]
  refine bind_eq_ok.mpr ⟨true, h.listed, ?_⟩
  refine bind_eq_ok.mpr ⟨(), require_true ⟨rfl, h.side⟩, ?_⟩
  refine bind_eq_ok.mpr ⟨_, h.basis, ?_⟩
  refine bind_eq_ok.mpr ⟨_, h.computed, ?_⟩
  refine bind_eq_ok.mpr ⟨_, h.rounding, ?_⟩
  refine bind_eq_ok.mpr ⟨_, h.replaced, ?_⟩
  refine bind_eq_ok.mpr ⟨_, h.lowered, ?_⟩
  refine bind_eq_ok.mpr ⟨_, h.bounds, ?_⟩
  rw [← h.quantity]
  rfl

/-! ## Prices and grids -/

theorem quotedPrice_eq_ok {quoted : ℚ} (h : quotedPrice env proposal market = .ok quoted) : 0 < quoted ∧ IsDecimal quoted := by
  obtain ⟨_, -, h⟩ := bind_eq_ok.mp h
  obtain ⟨native, hnative, h⟩ := bind_eq_ok.mp h
  cases hreserved : proposal.at "_reservedLimitPrice" with
  | null =>
    rw [hreserved] at h
    obtain rfl := Except.ok.inj h
    obtain ⟨hnumber, hpos⟩ := positiveNumber_eq_ok hnative
    exact ⟨hpos, isDecimal_number hnumber⟩
  | bool | int | float | str | arr | obj =>
    rw [hreserved] at h
    obtain ⟨hnumber, hpos⟩ := positiveNumber_eq_ok h
    exact ⟨hpos, isDecimal_number hnumber⟩

theorem priceOf_eq_ok {quote : ℚ × ℚ} (h : priceOf env proposal market = .ok quote) : ∃ quoted,
    quotedPrice env proposal market = .ok quoted ∧ roundPrice env market quoted = .ok quote.1 ∧ 0 < quote.2 ∧ IsDecimal quote.2 := by
  obtain ⟨quoted, hquoted, h⟩ := bind_eq_ok.mp h
  obtain ⟨_, -, h⟩ := bind_eq_ok.mp h
  obtain ⟨fx, hfx, h⟩ := bind_eq_ok.mp h
  obtain ⟨price, hprice, h⟩ := bind_eq_ok.mp h
  obtain rfl := Except.ok.inj h
  obtain ⟨hnumber, hpos⟩ := positiveNumber_eq_ok hfx
  exact ⟨quoted, hquoted, hprice, hpos, isDecimal_number hnumber⟩

theorem basisOf_price {manifest : Fields} {b : Basis} (h : basisOf env sizer manifest proposal snapshot market = .ok b) :
    priceOf env proposal market = .ok (b.price, b.fx) ∧ positionRows env snapshot = .ok b.positions := by
  obtain ⟨quote, hquote, h⟩ := bind_eq_ok.mp h
  obtain ⟨_, -, h⟩ := bind_eq_ok.mp h
  obtain ⟨_, -, h⟩ := bind_eq_ok.mp h
  obtain ⟨_, -, h⟩ := bind_eq_ok.mp h
  obtain ⟨_, -, h⟩ := bind_eq_ok.mp h
  obtain ⟨_, -, h⟩ := bind_eq_ok.mp h
  obtain ⟨_, -, h⟩ := bind_eq_ok.mp h
  obtain ⟨_, -, h⟩ := bind_eq_ok.mp h
  obtain ⟨_, hpositions, h⟩ := bind_eq_ok.mp h
  obtain ⟨_, -, h⟩ := bind_eq_ok.mp h
  obtain ⟨_, -, h⟩ := bind_eq_ok.mp h
  obtain ⟨_, -, h⟩ := bind_eq_ok.mp h
  obtain ⟨_, -, h⟩ := bind_eq_ok.mp h
  obtain rfl := Except.ok.inj h
  exact ⟨hquote, hpositions⟩

theorem gridOf_eq_ok {grid : Grid} (h : gridOf env sizer proposal market = .ok grid) :
    0 < grid.step ∧ 0 ≤ grid.minQty ∧ IsDecimal grid.step ∧ IsDecimal grid.minQty := by
  obtain ⟨_, -, h⟩ := bind_eq_ok.mp h
  obtain ⟨step, hstep, h⟩ := bind_eq_ok.mp h
  obtain ⟨_, -, h⟩ := bind_eq_ok.mp h
  obtain ⟨minQty, hmin, h⟩ := bind_eq_ok.mp h
  obtain ⟨_, hnonneg, h⟩ := bind_eq_ok.mp h
  obtain rfl := Except.ok.inj h
  obtain ⟨hnumber, hpos⟩ := positiveNumber_eq_ok hstep
  exact ⟨hpos, require_eq_ok.mp hnonneg, isDecimal_number hnumber, isDecimal_number hmin⟩

theorem checkBounds_eq_ok {b : Basis} {grid : Grid} {reducing : Bool} {raw quantity : ℚ}
    (h : checkBounds env sizer market b grid reducing raw quantity = .ok ()) : grid.minQty ≤ raw ∧ 0 < quantity ∧
    ((reducing = true ∧ sizer.route = .binanceUsdmFutures) ∨
      ∃ minNotional, number env.toEnv (market.at "minNotional") = .ok minNotional ∧ minNotional ≤ quantity * b.price) ∧
    (grid.maxQty = .null ∨ ∃ maxQty, positiveNumber env.toEnv grid.maxQty = .ok maxQty ∧ quantity ≤ maxQty) := by
  obtain ⟨_, hraw, h⟩ := bind_eq_ok.mp h
  obtain ⟨_, hquantity, h⟩ := bind_eq_ok.mp h
  obtain ⟨value, hvalue, h⟩ := bind_eq_ok.mp h
  obtain ⟨minNotional, hmin, h⟩ := bind_eq_ok.mp h
  obtain ⟨_, hnotional, h⟩ := bind_eq_ok.mp h
  refine ⟨require_eq_ok.mp hraw, (require_eq_ok.mp hquantity).1, ?_, ?_⟩
  · by_cases hexempt : reducing = true ∧ sizer.route = .binanceUsdmFutures
    · exact .inl hexempt
    · refine .inr ⟨minNotional, by rw [item_eq_ok hvalue]; exact hmin, ?_⟩
      exact not_lt.mp fun hless => require_eq_ok.mp hnotional ⟨hless, hexempt⟩
  · cases hmax : grid.maxQty with
    | null => exact .inl rfl
    | bool | int | float | str | arr | obj =>
      rw [hmax] at h
      obtain ⟨maxQty, hread, h⟩ := bind_eq_ok.mp h
      exact .inr ⟨maxQty, hread, require_eq_ok.mp h⟩

/-- A quantity that was checked passes again where it takes the place of the one that was rounded. -/
theorem checkBounds_again {b : Basis} {grid : Grid} {reducing : Bool} {raw quantity : ℚ}
    (h : checkBounds env sizer market b grid reducing raw quantity = .ok ()) :
    checkBounds env sizer market b grid reducing quantity quantity = .ok () := by
  obtain ⟨_, -, h⟩ := bind_eq_ok.mp h
  obtain ⟨_, hquantity, h⟩ := bind_eq_ok.mp h
  refine bind_eq_ok.mpr ⟨(), require_true (require_eq_ok.mp hquantity).2, ?_⟩
  exact bind_eq_ok.mpr ⟨(), require_true (require_eq_ok.mp hquantity), h⟩

/-! ## Quantities -/

theorem checkDirection_eq_ok {asked : Asked} {direction : String} (h : checkDirection sizer asked direction = .ok ()) :
    direction ∈ ["long", "short"] ∧ (asked.reducing = false → asked.side = entrySide direction) := by
  obtain ⟨_, -, h⟩ := bind_eq_ok.mp h
  obtain ⟨hdirection, hside⟩ := require_eq_ok.mp h
  exact ⟨hdirection, fun hentry => Decidable.not_not.mp fun hne => hside ⟨hentry, hne⟩⟩

theorem ownedRow_eq_ok {b : Basis} {asked : Asked} {direction : String} {row : Fields} (h : ownedRow b asked direction = .ok row) :
    (b.positions.filter fun row => (row.at "symbol").eq (.str asked.symbol)) = [row] ∧ asked.side ≠ entrySide direction := by
  rw [ownedRow.eq_def] at h
  split at h
  · next only hmatching =>
    obtain ⟨_, hside, h⟩ := bind_eq_ok.mp h
    obtain rfl := Except.ok.inj h
    exact ⟨hmatching, require_eq_ok.mp hside⟩
  · cases h

theorem heldQuantity_eq_ok {row : Fields} {owned : ℚ} (h : heldQuantity env row = .ok owned) :
    ∃ held, number env.toEnv (row.at "quantity") = .ok held ∧ owned = |held| := by
  obtain ⟨value, hvalue, h⟩ := bind_eq_ok.mp h
  obtain ⟨held, hheld, h⟩ := bind_eq_ok.mp h
  refine ⟨held, ?_, (Except.ok.inj h).symm⟩
  rw [item_eq_ok hvalue]
  exact hheld

/-- A reducing order asks for the position at most. -/
theorem reducingQuantity_le {b : Basis} {owned requested raw : ℚ}
    (h : reducingQuantity env proposal b owned requested = .ok raw) : raw ≤ owned := by
  obtain ⟨all, -, h⟩ := bind_eq_ok.mp h
  cases all with
  | true =>
    obtain rfl := Except.ok.inj h
    exact le_rfl
  | false =>
    obtain ⟨asked, -, h⟩ := bind_eq_ok.mp h
    obtain rfl := Except.ok.inj h
    exact min_le_left owned asked

/-- What an order asks for: a part of the only position in the symbol, or what its caps leave. -/
inductive Computed (env : SizeEnv) (sizer : Sizer) (proposal market : Fields) (b : Basis) (asked : Asked) (requested : ℚ) :
    ℚ × Option ℚ → Prop where
  | reduces {row : Fields} {owned raw : ℚ} (hreducing : asked.reducing = true) (hrow : ownedRow b asked (directionOf env proposal) = .ok row)
      (howned : heldQuantity env row = .ok owned) (hraw : reducingQuantity env proposal b owned requested = .ok raw) :
      Computed env sizer proposal market b asked requested (raw, some owned)
  | enters {raw : ℚ} (hentry : asked.reducing = false) (hraw : entryQuantity env sizer proposal market b requested = .ok raw) :
      Computed env sizer proposal market b asked requested (raw, none)

theorem rawQuantity_eq_ok {b : Basis} {asked : Asked} {raw : ℚ × Option ℚ}
    (h : rawQuantity env sizer proposal market b asked = .ok raw) : ∃ requested, requestedOf env proposal = .ok requested ∧
    checkDirection sizer asked (directionOf env proposal) = .ok () ∧ Computed env sizer proposal market b asked requested raw := by
  obtain ⟨requested, hrequested, h⟩ := bind_eq_ok.mp h
  obtain ⟨_, hdirection, h⟩ := bind_eq_ok.mp h
  refine ⟨requested, hrequested, hdirection, ?_⟩
  cases hreducing : asked.reducing with
  | true =>
    rw [hreducing, if_pos rfl] at h
    obtain ⟨row, hrow, h⟩ := bind_eq_ok.mp h
    obtain ⟨owned, howned, h⟩ := bind_eq_ok.mp h
    obtain ⟨quantity, hquantity, h⟩ := bind_eq_ok.mp h
    obtain rfl := Except.ok.inj h
    exact .reduces hreducing hrow howned hquantity
  | false =>
    rw [hreducing, if_neg Bool.false_ne_true] at h
    obtain ⟨quantity, hquantity, h⟩ := bind_eq_ok.mp h
    obtain rfl := Except.ok.inj h
    exact .enters hreducing hquantity

theorem rawQuantity_of {b : Basis} {asked : Asked} {raw : ℚ × Option ℚ} {requested : ℚ} (hrequested : requestedOf env proposal = .ok requested)
    (hdirection : checkDirection sizer asked (directionOf env proposal) = .ok ())
    (h : Computed env sizer proposal market b asked requested raw) : rawQuantity env sizer proposal market b asked = .ok raw := by
  refine bind_eq_ok.mpr ⟨requested, hrequested, bind_eq_ok.mpr ⟨(), hdirection, ?_⟩⟩
  cases h with
  | reduces hreducing hrow howned hraw =>
    rw [if_pos hreducing]
    exact bind_eq_ok.mpr ⟨_, hrow, bind_eq_ok.mpr ⟨_, howned, bind_eq_ok.mpr ⟨_, hraw, rfl⟩⟩⟩
  | enters hentry hraw =>
    rw [hentry, if_neg Bool.false_ne_true]
    exact bind_eq_ok.mpr ⟨_, hraw, rfl⟩

/-- Reserved or computed, the quantity of a reducing order is within the position. -/
theorem reservedQuantity_eq_ok {grid : Grid} {owned : Option ℚ} {raw reserved : ℚ} (hraw : ∀ held ∈ owned, raw ≤ held)
    (h : reservedQuantity env proposal grid owned raw = .ok reserved) : ∀ held ∈ owned, reserved ≤ held := by
  cases hreserved : proposal.at "_reservedQuantity" with
  | null =>
    rw [reservedQuantity, hreserved] at h
    obtain rfl := Except.ok.inj h
    exact hraw
  | bool | int | float | str | arr | obj =>
    rw [reservedQuantity, hreserved] at h
    obtain ⟨_, -, h⟩ := bind_eq_ok.mp h
    obtain ⟨_, hvalid, h⟩ := bind_eq_ok.mp h
    obtain rfl := Except.ok.inj h
    exact (require_eq_ok.mp hvalid).2

/-- What the broker lets be ordered bounds an entry at KIS, and nothing else is lowered. -/
theorem orderableQuantity_eq_ok {asked : Asked} {raw orderable : ℚ} (h : orderableQuantity env sizer snapshot asked raw = .ok orderable) :
    orderable ≤ raw ∧ (asked.reducing = false → sizer.route = .kisKrCash → ∃ maxima maximum,
      (getOr snapshot.fields "maximumOrderQuantities" (.obj [])).fields = .ok maxima ∧
      number env.toEnv (maxima.at asked.symbol) = .ok maximum ∧ orderable ≤ maximum) := by
  rw [orderableQuantity.eq_def] at h
  split at h
  · obtain ⟨maxima, hmaxima, h⟩ := bind_eq_ok.mp h
    cases hmaximum : maxima.at asked.symbol with
    | null =>
      rw [hmaximum] at h
      cases h
    | bool | int | float | str | arr | obj =>
      rw [hmaximum] at h
      obtain ⟨maximum, hread, h⟩ := bind_eq_ok.mp h
      obtain rfl := Except.ok.inj h
      refine ⟨min_le_left raw maximum, fun _ _ => ⟨maxima, maximum, hmaxima, ?_, min_le_right raw maximum⟩⟩
      rw [hmaximum]
      exact hread
  · next hother =>
    obtain rfl := Except.ok.inj h
    exact ⟨le_rfl, fun hentry hkis => absurd ⟨hkis, hentry⟩ hother⟩

/-- A quantity that is not above what was let be ordered is not lowered. -/
theorem orderableQuantity_again {asked : Asked} {raw orderable quantity : ℚ}
    (h : orderableQuantity env sizer snapshot asked raw = .ok orderable) (hle : quantity ≤ orderable) :
    orderableQuantity env sizer snapshot asked quantity = .ok quantity := by
  rw [orderableQuantity.eq_def] at h ⊢
  split at h
  · next hkis =>
    rw [if_pos hkis]
    obtain ⟨maxima, hmaxima, h⟩ := bind_eq_ok.mp h
    refine bind_eq_ok.mpr ⟨maxima, hmaxima, ?_⟩
    cases hmaximum : maxima.at asked.symbol with
    | null =>
      rw [hmaximum] at h
      cases h
    | bool | int | float | str | arr | obj =>
      rw [hmaximum] at h
      obtain ⟨maximum, hread, h⟩ := bind_eq_ok.mp h
      obtain rfl := Except.ok.inj h
      refine bind_eq_ok.mpr ⟨maximum, hread, ?_⟩
      rw [min_eq_left (hle.trans (min_le_right raw maximum))]
      rfl
  · next hother =>
    rw [if_neg hother]
    rfl

/-! ## What a sizing keeps -/

namespace Stages

variable {grid : Grid} {raw : ℚ × Option ℚ} {reserved orderable : ℚ}

theorem floor (h : Stages env sizer proposal snapshot market z grid raw reserved orderable) :
    ∃ k : ℕ, z.quantity = grid.minQty + k * grid.step ∧ z.quantity ≤ orderable := by
  obtain ⟨hstep, -⟩ := gridOf_eq_ok h.rounding
  rw [h.quantity]
  exact Grid.floor_eq hstep (checkBounds_eq_ok h.bounds).1

theorem quantity_pos (h : Stages env sizer proposal snapshot market z grid raw reserved orderable) : 0 < z.quantity := by
  rw [h.quantity]
  exact (checkBounds_eq_ok h.bounds).2.1

theorem isDecimal_quantity (h : Stages env sizer proposal snapshot market z grid raw reserved orderable) : IsDecimal z.quantity := by
  obtain ⟨-, -, hstep, hmin⟩ := gridOf_eq_ok h.rounding
  obtain ⟨k, hk, -⟩ := h.floor
  rw [hk]
  exact hmin.add ((isDecimal_intCast k).mul hstep)

/-- The price is on a tick, and rounding it again does nothing. -/
theorem price (h : Stages env sizer proposal snapshot market z grid raw reserved orderable) : 0 ≤ z.basis.price ∧
    roundPrice env market z.basis.price = .ok z.basis.price ∧ IsDecimal z.basis.price ∧ 0 < z.basis.fx ∧ IsDecimal z.basis.fx := by
  obtain ⟨hquote, -⟩ := basisOf_price h.basis
  obtain ⟨quoted, hquoted, hround, hfx, hfxDecimal⟩ := priceOf_eq_ok hquote
  obtain ⟨hpos, hdecimal⟩ := quotedPrice_eq_ok hquoted
  obtain ⟨hnonneg, hagain, hkeeps, -⟩ := roundPrice_eq_ok hpos hround
  exact ⟨hnonneg, hagain, hkeeps hdecimal, hfx, hfxDecimal⟩

theorem isDecimal_notional (h : Stages env sizer proposal snapshot market z grid raw reserved orderable) : IsDecimal z.notional := by
  obtain ⟨-, -, hprice, -, hfx⟩ := h.price
  exact (h.isDecimal_quantity.mul hprice).mul hfx

theorem notional_pos (h : Stages env sizer proposal snapshot market z grid raw reserved orderable) (hprice : 0 < z.basis.price) :
    0 < z.notional := by
  obtain ⟨-, -, -, hfx, -⟩ := h.price
  exact mul_pos (mul_pos h.quantity_pos hprice) hfx

/-- A reducing order is within the position. -/
theorem within (h : Stages env sizer proposal snapshot market z grid raw reserved orderable) : ∀ held ∈ raw.2, z.quantity ≤ held := by
  intro held hheld
  obtain ⟨k, -, hfloor⟩ := h.floor
  obtain ⟨hlowered, -⟩ := orderableQuantity_eq_ok h.lowered
  obtain ⟨requested, -, -, hcomputed⟩ := rawQuantity_eq_ok h.computed
  have hraw : ∀ held ∈ raw.2, raw.1 ≤ held := by
    cases hcomputed with
    | reduces hreducing hrow howned hraw =>
      rintro _ ⟨⟩
      exact reducingQuantity_le hraw
    | enters hentry hraw =>
      intro held hnone
      cases hnone
  exact hfloor.trans (hlowered.trans (reservedQuantity_eq_ok hraw h.replaced held hheld))

/-- An entry has a price: its quotient has a divisor. -/
theorem price_pos_of_entry (h : Stages env sizer proposal snapshot market z grid raw reserved orderable)
    (hentry : z.asked.reducing = false) : 0 < z.basis.price := by
  obtain ⟨requested, -, -, hcomputed⟩ := rawQuantity_eq_ok h.computed
  cases hcomputed with
  | reduces hreducing hrow howned hraw => exact absurd (hentry.symm.trans hreducing) Bool.false_ne_true
  | enters _ hraw =>
    obtain ⟨_, -, hraw⟩ := bind_eq_ok.mp hraw
    obtain ⟨_, -, hraw⟩ := bind_eq_ok.mp hraw
    obtain ⟨_, -, hraw⟩ := bind_eq_ok.mp hraw
    obtain ⟨_, -, hraw⟩ := bind_eq_ok.mp hraw
    obtain ⟨_, -, hraw⟩ := bind_eq_ok.mp hraw
    obtain ⟨hne, -⟩ := quotient_eq_ok hraw
    exact lt_of_le_of_ne h.price.1 (left_ne_zero_of_mul hne).symm

end Stages

/-! ## The order that is checked again -/

/-- What sizing reads of a proposal and does not write. -/
def keptKeys : List String := ["sessionId", "manifestHash", "route", "symbol", "side", "riskReducing", "positionDirection", "closeQuantity",
  "capitalBudgetKrw", "operation"]

/-- The proposal, with the price, the quantity and the notional that were found for it. -/
structure Again (env : SizeEnv) (proposal again : Fields) (z : Sizing) : Prop where
  kept : ∀ key ∈ keptKeys, again.lookup key = proposal.lookup key
  price : again.at "_reservedLimitPrice" = .str (env.decimalText z.basis.price)
  quantity : again.at "_reservedQuantity" = .str (env.decimalText z.quantity)
  notional : getOr again "deltaKrw" (again.at "notionalKrw") = .str (env.decimalText z.notional)

theorem lookup_result (h : z.result env sizer proposal snapshot market = .ok result) : ∃ accountId observedAt fxObservedAt,
    ∀ key ≠ "executionAccounting", result.lookup key =
      (proposal.update (z.updates env accountId observedAt fxObservedAt (getOr market "positionMode" (.str "")))).lookup key := by
  obtain ⟨accountId, -, h⟩ := bind_eq_ok.mp h
  obtain ⟨observedAt, -, h⟩ := bind_eq_ok.mp h
  obtain ⟨fxObservedAt, -, h⟩ := bind_eq_ok.mp h
  refine ⟨accountId, observedAt, fxObservedAt, ?_⟩
  intro key hkey
  split at h
  · obtain ⟨account, -, h⟩ := bind_eq_ok.mp h
    obtain rfl := Except.ok.inj h
    rw [Fields.lookup_put, if_neg hkey]
  · obtain rfl := Except.ok.inj h
    rfl

theorem nodup_updates (z : Sizing) (accountId observedAt fxObservedAt positionMode : Json) :
    ((z.updates env accountId observedAt fxObservedAt positionMode).map Prod.fst).Nodup := by
  show (["ready", "blockers", "accountId", "quantity", "referencePrice", "estimatedNotionalKrw", "projectedGrossExposureKrw", "feeKrw",
    "observedAt", "krwPerQuote", "fxObservedAt", "leverage", "requiredCapitalKrw", "projectedCommittedCapitalKrw", "positionMode",
    "promotionEligible"] : List String).Nodup
  decide

theorem texts_result (h : z.result env sizer proposal snapshot market = .ok result) :
    result.lookup "quantity" = some (.str (env.decimalText z.quantity)) ∧
    result.lookup "referencePrice" = some (.str (env.decimalText z.basis.price)) ∧
    result.lookup "estimatedNotionalKrw" = some (.str (env.decimalText z.notional)) := by
  obtain ⟨accountId, observedAt, fxObservedAt, hlookup⟩ := lookup_result h
  have hnodup : ((z.updates env accountId observedAt fxObservedAt (getOr market "positionMode" (.str ""))).map Prod.fst).Nodup :=
    nodup_updates z accountId observedAt fxObservedAt _
  refine ⟨?_, ?_, ?_⟩
  · rw [hlookup _ (by decide)]
    exact Fields.lookup_update_of_mem hnodup (by simp [Sizing.updates]) proposal
  · rw [hlookup _ (by decide)]
    exact Fields.lookup_update_of_mem hnodup (by simp [Sizing.updates]) proposal
  · rw [hlookup _ (by decide)]
    exact Fields.lookup_update_of_mem hnodup (by simp [Sizing.updates]) proposal

theorem kept_result (h : z.result env sizer proposal snapshot market = .ok result) {key : String} (hkey : key ∈ keptKeys) :
    result.lookup key = proposal.lookup key := by
  obtain ⟨accountId, observedAt, fxObservedAt, hlookup⟩ := lookup_result h
  have hkept : ∀ key ∈ keptKeys, key ≠ "executionAccounting" ∧ key ∉ ["ready", "blockers", "accountId", "quantity", "referencePrice",
      "estimatedNotionalKrw", "projectedGrossExposureKrw", "feeKrw", "observedAt", "krwPerQuote", "fxObservedAt", "leverage",
      "requiredCapitalKrw", "projectedCommittedCapitalKrw", "positionMode", "promotionEligible"] := by
    decide
  rw [hlookup key (hkept key hkey).1]
  exact Fields.lookup_update (hkept key hkey).2 proposal

theorem again_of_result (h : z.result env sizer proposal snapshot market = .ok result) : Again env proposal (recheckOf result) z := by
  obtain ⟨hquantity, hprice, hnotional⟩ := texts_result h
  have hnodup : ((recheckEntries result).map Prod.fst).Nodup := by
    show (["notionalKrw", "deltaKrw", "_reservedLimitPrice", "_reservedQuantity"] : List String).Nodup
    decide
  have hkept : ∀ key ∈ keptKeys, key ∉ ["notionalKrw", "deltaKrw", "_reservedLimitPrice", "_reservedQuantity"] := by decide
  have hestimated : getOr result "estimatedNotionalKrw" (result.at "notionalKrw") = .str (env.decimalText z.notional) := by
    rw [getOr, hnotional, Option.getD_some]
  have hwritten : recheckEntries result = [("notionalKrw", .str (env.decimalText z.notional)),
      ("deltaKrw", .str (env.decimalText z.notional)), ("_reservedLimitPrice", .str (env.decimalText z.basis.price)),
      ("_reservedQuantity", .str (env.decimalText z.quantity))] := by
    rw [recheckEntries, hestimated, Fields.at, hprice, Fields.at, hquantity]
    rfl
  constructor
  · intro key hkey
    rw [← kept_result h hkey]
    exact Fields.lookup_update (hkept key hkey) result
  · refine Fields.at_update_of_mem hnodup ?_ result
    simp [hwritten]
  · refine Fields.at_update_of_mem hnodup ?_ result
    simp [hwritten]
  · have hdelta : (recheckOf result).lookup "deltaKrw" = some (.str (env.decimalText z.notional)) :=
      Fields.lookup_update_of_mem hnodup (by simp [hwritten]) result
    rw [getOr, hdelta, Option.getD_some]

namespace Again

variable {again : Fields} {grid : Grid} {raw : ℚ × Option ℚ} {reserved orderable : ℚ}

theorem at_eq (h : Again env proposal again z) (key : String) (hkey : key ∈ keptKeys) : again.at key = proposal.at key := by
  rw [Fields.at, h.kept key hkey, Fields.at]

theorem scopeOf_eq (h : Again env proposal again z) : scopeOf env sizer again = scopeOf env sizer proposal := by
  unfold scopeOf sameField getOr
  rw [h.at_eq "sessionId" (by decide), h.at_eq "manifestHash" (by decide), h.kept "route" (by decide)]

theorem askedOf_eq (h : Again env proposal again z) : askedOf env again = askedOf env proposal := by
  rw [askedOf, h.at_eq "symbol" (by decide), h.at_eq "side" (by decide), h.at_eq "riskReducing" (by decide), askedOf]

theorem directionOf_eq (h : Again env proposal again z) : directionOf env again = directionOf env proposal := by
  rw [directionOf, h.at_eq "positionDirection" (by decide), directionOf]

theorem marketExit_eq (h : Again env proposal again z) : marketExit sizer again = marketExit sizer proposal := by
  rw [marketExit, h.at_eq "operation" (by decide), marketExit]

theorem gridOf_eq (h : Again env proposal again z) : gridOf env sizer again market = gridOf env sizer proposal market := by
  unfold gridOf gridItem
  rw [h.marketExit_eq]

/-- The price that was found is the price that is found again. -/
theorem priceOf_eq (h : Again env proposal again z) (hstages : Stages env sizer proposal snapshot market z grid raw reserved orderable)
    (hprice : 0 < z.basis.price) : priceOf env again market = .ok (z.basis.price, z.basis.fx) := by
  obtain ⟨hquote, -⟩ := basisOf_price hstages.basis
  obtain ⟨-, hround, hdecimal, -, -⟩ := hstages.price
  obtain ⟨_, hquoted, hquote⟩ := bind_eq_ok.mp hquote
  obtain ⟨fx, hfx, hquote⟩ := bind_eq_ok.mp hquote
  obtain ⟨rate, hrate, hquote⟩ := bind_eq_ok.mp hquote
  obtain ⟨_, -, hquote⟩ := bind_eq_ok.mp hquote
  obtain ⟨native, hnative, hquoted⟩ := bind_eq_ok.mp hquoted
  obtain ⟨price, hpositive, -⟩ := bind_eq_ok.mp hquoted
  obtain ⟨-, rfl⟩ := Prod.mk.inj (Except.ok.inj hquote)
  have hagain : quotedPrice env again market = .ok z.basis.price := by
    refine bind_eq_ok.mpr ⟨native, hnative, bind_eq_ok.mpr ⟨price, hpositive, ?_⟩⟩
    rw [h.price]
    exact positiveNumber_of (number_text hdecimal) hprice
  refine bind_eq_ok.mpr ⟨_, hagain, bind_eq_ok.mpr ⟨fx, hfx, bind_eq_ok.mpr ⟨_, hrate, ?_⟩⟩⟩
  exact bind_eq_ok.mpr ⟨_, hround, rfl⟩

theorem requestedOf_eq (h : Again env proposal again z) (hstages : Stages env sizer proposal snapshot market z grid raw reserved orderable)
    (hprice : 0 < z.basis.price) : requestedOf env again = .ok z.notional := by
  rw [requestedOf, h.notional]
  exact positiveNumber_of (number_text hstages.isDecimal_notional) (hstages.notional_pos hprice)

theorem basisOf_eq (h : Again env proposal again z) (hstages : Stages env sizer proposal snapshot market z grid raw reserved orderable)
    (hprice : 0 < z.basis.price) : basisOf env sizer z.basis.manifest again snapshot market = .ok z.basis := by
  have hbasis := hstages.basis
  obtain ⟨hquote, -⟩ := basisOf_price hbasis
  obtain ⟨quote, hquote', hbasis⟩ := bind_eq_ok.mp hbasis
  obtain ⟨fee, hfee, hbasis⟩ := bind_eq_ok.mp hbasis
  obtain ⟨rate, hrate, hbasis⟩ := bind_eq_ok.mp hbasis
  obtain ⟨tax, htax, hbasis⟩ := bind_eq_ok.mp hbasis
  obtain ⟨_, -, hbasis⟩ := bind_eq_ok.mp hbasis
  obtain rfl := Except.ok.inj (hquote.symm.trans hquote')
  refine bind_eq_ok.mpr ⟨_, h.priceOf_eq hstages hprice, bind_eq_ok.mpr ⟨fee, hfee, bind_eq_ok.mpr ⟨rate, hrate, ?_⟩⟩⟩
  refine bind_eq_ok.mpr ⟨tax, by rw [h.askedOf_eq]; exact htax, ?_⟩
  exact bind_eq_ok.mpr ⟨_, h.requestedOf_eq hstages hprice, hbasis⟩

/-- A reducing order asks again for at most the position. -/
theorem reducingQuantity_ok (h : Again env proposal again z) {b : Basis} {owned requested quantity : ℚ} (hrate : b.price * b.fx ≠ 0)
    (hraw : reducingQuantity env proposal b owned requested = .ok quantity) (requested' : ℚ) :
    ∃ quantity', reducingQuantity env again b owned requested' = .ok quantity' := by
  obtain ⟨all, hall, -⟩ := bind_eq_ok.mp hraw
  have hall' : closesAll env again owned = .ok all := by
    rw [closesAll, h.at_eq "closeQuantity" (by decide)]
    exact hall
  cases all with
  | true => exact ⟨owned, bind_eq_ok.mpr ⟨true, hall', rfl⟩⟩
  | false =>
    refine ⟨min owned (requested' / (b.price * b.fx)), bind_eq_ok.mpr ⟨false, hall', ?_⟩⟩
    exact bind_eq_ok.mpr ⟨_, quotient_of_ne hrate, rfl⟩

/-- The cap of the sleeve stays, and what is asked for again is positive. -/
theorem requestedCap_ok (h : Again env proposal again z) {b : Basis} {requested wanted requested' : ℚ}
    (hcap : requestedCap env sizer proposal market b requested = .ok wanted) (hwanted : 0 < wanted) (hrequested : 0 < requested') :
    ∃ wanted', requestedCap env sizer again market b requested' = .ok wanted' ∧ 0 < wanted' := by
  have hbudget := h.at_eq "capitalBudgetKrw" (by decide)
  cases hvalue : proposal.at "capitalBudgetKrw" with
  | null =>
    refine ⟨requested', ?_, hrequested⟩
    rw [requestedCap, hbudget, hvalue]
    rfl
  | bool | int | float | str | arr | obj =>
    rw [requestedCap, hvalue] at hcap
    rw [requestedCap, hbudget, hvalue]
    dsimp only at hcap ⊢
    split at hcap
    · next hfutures =>
      rw [if_pos hfutures]
      obtain ⟨budget, hread, hcap⟩ := bind_eq_ok.mp hcap
      obtain ⟨funding, hfunding, hcap⟩ := bind_eq_ok.mp hcap
      obtain ⟨rate, hrate, hcap⟩ := bind_eq_ok.mp hcap
      obtain ⟨notional, hnotional, hcap⟩ := bind_eq_ok.mp hcap
      obtain rfl := Except.ok.inj hcap
      refine ⟨min requested' notional, ?_, lt_min hrequested (hwanted.trans_le (min_le_right requested notional))⟩
      refine bind_eq_ok.mpr ⟨budget, hread, bind_eq_ok.mpr ⟨funding, hfunding, bind_eq_ok.mpr ⟨rate, hrate, ?_⟩⟩⟩
      exact bind_eq_ok.mpr ⟨notional, hnotional, rfl⟩
    · next hother =>
      rw [if_neg hother]
      exact ⟨requested', rfl, hrequested⟩

theorem entryQuantity_ok (h : Again env proposal again z) {b : Basis} {requested quantity requested' : ℚ}
    (hraw : entryQuantity env sizer proposal market b requested = .ok quantity) (hrequested : 0 < requested') :
    ∃ quantity', entryQuantity env sizer again market b requested' = .ok quantity' := by
  obtain ⟨_, hincidents, hraw⟩ := bind_eq_ok.mp hraw
  obtain ⟨wanted, hwanted, hraw⟩ := bind_eq_ok.mp hraw
  obtain ⟨budget, hbudget, hraw⟩ := bind_eq_ok.mp hraw
  obtain ⟨balance, hbalance, hraw⟩ := bind_eq_ok.mp hraw
  obtain ⟨_, hpos, hraw⟩ := bind_eq_ok.mp hraw
  obtain ⟨hrate, -⟩ := quotient_eq_ok hraw
  obtain ⟨hpos, hfunds⟩ := lt_min_iff.mp (require_eq_ok.mp hpos)
  obtain ⟨wanted', hwanted', hpos'⟩ := h.requestedCap_ok hwanted hpos hrequested
  refine ⟨min wanted' (min budget balance) / (b.price * b.fx), bind_eq_ok.mpr ⟨(), hincidents, bind_eq_ok.mpr ⟨wanted', hwanted', ?_⟩⟩⟩
  refine bind_eq_ok.mpr ⟨budget, hbudget, bind_eq_ok.mpr ⟨balance, hbalance, ?_⟩⟩
  exact bind_eq_ok.mpr ⟨(), require_true (lt_min hpos' hfunds), quotient_of_ne hrate⟩

/-- What is computed again has the same position. -/
theorem computed_ok (h : Again env proposal again z) {b : Basis} {asked : Asked} {requested requested' : ℚ} (hrate : b.price * b.fx ≠ 0)
    (hrequested : 0 < requested') (hraw : Computed env sizer proposal market b asked requested raw) :
    ∃ quantity', Computed env sizer again market b asked requested' (quantity', raw.2) := by
  cases hraw with
  | reduces hreducing hrow howned hraw =>
    obtain ⟨quantity', hraw'⟩ := h.reducingQuantity_ok hrate hraw requested'
    exact ⟨quantity', .reduces hreducing (by rw [h.directionOf_eq]; exact hrow) howned hraw'⟩
  | enters hentry hraw =>
    obtain ⟨quantity', hraw'⟩ := h.entryQuantity_ok hraw hrequested
    exact ⟨quantity', .enters hentry hraw'⟩

/-- The second pass finds the order of the first. -/
theorem sizingOf_eq (h : Again env proposal again z) (hstages : Stages env sizer proposal snapshot market z grid raw reserved orderable)
    (hprice : 0 < z.basis.price) : sizingOf env sizer again snapshot market = .ok z := by
  obtain ⟨requested, -, hdirection, hcomputed⟩ := rawQuantity_eq_ok hstages.computed
  have hrate : z.basis.price * z.basis.fx ≠ 0 := (mul_pos hprice hstages.price.2.2.2.1).ne'
  obtain ⟨quantity', hcomputed'⟩ := h.computed_ok hrate (hstages.notional_pos hprice) hcomputed
  obtain ⟨hstep, -⟩ := gridOf_eq_ok hstages.rounding
  obtain ⟨k, hk, hle⟩ := hstages.floor
  obtain ⟨honStep, hfloor⟩ := Grid.onStep_of hstep hk
  have hbounds : checkBounds env sizer market z.basis grid z.asked.reducing orderable z.quantity = .ok () := by
    rw [hstages.quantity]
    exact hstages.bounds
  refine sizingOf_of (?_ : Stages env sizer again snapshot market z grid (quantity', raw.2) z.quantity z.quantity)
  constructor
  case scope => rw [h.scopeOf_eq]; exact hstages.scope
  case listed => exact hstages.listed
  case side => exact hstages.side
  case asked => rw [h.askedOf_eq]; exact hstages.asked
  case basis => exact h.basisOf_eq hstages hprice
  case computed => exact rawQuantity_of (h.requestedOf_eq hstages hprice) (by rw [h.directionOf_eq]; exact hdirection) hcomputed'
  case rounding => rw [h.gridOf_eq]; exact hstages.rounding
  case replaced =>
    rw [reservedQuantity, h.quantity]
    refine bind_eq_ok.mpr ⟨z.quantity, positiveNumber_of (number_text hstages.isDecimal_quantity) hstages.quantity_pos, ?_⟩
    exact bind_eq_ok.mpr ⟨(), require_true ⟨honStep, hstages.within⟩, rfl⟩
  case lowered => exact orderableQuantity_again hstages.lowered hle
  case bounds =>
    rw [hfloor]
    exact checkBounds_again hbounds
  case quantity => exact hfloor.symm

end Again

/-! ## Both passes -/

theorem sizeOrder_eq_ok {coordinated : Bool} (h : sizeOrder env sizer coordinated proposal snapshot market = .ok result) :
    ∃ z, sizingOf env sizer proposal snapshot market = .ok z ∧ checkCapital z = .ok () ∧
      z.result env sizer proposal snapshot market = .ok result := by
  obtain ⟨z, hsizing, h⟩ := bind_eq_ok.mp h
  obtain ⟨_, -, h⟩ := bind_eq_ok.mp h
  obtain ⟨_, hcapital, h⟩ := bind_eq_ok.mp h
  exact ⟨z, hsizing, hcapital, h⟩

theorem checkCapital_eq_ok (h : checkCapital z = .ok ()) (hentry : z.asked.reducing = false) :
    z.required ≤ z.basis.available ∧ z.basis.committed + z.required ≤ z.basis.routeLimit := by
  obtain ⟨_, havailable, h⟩ := bind_eq_ok.mp h
  have hprojected : z.projectedCapital = z.basis.committed + z.required := by
    rw [Sizing.projectedCapital, hentry, if_neg Bool.false_ne_true]
  constructor
  · exact not_lt.mp fun hless => require_eq_ok.mp havailable ⟨hentry, hless⟩
  · rw [← hprojected]
    exact not_lt.mp fun hless => require_eq_ok.mp h ⟨hentry, hless⟩

theorem capture_ok (snapshot : Snapshot) : capture true snapshot = .ok () := by
  obtain ⟨observedAt, hobserved⟩ := Option.isSome_iff_exists.mp snapshot.observed
  exact bind_eq_ok.mpr ⟨observedAt, orRaise_eq_ok.mpr hobserved, rfl⟩

/-- The result of the second pass is made of the same answers. -/
theorem result_again {again : Fields} (h : Again env proposal again z) (hresult : z.result env sizer proposal snapshot market = .ok result) :
    ∃ result', z.result env sizer again snapshot market = .ok result' := by
  obtain ⟨accountId, haccount, hresult⟩ := bind_eq_ok.mp hresult
  obtain ⟨observedAt, hobserved, hresult⟩ := bind_eq_ok.mp hresult
  obtain ⟨fxObservedAt, hfx, hresult⟩ := bind_eq_ok.mp hresult
  rw [Sizing.result, haccount, ok_bind, hobserved, ok_bind, hfx, ok_bind, h.kept "capitalBudgetKrw" (by decide)]
  split at hresult
  · next hfutures =>
    obtain ⟨account, haccounting, -⟩ := bind_eq_ok.mp hresult
    dsimp only
    rw [if_pos hfutures, haccounting, ok_bind]
    exact ⟨_, rfl⟩
  · next hother =>
    dsimp only
    rw [if_neg hother]
    exact ⟨_, rfl⟩

/-- With a price, an order that is ready is ready again, at the same quantity and price. -/
theorem sizeOrder_again (hsizing : sizingOf env sizer proposal snapshot market = .ok z) (hcapital : checkCapital z = .ok ())
    (hresult : z.result env sizer proposal snapshot market = .ok result) (hprice : 0 < z.basis.price) :
    ∃ again, sizeOrder env sizer true (recheckOf result) snapshot market = .ok again ∧
      again.at "quantity" = result.at "quantity" ∧ again.at "referencePrice" = result.at "referencePrice" := by
  obtain ⟨grid, raw, reserved, orderable, hstages⟩ := sizingOf_eq_ok hsizing
  have hagain := again_of_result hresult
  obtain ⟨again, hready⟩ := result_again hagain hresult
  obtain ⟨hquantity, hreference, -⟩ := texts_result hresult
  obtain ⟨hquantity', hreference', -⟩ := texts_result hready
  refine ⟨again, ?_, ?_, ?_⟩
  · refine bind_eq_ok.mpr ⟨z, hagain.sizingOf_eq hstages hprice, ?_⟩
    exact bind_eq_ok.mpr ⟨(), capture_ok snapshot, bind_eq_ok.mpr ⟨(), hcapital, hready⟩⟩
  · rw [Fields.at, hquantity', Fields.at, hquantity]
  · rw [Fields.at, hreference', Fields.at, hreference]

theorem price_pos_of_again (hsizing : sizingOf env sizer proposal snapshot market = .ok z)
    (hresult : z.result env sizer proposal snapshot market = .ok result) {again : Fields}
    (hready : sizeOrder env sizer true (recheckOf result) snapshot market = .ok again) : 0 < z.basis.price := by
  obtain ⟨grid, raw, reserved, orderable, hstages⟩ := sizingOf_eq_ok hsizing
  obtain ⟨z', hsizing', -⟩ := sizeOrder_eq_ok hready
  obtain ⟨grid', raw', reserved', orderable', hstages'⟩ := sizingOf_eq_ok hsizing'
  obtain ⟨hquote, -⟩ := basisOf_price hstages'.basis
  obtain ⟨quoted, hquoted, -⟩ := priceOf_eq_ok hquote
  obtain ⟨_, -, hquoted⟩ := bind_eq_ok.mp hquoted
  obtain ⟨_, -, hquoted⟩ := bind_eq_ok.mp hquoted
  rw [(again_of_result hresult).price] at hquoted
  obtain ⟨hnumber, hpos⟩ := positiveNumber_eq_ok hquoted
  rw [number_text hstages.price.2.2.1] at hnumber
  exact hpos.trans_eq (Except.ok.inj hnumber).symm

/-! ## Positions -/

theorem side_sell_iff {side direction : String} (hside : side ∈ ["BUY", "SELL"]) (hdirection : direction ∈ ["long", "short"])
    (hne : side ≠ entrySide direction) : side = "SELL" ↔ direction = "long" := by
  have hall : ∀ side ∈ ["BUY", "SELL"], ∀ direction ∈ ["long", "short"], side ≠ entrySide direction → (side = "SELL" ↔ direction = "long") := by
    decide
  exact hall side hside direction hdirection hne

theorem Stages.reducing_eq {grid : Grid} {raw : ℚ × Option ℚ} {reserved orderable : ℚ}
    (h : Stages env sizer proposal snapshot market z grid raw reserved orderable) :
    (proposal.at "riskReducing").isTrue = z.asked.reducing := by
  rw [h.asked, askedOf]

/-- The position that a reducing order names. -/
theorem Stages.ownedRow {grid : Grid} {raw : ℚ × Option ℚ} {reserved orderable : ℚ}
    (h : Stages env sizer proposal snapshot market z grid raw reserved orderable) (hreducing : z.asked.reducing = true) :
    ∃ row held, (z.basis.positions.filter fun row => (row.at "symbol").eq (.str z.asked.symbol)) = [row] ∧
      number env.toEnv (row.at "quantity") = .ok held ∧ z.quantity ≤ |held| ∧
      (z.asked.side = "SELL" ↔ directionOf env proposal = "long") := by
  obtain ⟨requested, -, hdirection, hcomputed⟩ := rawQuantity_eq_ok h.computed
  cases hraw : raw with
  | mk quantity owned =>
    have hwithin := h.within
    rw [hraw] at hcomputed hwithin
    cases hcomputed with
    | reduces _ hrow howned _ =>
      obtain ⟨hmatching, hside⟩ := ownedRow_eq_ok hrow
      obtain ⟨held, hheld, rfl⟩ := heldQuantity_eq_ok howned
      exact ⟨_, held, hmatching, hheld, hwithin _ rfl, side_sell_iff h.side (checkDirection_eq_ok hdirection).1 hside⟩
    | enters hentry _ => exact absurd (hentry.symm.trans hreducing) Bool.false_ne_true

/-- A price is positive where the quoted one is not below a tick. -/
theorem Stages.price_pos_iff {grid : Grid} {raw : ℚ × Option ℚ} {reserved orderable : ℚ}
    (h : Stages env sizer proposal snapshot market z grid raw reserved orderable) : 0 < z.basis.price ↔
      ∀ price tick, quotedPrice env proposal market = .ok price → market.at "priceTick" ≠ .null →
        positiveNumber env.toEnv (market.at "priceTick") = .ok tick → tick ≤ price := by
  obtain ⟨hquote, -⟩ := basisOf_price h.basis
  obtain ⟨quoted, hquoted, hround, -⟩ := priceOf_eq_ok hquote
  obtain ⟨-, -, -, hiff⟩ := roundPrice_eq_ok (quotedPrice_eq_ok hquoted).1 hround
  rw [hiff]
  constructor
  · intro hall price tick hprice htick hread
    obtain rfl := Except.ok.inj (hquoted.symm.trans hprice)
    exact hall tick htick hread
  · intro hall tick htick hread
    exact hall quoted tick hquoted htick hread

/-! ## Sizing -/

/-- A sizing whose price and position are those of its direction keeps all bounds. -/
theorem Stages.sound {grid : Grid} {raw : ℚ × Option ℚ} {reserved orderable : ℚ}
    (h : Stages env sizer proposal snapshot market z grid raw reserved orderable) (hcapital : checkCapital z = .ok ())
    (haligned : Aligned env proposal snapshot market) : z.Sound env sizer proposal snapshot market grid := by
  obtain ⟨k, hk, hfloor⟩ := h.floor
  obtain ⟨-, -, hnotional, hmaximum⟩ := checkBounds_eq_ok h.bounds
  rw [← h.quantity] at hnotional hmaximum
  obtain ⟨requested, -, hdirection, -⟩ := rawQuantity_eq_ok h.computed
  constructor
  case positive => exact h.quantity_pos
  case onGrid => exact ⟨k, hk⟩
  case maximum => exact hmaximum
  case notional => exact hnotional
  case reducing =>
    intro hreducing
    obtain ⟨row, held, hmatching, hheld, hle, hside⟩ := h.ownedRow hreducing
    have hmem : row ∈ z.basis.positions.filter fun row => (row.at "symbol").eq (.str z.asked.symbol) := by
      rw [hmatching]
      exact List.mem_singleton_self row
    obtain ⟨hrow, hsymbol⟩ := List.mem_filter.mp hmem
    obtain ⟨-, hrows⟩ := haligned (h.reducing_eq.trans hreducing)
    have hsign := hrows _ (basisOf_price h.basis).2 row hrow (h.asked ▸ hsymbol) held hheld
    exact ⟨row, hrow, hsymbol, held, hheld, hle, hside.trans hsign⟩
  case entry =>
    intro hentry
    obtain ⟨havailable, hlimit⟩ := checkCapital_eq_ok hcapital hentry
    refine ⟨(checkDirection_eq_ok hdirection).2 hentry, havailable, hlimit, ?_⟩
    intro hkis
    obtain ⟨maxima, maximum, hmaxima, hread, hle⟩ := (orderableQuantity_eq_ok h.lowered).2 hentry hkis
    exact ⟨maxima, maximum, hmaxima, hread, hfloor.trans hle⟩

/-- What is sound and stable reduces a position of its own direction, at a price. -/
theorem aligned_of_soundlySized {coordinated : Bool} (h : sizeOrder env sizer coordinated proposal snapshot market = .ok result)
    (hsound : SoundlySized env sizer proposal snapshot market result) : Aligned env proposal snapshot market := by
  obtain ⟨z, hsizing, hcapital, hresult⟩ := sizeOrder_eq_ok h
  obtain ⟨grid, raw, reserved, orderable, hstages⟩ := sizingOf_eq_ok hsizing
  obtain ⟨⟨z', grid', hsizing', -, -, -, hsound⟩, again, hready, -⟩ := hsound
  obtain rfl := Except.ok.inj (hsizing.symm.trans hsizing')
  intro hreducing
  refine ⟨hstages.price_pos_iff.mp (price_pos_of_again hsizing hresult hready), ?_⟩
  intro rows hrows row hrow hsymbol held hheld
  obtain rfl := Except.ok.inj ((basisOf_price hstages.basis).2.symm.trans hrows)
  have hreducing' : z.asked.reducing = true := hstages.reducing_eq.symm.trans hreducing
  -- the rows in the symbol are one row, so the row of the statement is that of the order
  obtain ⟨owned, held', hmatching, -, -, hside⟩ := hstages.ownedRow hreducing'
  obtain ⟨sold, hsold, hsoldSymbol, amount, hamount, -, hsign⟩ := hsound.reducing hreducing'
  have hsame : ∀ row ∈ z.basis.positions, (row.at "symbol").eq (.str z.asked.symbol) = true → row = owned := by
    intro row hrow hsymbol
    have hmem : row ∈ z.basis.positions.filter fun row => (row.at "symbol").eq (.str z.asked.symbol) :=
      List.mem_filter.mpr ⟨hrow, hsymbol⟩
    rw [hmatching] at hmem
    exact List.mem_singleton.mp hmem
  obtain rfl := hsame sold hsold hsoldSymbol
  rw [← hstages.asked] at hsymbol
  rw [hsame row hrow hsymbol] at hheld
  rw [hheld] at hamount
  obtain rfl := Except.ok.inj hamount
  exact hside.symm.trans hsign

theorem soundlySized_of_aligned {coordinated : Bool} (h : sizeOrder env sizer coordinated proposal snapshot market = .ok result)
    (haligned : Aligned env proposal snapshot market) : SoundlySized env sizer proposal snapshot market result := by
  obtain ⟨z, hsizing, hcapital, hresult⟩ := sizeOrder_eq_ok h
  obtain ⟨grid, raw, reserved, orderable, hstages⟩ := sizingOf_eq_ok hsizing
  have hprice : 0 < z.basis.price := by
    cases hreducing : z.asked.reducing with
    | false => exact hstages.price_pos_of_entry hreducing
    | true => exact hstages.price_pos_iff.mpr (haligned (hstages.reducing_eq.trans hreducing)).1
  obtain ⟨hquantity, hreference, -⟩ := texts_result hresult
  refine ⟨⟨z, grid, hsizing, hstages.rounding, ?_, ?_, hstages.sound hcapital haligned⟩, ?_⟩
  · rw [Fields.at, hquantity, Option.getD_some]
    exact number_text hstages.isDecimal_quantity
  · rw [Fields.at, hreference, Option.getD_some]
    exact number_text hstages.price.2.2.1
  · exact sizeOrder_again hsizing hcapital hresult hprice

end sized

/-! ## A sample account -/

def sampleNumber : Json → Option ℚ
  | .int n => some n
  | .str text =>
    match decimal? text with
    | some (.finite d) => some d.value
    | _ => none
  | _ => none

theorem isDecimal_sampleNumber {value : Json} {q : ℚ} (h : sampleNumber value = some q) : IsDecimal q := by
  rw [sampleNumber.eq_def] at h
  split at h
  · obtain rfl := Option.some.inj h
    exact isDecimal_intCast _
  · split at h
    · obtain rfl := Option.some.inj h
      exact isDecimal_dec _
    · cases h
  · cases h

theorem sampleNumber_text {q : ℚ} (h : IsDecimal q) : sampleNumber (.str (exactText q)) = some q := by
  obtain ⟨d, htext, hvalue⟩ := decimal?_exactText h
  simp only [sampleNumber, htext, hvalue]

def SizeEnv.sample : SizeEnv where
  repr := sampleRepr
  decimal := sampleNumber
  decimalText := exactText
  reads_decimal := isDecimal_sampleNumber
  reads_text := sampleNumber_text
  positionNotional budget leverage _ fee funding := quotient (budget * leverage) (1 + leverage * (2 * fee + funding))
  accounting _ reducing _ _ _ _ := pure (.obj [("reducingUsesActualOwnedQuantity", .bool reducing)])

/-- A futures session of one symbol. -/
def Sizer.sample : Sizer where
  route := .binanceUsdmFutures
  manifest := some [("sessionId", .str "session"), ("manifestHash", .str "hash"), ("symbols", .arr [.str "BTCUSDT"]),
    ("routeBudgetKrw", .int 1000)]
  currency := "USDT"
  leverage := .ok 2
  incidents := false

def samplePosition (quantity : ℤ) : Json :=
  .obj [("symbol", .str "BTCUSDT"), ("quantity", .int quantity), ("markPrice", .int 10), ("entryPrice", .int 10), ("isolatedWallet", .int 20)]

/-- An account that holds contracts. -/
def sampleSnapshot (quantity : ℤ) : Snapshot where
  fields := [("accountId", .str "account"), ("observedAt", .int 1), ("availableNative", .int 500), ("positions", .arr [samplePosition quantity])]
  observed := rfl

def sampleMarket : Fields :=
  [("nativePrice", .int 10), ("krwPerQuote", .int 1), ("priceTick", .int 1), ("feeRate", .int 0), ("fundingRate", .int 0), ("lotStep", .int 1),
    ("minQuantity", .int 1), ("maxQuantity", .int 100), ("minNotional", .int 5), ("observedAt", .int 1), ("fxObservedAt", .int 1)]

def sampleProposal (direction side : String) (reducing : Bool) : Fields :=
  [("sessionId", .str "session"), ("manifestHash", .str "hash"), ("symbol", .str "BTCUSDT"), ("side", .str side),
    ("riskReducing", .bool reducing), ("positionDirection", .str direction), ("deltaKrw", .int 25)]

end LiveTrader.ShortBroker
