/-
# `MovingAverage.Finished` — natural signals come from finished bars

A window that is returned was sampled within one interval of the exchange, so its last boundary is not after the time at which its candles
were asked for.  The id of a bar says its opening time, and the times are consecutive, so each bar is the candle of its place before that
boundary.
-/
import LiveTrader.MovingAverage.Crossover
import LiveTrader.Lib.UtcText

namespace LiveTrader.MovingAverage

open Lib Lib.Py Lib.Decimal

variable {env : Env} {world : World}

/-! ## Ids -/

theorem barIdOf_toList {opened : ℤ} (h : 0 ≤ opened) : (barIdOf opened).toList = "BTCUSDT-5m-".toList ++ Nat.toDigits 10 opened.natAbs := by
  have hcast : opened.toNat = opened.natAbs := by omega
  rw [barIdOf, Int.repr_eq_if, if_pos h, hcast, String.toList_append, Nat.repr, String.toList_ofList]
  rfl

/-- What follows the last dash of an id has the digits of the opening time. -/
theorem lastPart_barIdOf {opened : ℤ} (h : 0 ≤ opened) : lastPart (barIdOf opened) = Nat.toDigits 10 opened.natAbs := by
  have hdigits : ∀ c ∈ (Nat.toDigits 10 opened.natAbs).reverse, (c ≠ '-' : Bool) = true := by
    intro c hc
    have hdigit := isDigit_toDigits (List.mem_reverse.mp hc)
    refine decide_eq_true ?_
    rintro rfl
    cases hdigit
  have hname : "BTCUSDT-5m-".toList.reverse = '-' :: "BTCUSDT-5m".toList.reverse := by decide
  rw [lastPart, barIdOf_toList h, List.reverse_append, List.takeWhile_append_of_pos hdigits, hname, List.takeWhile_cons_of_neg (by decide),
    List.append_nil, List.reverse_reverse]

theorem idOpened_barIdOf {opened : ℤ} (h : 0 ≤ opened) : idOpened (barIdOf opened) = some opened := by
  have hne : Nat.toDigits 10 opened.natAbs ≠ [] := Nat.toDigits_ne_nil
  have hall : (Nat.toDigits 10 opened.natAbs).all Char.isDigit = true := List.all_eq_true.mpr fun c hc => isDigit_toDigits hc
  rw [idOpened, lastPart_barIdOf h, if_pos ⟨hne, hall⟩, Nat.ofDigitChars_ten_toDigits, Int.natAbs_of_nonneg h]

/-! ## The answers of the exchange -/

/-- The answers are official: each was given between the call before it and the call after it, and a row of a candle that had closed when
the answer was given says what the candle is. -/
structure Official (env : Env) (world : World) (final : ℤ → Candle) (requested sampled : ℕ → ℤ) : Prop where
  before : ∀ n time, readTime env world n = .ok time → time ≤ requested n
  during : ∀ n, requested n ≤ sampled n
  after : ∀ n time, readTime env world (n + 1) = .ok time → sampled n ≤ time
  rows : ∀ n payload raw opened trades, world.klines n = .ok (.arr payload) → .arr raw ∈ payload → readRow env raw = .ok (opened, trades) →
    0 ≤ opened ∧ (opened + intervalMilliseconds ≤ sampled n → candleOf env raw trades = .ok (final opened))

/-- The candles that are returned, and when they were asked for. -/
structure Within (env : Env) (world : World) (found : Sampled) (n : ℕ) (before : ℤ) : Prop where
  place : n ≤ 1
  payload : world.klines n = .ok found.payload
  earlier : readTime env world n = .ok before
  later : readTime env world (n + 1) = .ok found.server
  same : found.server / intervalMilliseconds = before / intervalMilliseconds

theorem sample_eq_ok {found : Sampled} (h : sample env world = .ok found) : ∃ n before, Within env world found n before := by
  simp only [sample, bind_eq_ok, require_eq_ok] at h
  obtain ⟨server, hserver, _, -, _, -, payload, hpayload, post, hpost, _, -, h⟩ := h
  split at h
  · next hsame =>
    obtain rfl := pure_eq_ok.mp h
    exact ⟨0, server, by omega, hpayload, hserver, hpost, hsame⟩
  · simp only [refetch, bind_eq_ok, require_eq_ok, pure_eq_ok] at h
    obtain ⟨payload', hpayload', confirmed, hconfirmed, _, ⟨-, hsame⟩, rfl⟩ := h
    exact ⟨1, post, le_refl _, hpayload', hpost, hconfirmed, hsame⟩

/-! ## Rows -/

/-- A finished bar is that of a row that has closed. -/
theorem mem_closedRows {server : ℤ} {raws : List (List Json)} {bars : List Closed} (h : closedRows env server raws = .ok bars) {bar : Closed}
    (hbar : bar ∈ bars) : ∃ raw ∈ raws, ∃ trades, readRow env raw = .ok (bar.openedAt, trades) ∧ candleOf env raw trades = .ok bar.candle ∧
      bar.openedAt + intervalMilliseconds ≤ server := by
  induction raws generalizing bars with
  | nil =>
    obtain rfl := pure_eq_ok.mp h
    cases hbar
  | cons raw raws ih =>
    simp only [closedRows, bind_eq_ok] at h
    obtain ⟨⟨opened, trades⟩, hread, h⟩ := h
    split at h
    · obtain ⟨found, hfound, hrest⟩ := ih h hbar
      exact ⟨found, List.mem_cons_of_mem _ hfound, hrest⟩
    · next hclosed =>
      simp only [bind_eq_ok, pure_eq_ok] at h
      obtain ⟨first, hfirst, others, hothers, rfl⟩ := h
      rcases List.mem_cons.mp hbar with rfl | hbar
      · simp only [closedRow, bind_eq_ok, pure_eq_ok] at hfirst
        obtain ⟨candle, hcandle, openTime, -, closeTime, -, rfl⟩ := hfirst
        refine ⟨raw, List.mem_cons_self, trades, hread, hcandle, ?_⟩
        show opened + intervalMilliseconds ≤ server
        omega
      · obtain ⟨found, hfound, hrest⟩ := ih hothers hbar
        exact ⟨found, List.mem_cons_of_mem _ hfound, hrest⟩

/-- The closes of finished bars are positive. -/
theorem candleOf_pos {raw : List Json} {trades : ℤ} {candle : Candle} (h : candleOf env raw trades = .ok candle) : 0 < candle.closed.value := by
  simp only [candleOf, decimalOf, bind_eq_ok, require_eq_ok, orRaise_eq_ok, pure_eq_ok] at h
  obtain ⟨opened, -, high, -, low, -, closed, ⟨found, -, _, hpos, rfl⟩, volume, -, _, -, _, -, rfl⟩ := h
  exact hpos

/-- Consecutive times are as far apart as their places. -/
theorem Consecutive.getElem {times : List ℤ} (h : Consecutive times) (i : ℕ) {first : ℤ} (time : ℤ) (hfirst : times.head? = some first)
    (htime : times[i]? = some time) : time = first + i * intervalMilliseconds := by
  induction i generalizing times first time with
  | zero =>
    rw [List.head?_eq_getElem?] at hfirst
    rw [hfirst] at htime
    obtain rfl := Option.some.inj htime
    simp
  | succ i ih =>
    cases times with
    | nil => cases htime
    | cons opened rest =>
      obtain rfl := Option.some.inj hfirst
      cases rest with
      | nil => cases htime
      | cons next rest =>
        have hnext := ih h.2 time rfl htime
        have hstep := h.1
        rw [hnext]
        push_cast
        linarith

/-! ## The window -/

theorem openedOf_eq {bar : Closed} (h : 0 ≤ bar.openedAt) : openedOf bar = .ok bar.openedAt := by
  rw [openedOf, idOpened_barIdOf h]
  rfl

theorem times_eq {rows : List Closed} (h : ∀ bar ∈ rows, 0 ≤ bar.openedAt) : rows.mapM openedOf = .ok (rows.map Closed.openedAt) := by
  refine mapM_eq_ok.mpr (List.forall₂_map_right_iff.mpr (List.forall₂_same.mpr ?_))
  intro bar hbar
  exact openedOf_eq (h bar hbar)

/-- The bars are the last before the boundary. -/
theorem latest_eq_ok {server : ℤ} {closed rows : List Closed} {final : Closed} (hnonneg : ∀ bar ∈ closed, 0 ≤ bar.openedAt)
    (h : latest server closed = .ok (rows, final)) :
    rows ⊆ closed ∧ rows.length = windowSize ∧ rows.getLast? = some final ∧ Consecutive (rows.map Closed.openedAt) ∧
      ∀ (i : ℕ) (bar : Closed), rows[i]? = some bar →
        bar.openedAt = server / intervalMilliseconds * intervalMilliseconds - (windowSize - i) * intervalMilliseconds := by
  simp only [latest, bind_eq_ok, require_eq_ok, orRaise_eq_ok, pure_eq_ok] at h
  obtain ⟨_, hlength, times, htimes, _, hconsecutive, last, hlast, opened, hopened, _, hboundary, heq⟩ := h
  obtain ⟨rfl, rfl⟩ := Prod.mk.inj heq
  have hsubset := List.drop_subset (closed.length - windowSize) closed
  have hlong : (closed.drop (closed.length - windowSize)).length = windowSize := by
    rw [List.length_drop]
    omega
  generalize closed.drop (closed.length - windowSize) = rows at hsubset hlong htimes hlast ⊢
  rw [times_eq fun bar hbar => hnonneg bar (hsubset hbar)] at htimes
  obtain rfl := Except.ok.inj htimes
  have hmem := List.mem_of_getLast? hlast
  rw [openedOf_eq (hnonneg last (hsubset hmem))] at hopened
  obtain rfl := Except.ok.inj hopened
  refine ⟨hsubset, hlong, hlast, hconsecutive, ?_⟩
  intro i bar hbar
  obtain ⟨first, hfirst⟩ : ∃ first, (rows.map Closed.openedAt).head? = some first := by
    cases rows with
    | nil => cases hlong
    | cons bar rows => exact ⟨bar.openedAt, rfl⟩
  have hplace := hconsecutive.getElem i bar.openedAt hfirst (by rw [List.getElem?_map, hbar]; rfl)
  have hend := hconsecutive.getElem 10 last.openedAt hfirst
    (by rw [List.getElem?_map]; rw [List.getLast?_eq_getElem?, hlong] at hlast; rw [show 10 = windowSize - 1 from rfl, hlast]; rfl)
  rw [← hboundary, hplace, hend]
  have hsize : (windowSize : ℤ) = 11 := rfl
  rw [hsize]
  push_cast
  ring

theorem readWindow_eq_ok {window : Fields} (h : readWindow env world = .ok window) :
    ∃ (found : Sampled) (payload : List Json) (raws : List (List Json)) (closed rows : List Closed) (final : Closed) (observedAt : String),
      sample env world = .ok found ∧ found.payload = .arr payload ∧ (∀ raw ∈ raws, .arr raw ∈ payload) ∧
      closedRows env found.server raws = .ok closed ∧ latest found.server closed = .ok (rows, final) ∧
      window = windowOf env payload found.server rows final observedAt := by
  simp only [readWindow, bind_eq_ok, orRaise_eq_ok, pure_eq_ok] at h
  obtain ⟨found, hfound, _, -, payload, hpayload, raws, hraws, closed, hclosed, ⟨rows, final⟩, hlatest, observedAt, -, rfl⟩ := h
  have hitems : ∀ {value : Json} {items : List Json}, value.items? = some items → value = .arr items := by
    intro value items hvalue
    cases value with
    | arr found =>
      obtain rfl := Option.some.inj hvalue
      rfl
    | _ => cases hvalue
  refine ⟨found, payload, raws, closed, rows, final, observedAt, hfound, hitems hpayload, ?_, hclosed, hlatest, rfl⟩
  intro raw hraw
  obtain ⟨row, hrow, hread⟩ := exists_of_mem_mapM hraws hraw
  rw [← hitems (orRaise_eq_ok.mp hread)]
  exact hrow

/-- Eleven bars that were finished when the candles were asked for, the last before the boundary. -/
def FinishedBars (env : Env) (world : World) (final : ℤ → Candle) (requested : ℕ → ℤ) (window : Fields) (rows : List Closed) : Prop :=
  ∃ n payload server, n ≤ 1 ∧ world.klines n = .ok (.arr payload) ∧ readTime env world (n + 1) = .ok server ∧
    window.at "serverTime" = .int server ∧ window.at "rawKlines" = .arr payload ∧ window.at "bars" = .arr (rows.map Closed.row) ∧
    rows.length = windowSize ∧ ∀ (i : ℕ) (bar : Closed), rows[i]? = some bar →
      bar.openedAt = server / intervalMilliseconds * intervalMilliseconds - (windowSize - i) * intervalMilliseconds ∧
      bar.openedAt + intervalMilliseconds ≤ requested n ∧ bar.candle = final bar.openedAt

variable {final : ℤ → Candle} {requested sampled : ℕ → ℤ}

theorem finished_of_readWindow (hofficial : Official env world final requested sampled) {window : Fields} (h : readWindow env world = .ok window) :
    ∃ (rows : List Closed) (last : Closed) (payload : List Json) (server : ℤ) (observedAt : String),
      window = windowOf env payload server rows last observedAt ∧ rows.getLast? = some last ∧ (∀ bar ∈ rows, 0 < bar.candle.closed.value) ∧
      Consecutive (rows.map Closed.openedAt) ∧ FinishedBars env world final requested window rows := by
  obtain ⟨found, payload, raws, closed, rows, last, observedAt, hfound, hpayload, hraws, hclosed, hlatest, rfl⟩ := readWindow_eq_ok h
  obtain ⟨n, before, hwithin⟩ := sample_eq_ok hfound
  have hanswer := hwithin.payload
  rw [hpayload] at hanswer
  have hnonneg : ∀ bar ∈ closed, 0 ≤ bar.openedAt := by
    intro bar hbar
    obtain ⟨raw, hraw, trades, hread, -⟩ := mem_closedRows hclosed hbar
    exact (hofficial.rows n payload raw _ trades hanswer (hraws raw hraw) hread).1
  obtain ⟨hsubset, hlength, hlast, hconsecutive, hplaces⟩ := latest_eq_ok hnonneg hlatest
  refine ⟨rows, last, payload, found.server, observedAt, rfl, hlast, ?_, hconsecutive, n, payload, found.server, hwithin.place, hanswer,
    hwithin.later, rfl, rfl, rfl, hlength, ?_⟩
  · intro bar hbar
    obtain ⟨raw, -, trades, -, hcandle, -⟩ := mem_closedRows hclosed (hsubset hbar)
    exact candleOf_pos hcandle
  intro i bar hbar
  have hplace := hplaces i bar hbar
  have hi : i < windowSize := by
    rw [← hlength]
    exact (List.getElem?_eq_some_iff.mp hbar).1
  -- the boundary is that of the interval in which the candles were asked for
  have hclosedBefore : bar.openedAt + intervalMilliseconds ≤ requested n := by
    have hrequested := hofficial.before n before hwithin.earlier
    have hboundary : found.server / intervalMilliseconds * intervalMilliseconds ≤ before := by
      rw [hwithin.same]
      exact Int.ediv_mul_le before (by decide)
    have hsize : (windowSize : ℤ) = 11 := rfl
    have hwide : intervalMilliseconds = 300000 := rfl
    have hi : i < 11 := hi
    rw [hsize, hwide] at hplace
    rw [hwide] at hboundary ⊢
    omega
  obtain ⟨raw, hraw, trades, hread, hcandle, -⟩ := mem_closedRows hclosed (hsubset (List.mem_of_getElem? hbar))
  have hfinal := (hofficial.rows n payload raw _ trades hanswer (hraws raw hraw) hread).2 (hclosedBefore.trans (hofficial.during n))
  rw [hcandle] at hfinal
  exact ⟨hplace, hclosedBefore, Except.ok.inj hfinal⟩

end LiveTrader.MovingAverage
