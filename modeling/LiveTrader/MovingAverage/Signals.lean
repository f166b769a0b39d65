/-
# `MovingAverage.Signals` — natural signals come from the last finished bars

The row of a finished bar is read back with the opening time and the close that were written (`readBar_fields`).  So the evaluator returns on
each window of the reader, and its signal is that of the closes, which the evaluator of Upbit gives for the same closes.

What the reader returns, what the evaluator makes of it, and the evaluator of Upbit on the same closes.  The averages are rounded to 28 digits,
so that they cross where the exact ones do for closes of a common grid; a last close far below the others is lost in the sums.
-/
import LiveTrader.Lib.FixedText
import LiveTrader.Lib.JsonText
import LiveTrader.MovingAverage.Finished

namespace LiveTrader.MovingAverage

open Lib Lib.Py Lib.Decimal

variable {env : Env} {world : World}

/-! ## Closes -/

/-- The closes of a window, as numbers. -/
def Closes (env : Env) (window : Fields) (closes : List ℚ) : Prop :=
  ∃ rows : List Fields, window.at "bars" = .arr (rows.map .obj) ∧
    List.Forall₂ (fun row x => ∃ d, env.decimal? (row.at "close") = some d ∧ d.value = x) rows closes

theorem mapM_fields (rows : List Fields) (e : Error) : (rows.map Json.obj).mapM (fun row => orRaise e row.fields?) = .ok rows := by
  refine mapM_eq_ok.mpr (List.forall₂_map_left_iff.mpr (List.forall₂_same.mpr ?_))
  intro row _
  rfl

theorem map_eq_of_reads {Bar : Type} {read : Fields → Result Bar} {close : Bar → ℚ} {rows : List Fields} {bars : List Bar} {closes : List ℚ}
    (hread : ∀ row bar, read row = .ok bar → ∃ d, env.decimal? (row.at "close") = some d ∧ d.value = close bar)
    (hcloses : List.Forall₂ (fun row x => ∃ d, env.decimal? (row.at "close") = some d ∧ d.value = x) rows closes)
    (hbars : rows.mapM read = .ok bars) : bars.map close = closes := by
  rw [mapM_eq_ok] at hbars
  induction hbars generalizing closes with
  | nil =>
    cases hcloses
    rfl
  | @cons row bar rows bars hbar _ ih =>
    cases hcloses with
    | cons hclose hcloses =>
      obtain ⟨d, hd, rfl⟩ := hclose
      obtain ⟨d', hd', hvalue⟩ := hread row bar hbar
      rw [hd] at hd'
      obtain rfl := Option.some.inj hd'
      rw [List.map_cons, ih hcloses, hvalue]

theorem readBar_close {row : Fields} {bar : ℤ × ℚ} (h : readBar env row = .ok bar) :
    ∃ d, env.decimal? (row.at "close") = some d ∧ d.value = bar.2 := by
  simp only [readBar, decimalOf, bind_eq_ok, require_eq_ok, orRaise_eq_ok, pure_eq_ok] at h
  obtain ⟨_, -, _, -, opened, -, d, ⟨found, hfound, _, -, rfl⟩, rfl⟩ := h
  exact ⟨found, hfound, rfl⟩

theorem readUpbitBar_close {utcEnv : UtcEnv} {row : Fields} {bar : UpbitBar} (h : readUpbitBar utcEnv row = .ok bar) :
    ∃ d, utcEnv.toEnv.decimal? (row.at "close") = some d ∧ d.value = bar.closed := by
  simp only [readUpbitBar, upbitDecimal, bind_eq_ok, require_eq_ok, orRaise_eq_ok, pure_eq_ok] at h
  obtain ⟨_, -, closedAt, -, _, -, d, ⟨found, hfound, _, -, rfl⟩, rfl⟩ := h
  exact ⟨found, hfound, rfl⟩

theorem evaluate_signal {selection : Result Selection} {window : Fields} {e : Evaluation} {closes : List ℚ}
    (h : evaluate env selection window = .ok e) (hcloses : Closes env window closes) : e.signal = (averages closes).signal := by
  obtain ⟨found, hfound, hvalues⟩ := hcloses
  simp only [evaluate, rowsOf, bind_eq_ok, orRaise_eq_ok, pure_eq_ok] at h
  obtain ⟨_, -, _, -, rows, ⟨items, hitems, _, -, hrows⟩, bars, hbars, _, -, last, -, _, -, binding, -, rfl⟩ := h
  rw [hfound] at hitems
  obtain rfl := Option.some.inj hitems
  rw [mapM_fields] at hrows
  obtain rfl := Except.ok.inj hrows
  show (averages (bars.map Prod.snd)).signal = _
  rw [map_eq_of_reads (fun row bar => readBar_close) hvalues hbars]

/-- The signal of Upbit is that of the closes. -/
theorem upbitEvaluate_signal {utcEnv : UtcEnv} {selection : Result Selection} {clock : Json} {window : Fields} {e : Evaluation}
    {closes : List ℚ} (h : upbitEvaluate utcEnv selection clock window = .ok e) (hcloses : Closes utcEnv.toEnv window closes) :
    e.signal = (averages closes).signal := by
  obtain ⟨found, hfound, hvalues⟩ := hcloses
  simp only [upbitEvaluate, upbitRowsOf, bind_eq_ok, orRaise_eq_ok, pure_eq_ok] at h
  obtain ⟨_, -, _, -, scope, -, rows, ⟨items, hitems, _, -, hrows⟩, bars, hbars, _, -, now, -, last, -, _, -, closedAt, -, _, -, rfl⟩ := h
  rw [hfound] at hitems
  obtain rfl := Option.some.inj hitems
  rw [mapM_fields] at hrows
  obtain rfl := Except.ok.inj hrows
  show (averages (bars.map UpbitBar.closed)).signal = _
  rw [map_eq_of_reads (fun row bar => readUpbitBar_close) hvalues hbars]

/-! ## Rows of finished bars -/

theorem strip_barIdOf {opened : ℤ} (h : 0 ≤ opened) : strip (barIdOf opened) = barIdOf opened := by
  have hdigits : Nat.toDigits 10 opened.natAbs ≠ [] := Nat.toDigits_ne_nil
  have htrimmed : Trimmed (barIdOf opened).toList := by
    rw [barIdOf_toList h]
    constructor
    · intro c hc
      obtain rfl := Option.some.inj hc
      rfl
    · intro c hc
      rw [List.getLast?_append_of_ne_nil _ hdigits] at hc
      exact (plain_of_isDigit (isDigit_toDigits (List.mem_of_mem_getLast? hc))).1
  rw [strip, trim_of_trimmed htrimmed, String.ofList_toList]

/-- A time of ten to sixteen digits has an id. -/
theorem isBarId_barIdOf {opened : ℤ} (hlow : 10 ^ 9 ≤ opened) (hhigh : opened < 10 ^ 16) : isBarId (barIdOf opened) = true := by
  have hnonneg : 0 ≤ opened := by omega
  have hdrop : (barIdOf opened).toList.drop 11 = Nat.toDigits 10 opened.natAbs := by
    rw [barIdOf_toList hnonneg]
    exact List.drop_left' (by decide)
  have hlong : 10 ≤ (Nat.toDigits 10 opened.natAbs).length := by
    by_contra hshort
    have hnine : (Nat.toDigits 10 opened.natAbs).length ≤ 9 := by omega
    have hsmall := (Nat.length_toDigits_le_iff (by decide) (by decide)).mp hnine
    omega
  have hshort : (Nat.toDigits 10 opened.natAbs).length ≤ 16 := by
    refine (Nat.length_toDigits_le_iff (by decide) (by decide)).mpr ?_
    omega
  have hall : (Nat.toDigits 10 opened.natAbs).all Char.isDigit = true := List.all_eq_true.mpr fun c hc => isDigit_toDigits hc
  have hname : "BTCUSDT-5m-".toList.isPrefixOf (barIdOf opened).toList = true := by
    rw [barIdOf_toList hnonneg]
    exact List.isPrefixOf_iff_prefix.mpr (List.prefix_append _ _)
  rw [isBarId, hdrop, hname, hall, decide_eq_true hlong, decide_eq_true hshort]
  rfl

theorem decimal?_fixed_str (env : Env) (d : Dec) : ∃ d', env.decimal? (.str d.fixed) = some d' ∧ d'.value = d.value := by
  obtain ⟨d', hread, hvalue⟩ := decimal?_fixed d
  exact ⟨d', by rw [Env.decimal?, hread], hvalue⟩

/-- The row of a bar is read back. -/
theorem readBar_fields {bar : Closed} (hlow : 10 ^ 9 ≤ bar.openedAt) (hhigh : bar.openedAt < 10 ^ 16) (hpos : 0 < bar.candle.closed.value) :
    readBar env bar.fields = .ok (bar.openedAt, bar.candle.closed.value) := by
  have hnonneg : 0 ≤ bar.openedAt := by omega
  have hid : textOf env (bar.fields.at "barId") = barIdOf bar.openedAt := strip_barIdOf hnonneg
  obtain ⟨d, hd, hvalue⟩ := decimal?_fixed_str env bar.candle.closed
  have hclose : bar.fields.at "close" = .str bar.candle.closed.fixed := rfl
  have hsignal : NoSignal forbidden bar.fields := by
    intro field hfield
    have hnames : bar.fields.map Prod.fst = ["barId", "openTime", "barCloseAt", "open", "high", "low", "close", "volume", "tradeCount",
      "finalized", "closed"] := rfl
    rw [hnames]
    revert field
    decide
  simp only [readBar, decimalOf, bind_eq_ok, require_eq_ok, orRaise_eq_ok, pure_eq_ok, hid, hclose]
  refine ⟨(), hsignal, (), ⟨isBarId_barIdOf hlow hhigh, rfl, rfl⟩, bar.openedAt, idOpened_barIdOf hnonneg, d, ⟨d, hd, (), ?_, rfl⟩, ?_⟩
  · rw [hvalue]
    exact hpos
  · rw [hvalue]

/-- The closes of a window that is returned are those of its bars. -/
theorem closes_windowOf (env : Env) (payload : List Json) (server : ℤ) (rows : List Closed) (last : Closed) (observedAt : String) :
    Closes env (windowOf env payload server rows last observedAt) (rows.map fun bar => bar.candle.closed.value) := by
  refine ⟨rows.map Closed.fields, ?_, ?_⟩
  · rw [List.map_map]
    rfl
  · refine List.forall₂_map_left_iff.mpr (List.forall₂_map_right_iff.mpr (List.forall₂_same.mpr ?_))
    intro bar _
    exact decimal?_fixed_str env bar.candle.closed

/-- The evaluator returns on the window of its reader. -/
theorem evaluate_windowOf {payload : List Json} {server : ℤ} {rows : List Closed} {last : Closed} {observedAt : String}
    (hlength : rows.length = windowSize) (hlast : rows.getLast? = some last) (hconsecutive : Consecutive (rows.map Closed.openedAt))
    (htimes : ∀ bar ∈ rows, 10 ^ 9 ≤ bar.openedAt ∧ bar.openedAt < 10 ^ 16) (hpos : ∀ bar ∈ rows, 0 < bar.candle.closed.value)
    (binding : Selection) : ∃ e, evaluate env (.ok binding) (windowOf env payload server rows last observedAt) = .ok e := by
  have hread : (rows.map Closed.fields).mapM (readBar env) = .ok (rows.map fun bar => (bar.openedAt, bar.candle.closed.value)) := by
    refine mapM_eq_ok.mpr (List.forall₂_map_left_iff.mpr (List.forall₂_map_right_iff.mpr (List.forall₂_same.mpr ?_)))
    intro bar hbar
    exact readBar_fields (htimes bar hbar).1 (htimes bar hbar).2 (hpos bar hbar)
  have hrows : rowsOf (windowOf env payload server rows last observedAt) = .ok (rows.map Closed.fields) := by
    have hitems : (windowOf env payload server rows last observedAt).at "bars" = .arr ((rows.map Closed.fields).map .obj) := by
      rw [List.map_map]
      rfl
    simp only [rowsOf, hitems, bind_eq_ok, require_eq_ok, orRaise_eq_ok]
    refine ⟨_, rfl, (), ?_, mapM_fields _ _⟩
    rw [List.length_map, List.length_map, hlength]
  have hsignal : NoSignal forbidden (windowOf env payload server rows last observedAt) := by
    intro field hfield
    have hnames : (windowOf env payload server rows last observedAt).map Prod.fst = ["schemaVersion", "symbol", "interval", "source",
      "finalized", "closed", "barId", "barCloseAt", "observedAt", "serverTime", "rawKlines", "rawKlinesHash", "klineRequest", "bars"] := rfl
    rw [hnames]
    revert field
    decide
  have hcontract : checkContract env (windowOf env payload server rows last observedAt) = .ok () := by
    refine require_eq_ok.mpr ⟨?_, ?_, ?_, ?_, rfl, rfl⟩
    · show strip "binance-spot-official-finalized-5m-window-v1" = _
      decide
    · show upper (strip symbolName) = _
      decide
    · show strip intervalName = _
      decide
    · show upper (strip "BINANCE_SPOT_KLINE") = _
      decide
  simp only [evaluate, bind_eq_ok, require_eq_ok, orRaise_eq_ok, pure_eq_ok]
  refine ⟨_, (), hsignal, (), hcontract, _, hrows, _, hread, (), ?_, last.fields, ?_, (), ⟨rfl, rfl⟩, binding, rfl, rfl⟩
  · rw [List.map_map]
    exact hconsecutive
  · rw [List.getLast?_map, hlast]
    rfl

end LiveTrader.MovingAverage

namespace LiveTrader.MovingAverage

open Lib Lib.Py Lib.Decimal

/-! ## Natural signals come from the last finished bars -/

variable {env : Env} {world : World} {final : ℤ → Candle} {requested sampled : ℕ → ℤ}

/-- The closes of bars. -/
def closesOf (rows : List Closed) : List ℚ := rows.map fun bar => bar.candle.closed.value

/-- **Natural signals come from the last finished bars.**  The bars of a window had closed when its candles were asked for.  The evaluator
returns on it, with the crossover of the exact averages, and the evaluator of Upbit gives the same signal for the same closes. -/
theorem natural_signals_of_finished_bars (hofficial : Official env world final requested sampled) {window : Fields}
    (h : readWindow env world = .ok window) :
    ∃ rows : List Closed, FinishedBars env world final requested window rows ∧
      (∀ (server : ℤ) (binding : Selection), window.at "serverTime" = .int server → 10 ^ 10 ≤ server → server < 10 ^ 16 →
        ∃ e, evaluate env (.ok binding) window = .ok e) ∧
      ∀ (selection : Result Selection) (e : Evaluation), evaluate env selection window = .ok e →
        (∀ k, TwentyDigits k (closesOf rows) → e.signal = (exactAverages (closesOf rows)).signal) ∧
        ∀ (utcEnv : UtcEnv) (upbitSelection : Result Selection) (clock : Json) (upbitWindow : Fields) (e' : Evaluation),
          Closes utcEnv.toEnv upbitWindow (closesOf rows) → upbitEvaluate utcEnv upbitSelection clock upbitWindow = .ok e' →
          e'.signal = e.signal := by
  obtain ⟨rows, last, payload, server, observedAt, rfl, hlast, hpos, hconsecutive, hfinished⟩ := finished_of_readWindow hofficial h
  have hcloses := closes_windowOf env payload server rows last observedAt
  refine ⟨rows, hfinished, ?_, ?_⟩
  · intro found binding hserver hlow hhigh
    obtain rfl : server = found := Json.int.inj hserver
    obtain ⟨n, payload', server', -, -, -, hserver', -, -, hlength, hplaces⟩ := hfinished
    obtain rfl : server = server' := Json.int.inj hserver'
    refine evaluate_windowOf hlength hlast hconsecutive ?_ hpos binding
    intro bar hbar
    obtain ⟨i, hi⟩ := List.mem_iff_getElem?.mp hbar
    have hplace := (hplaces i bar hi).1
    have hsize : (windowSize : ℤ) = 11 := rfl
    have hwide : intervalMilliseconds = 300000 := rfl
    have hshort := (List.getElem?_eq_some_iff.mp hi).1
    have heleven : rows.length = 11 := hlength
    rw [hsize, hwide] at hplace
    omega
  · intro selection e he
    have hsignal := evaluate_signal he hcloses
    refine ⟨?_, ?_⟩
    · intro k hdigits
      rw [hsignal]
      exact signal_exact hdigits
    · intro utcEnv upbitSelection clock upbitWindow e' hupbit he'
      rw [upbitEvaluate_signal he' hupbit]
      exact hsignal.symm

/-! ## A boundary between the calls -/

/-- A time of milliseconds, as the reader writes it. -/
def sampleIso (time : ℤ) : Option String :=
  let micros := (time + 719163 * 86400000).toNat * 1000
  if h : InCalendar micros then
    let t := Utc.ofMicros micros h
    some (String.ofList (zeroPad 4 t.year ++ '-' :: (zeroPad 2 t.month ++ '-' :: (zeroPad 2 t.day ++ 'T' :: (zeroPad 2 t.hour ++
      ':' :: (zeroPad 2 t.minute ++ ':' :: (zeroPad 2 t.second ++ '.' :: (zeroPad 3 (t.microsecond / 1000) ++ ['Z']))))))))
  else none

/-- `int` on a whole number. -/
def sampleInt : Json → Option ℤ
  | .int n => some n
  | _ => none

def sampleEnv : Env where
  repr := Json.sealText
  int := sampleInt
  iso := sampleIso
  hash := Json.sealText

/-- The boundary that passes while the candles are asked for the first time. -/
def sampleBoundary : ℤ := 1767226200000

/-- The row of a candle in which the price does not move. -/
def sampleRow (opened : ℤ) (price : Dec) : List Json :=
  [.int opened, .str price.fixed, .str price.fixed, .str price.fixed, .str price.fixed, .str "1", .int (opened + 299999), .str "1", .int 5,
    .str "1", .str "1", .str "0"]

/-- The prices of thirteen candles, with the one before the window and the one that is open. -/
def samplePrices (closes : List Dec) : List Dec := ⟨false, 1, 0⟩ :: (closes ++ [⟨false, 1, 0⟩])

def sampleOpened (i : ℕ) : ℤ := sampleBoundary - 3600000 + 300000 * i

def sampleRows (closes : List Dec) : List (List Json) := (samplePrices closes).mapIdx fun i price => sampleRow (sampleOpened i) price

/-- The calls are ten milliseconds apart; the boundary is between the first two. -/
def sampleWorld (closes : List Dec) : World where
  time n := .ok (.obj [("serverTime", .int (sampleBoundary - 5 + 10 * n))])
  klines _ := .ok (.arr ((sampleRows closes).map .arr))
  clock := 1767226200

def sampleRequested (n : ℕ) : ℤ := sampleBoundary - 2 + 10 * n
def sampleSampled (n : ℕ) : ℤ := sampleBoundary + 2 + 10 * n

/-- The candles as they were when they closed. -/
def sampleFinal (closes : List Dec) (opened : ℤ) : Candle :=
  let price := (samplePrices closes).getD ((opened - sampleOpened 0) / 300000).toNat ⟨false, 1, 0⟩
  ⟨price, price, price, price, ⟨false, 1, 0⟩, 5⟩

/-- The rows say what the candles are. -/
def RowsAreTrue (closes : List Dec) : Prop :=
  ∀ raw ∈ sampleRows closes, ∃ found, readRow sampleEnv raw = .ok found ∧ 0 ≤ found.1 ∧
    ∃ candle, candleOf sampleEnv raw found.2 = .ok candle ∧ candle = sampleFinal closes found.1

instance (closes : List Dec) : Decidable (RowsAreTrue closes) := inferInstanceAs (Decidable (∀ _ ∈ _, _))

theorem official_sample {closes : List Dec} (h : RowsAreTrue closes) :
    Official sampleEnv (sampleWorld closes) (sampleFinal closes) sampleRequested sampleSampled := by
  refine ⟨?_, ?_, ?_, ?_⟩
  · intro n time htime
    obtain rfl : sampleBoundary - 5 + 10 * n = time := Except.ok.inj htime
    rw [sampleRequested]
    omega
  · intro n
    rw [sampleRequested, sampleSampled]
    omega
  · intro n time htime
    obtain rfl : sampleBoundary - 5 + 10 * ((n + 1 : ℕ) : ℤ) = time := Except.ok.inj htime
    rw [sampleSampled]
    push_cast
    omega
  · intro n payload raw opened trades hpayload hraw hread
    obtain rfl : (sampleRows closes).map .arr = payload := Json.arr.inj (Except.ok.inj hpayload)
    obtain ⟨found, hfound, heq⟩ := List.mem_map.mp hraw
    obtain rfl := Json.arr.inj heq
    obtain ⟨place, hplace, hnonneg, candle, hcandle, rfl⟩ := h found hfound
    rw [hread] at hplace
    obtain rfl := Except.ok.inj hplace
    exact ⟨hnonneg, fun _ => hcandle⟩

def sampleSelection : Selection := ⟨"artifact", "instance"⟩

/-- Eleven closes of five digits and two places. -/
def sampleCloses : List Dec :=
  [⟨false, 9000000, -2⟩, ⟨false, 8990050, -2⟩, ⟨false, 8980025, -2⟩, ⟨false, 8970000, -2⟩, ⟨false, 8965075, -2⟩, ⟨false, 8960000, -2⟩,
    ⟨false, 8955010, -2⟩, ⟨false, 8950000, -2⟩, ⟨false, 8945000, -2⟩, ⟨false, 8940099, -2⟩, ⟨false, 9500001, -2⟩]

/-- The boundary passes while the candles are asked for, and the last close lifts the short average over the long one. -/
theorem natural_signals_of_finished_bars_sample :
    ∃ window, readWindow sampleEnv (sampleWorld sampleCloses) = .ok window ∧ ∃ e, evaluate sampleEnv (.ok sampleSelection) window = .ok e ∧
      e.signal = .buy ∧ ∃ rows, FinishedBars sampleEnv (sampleWorld sampleCloses) (sampleFinal sampleCloses) sampleRequested window rows := by
  have hevaluated : ∃ window, readWindow sampleEnv (sampleWorld sampleCloses) = .ok window ∧
      ∃ e, evaluate sampleEnv (.ok sampleSelection) window = .ok e ∧ e.signal = .buy := by decide +kernel
  have hrows : RowsAreTrue sampleCloses := by decide +kernel
  obtain ⟨window, hwindow, e, he, hsignal⟩ := hevaluated
  obtain ⟨rows, hfinished, -⟩ := natural_signals_of_finished_bars (official_sample hrows) hwindow
  exact ⟨window, hwindow, e, he, hsignal, rows, hfinished⟩

/-! ## A close that is lost -/

/-- Eleven closes of at most three significant digits, the last of them far below the others. -/
def steepCloses : List Dec :=
  ⟨false, 40000000000, 0⟩ :: (List.replicate 7 ⟨false, 10000000000, 0⟩ ++ [⟨false, 15000000000, 0⟩, ⟨false, 15000000000, 0⟩, ⟨false, 1, -20⟩])

/-- The exact averages cross, and the signal is to hold. -/
theorem crossing_below_precision_is_held :
    Official sampleEnv (sampleWorld steepCloses) (sampleFinal steepCloses) sampleRequested sampleSampled ∧
    (∀ d ∈ steepCloses, d.coeff < 10 ^ 20) ∧ (exactAverages (steepCloses.map Dec.value)).signal = .buy ∧
    ∃ window, readWindow sampleEnv (sampleWorld steepCloses) = .ok window ∧
      (∃ rows, rowsOf window = .ok rows ∧ rows.map (fun row => sampleEnv.decimal? (row.at "close")) = steepCloses.map some) ∧
      ∃ e, evaluate sampleEnv (.ok sampleSelection) window = .ok e ∧ e.signal = .hold := by
  have hrows : RowsAreTrue steepCloses := by decide +kernel
  refine ⟨official_sample hrows, by decide +kernel, by decide +kernel, ?_⟩
  decide +kernel

end LiveTrader.MovingAverage
