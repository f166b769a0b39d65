/-
# `MovingAverage.Crossover` — two evaluators of the crossover, on eleven finished bars

`read_window` reads the time of the exchange, the last candles, and the time once more; when a candle has closed in between it asks for the
candles again, and for the time a third time.  A time is a number of milliseconds.  What the exchange answers is a function of the number of
the call.

The evaluators of Binance and of Upbit check their windows each in its own way, and take the same steps on the closes: four sums and four
quotients in the decimal context of 28 digits.  The published contract is an answer of its reader, which may be that something has changed.

A sum of ten closes on a common grid is exact in the context, and so is its tenth.  The third of a sum is rounded, by less than the distance
that two different averages have (`averageOf_compare`), so the averages cross where the exact ones do.
-/
import LiveTrader.Lib.DecimalFormat

namespace LiveTrader.MovingAverage

open Lib Lib.Py Lib.Decimal

/-- The functions of the language. -/
structure Env where
  /-- `str` on a value that is not a text. -/
  repr : Json → String
  /-- `int(value)`. -/
  int : Json → Option ℤ
  /-- `_iso_from_milliseconds`. -/
  iso : ℤ → Option String
  /-- `_stable_hash`. -/
  hash : Json → String

def failed (msg : String) : Error := .value msg

section read

variable (env : Env)

/-- `Decimal(str(value))`, where it is finite. -/
def Env.decimal? : Json → Option Dec
  | .str text =>
    match Py.decimal? text with
    | some (.finite d) => some d
    | _ => none
  | value =>
    match Py.decimal? (env.repr value) with
    | some (.finite d) => some d
    | _ => none

/-- `_decimal(value, label=label)`. -/
def decimalOf (value : Json) (label : String) : Result Dec := do
  let d ← orRaise (failed ("Binance sealed evaluator " ++ label ++ " is invalid")) (env.decimal? value)
  require (0 < d.value) (failed ("Binance sealed evaluator " ++ label ++ " is invalid"))
  pure d

/-- `_text(value)`. -/
def textOf (value : Json) : String := value.text env.repr

/-! ## Ids of bars -/

def symbolName : String := "BTCUSDT"
def intervalName : String := "5m"
def intervalMilliseconds : ℤ := 300000
def windowSize : ℕ := 11
def fetchLimit : ℤ := 13

/-- `int(MAX_SERVER_CLOCK_SKEW_SECONDS * 1000)`. -/
def maxSkew : ℤ := 15000

/-- The id of a bar. -/
def barIdOf (opened : ℤ) : String := symbolName ++ "-" ++ intervalName ++ "-" ++ Int.repr opened

/-- What follows the last dash. -/
def lastPart (text : String) : List Char := (text.toList.reverse.takeWhile (· ≠ '-')).reverse

/-- `int(text.rsplit("-", 1)[1])`, of digits. -/
def idOpened (text : String) : Option ℤ :=
  if lastPart text ≠ [] ∧ (lastPart text).all Char.isDigit = true then some (Nat.ofDigitChars 10 (lastPart text) 0) else none

/-! ## The exchange -/

/-- What is answered to the calls, and the local clock. -/
structure World where
  time : ℕ → Result Json
  klines : ℕ → Result Json
  clock : ℚ

variable (world : World)

/-- What is raised when an answer is not a mapping. -/
def malformedTime : ℕ → Error
  | 0 => failed "Binance official server-time response is malformed"
  | 1 => failed "Binance official post-kline server-time response is malformed"
  | _ => failed "Binance boundary confirmation is unavailable"

/-- What is raised when a time is not a number. -/
def invalidTime : ℕ → Error
  | 0 => failed "Binance official server time is invalid"
  | 1 => failed "Binance official post-kline server time is invalid"
  | _ => failed "Binance boundary confirmation is invalid"

/-- `client.get(BINANCE_SPOT_TIME_ENDPOINT, {})`, read. -/
def readTime (n : ℕ) : Result ℤ := do
  let answer ← world.time n
  let fields ← orRaise (malformedTime n) answer.fields?
  orRaise (invalidTime n) (env.int (fields.at "serverTime"))

/-- The time of the exchange is near the local one. -/
def checkSkew (server : ℤ) (message : String) : Result Unit :=
  require (|truncZ (world.clock * 1000) - server| ≤ maxSkew) (failed message)

/-- The candles, and the time after them. -/
structure Sampled where
  payload : Json
  server : ℤ

/-- The candles once more, within one interval. -/
def refetch (post : ℤ) : Result Sampled := do
  let payload ← world.klines 1
  let confirmed ← readTime env world 2
  require (post ≤ confirmed ∧ confirmed / intervalMilliseconds = post / intervalMilliseconds)
    (failed "Binance 5-minute boundary moved twice; retry without evaluation")
  pure ⟨payload, confirmed⟩

/-- The candles of one interval. -/
def sample : Result Sampled := do
  let server ← readTime env world 0
  require (0 < server) (failed "Binance official server time is stale or locally skewed")
  checkSkew world server "Binance official server time is stale or locally skewed"
  let payload ← world.klines 0
  let post ← readTime env world 1
  require (server ≤ post) (failed "Binance official server time moved backwards")
  if post / intervalMilliseconds = server / intervalMilliseconds then pure ⟨payload, post⟩ else refetch env world post

/-! ## Rows -/

/-- What a row says of its interval. -/
structure Candle where
  opened : Dec
  high : Dec
  low : Dec
  closed : Dec
  volume : Dec
  tradeCount : ℤ
  deriving DecidableEq

/-- `raw[i]`. -/
def cell (raw : List Json) (i : ℕ) : Json := raw[i]?.getD .null

/-- The values of a row. -/
def candleOf (raw : List Json) (tradeCount : ℤ) : Result Candle := do
  let opened ← decimalOf env (cell raw 1) "open"
  let high ← decimalOf env (cell raw 2) "high"
  let low ← decimalOf env (cell raw 3) "low"
  let closed ← decimalOf env (cell raw 4) "close"
  let volume ← decimalOf env (cell raw 5) "volume"
  require (max opened.value closed.value ≤ high.value ∧ low.value ≤ min opened.value closed.value ∧ low.value ≤ high.value)
    (failed "Binance official kline OHLC relation is invalid")
  require (0 ≤ tradeCount) (failed "Binance official kline trade count is invalid")
  pure ⟨opened, high, low, closed, volume, tradeCount⟩

/-- A finished bar, with its opening time. -/
structure Closed where
  openedAt : ℤ
  openTime : String
  barCloseAt : String
  candle : Candle

/-- The fields of the row of a bar. -/
def Closed.fields (bar : Closed) : Fields :=
  [("barId", .str (barIdOf bar.openedAt)), ("openTime", .str bar.openTime), ("barCloseAt", .str bar.barCloseAt),
    ("open", .str bar.candle.opened.fixed), ("high", .str bar.candle.high.fixed), ("low", .str bar.candle.low.fixed),
    ("close", .str bar.candle.closed.fixed), ("volume", .str bar.candle.volume.fixed), ("tradeCount", .int bar.candle.tradeCount),
    ("finalized", .bool true), ("closed", .bool true)]

/-- The row of a bar. -/
def Closed.row (bar : Closed) : Json := .obj bar.fields

/-- `_iso_from_milliseconds(value)`. -/
def isoOf (value : ℤ) : Result String := orRaise (.value "timestamp out of range") (env.iso value)

/-- A finished bar of a row that has closed. -/
def closedRow (raw : List Json) (openedAt tradeCount : ℤ) : Result Closed := do
  let candle ← candleOf env raw tradeCount
  let openTime ← isoOf env openedAt
  let barCloseAt ← isoOf env (openedAt + intervalMilliseconds)
  pure ⟨openedAt, openTime, barCloseAt, candle⟩

/-- The opening time of a row, which is on the grid, and the number of its trades. -/
def readRow (raw : List Json) : Result (ℤ × ℤ) := do
  require (12 ≤ raw.length) (failed "Binance official kline row is incomplete")
  let opened ← orRaise (failed "Binance official kline identity is invalid") (env.int (cell raw 0))
  let closed ← orRaise (failed "Binance official kline identity is invalid") (env.int (cell raw 6))
  let trades ← orRaise (failed "Binance official kline identity is invalid") (env.int (cell raw 8))
  require (opened % intervalMilliseconds = 0 ∧ closed = opened + intervalMilliseconds - 1) (failed "Binance official kline boundary changed")
  pure (opened, trades)

/-- The rows that have closed. -/
def closedRows (server : ℤ) : List (List Json) → Result (List Closed)
  | [] => pure []
  | raw :: rows => do
    let found ← readRow env raw
    if server ≤ found.1 + intervalMilliseconds - 1 then closedRows server rows
    else do
      let bar ← closedRow env raw found.1 found.2
      let bars ← closedRows server rows
      pure (bar :: bars)

/-! ## The window -/

/-- The opening time that the id of a bar says. -/
def openedOf (bar : Closed) : Result ℤ := orRaise (.value "invalid literal for int()") (idOpened (barIdOf bar.openedAt))

/-- Each opens an interval after the one before. -/
def Consecutive : List ℤ → Prop
  | [] => True
  | [_] => True
  | opened :: next :: rest => next - opened = intervalMilliseconds ∧ Consecutive (next :: rest)

instance decidableConsecutive : (times : List ℤ) → Decidable (Consecutive times)
  | [] => isTrue trivial
  | [_] => isTrue trivial
  | _ :: next :: rest => @instDecidableAnd _ _ inferInstance (decidableConsecutive (next :: rest))

/-- The last bars, without a gap up to the last boundary. -/
def latest (server : ℤ) (closed : List Closed) : Result (List Closed × Closed) := do
  require (windowSize ≤ closed.length) (failed "Binance official finalized 5-minute history is incomplete")
  let rows := closed.drop (closed.length - windowSize)
  let times ← rows.mapM openedOf
  require (Consecutive times) (failed "Binance official finalized kline window has a gap")
  let final ← orRaise (.value "list index out of range") rows.getLast?
  let opened ← openedOf final
  require (opened + intervalMilliseconds = server / intervalMilliseconds * intervalMilliseconds)
    (failed "Binance official finalized kline window is not the latest closed bar")
  pure (rows, final)

/-- The window that is returned. -/
def windowOf (payload : List Json) (server : ℤ) (rows : List Closed) (final : Closed) (observedAt : String) : Fields :=
  [("schemaVersion", .str "binance-spot-official-finalized-5m-window-v1"), ("symbol", .str symbolName), ("interval", .str intervalName),
    ("source", .str "BINANCE_SPOT_KLINE"), ("finalized", .bool true), ("closed", .bool true), ("barId", .str (barIdOf final.openedAt)),
    ("barCloseAt", .str final.barCloseAt), ("observedAt", .str observedAt), ("serverTime", .int server), ("rawKlines", .arr payload),
    ("rawKlinesHash", .str (env.hash (.obj [("rows", .arr payload)]))),
    ("klineRequest", .obj [("endpoint", .str "/api/v3/klines"),
      ("query", .obj [("symbol", .str symbolName), ("interval", .str intervalName), ("limit", .int fetchLimit)])]),
    ("bars", .arr (rows.map Closed.row))]

/-- `read_window`. -/
def readWindow : Result Fields := do
  let sampled ← sample env world
  checkSkew world sampled.server "Binance post-kline server time is locally skewed"
  let payload ← orRaise (failed "Binance official kline response is malformed") sampled.payload.items?
  let raws ← payload.mapM fun row => orRaise (failed "Binance official kline response is malformed") row.items?
  let closed ← closedRows env sampled.server raws
  let found ← latest sampled.server closed
  let observedAt ← isoOf env sampled.server
  pure (windowOf env payload sampled.server found.1 found.2 observedAt)

end read

/-! ## The signal -/

inductive Signal where
  | buy
  | sell
  | hold
  deriving DecidableEq, Repr

/-- The sums over the last three and the last ten closes, before the last close and with it. -/
structure Averages where
  previousShort : ℚ
  previousLong : ℚ
  currentShort : ℚ
  currentLong : ℚ

/-- The short average crosses the long one. -/
def Averages.signal (a : Averages) : Signal :=
  if a.previousShort ≤ a.previousLong ∧ a.currentLong < a.currentShort then .buy
  else if a.previousLong ≤ a.previousShort ∧ a.currentShort < a.currentLong then .sell
  else .hold

/-- `closes[-n - 1:-1]`. -/
def beforeLast (n : ℕ) (closes : List ℚ) : List ℚ := closes.dropLast.drop (closes.dropLast.length - n)

/-- `closes[-n:]`. -/
def lastOf (n : ℕ) (closes : List ℚ) : List ℚ := closes.drop (closes.length - n)

/-- `sum(closes, Decimal("0")) / Decimal(n)`. -/
def averageOf (n : ℚ) (closes : List ℚ) : ℚ := ctx 28 (ctxSum 28 closes / n)

/-- The averages as they are computed. -/
def averages (closes : List ℚ) : Averages :=
  ⟨averageOf 3 (beforeLast 3 closes), averageOf 10 (beforeLast 10 closes), averageOf 3 (lastOf 3 closes), averageOf 10 (lastOf 10 closes)⟩

/-! ## Binance -/

/-- `_FORBIDDEN_SIGNAL_FIELDS`. -/
def forbidden : List String := ["signal", "naturalSignal", "forced", "forcedSignal", "manualSignal", "signalOverrideUsed", "evaluationId"]

/-- No field is a signal of the caller. -/
def NoSignal (fields : List String) (d : Fields) : Prop := ∀ field ∈ fields, field ∉ d.map Prod.fst

instance (fields : List String) (d : Fields) : Decidable (NoSignal fields d) := inferInstanceAs (Decidable (∀ _ ∈ _, _))

/-- `_SAFE_BAR_ID`. -/
def isBarId (text : String) : Bool :=
  "BTCUSDT-5m-".toList.isPrefixOf text.toList && 10 ≤ (text.toList.drop 11).length && (text.toList.drop 11).length ≤ 16 &&
    (text.toList.drop 11).all Char.isDigit

section evaluate

variable (env : Env)

/-- The opening time and the close of a row. -/
def readBar (row : Fields) : Result (ℤ × ℚ) := do
  require (NoSignal forbidden row) (failed "Binance sealed evaluator rejects caller signal fields")
  require (isBarId (textOf env (row.at "barId")) = true ∧ (row.at "finalized").isTrue = true ∧ (row.at "closed").isTrue = true)
    (failed "Binance sealed evaluator bar identity changed")
  let opened ← orRaise (.value "invalid literal for int()") (idOpened (textOf env (row.at "barId")))
  let closed ← decimalOf env (row.at "close") "close"
  pure (opened, closed.value)

/-- What is evaluated. -/
structure Evaluation where
  signal : Signal
  windowHash : String
  evaluationId : String

/-- The names and the flags of a window. -/
def checkContract (window : Fields) : Result Unit :=
  require (textOf env (window.at "schemaVersion") = "binance-spot-official-finalized-5m-window-v1" ∧
    upper (textOf env (window.at "symbol")) = symbolName ∧ textOf env (window.at "interval") = intervalName ∧
    upper (textOf env (window.at "source")) = "BINANCE_SPOT_KLINE" ∧ (window.at "finalized").isTrue = true ∧
    (window.at "closed").isTrue = true) (failed "Binance sealed evaluator official window contract changed")

/-- The rows of a window. -/
def rowsOf (window : Fields) : Result (List Fields) := do
  let items ← orRaise (failed "Binance sealed evaluator requires an exact 11-bar window") (window.at "bars").items?
  require (items.length = windowSize) (failed "Binance sealed evaluator requires an exact 11-bar window")
  items.mapM fun row => orRaise (failed "Binance sealed evaluator requires an exact 11-bar window") row.fields?

/-- What the published contract is bound to. -/
structure Selection where
  strategyArtifactHash : String
  strategyInstanceHash : String

/-- `SealedBinanceSpotMovingAverageEvaluator.evaluate`. -/
def evaluate (selection : Result Selection) (window : Fields) : Result Evaluation := do
  require (NoSignal forbidden window) (failed "Binance sealed evaluator rejects caller signal fields")
  checkContract env window
  let rows ← rowsOf window
  let bars ← rows.mapM (readBar env)
  require (Consecutive (bars.map Prod.fst)) (failed "Binance sealed evaluator bar window is not contiguous")
  let final ← orRaise (.value "list index out of range") rows.getLast?
  require (textOf env (window.at "barId") = textOf env (final.at "barId") ∧
    textOf env (window.at "barCloseAt") = textOf env (final.at "barCloseAt")) (failed "Binance sealed evaluator final bar identity changed")
  let binding ← selection
  let windowHash := env.hash (.obj window)
  let evaluation := env.hash (.obj [("windowHash", .str windowHash), ("strategyArtifactHash", .str binding.strategyArtifactHash),
    ("strategyInstanceHash", .str binding.strategyInstanceHash)])
  pure ⟨(averages (bars.map Prod.snd)).signal, windowHash, "binance-ma-eval-" ++ String.ofList (evaluation.toList.take 32)⟩

/-! ## Upbit -/

/-- `_FORBIDDEN_SIGNAL_FIELDS`, of Upbit. -/
def upbitForbidden : List String := ["signal", "naturalSignal", "forcedSignal", "manualSignal", "signalOverrideUsed", "evaluationId"]

/-- `_SAFE_ID_RE`. -/
def isSafeId (text : String) : Bool :=
  8 ≤ text.toList.length && text.toList.length ≤ 160 &&
    text.toList.all fun c => ('A' ≤ c && c ≤ 'Z') || ('a' ≤ c && c ≤ 'z') || ('0' ≤ c && c ≤ '9') || c ∈ ['.', '_', ':', '-']

/-- `_utc`, in microseconds. -/
structure UtcEnv extends Env where
  utc : Json → Option ℤ

variable (utcEnv : UtcEnv)

/-- `_utc(value, label)`. -/
def utcOf (value : Json) (label : String) : Result ℤ := orRaise (.value ("upbit-evaluator-" ++ label ++ "-invalid")) (utcEnv.utc value)

/-- `_decimal(value, label)`, of Upbit. -/
def upbitDecimal (value : Json) (label : String) : Result Dec := do
  let d ← orRaise (.value ("upbit-evaluator-" ++ label ++ "-invalid")) (utcEnv.toEnv.decimal? value)
  require (0 < d.value) (.value ("upbit-evaluator-" ++ label ++ "-invalid"))
  pure d

/-- A row of Upbit, with its id, the time of its close and the close. -/
structure UpbitBar where
  id : String
  closedAt : ℤ
  closed : ℚ

/-- The row of a bar that closed on the grid of five minutes. -/
def readUpbitBar (row : Fields) : Result UpbitBar := do
  require (NoSignal upbitForbidden row) (.value "upbit-evaluator-caller-signal-forbidden")
  let closedAt ← utcOf utcEnv (row.at "closedAt") "bar-closed-at"
  require (isSafeId (textOf utcEnv.toEnv (row.at "barId")) = true ∧ (row.at "finalized").isTrue = true ∧ (row.at "closed").isTrue = true ∧
    closedAt % 300000000 = 0) (.value "upbit-evaluator-bar-contract-invalid")
  let closed ← upbitDecimal utcEnv (row.at "close") "close"
  pure ⟨textOf utcEnv.toEnv (row.at "barId"), closedAt, closed.value⟩

/-- Each closes five minutes after the one before. -/
def FiveMinutes : List ℤ → Prop
  | [] => True
  | [_] => True
  | closed :: next :: rest => next - closed = 300000000 ∧ FiveMinutes (next :: rest)

instance decidableFiveMinutes : (times : List ℤ) → Decidable (FiveMinutes times)
  | [] => isTrue trivial
  | [_] => isTrue trivial
  | _ :: next :: rest => @instDecidableAnd _ _ inferInstance (decidableFiveMinutes (next :: rest))

/-- The names and the flags of a window of Upbit. -/
def checkUpbitContract (window : Fields) : Result Unit :=
  require (textOf utcEnv.toEnv (window.at "schemaVersion") = "upbit-official-finalized-5m-window-v1" ∧
    upper (textOf utcEnv.toEnv (window.at "symbol")) = "KRW-BTC" ∧ lower (textOf utcEnv.toEnv (window.at "interval")) = "5m" ∧
    upper (textOf utcEnv.toEnv (window.at "source")) ∈ ["UPBIT_WEBSOCKET", "UPBIT_REST"] ∧ (window.at "finalized").isTrue = true ∧
    (window.at "closed").isTrue = true) (.value "upbit-evaluator-official-window-contract-invalid")

/-- The rows of a window of Upbit. -/
def upbitRowsOf (window : Fields) : Result (List Fields) := do
  let items ← orRaise (.value "upbit-evaluator-history-window-incomplete") (window.at "bars").items?
  require (items.length = 11) (.value "upbit-evaluator-history-window-incomplete")
  items.mapM fun row => orRaise (.value "upbit-evaluator-history-window-incomplete") row.fields?

/-- `SealedUpbitMovingAverageEvaluator.evaluate`. -/
def upbitEvaluate (selection : Result Selection) (clock : Json) (window : Fields) : Result Evaluation := do
  require (NoSignal upbitForbidden window) (.value "upbit-evaluator-caller-signal-forbidden")
  checkUpbitContract utcEnv window
  let scope ← selection
  let rows ← upbitRowsOf window
  let bars ← rows.mapM (readUpbitBar utcEnv)
  require (FiveMinutes (bars.map UpbitBar.closedAt)) (.value "upbit-evaluator-window-not-contiguous")
  let now ← utcOf utcEnv clock "current-time"
  let final ← orRaise (.value "list index out of range") bars.getLast?
  require (final.closedAt ≤ now ∧ now - final.closedAt ≤ 600000000) (.value "upbit-evaluator-final-bar-stale-or-future")
  let closedAt ← utcOf utcEnv (window.at "closedAt") "window-closed-at"
  require (textOf utcEnv.toEnv (window.at "barId") = final.id ∧ closedAt = final.closedAt)
    (.value "upbit-evaluator-final-bar-identity-mismatch")
  let windowHash := utcEnv.hash (.obj window)
  let evaluation := utcEnv.hash (.obj [("windowHash", .str windowHash), ("strategyArtifactHash", .str scope.strategyArtifactHash),
    ("strategyInstanceHash", .str scope.strategyInstanceHash)])
  pure ⟨(averages (bars.map UpbitBar.closed)).signal, windowHash, "upbit-ma-eval-" ++ String.ofList (evaluation.toList.take 32)⟩

end evaluate

/-! ## The signal of rounded averages -/

/-- The averages as they are. -/
def exactAverages (closes : List ℚ) : Averages :=
  ⟨(beforeLast 3 closes).sum / 3, (beforeLast 10 closes).sum / 10, (lastOf 3 closes).sum / 3, (lastOf 10 closes).sum / 10⟩

/-- Positive closes of a common grid, of at most twenty digits on it. -/
def TwentyDigits (k : ℕ) (closes : List ℚ) : Prop := ∀ x ∈ closes, OnGrid k x ∧ 0 < x ∧ x * 10 ^ k < 10 ^ 20

variable {k : ℕ} {closes l : List ℚ}

theorem TwentyDigits.mono (h : TwentyDigits k closes) (hsub : l ⊆ closes) : TwentyDigits k l := fun x hx => h x (hsub hx)

/-! ## Sums -/

theorem TwentyDigits.sum_bounds (h : TwentyDigits k l) : 0 ≤ l.sum ∧ l.sum * 10 ^ k ≤ l.length * 10 ^ 20 := by
  induction l with
  | nil => simp
  | cons x l ih =>
    obtain ⟨hnonneg, hle⟩ := ih (h.mono (List.subset_cons_self x l))
    obtain ⟨-, hpos, hx⟩ := h x List.mem_cons_self
    rw [List.sum_cons, List.length_cons]
    push_cast
    exact ⟨by linarith, by linarith⟩

theorem absSum_eq_sum (h : ∀ x ∈ l, 0 < x) : absSum l = l.sum := by
  rw [absSum]
  congr 1
  refine (List.map_congr_left fun x hx => ?_).trans (List.map_id l)
  exact abs_of_pos (h x hx)

/-- A sum of a few closes is exact. -/
theorem TwentyDigits.ctxSum_eq (h : TwentyDigits k l) (hlength : l.length ≤ 10) : ctxSum 28 l = l.sum := by
  refine ctxSum_of_onGrid (fun x hx => (h x hx).1) ?_
  rw [absSum_eq_sum fun x hx => (h x hx).2.1]
  have hcast : (l.length : ℚ) ≤ 10 := by exact_mod_cast hlength
  have hbound := h.sum_bounds.2
  linarith

theorem TwentyDigits.sum_onGrid (h : TwentyDigits k l) : OnGrid k l.sum := OnGrid.list_sum fun x hx => (h x hx).1

/-- The long average is exact. -/
theorem TwentyDigits.average_ten (h : TwentyDigits k l) (hlength : l.length ≤ 10) : averageOf 10 l = l.sum / 10 := by
  rw [averageOf, h.ctxSum_eq hlength]
  obtain ⟨n, hn⟩ := h.sum_onGrid
  obtain ⟨hnonneg, hbound⟩ := h.sum_bounds
  have hcast : (l.length : ℚ) ≤ 10 := by exact_mod_cast hlength
  have hscaled : l.sum / 10 * 10 ^ (k + 1) = l.sum * 10 ^ k := by
    rw [pow_succ]
    ring
  refine ctx_of_onGrid (k := k + 1) ⟨n, hscaled.trans hn⟩ ?_
  rw [abs_of_nonneg (by linarith), hscaled]
  linarith

/-! ## Comparisons -/

/-- Two averages that differ are a thirtieth of the grid apart. -/
theorem averages_apart {a b : ℚ} (ha : OnGrid k a) (hb : OnGrid k b) (hne : a / 3 ≠ b / 10) : 1 ≤ |a / 3 - b / 10| * (30 * 10 ^ k) := by
  obtain ⟨m, hm⟩ := ha
  obtain ⟨n, hn⟩ := hb
  have hscale : (a / 3 - b / 10) * (30 * 10 ^ k) = ((10 * m - 3 * n : ℤ) : ℚ) := by
    push_cast
    rw [← hm, ← hn]
    ring
  have hnonzero : 10 * m - 3 * n ≠ 0 := by
    intro hzero
    rw [hzero, Int.cast_zero] at hscale
    rcases mul_eq_zero.mp hscale with hsame | hten
    · exact hne (sub_eq_zero.mp hsame)
    · exact absurd hten (by positivity)
  have hpos : (0 : ℚ) < 30 * 10 ^ k := by positivity
  rw [← abs_of_pos hpos, ← abs_mul, hscale, ← Int.cast_abs]
  exact_mod_cast Int.one_le_abs hnonzero

/-- The computed averages compare as the exact ones. -/
theorem averageOf_compare {short long : List ℚ} (hshort : TwentyDigits k short) (hlong : TwentyDigits k long) (hthree : short.length ≤ 3)
    (hten : long.length ≤ 10) :
    (averageOf 3 short ≤ averageOf 10 long ↔ short.sum / 3 ≤ long.sum / 10) ∧
    (averageOf 10 long ≤ averageOf 3 short ↔ long.sum / 10 ≤ short.sum / 3) := by
  have hfits : Fits 28 (long.sum / 10) := by
    rw [← hlong.average_ten hten]
    exact fits_ctx (by norm_num) _
  rw [hlong.average_ten hten, averageOf, hshort.ctxSum_eq (by omega)]
  refine ctx_compare hfits ?_
  intro hne
  have hapart := averages_apart hshort.sum_onGrid hlong.sum_onGrid hne
  obtain ⟨hnonneg, hbound⟩ := hshort.sum_bounds
  have hcast : (short.length : ℚ) ≤ 3 := by exact_mod_cast hthree
  have hpos : (0 : ℚ) < 10 ^ k := by positivity
  rw [abs_of_nonneg (by linarith : 0 ≤ short.sum / 3)]
  -- on the grid the average is below 10^20, so it is rounded by less than 10^(-7)
  have hsmall : short.sum / 3 * (10 : ℚ) ^ (1 - ((28 : ℕ) : ℤ)) * (30 * 10 ^ k) < 1 := by
    have hthird : short.sum / 3 * 10 ^ k ≤ 10 ^ 20 := by linarith
    have hpow : (10 : ℚ) ^ (1 - ((28 : ℕ) : ℤ)) = 1 / 10 ^ 27 := by norm_num
    rw [hpow]
    calc short.sum / 3 * (1 / 10 ^ 27) * (30 * 10 ^ k) = short.sum / 3 * 10 ^ k * (30 / 10 ^ 27) := by ring
      _ ≤ 10 ^ 20 * (30 / 10 ^ 27) := mul_le_mul_of_nonneg_right hthird (by norm_num)
      _ < 1 := by norm_num
  have hscaled : (0 : ℚ) < 30 * 10 ^ k := by positivity
  exact lt_of_mul_lt_mul_right (hsmall.trans_le hapart) hscaled.le

/-! ## The signal -/

theorem beforeLast_subset (n : ℕ) (closes : List ℚ) : beforeLast n closes ⊆ closes :=
  fun _ hx => List.dropLast_subset _ (List.drop_subset _ _ hx)

theorem lastOf_subset (n : ℕ) (closes : List ℚ) : lastOf n closes ⊆ closes := List.drop_subset _ _

theorem length_beforeLast (n : ℕ) (closes : List ℚ) : (beforeLast n closes).length ≤ n := by
  rw [beforeLast, List.length_drop]
  omega

theorem length_lastOf (n : ℕ) (closes : List ℚ) : (lastOf n closes).length ≤ n := by
  rw [lastOf, List.length_drop]
  omega

/-- The signal is that of the exact averages. -/
theorem signal_exact (h : TwentyDigits k closes) : (averages closes).signal = (exactAverages closes).signal := by
  obtain ⟨hpreviousLe, hpreviousGe⟩ := averageOf_compare (h.mono (beforeLast_subset 3 closes)) (h.mono (beforeLast_subset 10 closes))
    (length_beforeLast 3 closes) (length_beforeLast 10 closes)
  obtain ⟨hcurrentLe, hcurrentGe⟩ := averageOf_compare (h.mono (lastOf_subset 3 closes)) (h.mono (lastOf_subset 10 closes))
    (length_lastOf 3 closes) (length_lastOf 10 closes)
  simp only [Averages.signal, averages, exactAverages, ← not_le, hpreviousLe, hpreviousGe, hcurrentLe, hcurrentGe]

end LiveTrader.MovingAverage
