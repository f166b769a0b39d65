/-
# `CleanupTruth.Collect` — collecting a truth, and checking it

A truth holds the rows of every query with the server dates of its pages, and one entry for each owned order.  `validate_cleanup_truth`
makes the entries again from the rows.  `collect_cleanup_truth` reads the pages, and returns only what is valid.

`collect_cleanup_truth` asks for the working orders of each market and for the history of each venue and day, page by page, and returns the
truth after it was validated.  What the broker and the clock answer depends on how often they were asked before.
-/
import LiveTrader.CleanupTruth.Project
import Mathlib.Data.List.Sort

namespace LiveTrader.CleanupTruth

open Lib Lib.Py Lib.Decimal

section validate

variable (env : Env)

/-! ## Server dates -/

/-- A number that is an `int` or a `float`. -/
def elapsed? : Json → Option ℚ
  | .int n => some n
  | .float q => some q
  | _ => none

/-- The microseconds of `timedelta(seconds=…)`. -/
def micros (seconds : ℚ) : ℤ := roundHalfEven (seconds * 1000000)

/-- The page of an answer: its `Date` and `Age` headers, and when it was asked for and came. -/
structure PageDate where
  header : Json
  age : Json
  request : Json
  response : Json

/-- `value.isoformat()`, in the calendar. -/
def isoTime? (time : ℤ) : Option String :=
  if h : InCalendar time.toNat then some (Utc.ofMicros time.toNat h).isoformat else none

/-- The time of the server by a date, and the seconds of the round trip; with the texts of the earliest and the latest time it can be. -/
structure Server where
  time : ℤ
  trip : ℚ
  minimum : String
  maximum : String

/-- The earliest time of the server. -/
def earliest (time : ℤ) (trip : ℚ) : ℤ := time - micros trip

/-- The latest one: a date is cut to a second. -/
def latest (time : ℤ) (trip : ℚ) : ℤ := time + micros (1 + trip)

/-- The server by a date, unless a time leaves the calendar. -/
def serverOf (time : ℤ) (trip : ℚ) : Option Server := do
  let minimum ← isoTime? (earliest time trip)
  let maximum ← isoTime? (latest time trip)
  pure ⟨time, trip, minimum, maximum⟩

/-- What `_http_date_evidence` reads, where it is valid. -/
def PageDate.server (env : Env) (page : PageDate) : Option Server :=
  match page.header, page.age, elapsed? page.request, elapsed? page.response with
  | .str header, .str age, some request, some response =>
    if header.toList.length ≤ 80 ∧ age ∈ ["", "0"] ∧ 0 ≤ request ∧ request ≤ response ∧ response ≤ 15 then
      (env.httpDate header).bind fun time => serverOf time (response - request)
    else none
  | _, _, _, _ => none

/-- The role of the dates, and the schema of a page. -/
def PageDate.body (page : PageDate) : Fields :=
  [("schemaVersion", .str "kis-cleanup-http-date-page/v1"), ("dateHeader", page.header), ("ageHeader", page.age),
    ("requestElapsedSeconds", page.request), ("responseElapsedSeconds", page.response),
    ("clockRole", .str "HTTP_SERVER_CALENDAR_ONLY_NOT_BROKER_EVENT_OR_SETTLEMENT_CLOCK")]

/-- `_http_date_evidence`. -/
def httpDateEvidence (page : PageDate) : Fields :=
  match page.server env with
  | some server =>
    page.body ++ [("status", .str "VALID"), ("roundTripSeconds", .float server.trip), ("minimumServerUtc", .str server.minimum),
      ("maximumServerUtc", .str server.maximum)]
  | none => page.body ++ [("status", .str "UNVERIFIED"), ("reason", .str "HTTP_DATE_OR_AGE_UNVERIFIED")]

/-! ## Queries -/

/-- What identifies a query. -/
structure Scope where
  kind : String
  market : String
  venue : String
  orderDate : String
  deriving DecidableEq

/-- A query that was checked: its rows, and the pages they came on. -/
structure Query where
  scope : Scope
  rows : List Fields
  pages : List PageDate

/-- The path of a query. -/
def Scope.path (scope : Scope) : String :=
  "/uapi/" ++ (if scope.market = "KR" then "domestic" else "overseas") ++ "-stock/v1/trading/" ++
    if scope.kind = "WORKING" then if scope.market = "KR" then "inquire-psbl-rvsecncl" else "inquire-nccs"
    else if scope.market = "KR" then "inquire-daily-ccld" else "inquire-ccnl"

/-- The pages of a query, with the time of the last answer before and after it. -/
def readPages (bound : ℚ) : ℚ → List Json → Result (List PageDate × ℚ)
  | last, [] => pure ([], last)
  | last, evidence :: rest => do
    let d ← orRaise (cleanup "HTTP_DATE_PAGE_PROOF_INVALID") evidence.fields?
    let page : PageDate := ⟨d.at "dateHeader", d.at "ageHeader", d.at "requestElapsedSeconds", d.at "responseElapsedSeconds"⟩
    require (page.age.eq (.str "") = true ∨ page.age.eq (.str "0") = true) (cleanup "FRESH_GET_CACHE_AGE_UNVERIFIED")
    let request ← orRaise (cleanup "HTTP_DATE_PAGE_MONOTONIC_ORDER_INVALID") (elapsed? page.request)
    let response ← orRaise (cleanup "HTTP_DATE_PAGE_MONOTONIC_ORDER_INVALID") (elapsed? page.response)
    require (last ≤ request ∧ request ≤ response ∧ response ≤ bound) (cleanup "HTTP_DATE_PAGE_MONOTONIC_ORDER_INVALID")
    require (evidence.eq (.obj (httpDateEvidence env page)) = true) (cleanup "HTTP_DATE_PAGE_PROOF_INVALID")
    let others ← readPages bound response rest
    pure (page :: others.1, others.2)

/-- The entries that a query has. -/
def queryKeys : List String :=
  ["kind", "market", "venue", "orderDate", "path", "rows", "rawPageHashes", "pageCount", "rowCount", "paginationComplete", "httpDateEvidence"]

/-- The list of a query under a key. -/
def listOf (d : Fields) (key : String) : Result (List Json) := orRaise (cleanup "COMPLETE_BOUNDED_QUERY_REQUIRED") (d.at key).items?

/-- A name of a query. -/
def nameOf (d : Fields) (key : String) : Result String :=
  match d.at key with
  | .str name => pure name
  | _ => .error (cleanup "EXACT_QUERY_SET_REQUIRED")

/-- One query; a name of it that is no text is none of those that are asked for. -/
def readQuery (bound last : ℚ) (query : Json) : Result (Query × ℚ) := do
  let d ← orRaise (cleanup "QUERY_PROOF_FIELDS_INVALID") query.fields?
  require (HasKeys d queryKeys) (cleanup "QUERY_PROOF_FIELDS_INVALID")
  let kind ← nameOf d "kind"
  let market ← nameOf d "market"
  let venue ← nameOf d "venue"
  let orderDate ← nameOf d "orderDate"
  let scope : Scope := ⟨kind, market, venue, orderDate⟩
  let rows ← listOf d "rows"
  let hashes ← listOf d "rawPageHashes"
  let evidence ← listOf d "httpDateEvidence"
  let fields ← rows.mapM fun row => orRaise (cleanup "COMPLETE_BOUNDED_QUERY_REQUIRED") row.fields?
  require ((d.at "path").eq (.str scope.path) = true ∧ (d.at "paginationComplete").isTrue = true ∧ rows.length ≤ 128 ∧
    1 ≤ hashes.length ∧ hashes.length ≤ 20 ∧ (hashes.all fun hash => hash.isName && isHash (env.str hash)) = true ∧
    (d.at "pageCount").int? = some (hashes.length : ℤ) ∧ evidence.length = hashes.length ∧
    (d.at "rowCount").int? = some (rows.length : ℤ))
    (cleanup "COMPLETE_BOUNDED_QUERY_REQUIRED")
  let pages ← readPages env bound last evidence
  pure (⟨scope, fields, pages.1⟩, pages.2)

/-- The queries, one after another. -/
def readQueries (bound : ℚ) : ℚ → List Json → Result (List Query)
  | _, [] => pure []
  | last, query :: rest => do
    let read ← readQuery env bound last query
    let others ← readQueries bound read.2 rest
    pure (read.1 :: others)

/-- The list of the working orders of a market. -/
def workingScope (row : Owned) : Scope := ⟨"WORKING", row.market, if row.market = "KR" then "KRX" else "ALL_US", ""⟩

/-- The history of the venue and the day of an order. -/
def historyScope (row : Owned) : Scope := ⟨"HISTORY", row.market, row.venue, row.orderDate⟩

/-! ## Entries -/

/-- The queries of one kind that an order is looked up in. -/
def isFor (kind : String) (row : Owned) (query : Query) : Bool :=
  query.scope.kind = kind && query.scope.market = row.market &&
    (kind = "WORKING" || (query.scope.venue = row.venue && query.scope.orderDate = row.orderDate))

def queryRows (kind : String) (queries : List Query) (row : Owned) : Result (List Fields) :=
  match queries.filter (isFor kind row) with
  | [query] => pure query.rows
  | _ => .error (cleanup "EXACT_COMPLETE_QUERY_SCOPE_REQUIRED")

/-- `_project_all`, of one order. -/
def projectOne (scope : Fields) (queries : List Query) (observedAt : ℤ) (row : Owned) : Result Projection := do
  let working ← queryRows "WORKING" queries row
  let history ← queryRows "HISTORY" queries row
  project env row scope working history observedAt

/-- `_project_all`. -/
def projectAll (owned : List Owned) (scope : Fields) (queries : List Query) (observedAt : ℤ) : Result (List Projection) :=
  owned.mapM (projectOne env scope queries observedAt)

/-! ## Order days -/

/-- The queries whose server dates count for an order. -/
def countsFor (row : Owned) (query : Query) : Bool :=
  query.scope.market = row.market &&
    (query.scope.kind = "WORKING" || (query.scope.venue = row.venue && query.scope.orderDate = row.orderDate))

/-- `_timestamp`, of a text that was written here. -/
def timestamp (value : Json) : Result ℤ := orRaise (cleanup "INVALID_TIMESTAMP") (env.parseTime value)

/-- The server date of a page against the day of an order. -/
def checkPageDay (p : Projection) (started : ℤ) (page : PageDate) : Result Unit :=
  match page.server env with
  | none => require (p.standing ≠ .working) (cleanup "CURRENT_HTTP_SERVER_DAY_UNVERIFIED")
  | some server => do
    let lower ← timestamp env (.str server.minimum)
    let upper ← timestamp env (.str server.maximum)
    require (¬env.marketDate lower p.row.venue < p.row.orderDate) (cleanup "FUTURE_OFFICIAL_ORDER_DATE_VS_HTTP_SERVER")
    if p.standing = .working then do
      let request ← orRaise (cleanup "HTTP_DATE_PAGE_MONOTONIC_ORDER_INVALID") (elapsed? page.request)
      let response ← orRaise (cleanup "HTTP_DATE_PAGE_MONOTONIC_ORDER_INVALID") (elapsed? page.response)
      require (-15000000 ≤ server.time - (started + micros response) ∧ server.time + 1000000 - (started + micros request) ≤ 15000000)
        (cleanup "HTTP_SERVER_LOCAL_CLOCK_SKEW_UNVERIFIED")
      require (p.row.orderDate = env.marketDate lower p.row.venue ∧ p.row.orderDate = env.marketDate upper p.row.venue)
        (cleanup "CURRENT_MARKET_DAY_REQUIRED")
    else pure ()

/-- `_check_order_days`, of one order; its entry is the one that was made again. -/
def checkOrderDay (queries : List Query) (started current : ℤ) (p : Projection) : Result Unit := do
  require (¬env.marketDate started p.row.venue < p.row.orderDate ∧ ¬env.marketDate current p.row.venue < p.row.orderDate)
    (cleanup "FUTURE_OFFICIAL_ORDER_DATE")
  require (p.standing = .working →
    p.row.orderDate = env.marketDate started p.row.venue ∧ p.row.orderDate = env.marketDate current p.row.venue)
    (cleanup "CURRENT_MARKET_DAY_REQUIRED")
  let _ ← ((queries.filter (countsFor p.row)).flatMap Query.pages).mapM (checkPageDay env p started)
  pure ()

/-! ## `validate_cleanup_truth` -/

/-- The entries that a truth has. -/
def truthKeys : List String :=
  ["schemaVersion", "observedAt", "completedAt", "durationSeconds", "accountFingerprint", "credentialConfigurationHash", "nativeScope",
    "nativeScopeHash", "ownedOrdersHash", "paginationComplete", "queries", "rawResponseHash", "orderAuthorityGranted", "orders", "proofHash"]

/-- The seal of a truth, and the times of its reading. -/
structure Times where
  started : ℤ
  bound : ℚ

def checkSeal (truth : Fields) : Result Unit :=
  require (HasKeys truth truthKeys ∧ (truth.at "schemaVersion").eq (.str "kis-scoped-cleanup-truth/v1") = true ∧
    (truth.at "proofHash").eq (.str (env.sha256 (.obj (without truth ["proofHash"])))) = true ∧
    (truth.at "orderAuthorityGranted").isFalse = true ∧ (truth.at "paginationComplete").isTrue = true)
    (cleanup "TRUTH_SCHEMA_OR_HASH_INVALID")

/-- The reading took no longer than it may, and is no older. -/
def checkTimes (truth : Fields) (current : ℤ) (maxAge : ℚ) : Result Times := do
  let started ← timestamp env (truth.at "observedAt")
  let finished ← timestamp env (truth.at "completedAt")
  let elapsed ← orRaise (cleanup "READ_STALE_OR_CLOCK_CHANGED") (elapsed? (truth.at "durationSeconds"))
  require (0 ≤ elapsed ∧ elapsed ≤ maxAge ∧ started ≤ finished ∧ ((finished - started : ℤ) : ℚ) ≤ maxAge * 1000000 ∧ started ≤ current ∧
    ((current - started : ℤ) : ℚ) ≤ maxAge * 1000000 ∧ finished ≤ current) (cleanup "READ_STALE_OR_CLOCK_CHANGED")
  pure ⟨started, elapsed⟩

/-- The owned set and its scope are those of the truth. -/
def checkSet (truth scope : Fields) (orders : Json) : Result Unit :=
  require ((truth.at "ownedOrdersHash").eq (.str (env.sha256 orders)) = true ∧
    (truth.at "nativeScopeHash").eq (scope.at "scopeHash") = true ∧
    (truth.at "accountFingerprint").eq (scope.at "accountFingerprint") = true ∧
    (truth.at "credentialConfigurationHash").eq (scope.at "credentialConfigurationHash") = true)
    (cleanup "CURRENT_OWNED_SET_OR_SCOPE_CHANGED")

/-- There is one query for each list that is needed, and no other. -/
def checkQuerySet (owned : List Owned) (queries : List Query) : Result Unit :=
  require ((queries.map Query.scope).Nodup ∧
    (∀ query ∈ queries, query.scope ∈ owned.map workingScope ++ owned.map historyScope) ∧
    ∀ scope ∈ owned.map workingScope ++ owned.map historyScope, scope ∈ queries.map Query.scope) (cleanup "EXACT_QUERY_SET_REQUIRED")

/-- `validate_cleanup_truth`, with what it found on the way. -/
structure Accepted where
  owned : List Owned
  queries : List Query
  projections : List Projection
  started : ℤ

def validateCleanupTruth (truth orders : Json) (current : ℤ) (maxAge : ℚ) : Result Accepted := do
  require (0 < maxAge ∧ maxAge ≤ 15) (cleanup "FRESHNESS_BOUND_INVALID")
  let d ← orRaise (cleanup "TRUTH_SCHEMA_OR_HASH_INVALID") truth.fields?
  checkSeal env d
  let times ← checkTimes env d current maxAge
  let owned ← ownedOrders env orders (d.at "nativeScope")
  let scope ← (d.at "nativeScope").fields
  checkSet env d scope orders
  let rows ← orRaise (cleanup "RAW_RESPONSE_HASH_INVALID") (d.at "queries").items?
  require (2 ≤ rows.length ∧ rows.length ≤ 66 ∧ (d.at "rawResponseHash").eq (.str (env.sha256 (d.at "queries"))) = true)
    (cleanup "RAW_RESPONSE_HASH_INVALID")
  let queries ← readQueries env times.bound 0 rows
  checkQuerySet owned queries
  let projections ← projectAll env owned scope queries times.started
  require ((d.at "orders").eq (.arr (projections.map fun p => .obj (p.entry env))) = true) (cleanup "OFFICIAL_ORDER_PROJECTION_CHANGED")
  let _ ← projections.mapM (checkOrderDay env queries times.started current)
  pure ⟨owned, queries, projections, times.started⟩

end validate

/-! ## Reading the pages of the broker -/

/-- A GET. -/
structure Request where
  path : String
  parameters : Fields
  continuation : String

/-- The runtime that is asked, and the clocks. -/
structure Source where
  scope : Json
  /-- The scope and the account when they are read once more. -/
  scopeAgain : Json
  account : Fields
  accountAgain : Fields
  /-- `split_kis_account`. -/
  accountNumber : String × String
  get : ℕ → Request → Result (Json × Fields)
  /-- The elapsed seconds, at each reading of the clock. -/
  clock : ℕ → Json
  started : Utc
  finished : Utc

section collect

variable (env : Env) (source : Source)

/-- `budget()`. -/
def budget (n : ℕ) : Result Json := do
  let elapsed ← orRaise (cleanup "READ_STALE_OR_CLOCK_CHANGED") (elapsed? (source.clock n))
  require (0 ≤ elapsed ∧ elapsed ≤ 15) (cleanup "READ_STALE_OR_CLOCK_CHANGED")
  pure (source.clock n)

/-- Header names in lower case, and stripped values. -/
def headersOf (headers : Fields) : Fields := headers.map fun entry => (lower entry.1, .str (strip (env.str entry.2)))

/-- A header, or nothing. -/
def headerAt (headers : Fields) (key : String) : String := env.toCodec.text (headers.at key)

/-- What the pages of a query have brought so far. -/
structure Read where
  rows : List Fields
  hashes : List String
  pages : List PageDate

/-- The end of the pages of a query, or the context of the next one. -/
inductive Turn where
  | done
  | more (fk nk : String)

/-- One page. -/
def readPage (n : ℕ) (path : String) (parameters : Fields) (context output : String) (first : Bool) (fk nk : String) (read : Read) :
    Result (Read × Turn) := do
  let request ← budget source (2 * n)
  let answer ← source.get n
    { path
      parameters := [("CANO", .str source.accountNumber.1), ("ACNT_PRDT_CD", .str source.accountNumber.2)] ++ parameters ++
        [("CTX_AREA_FK" ++ context, .str fk), ("CTX_AREA_NK" ++ context, .str nk)]
      continuation := if first then "" else "N" }
  let response ← budget source (2 * n + 1)
  let headers := headersOf env answer.2
  require (headerAt env headers "age" ∈ ["", "0"]) (cleanup "FRESH_GET_CACHE_AGE_UNVERIFIED")
  let payload ← orRaise (cleanup "OFFICIAL_GET_REJECTED") answer.1.fields?
  require (env.str (payload.at "rt_cd") = "0") (cleanup "OFFICIAL_GET_REJECTED")
  let page ← orRaise (cleanup "INVALID_OFFICIAL_PAGE") (payload.at output).items?
  let rows ← page.mapM fun row => orRaise (cleanup "INVALID_OFFICIAL_PAGE") row.fields?
  require ((read.rows ++ rows).length ≤ 128) (cleanup "OFFICIAL_ROW_BOUND_EXCEEDED")
  let continuation := upper (headerAt env headers "tr_cont")
  require (continuation ∈ ["", "D", "E", "F", "M"]) (cleanup "UNKNOWN_CONTINUATION")
  let hash := env.sha256 (.obj [("payload", .obj payload), ("continuation", .str (headerAt env headers "tr_cont")),
    ("date", .str (headerAt env headers "date")), ("age", .str (headerAt env headers "age"))])
  let date : PageDate := ⟨.str (headerAt env headers "date"), .str (headerAt env headers "age"), request, response⟩
  pure (⟨read.rows ++ rows, read.hashes ++ [hash], read.pages ++ [date]⟩,
    if continuation ∈ ["F", "M"] then .more (env.toCodec.text (payload.at ("ctx_area_fk" ++ context)))
      (env.toCodec.text (payload.at ("ctx_area_nk" ++ context))) else .done)

/-- `_pages`, with the number of the next GET. -/
def pagesFrom (path : String) (parameters : Fields) (context output : String) :
    ℕ → ℕ → Bool → String → String → List (String × String) → Read → Result (Read × ℕ)
  | 0, _, _, _, _, _, _ => .error (cleanup "PAGE_BOUND_EXCEEDED")
  | fuel + 1, n, first, fk, nk, seen, read => do
    let turned ← readPage env source n path parameters context output first fk nk read
    match turned.2 with
    | .done => pure (turned.1, n + 1)
    | .more fk nk => do
      require (¬(fk = "" ∧ nk = "") ∧ (fk, nk) ∉ seen) (cleanup "INCOMPLETE_OR_REPEATED_PAGINATION")
      pagesFrom path parameters context output fuel (n + 1) false fk nk (seen ++ [(fk, nk)]) turned.1

/-- The parameters of a query. -/
def Scope.parameters (scope : Scope) : Fields :=
  if scope.kind = "WORKING" then
    if scope.market = "KR" then [("INQR_DVSN_1", .str "0"), ("INQR_DVSN_2", .str "0")]
    else [("OVRS_EXCG_CD", .str "NASD"), ("SORT_SQN", .str "DS")]
  else if scope.market = "KR" then
    [("INQR_STRT_DT", .str scope.orderDate), ("INQR_END_DT", .str scope.orderDate), ("SLL_BUY_DVSN_CD", .str "00"), ("INQR_DVSN", .str "00"),
      ("PDNO", .str ""), ("CCLD_DVSN", .str "00"), ("ORD_GNO_BRNO", .str ""), ("ODNO", .str ""), ("INQR_DVSN_3", .str "00"),
      ("INQR_DVSN_1", .str ""), ("INQR_DVSN_2", .str ""), ("EXCG_ID_DVSN_CD", .str "KRX")]
  else
    [("PDNO", .str "%"), ("ORD_STRT_DT", .str scope.orderDate), ("ORD_END_DT", .str scope.orderDate), ("SLL_BUY_DVSN", .str "00"),
      ("CCLD_NCCS_DVSN", .str "00"), ("OVRS_EXCG_CD", .str scope.venue), ("SORT_SQN", .str "DS"), ("ORD_DT", .str ""),
      ("ORD_GNO_BRNO", .str ""), ("ODNO", .str "")]

/-- The context of a market's pages. -/
def Scope.context (scope : Scope) : String := if scope.market = "KR" then "100" else "200"

/-- Where the rows of a page are. -/
def Scope.output (scope : Scope) : String := if scope.kind = "HISTORY" ∧ scope.market = "KR" then "output1" else "output"

/-- A query of the truth. -/
def queryOf (scope : Scope) (read : Read) : Json :=
  .obj [("kind", .str scope.kind), ("market", .str scope.market), ("venue", .str scope.venue), ("orderDate", .str scope.orderDate),
    ("path", .str scope.path), ("rows", .arr (read.rows.map .obj)), ("rawPageHashes", .arr (read.hashes.map .str)),
    ("pageCount", .int read.hashes.length), ("rowCount", .int read.rows.length), ("paginationComplete", .bool true),
    ("httpDateEvidence", .arr (read.pages.map fun page => .obj (httpDateEvidence env page)))]

/-- The queries, one after another, with the number of GETs. -/
def askAll : ℕ → List Scope → Result (List (Scope × Read) × ℕ)
  | n, [] => pure ([], n)
  | n, scope :: scopes => do
    let read ← pagesFrom env source scope.path scope.parameters scope.context scope.output 20 n true "" "" [] ⟨[], [], []⟩
    let others ← askAll read.2 scopes
    pure ((scope, read.1) :: others.1, others.2)

/-- The order in which venues and days are asked for. -/
def dayLE (a b : String × String) : Prop := a.1 < b.1 ∨ (a.1 = b.1 ∧ a.2 ≤ b.2)

instance : DecidableRel dayLE := fun _ _ => inferInstanceAs (Decidable (_ ∨ _))

/-- The lists that are asked for: those of the markets, then those of the venues and days. -/
def asked (owned : List Owned) : List Scope :=
  ((["KR", "US"].filter fun market => market ∈ owned.map Owned.market).map fun market =>
      (⟨"WORKING", market, if market = "KR" then "KRX" else "ALL_US", ""⟩ : Scope)) ++
    (((owned.map fun row : Owned => (row.venue, row.orderDate)).dedup.insertionSort dayLE).map fun day =>
      (⟨"HISTORY", if day.1 = "KRX" then "KR" else "US", day.1, day.2⟩ : Scope))

/-- `collect_cleanup_truth`. -/
def collectCleanupTruth (orders : Json) : Result Json := do
  let owned ← ownedOrders env orders source.scope
  let scope ← source.scope.fields
  require ((source.account.at "accountFingerprint").eq (scope.at "accountFingerprint") = true ∧
    (source.account.at "credentialConfigurationHash").eq (scope.at "credentialConfigurationHash") = true)
    (cleanup "CURRENT_ACCOUNT_SCOPE_CHANGED")
  require (∀ row ∈ owned, ¬env.marketDate source.started.micros row.venue < row.orderDate) (cleanup "FUTURE_OFFICIAL_ORDER_DATE")
  let read ← askAll env source 0 (asked owned)
  require (source.scopeAgain.eq source.scope = true ∧ (Json.obj source.accountAgain).eq (.obj source.account) = true)
    (cleanup "SCOPE_CHANGED_DURING_GET")
  let projections ← projectAll env owned scope (read.1.map fun query => ⟨query.1, query.2.rows, query.2.pages⟩) source.started.micros
  let queries : Json := .arr (read.1.map fun query => queryOf env query.1 query.2)
  let body : Fields :=
    [("schemaVersion", .str "kis-scoped-cleanup-truth/v1"), ("observedAt", .str source.started.isoformat),
      ("completedAt", .str source.finished.isoformat), ("durationSeconds", source.clock (2 * read.2)),
      ("accountFingerprint", scope.at "accountFingerprint"), ("credentialConfigurationHash", scope.at "credentialConfigurationHash"),
      ("nativeScope", source.scope), ("nativeScopeHash", scope.at "scopeHash"), ("ownedOrdersHash", .str (env.sha256 orders)),
      ("paginationComplete", .bool true), ("queries", queries), ("rawResponseHash", .str (env.sha256 queries)),
      ("orderAuthorityGranted", .bool false), ("orders", .arr (projections.map fun p => .obj (p.entry env)))]
  let truth := body ++ [("proofHash", .str (env.sha256 (.obj body)))]
  let _ ← validateCleanupTruth env (.obj truth) orders source.finished.micros 15
  pure (.obj truth)

end collect

end LiveTrader.CleanupTruth
