/-
# `CleanupTruth.Sound` — no order is terminal by absence

Of every truth that is accepted: the entries are those of the owned orders, in their order; each rests on the one history row of its branch
and number, which agrees with it in every field; and a terminal order has its shares accounted for there and no working row against it.
-/
import LiveTrader.CleanupTruth.Collect
import LiveTrader.Lib.FixedText

namespace LiveTrader.CleanupTruth

open Lib Lib.Py Lib.Decimal

section spec

variable (env : Env)

/-! ## What is asked of an entry -/

/-- The venue that a row names. -/
def venueKey (market : String) : String := if market = "US" then "ovrs_excg_cd" else "excg_id_dvsn_cd"

/-- The official order that a row is about. -/
def officialKey (market : String) (raw : Fields) : String × String × String × String × String :=
  (textAt env raw "ord_dt", textAt env raw "ord_gno_brno", textAt env raw "odno", textAt env raw (venueKey market), textAt env raw "pdno")

/-- A row is that of an order: in branch, number and symbol, in side, in venue and currency. -/
structure IsOrder (row : Owned) (raw : Fields) : Prop where
  carries : Carries env row raw
  symbol : textAt env raw "pdno" = row.symbol
  side : raw.at "sll_buy_dvsn_cd" = .str (sideCode row.side)
  venue : textAt env raw (venueKey row.market) = row.venue
  currency : row.market = "US" → raw.at "tr_crcy_cd" = .str "USD" ∧ row.currency = "USD"

/-- The shares of an order that is over: all filled, canceled or rejected, or a status that says that it is over. -/
def Accounted (row : Owned) (history : Fields) (shares : Shares) : Prop :=
  if row.market = "US" then ∃ status, history.at "prcs_stat_name" = .str status ∧ strip status ∈ terminalStatuses (shares.filled = shares.ordered)
  else ∃ canceled rejected, whole (history.at "cnc_cfrm_qty") false = .ok canceled ∧ whole (history.at "rjct_qty") false = .ok rejected ∧
    shares.filled + canceled + rejected = shares.ordered

/-- No working row is about the order.  A row abroad names its day; the list of Korea is that of the day of the observation. -/
def Uncontradicted (row : Owned) (working : List Fields) (observedAt : ℤ) : Prop :=
  ∀ raw ∈ working, Carries env row raw →
    if row.market = "US" then raw.at "ord_dt" ≠ .str row.orderDate else env.marketDate observedAt row.venue ≠ row.orderDate

/-- The history row of an order. -/
structure FromHistory (history : List Fields) (p : Projection) : Prop where
  only : (history.filter fun raw => Carries env p.row raw) = [p.history]
  day : textAt env p.history "ord_dt" = p.row.orderDate
  order : IsOrder env p.row p.history
  shares : quantities p.history p.row true = .ok p.shares
  quantity : p.shares.ordered = p.row.quantity

structure Terminal (working : List Fields) (observedAt : ℤ) (p : Projection) : Prop where
  remaining : p.shares.remaining = 0
  accounted : Accounted p.row p.history p.shares
  uncontradicted : Uncontradicted env p.row working observedAt

structure Working (working : List Fields) (queries : List Query) (observedAt current : ℤ) (p : Projection) : Prop where
  agrees : ∃ raw ∈ working, p.working = some raw ∧ IsOrder env p.row raw ∧ quantities raw p.row false = .ok p.shares ∧
    ∃ amount, grossNotional raw p.row p.shares.filled = .ok amount ∧ grossNotional p.history p.row p.shares.filled = .ok amount
  total : p.shares.filled + p.shares.remaining = p.shares.ordered
  day : p.row.orderDate = env.marketDate observedAt p.row.venue ∧ p.row.orderDate = env.marketDate current p.row.venue
  server : ∀ query ∈ queries, countsFor p.row query = true → ∀ page ∈ query.pages, ∃ server, page.server env = some server ∧
    p.row.orderDate = env.marketDate (earliest server.time server.trip) p.row.venue ∧
    p.row.orderDate = env.marketDate (latest server.time server.trip) p.row.venue

/-- What an entry rests on: the one list of working orders of its market, and the one history of its venue and day. -/
def Rests (queries : List Query) (observedAt current : ℤ) (p : Projection) : Prop :=
  ∃ working history, queries.filter (isFor "WORKING" p.row) = [working] ∧ queries.filter (isFor "HISTORY" p.row) = [history] ∧
    FromHistory env history.rows p ∧ (p.standing = .terminal → Terminal env working.rows observedAt p) ∧
    (p.standing = .working → Working env working.rows queries observedAt current p)

/-- What an accepted truth says. -/
structure Sound (truth orders : Json) (current : ℤ) (accepted : Accepted) : Prop where
  owned : ∃ d : Fields, truth = .obj d ∧ ownedOrders env orders (d.at "nativeScope") = .ok accepted.owned ∧
    (d.at "orders").eq (.arr (accepted.projections.map fun p => .obj (p.entry env))) = true
  inOrder : accepted.projections.map Projection.row = accepted.owned
  once : (accepted.owned.map Owned.dispatchKey).Nodup
  rests : ∀ p ∈ accepted.projections, Rests env accepted.queries accepted.started current p
  distinct : (accepted.projections.map fun p => officialKey env p.row.market p.history).Nodup

end spec

section sound

variable {env : Env} {row : Owned} {raw : Fields} {rows : List Fields}

/-! ## Owned orders -/

/-- What is known of the owned orders. -/
structure OwnedSet (owned : List Owned) : Prop where
  keys : (owned.map Owned.dispatchKey).Nodup
  identities : (owned.map Owned.identity).Nodup
  markets : ∀ row ∈ owned, venues.lookup row.venue = some row.currency ∧ row.market = (if row.venue = "KRX" then "KR" else "US")

theorem checkOwned_eq_ok {scope : Fields} {members : List Json} {u : Unit} (h : checkOwned env scope members row = .ok u) :
    venues.lookup row.venue = some row.currency ∧ row.market = (if row.venue = "KRX" then "KR" else "US") := by
  obtain ⟨_, h, -⟩ := bind_eq_ok.mp h
  obtain ⟨_, -, h⟩ := bind_eq_ok.mp h
  obtain ⟨_, hvenue, -⟩ := bind_eq_ok.mp h
  obtain ⟨hcurrency, hmarket, -⟩ := require_eq_ok.mp hvenue
  exact ⟨hcurrency, hmarket⟩

theorem ownedOrders_eq_ok {orders scope : Json} {owned : List Owned} (h : ownedOrders env orders scope = .ok owned) : OwnedSet owned := by
  obtain ⟨_, -, h⟩ := bind_eq_ok.mp h
  obtain ⟨_, -, h⟩ := bind_eq_ok.mp h
  obtain ⟨_, -, h⟩ := bind_eq_ok.mp h
  obtain ⟨_, -, h⟩ := bind_eq_ok.mp h
  obtain ⟨_, -, h⟩ := bind_eq_ok.mp h
  obtain ⟨_, hchecked, h⟩ := bind_eq_ok.mp h
  obtain ⟨_, hkeys, h⟩ := bind_eq_ok.mp h
  obtain ⟨_, hidentities, h⟩ := bind_eq_ok.mp h
  obtain ⟨_, -, h⟩ := bind_eq_ok.mp h
  obtain rfl := Except.ok.inj h
  refine ⟨require_eq_ok.mp hkeys, require_eq_ok.mp hidentities, ?_⟩
  intro row hrow
  obtain ⟨_, -, hrow⟩ := exists_mapM_of_mem hchecked hrow
  exact checkOwned_eq_ok hrow

/-! ## Official rows -/

theorem textAt_str {key text : String} (h : raw.at key = .str text) : textAt env raw key = text := by
  rw [textAt, h, Codec.text, Json.orElse]
  by_cases hempty : text = ""
  · rw [hempty]
    rfl
  · have htruthy : (Json.str text).truthy = true := by
      simpa [Json.truthy] using hempty
    rw [if_pos htruthy]

/-- Every venue but the one in Korea trades in dollars. -/
theorem currency_of_ne {venue currency : String} (hne : venue ≠ "KRX") (h : venues.lookup venue = some currency) : currency = "USD" := by
  have hall : ∀ entry ∈ venues, entry.1 ≠ "KRX" → entry.2 = "USD" := by decide
  exact hall _ (Dict.mem_of_lookup h) hne

theorem officialIdentity_eq_ok {history : Bool} {u : Unit} (hmarket : row.market = (if row.venue = "KRX" then "KR" else "US"))
    (hcurrency : venues.lookup row.venue = some row.currency) (h : officialIdentity env raw row history = .ok u) :
    IsOrder env row raw ∧ (history = true → textAt env raw "ord_dt" = row.orderDate) := by
  obtain ⟨_, hcarries, h⟩ := bind_eq_ok.mp h
  obtain ⟨_, hday, h⟩ := bind_eq_ok.mp h
  obtain ⟨_, hside, h⟩ := bind_eq_ok.mp h
  obtain ⟨hcarries, hsymbol⟩ := require_eq_ok.mp hcarries
  refine ⟨⟨hcarries, hsymbol, Json.eq_str (require_eq_ok.mp hside), ?_, ?_⟩, fun hhistory => require_eq_ok.mp hday (.inl hhistory)⟩
  · by_cases hus : row.market = "US"
    · rw [if_pos hus] at h
      rw [venueKey, if_pos hus]
      exact textAt_str (Json.eq_str (require_eq_ok.mp h).1)
    · rw [if_neg hus] at h
      rw [venueKey, if_neg hus]
      obtain ⟨_, hkrx, -⟩ := bind_eq_ok.mp h
      rw [textAt_str (Json.eq_str (require_eq_ok.mp hkrx))]
      by_contra hne
      rw [if_neg (Ne.symm hne)] at hmarket
      exact hus hmarket
  · intro hus
    rw [if_pos hus] at h
    refine ⟨Json.eq_str (require_eq_ok.mp h).2, ?_⟩
    by_cases hkrx : row.venue = "KRX"
    · rw [if_pos hkrx, hus] at hmarket
      exact absurd hmarket (by decide)
    · exact currency_of_ne hkrx hcurrency

theorem matching_eq_ok {found : Option Fields} (h : matching env rows row = .ok found) :
    (rows.filter fun raw => Carries env row raw) = found.toList := by
  rw [matching.eq_def] at h
  split at h
  · next hnone =>
    obtain rfl := Except.ok.inj h
    exact hnone
  · next raw hsome =>
    obtain rfl := Except.ok.inj h
    exact hsome
  · cases h

/-- The rows of the original day among some rows. -/
theorem mem_originalDay {found : List Fields} (h : originalDay row rows = .ok found) (hraw : raw ∈ rows)
    (hday : raw.at "ord_dt" = .str row.orderDate) : raw ∈ found := by
  induction rows generalizing found with
  | nil => cases hraw
  | cons first rows ih =>
    rw [originalDay.eq_def] at h
    dsimp only at h
    split at h
    · next day hfirst =>
      obtain ⟨_, -, h⟩ := bind_eq_ok.mp h
      obtain ⟨others, hothers, h⟩ := bind_eq_ok.mp h
      obtain rfl := Except.ok.inj h
      rcases List.mem_cons.mp hraw with rfl | hraw
      · rw [hday] at hfirst
        cases hfirst
        rw [if_pos rfl]
        exact List.mem_cons_self
      · have hmem := ih hothers hraw
        split
        · exact List.mem_cons_of_mem _ hmem
        · exact hmem
    · cases h

theorem originalDay_subset {found : List Fields} (h : originalDay row rows = .ok found) : found ⊆ rows := by
  induction rows generalizing found with
  | nil =>
    obtain rfl := Except.ok.inj h
    exact fun raw hraw => hraw
  | cons first rows ih =>
    rw [originalDay.eq_def] at h
    dsimp only at h
    split at h
    · obtain ⟨_, -, h⟩ := bind_eq_ok.mp h
      obtain ⟨others, hothers, h⟩ := bind_eq_ok.mp h
      obtain rfl := Except.ok.inj h
      split
      · exact List.cons_subset_cons first (ih hothers)
      · exact List.subset_cons_of_subset first (ih hothers)
    · cases h

theorem mem_of_matching (h : matching env rows row = .ok (some raw)) : raw ∈ rows := by
  have hmem : raw ∈ rows.filter fun raw => Carries env row raw := by
    rw [matching_eq_ok h]
    exact List.mem_singleton_self raw
  exact List.mem_of_mem_filter hmem

theorem mem_of_workingRow {remaining : ℕ} {observedAt : ℤ} (h : workingRow env row rows remaining observedAt = .ok (some raw)) :
    raw ∈ rows := by
  rw [workingRow.eq_def] at h
  split at h
  · split at h
    · cases h
    · obtain ⟨found, hfound, h⟩ := bind_eq_ok.mp h
      exact List.mem_of_mem_filter (originalDay_subset hfound (mem_of_matching h))
  · exact mem_of_matching h

/-- Where no working row was found, none is about the order. -/
theorem uncontradicted_of_workingRow {remaining : ℕ} {observedAt : ℤ} (hmarket : row.market = (if row.venue = "KRX" then "KR" else "US"))
    (h : workingRow env row rows remaining observedAt = .ok none) : Uncontradicted env row rows observedAt := by
  intro raw hraw hcarries
  rw [workingRow.eq_def] at h
  split at h
  · next hover =>
    split at h
    · next hkr =>
      rw [hkr, if_neg (by decide)]
      intro hday
      have hhistorical : row.orderDate < env.marketDate observedAt row.venue := hover.1
      rw [hday] at hhistorical
      exact lt_irrefl _ hhistorical
    · next hus =>
      have hus : row.market = "US" := by
        by_cases hkrx : row.venue = "KRX"
        · rw [if_pos hkrx] at hmarket
          exact absurd hmarket hus
        · rw [if_neg hkrx] at hmarket
          exact hmarket
      rw [if_pos hus]
      intro hday
      obtain ⟨found, hfound, h⟩ := bind_eq_ok.mp h
      have hmem := mem_originalDay hfound (List.mem_filter.mpr ⟨hraw, decide_eq_true hcarries⟩) hday
      have hempty := matching_eq_ok h
      have hin : raw ∈ found.filter fun raw => Carries env row raw := List.mem_filter.mpr ⟨hmem, decide_eq_true hcarries⟩
      rw [hempty] at hin
      exact List.not_mem_nil hin
  · have hin : raw ∈ rows.filter fun raw => Carries env row raw := List.mem_filter.mpr ⟨hraw, decide_eq_true hcarries⟩
    rw [matching_eq_ok h] at hin
    exact absurd hin List.not_mem_nil

theorem quantities_eq_ok {history : Bool} {shares : Shares} (h : quantities raw row history = .ok shares) : shares.ordered = row.quantity := by
  obtain ⟨_, -, h⟩ := bind_eq_ok.mp h
  obtain ⟨_, -, h⟩ := bind_eq_ok.mp h
  obtain ⟨_, -, h⟩ := bind_eq_ok.mp h
  obtain ⟨_, hordered, h⟩ := bind_eq_ok.mp h
  obtain ⟨_, -, h⟩ := bind_eq_ok.mp h
  obtain rfl := Except.ok.inj h
  exact (require_eq_ok.mp hordered).1

/-! ## Projections -/

/-- What `_project` finds, without the days of the servers. -/
structure Projected (env : Env) (row : Owned) (workingRows historyRows : List Fields) (observedAt : ℤ) (p : Projection) : Prop where
  row_eq : p.row = row
  history : FromHistory env historyRows p
  terminal : p.standing = .terminal → Terminal env workingRows observedAt p
  working : p.standing = .working → p.shares.filled + p.shares.remaining = p.shares.ordered ∧
    ∃ raw ∈ workingRows, p.working = some raw ∧ IsOrder env p.row raw ∧ quantities raw p.row false = .ok p.shares ∧
      ∃ amount, grossNotional raw p.row p.shares.filled = .ok amount ∧ grossNotional p.history p.row p.shares.filled = .ok amount

theorem checkTerminal_eq_ok {shares : Shares} {u : Unit} (h : checkTerminal raw row shares = .ok u) :
    shares.remaining = 0 ∧ Accounted row raw shares := by
  obtain ⟨_, hremaining, h⟩ := bind_eq_ok.mp h
  refine ⟨require_eq_ok.mp hremaining, ?_⟩
  rw [Accounted]
  by_cases hus : row.market = "US"
  · rw [if_pos hus] at h ⊢
    split at h
    · next status hstatus => exact ⟨status, hstatus, require_eq_ok.mp h⟩
    · cases h
  · rw [if_neg hus] at h ⊢
    obtain ⟨canceled, hcanceled, h⟩ := bind_eq_ok.mp h
    obtain ⟨rejected, hrejected, h⟩ := bind_eq_ok.mp h
    exact ⟨canceled, rejected, hcanceled, hrejected, require_eq_ok.mp h⟩

theorem checkWorking_eq_ok {shares : Shares} {notional : ℚ} {u : Unit}
    (hmarket : row.market = (if row.venue = "KRX" then "KR" else "US")) (hcurrency : venues.lookup row.venue = some row.currency)
    (h : checkWorking env raw row shares notional = .ok u) : IsOrder env row raw ∧ quantities raw row false = .ok shares ∧
      shares.filled + shares.remaining = shares.ordered ∧ grossNotional raw row shares.filled = .ok notional := by
  obtain ⟨_, hidentity, h⟩ := bind_eq_ok.mp h
  obtain ⟨found, hfound, h⟩ := bind_eq_ok.mp h
  obtain ⟨_, hsame, h⟩ := bind_eq_ok.mp h
  obtain ⟨amount, hamount, h⟩ := bind_eq_ok.mp h
  obtain ⟨_, hnotional, -⟩ := bind_eq_ok.mp h
  obtain ⟨rfl, -, htotal⟩ := require_eq_ok.mp hsame
  obtain rfl := require_eq_ok.mp hnotional
  exact ⟨(officialIdentity_eq_ok hmarket hcurrency hidentity).1, hfound, htotal, hamount⟩

theorem project_eq_ok {scope : Fields} {workingRows historyRows : List Fields} {observedAt : ℤ} {p : Projection}
    (hmarket : row.market = (if row.venue = "KRX" then "KR" else "US")) (hcurrency : venues.lookup row.venue = some row.currency)
    (h : project env row scope workingRows historyRows observedAt = .ok p) : Projected env row workingRows historyRows observedAt p := by
  obtain ⟨found, hfound, h⟩ := bind_eq_ok.mp h
  obtain ⟨history, hhistory, h⟩ := bind_eq_ok.mp h
  obtain ⟨_, hidentity, h⟩ := bind_eq_ok.mp h
  obtain ⟨shares, hshares, h⟩ := bind_eq_ok.mp h
  obtain ⟨notional, hnotional, h⟩ := bind_eq_ok.mp h
  obtain ⟨working, hworking, h⟩ := bind_eq_ok.mp h
  obtain rfl := orRaise_eq_ok.mp hhistory
  obtain ⟨horder, hday⟩ := officialIdentity_eq_ok hmarket hcurrency hidentity
  have honly := matching_eq_ok hfound
  cases working with
  | some raw =>
    obtain ⟨_, hcheck, h⟩ := bind_eq_ok.mp h
    obtain rfl := Except.ok.inj h
    obtain ⟨hraw, hquantities, htotal, hamount⟩ := checkWorking_eq_ok hmarket hcurrency hcheck
    refine ⟨rfl, ⟨honly, hday rfl, horder, hshares, quantities_eq_ok hshares⟩, fun hterminal => ?_, fun _ => ⟨htotal, ?_⟩⟩
    · cases hterminal
    · exact ⟨raw, mem_of_workingRow hworking, rfl, hraw, hquantities, notional, hamount, hnotional⟩
  | none =>
    obtain ⟨_, hcheck, h⟩ := bind_eq_ok.mp h
    obtain ⟨receipt, -, h⟩ := bind_eq_ok.mp h
    obtain rfl := Except.ok.inj h
    obtain ⟨hremaining, haccounted⟩ := checkTerminal_eq_ok hcheck
    refine ⟨rfl, ⟨honly, hday rfl, horder, hshares, quantities_eq_ok hshares⟩, fun _ => ?_, fun hworking => ?_⟩
    · exact ⟨hremaining, haccounted, uncontradicted_of_workingRow hmarket hworking⟩
    · cases hworking

theorem queryRows_eq_ok {kind : String} {queries : List Query} (h : queryRows kind queries row = .ok rows) :
    ∃ query, queries.filter (isFor kind row) = [query] ∧ query.rows = rows := by
  rw [queryRows.eq_def] at h
  split at h
  · next query hquery =>
    obtain rfl := Except.ok.inj h
    exact ⟨query, hquery, rfl⟩
  · cases h

/-! ## Order days -/

theorem parse_isoTime {time : ℤ} {text : String} (h : isoTime? time = some text) : env.parseTime (.str text) = some time := by
  rw [isoTime?] at h
  split at h
  · next hcalendar =>
    obtain rfl := Option.some.inj h
    rw [env.parse_iso, Utc.micros_ofMicros hcalendar]
    congr 1
    refine Int.toNat_of_nonneg ?_
    by_contra hneg
    rw [Int.toNat_of_nonpos (not_le.mp hneg).le] at hcalendar
    exact absurd hcalendar.1 (by decide)
  · cases h

/-- The texts of a server's times are those of its earliest and latest one. -/
theorem server_times {page : PageDate} {server : Server} (h : page.server env = some server) :
    env.parseTime (.str server.minimum) = some (earliest server.time server.trip) ∧
      env.parseTime (.str server.maximum) = some (latest server.time server.trip) := by
  rw [PageDate.server.eq_def] at h
  split at h
  · split at h
    · obtain ⟨time, -, h⟩ := Option.bind_eq_some_iff.mp h
      obtain ⟨minimum, hminimum, h⟩ := Option.bind_eq_some_iff.mp h
      obtain ⟨maximum, hmaximum, h⟩ := Option.bind_eq_some_iff.mp h
      obtain rfl := Option.some.inj h
      exact ⟨parse_isoTime hminimum, parse_isoTime hmaximum⟩
    · cases h
  · cases h

theorem checkPageDay_eq_ok {p : Projection} {started : ℤ} {page : PageDate} {u : Unit} (hworking : p.standing = .working)
    (h : checkPageDay env p started page = .ok u) : ∃ server, page.server env = some server ∧
      p.row.orderDate = env.marketDate (earliest server.time server.trip) p.row.venue ∧
      p.row.orderDate = env.marketDate (latest server.time server.trip) p.row.venue := by
  rw [checkPageDay.eq_def] at h
  split at h
  · exact absurd hworking (require_eq_ok.mp h)
  · next server hserver =>
    obtain ⟨lower, hlower, h⟩ := bind_eq_ok.mp h
    obtain ⟨upper, hupper, h⟩ := bind_eq_ok.mp h
    obtain ⟨_, -, h⟩ := bind_eq_ok.mp h
    rw [if_pos hworking] at h
    obtain ⟨_, -, h⟩ := bind_eq_ok.mp h
    obtain ⟨_, -, h⟩ := bind_eq_ok.mp h
    obtain ⟨_, -, h⟩ := bind_eq_ok.mp h
    obtain ⟨hearliest, hlatest⟩ := server_times hserver
    obtain rfl := Option.some.inj (hearliest.symm.trans (orRaise_eq_ok.mp hlower))
    obtain rfl := Option.some.inj (hlatest.symm.trans (orRaise_eq_ok.mp hupper))
    exact ⟨server, hserver, require_eq_ok.mp h⟩

theorem checkOrderDay_eq_ok {queries : List Query} {started current : ℤ} {p : Projection} {u : Unit} (hworking : p.standing = .working)
    (h : checkOrderDay env queries started current p = .ok u) :
    (p.row.orderDate = env.marketDate started p.row.venue ∧ p.row.orderDate = env.marketDate current p.row.venue) ∧
    ∀ query ∈ queries, countsFor p.row query = true → ∀ page ∈ query.pages, ∃ server, page.server env = some server ∧
      p.row.orderDate = env.marketDate (earliest server.time server.trip) p.row.venue ∧
      p.row.orderDate = env.marketDate (latest server.time server.trip) p.row.venue := by
  obtain ⟨_, -, h⟩ := bind_eq_ok.mp h
  obtain ⟨_, hday, h⟩ := bind_eq_ok.mp h
  obtain ⟨_, hpages, -⟩ := bind_eq_ok.mp h
  refine ⟨require_eq_ok.mp hday hworking, ?_⟩
  intro query hquery hcounts page hpage
  have hmem : page ∈ (queries.filter (countsFor p.row)).flatMap Query.pages :=
    List.mem_flatMap.mpr ⟨query, List.mem_filter.mpr ⟨hquery, hcounts⟩, hpage⟩
  obtain ⟨_, -, hchecked⟩ := exists_mapM_of_mem hpages hmem
  exact checkPageDay_eq_ok hworking hchecked

/-! ## The truth -/

/-- The official order of a history row is the one that is owned. -/
theorem officialKey_eq {history : List Fields} {p : Projection} (h : FromHistory env history p) :
    officialKey env p.row.market p.history = p.row.identity := by
  rw [officialKey, h.day, h.order.carries.1, h.order.carries.2, h.order.venue, h.order.symbol, Owned.identity]

theorem projectAll_eq_ok {owned : List Owned} {scope : Fields} {queries : List Query} {observedAt : ℤ} {projections : List Projection}
    (hset : OwnedSet owned) (h : projectAll env owned scope queries observedAt = .ok projections) :
    projections.map Projection.row = owned ∧ ∀ p ∈ projections, ∃ working history,
      queries.filter (isFor "WORKING" p.row) = [working] ∧ queries.filter (isFor "HISTORY" p.row) = [history] ∧
      Projected env p.row working.rows history.rows observedAt p := by
  have hone : ∀ row ∈ owned, ∀ p, projectOne env scope queries observedAt row = .ok p → p.row = row ∧ ∃ working history,
      queries.filter (isFor "WORKING" row) = [working] ∧ queries.filter (isFor "HISTORY" row) = [history] ∧
      Projected env row working.rows history.rows observedAt p := by
    intro row hrow p hp
    obtain ⟨workingRows, hworkingRows, hp⟩ := bind_eq_ok.mp hp
    obtain ⟨historyRows, hhistoryRows, hp⟩ := bind_eq_ok.mp hp
    obtain ⟨working, hworking, rfl⟩ := queryRows_eq_ok hworkingRows
    obtain ⟨history, hhistory, rfl⟩ := queryRows_eq_ok hhistoryRows
    obtain ⟨hcurrency, hmarket⟩ := hset.markets row hrow
    have hprojected := project_eq_ok hmarket hcurrency hp
    exact ⟨hprojected.row_eq, working, history, hworking, hhistory, hprojected⟩
  constructor
  · have hforall := mapM_eq_ok.mp h
    clear h hset
    induction hforall with
    | nil => rfl
    | cons hp _ ih =>
      rw [List.map_cons, (hone _ List.mem_cons_self _ hp).1, ih fun row hrow => hone row (List.mem_cons_of_mem _ hrow)]
  · intro p hp
    obtain ⟨row, hrow, hfound⟩ := exists_of_mem_mapM h hp
    obtain ⟨rfl, hrests⟩ := hone row hrow p hfound
    exact hrests

theorem validateCleanupTruth_eq_ok {truth orders : Json} {current : ℤ} {maxAge : ℚ} {accepted : Accepted}
    (h : validateCleanupTruth env truth orders current maxAge = .ok accepted) : Sound env truth orders current accepted := by
  obtain ⟨_, -, h⟩ := bind_eq_ok.mp h
  obtain ⟨d, hd, h⟩ := bind_eq_ok.mp h
  obtain ⟨_, -, h⟩ := bind_eq_ok.mp h
  obtain ⟨times, -, h⟩ := bind_eq_ok.mp h
  obtain ⟨owned, howned, h⟩ := bind_eq_ok.mp h
  obtain ⟨scope, -, h⟩ := bind_eq_ok.mp h
  obtain ⟨_, -, h⟩ := bind_eq_ok.mp h
  obtain ⟨_, -, h⟩ := bind_eq_ok.mp h
  obtain ⟨_, -, h⟩ := bind_eq_ok.mp h
  obtain ⟨queries, -, h⟩ := bind_eq_ok.mp h
  obtain ⟨_, -, h⟩ := bind_eq_ok.mp h
  obtain ⟨projections, hprojections, h⟩ := bind_eq_ok.mp h
  obtain ⟨_, hentries, h⟩ := bind_eq_ok.mp h
  obtain ⟨_, hdays, h⟩ := bind_eq_ok.mp h
  obtain rfl := Except.ok.inj h
  have hset := ownedOrders_eq_ok howned
  obtain ⟨hrows, hprojected⟩ := projectAll_eq_ok hset hprojections
  have hrests : ∀ p ∈ projections, Rests env queries times.started current p := by
    intro p hp
    obtain ⟨working, history, hworking, hhistory, hfound⟩ := hprojected p hp
    refine ⟨working, history, hworking, hhistory, hfound.history, hfound.terminal, ?_⟩
    intro hstanding
    obtain ⟨htotal, hagrees⟩ := hfound.working hstanding
    obtain ⟨_, -, hday⟩ := exists_mapM_of_mem hdays hp
    obtain ⟨hday, hserver⟩ := checkOrderDay_eq_ok hstanding hday
    exact ⟨hagrees, htotal, hday, hserver⟩
  constructor
  case owned => exact ⟨d, Json.of_fields? (orRaise_eq_ok.mp hd), howned, require_eq_ok.mp hentries⟩
  case inOrder => exact hrows
  case once => exact hset.keys
  case rests => exact hrests
  case distinct =>
    -- the official order of an entry is the identity of its owned order, and no two of these are the same
    have hkeys : projections.map (fun p => officialKey env p.row.market p.history) = owned.map Owned.identity := by
      rw [← hrows, List.map_map]
      refine List.map_congr_left fun p hp => ?_
      obtain ⟨_, _, -, -, hhistory, -⟩ := hrests p hp
      exact officialKey_eq hhistory
    rw [hkeys]
    exact hset.identities

theorem collectCleanupTruth_eq_ok {source : Source} {orders truth : Json} (h : collectCleanupTruth env source orders = .ok truth) :
    ∃ accepted, validateCleanupTruth env truth orders source.finished.micros 15 = .ok accepted := by
  obtain ⟨_, -, h⟩ := bind_eq_ok.mp h
  obtain ⟨_, -, h⟩ := bind_eq_ok.mp h
  obtain ⟨_, -, h⟩ := bind_eq_ok.mp h
  obtain ⟨_, -, h⟩ := bind_eq_ok.mp h
  obtain ⟨_, -, h⟩ := bind_eq_ok.mp h
  obtain ⟨_, -, h⟩ := bind_eq_ok.mp h
  obtain ⟨_, -, h⟩ := bind_eq_ok.mp h
  obtain ⟨accepted, hvalid, h⟩ := bind_eq_ok.mp h
  obtain rfl := Except.ok.inj h
  exact ⟨accepted, hvalid⟩

end sound

/-! ## A sample order -/

mutual

/-- The number of values in a value, to stand for the digest in the sample. -/
def weight : Json → ℕ
  | .arr items => 1 + weightItems items
  | .obj fields => 2 + weightFields fields
  | _ => 1

def weightItems : List Json → ℕ
  | [] => 0
  | item :: items => weight item + weightItems items

def weightFields : List (String × Json) → ℕ
  | [] => 0
  | (_, value) :: fields => weight value + weightFields fields

end

def sampleHash (value : Json) : String := String.ofList ((List.range 64).map fun i => Nat.digitChar (weight value / 16 ^ i % 16))

/-- Nine hours before, and five hours after, the time of the servers. -/
def sampleMarketDate (time : ℤ) (venue : String) : String :=
  let shifted := (time + (if venue = "KRX" then 9 else -5) * 3600000000).toNat
  let date := dateOf (shifted / 86400000000)
  String.ofList (zeroPad 4 date.1 ++ zeroPad 2 date.2.1 ++ zeroPad 2 date.2.2)

def sampleParse : Json → Option ℤ
  | .str text => some (readIso text : ℤ)
  | _ => none

theorem sampleParse_iso (time : Utc) : sampleParse (.str time.isoformat) = some (time.micros : ℤ) := by
  rw [sampleParse, readIso_isoformat]

def Env.sample : Env where
  sha256 := sampleHash
  byteLength _ := 0
  repr value := (value.int?.map Int.repr).getD ""
  canonicalHash := sampleHash
  decimal _ := none
  decimalText := exactText
  parseTime := sampleParse
  parse_iso := sampleParse_iso
  marketDate := sampleMarketDate
  httpDate _ := none

def sampleScopeBody : Fields :=
  [("version", .str "kis-owned-capital-v2"), ("deploymentId", .str "deployment"), ("accountFingerprint", .str (sampleHash (.str "account"))),
    ("credentialConfigurationHash", .str (sampleHash (.str "keys"))), ("quoteCurrency", .str "KRW"),
    ("members", .arr [.obj [("strategyInstanceId", .str "strategy"), ("sourceArtifactHash", .str "artifact"),
      ("portfolioHash", .str "portfolio"), ("symbol", .str "005930"), ("quoteCurrency", .str "KRW")]])]

def sampleScope : Fields := sampleScopeBody ++ [("scopeHash", .str (sampleHash (.obj sampleScopeBody)))]

def sampleTicketBody : Fields :=
  [("version", .str "kis-equity-operational-quantity-v2"), ("accountFingerprint", .str (sampleHash (.str "account"))),
    ("credentialConfigurationHash", .str (sampleHash (.str "keys"))), ("exchange", .str "KRX"), ("currency", .str "KRW"),
    ("deploymentId", .str "deployment"), ("sourceArtifactHash", .str "artifact"), ("symbol", .str "005930"), ("side", .str "BUY"),
    ("capitalScopeHash", .str (sampleHash (.obj sampleScopeBody))), ("quantity", .str "10"), ("minimumCostReserve", .str "1000"),
    ("costReserveRate", .str "0.01")]

def sampleTicket : Fields := sampleTicketBody ++ [("contentHash", .str (sampleHash (.obj sampleTicketBody)))]

def sampleDispatch : Fields :=
  [("broker_id", .str "kis"), ("idempotency_key", .str "dispatch"), ("symbol", .str "005930"), ("side", .str "BUY"),
    ("broker_order_identity_verified", .bool true), ("order_date_source", .str "OFFICIAL_ORDER_QUERY_EXACT_COMPOSITE_IDENTITY"),
    ("order_date", .str "20260105"), ("organization_no", .str "00100"), ("broker_order_id", .str "0000000001"),
    ("broker_order_key", .str "20260105:00100:0000000001"),
    ("metadata", .obj [("native_quantity_model", .obj sampleTicket), ("deployment_id", .str "deployment"), ("runtime_scope_id", .str "runtime"),
      ("native_account_fingerprint", .str (sampleHash (.str "account"))), ("strategy_instance_id", .str "strategy"),
      ("source_artifact_hash", .str "artifact"), ("portfolio_hash", .str "portfolio")])]

def sampleOrders : Json :=
  .arr [.obj [("dispatchKey", .str "dispatch"), ("runtimeScopeId", .str "runtime"), ("sessionId", .str "session"),
    ("accountFingerprint", .str (sampleHash (.str "account"))), ("credentialConfigurationHash", .str (sampleHash (.str "keys"))),
    ("deploymentId", .str "deployment"), ("market", .str "KR"), ("currency", .str "KRW"), ("symbol", .str "005930"), ("side", .str "BUY"),
    ("orderDate", .str "20260105"), ("organizationNo", .str "00100"), ("orderNo", .str "0000000001"), ("venue", .str "KRX"),
    ("originalQuantity", .str "10"), ("businessHash", .str (dispatchBusinessHash .sample sampleDispatch)),
    ("dispatchHash", .str (sampleHash (.obj sampleDispatch))), ("dispatch", .obj sampleDispatch)]]

/-- The history of the day: the order was filled. -/
def sampleHistory : Json :=
  .obj [("ord_dt", .str "20260105"), ("ord_gno_brno", .str "00100"), ("odno", .str "0000000001"), ("pdno", .str "005930"),
    ("sll_buy_dvsn_cd", .str "02"), ("excg_id_dvsn_cd", .str "KRX"), ("loan_dt", .str ""), ("ord_qty", .str "10"), ("tot_ccld_qty", .str "10"),
    ("rmn_qty", .str "0"), ("tot_ccld_amt", .str "700000"), ("cnc_cfrm_qty", .str "0"), ("rjct_qty", .str "0"), ("ord_tmd", .str "100000")]

def Source.sample : Source where
  scope := .obj sampleScope
  scopeAgain := .obj sampleScope
  account := sampleScopeBody
  accountAgain := sampleScopeBody
  accountNumber := ("12345678", "01")
  get n _ := .ok (.obj [("rt_cd", .str "0"), if n = 0 then ("output", .arr []) else ("output1", .arr [sampleHistory])], [])
  clock n := .int (n / 4)
  started := Utc.mk 2026 1 5 3 0 0 0 (by decide) (by decide)
  finished := Utc.mk 2026 1 5 3 0 1 0 (by decide) (by decide)

end LiveTrader.CleanupTruth
