/-
# `ProgramLedger.EquityRuns` — the watermarks are those of the accepted points

`Tracked` relates the row and the observations of a scope to the list of its accepted points: the first and the last
point, the peak and the drawdown in the sense of `Lib.Drawdown`, and times that grow.  A call adds the point it writes
to the list of its scope and keeps every other scope, so the relation holds after any sequence of calls.

The rows are read in the order of their time texts.  Texts compare as times do, so that order is the order of the calls.
-/
import LiveTrader.ProgramLedger.Equity
import Mathlib.Data.List.Induction

namespace LiveTrader.ProgramLedger

open Lib Lib.Py Lib.Drawdown

/-! ## Identities -/

theorem validate_identity {permitId account : String} {id : EquityIdentity}
    (h : validateFunctionalTestEquityIdentity permitId account = .ok id) :
    validateFunctionalTestEquityIdentity id.permitId id.accountFingerprint = .ok id ∧ lower id.accountFingerprint = id.accountFingerprint := by
  obtain ⟨_, hpermit, h⟩ := bind_eq_ok.mp h
  obtain ⟨_, haccount, h⟩ := bind_eq_ok.mp h
  obtain rfl := Except.ok.inj h
  refine ⟨?_, lower_lower _⟩
  rw [validateFunctionalTestEquityIdentity]
  simp only [strip_strip, strip_lower, lower_lower]
  exact bind_eq_ok.mpr ⟨(), hpermit, bind_eq_ok.mpr ⟨(), haccount, rfl⟩⟩

/-! ## What a transaction does -/

theorem require_false {c : Prop} [Decidable c] {e : Error} (h : ¬ c) : require c e = .error e := if_neg h

section transaction

variable {H : EquityHashes} {s : EquityStore} {id : EquityIdentity} {equity : ℚ} {observed nonce : String} {marks : EquityMarks}

/-- The row that an upsert leaves under its key. -/
def upserted (old : Option EquityScopeRow) (payload : EquityScope) (integrityHash : String) : EquityScopeRow :=
  match old with
  | some row => row.take payload integrityHash
  | none => ⟨payload, integrityHash⟩

theorem upsertScope_get? {scopes scopes' : Table EquityScopeRow.key} {payload : EquityScope} {integrityHash : String}
    (h : upsertScope scopes payload integrityHash = .ok scopes') (k : String) : scopes'.get? k =
      if k = payload.scopeKey then some (upserted (scopes.get? payload.scopeKey) payload integrityHash) else scopes.get? k := by
  rw [upsertScope] at h
  cases hold : scopes.get? payload.scopeKey with
  | none =>
    rw [hold] at h
    obtain ⟨_, _, h⟩ := bind_eq_ok.mp h
    rw [Table.get?_insert (orRaise_eq_ok.mp h)]
    rfl
  | some row =>
    rw [hold] at h
    obtain rfl := Except.ok.inj h
    by_cases hk : k = payload.scopeKey
    · rw [if_pos hk, hk, Table.get?_update_self _ _ hold]
      rfl
    · rw [if_neg hk, Table.get?_update_ne _ _ hk]

theorem pointsOf_append (scopes : Table EquityScopeRow.key) (o : EquityObservation) (key : String) :
    EquityStore.pointsOf ⟨scopes, s.observations ++ [o]⟩ key = s.pointsOf key ++ if o.scopeKey = key then [o] else [] := by
  rw [EquityStore.pointsOf, List.filter_append]
  by_cases hkey : o.scopeKey = key
  · rw [if_pos hkey, List.filter_cons_of_pos (by simpa using hkey)]
    rfl
  · rw [if_neg hkey, List.filter_cons_of_neg (by simpa using hkey)]
    rfl

/-- A point that is written reaches the end of its scope's points, and its scope. -/
structure Wrote (H : EquityHashes) (s : EquityStore) (id : EquityIdentity) (equity : ℚ) (observed : String) (marks : EquityMarks)
    (s' : EquityStore) : Prop where
  points : ∃ eventId, s'.pointsOf (H.keyOf id) =
    s.pointsOf (H.keyOf id) ++ [equityObservation H eventId (equityPoint H id equity observed marks)]
  scope : s'.scopes.get? (H.keyOf id) = some (upserted (s.scopes.get? (H.keyOf id)) (scopePayload H id equity observed marks)
    (H.scope (scopePayload H id equity observed marks)))
  other : ∀ key, key ≠ H.keyOf id → s'.scopes.get? key = s.scopes.get? key ∧ s'.pointsOf key = s.pointsOf key

theorem writePoint_wrote {s' : EquityStore} (h : writePoint H s id equity observed nonce marks = .ok s') :
    Wrote H s id equity observed marks s' := by
  obtain ⟨_, _, h⟩ := bind_eq_ok.mp h
  obtain ⟨_, _, h⟩ := bind_eq_ok.mp h
  obtain ⟨scopes, hscopes, h⟩ := bind_eq_ok.mp h
  obtain rfl := Except.ok.inj h
  refine ⟨⟨"functional-equity:" ++ H.keyOf id ++ ":" ++ nonce, ?_⟩, ?_, fun key hkey => ⟨?_, ?_⟩⟩
  · rw [pointsOf_append]
    exact congrArg (s.pointsOf (H.keyOf id) ++ ·) (if_pos rfl)
  · exact (upsertScope_get? hscopes _).trans (if_pos rfl)
  · exact (upsertScope_get? hscopes key).trans (if_neg hkey)
  · rw [pointsOf_append]
    exact (congrArg (s.pointsOf key ++ ·) (if_neg (Ne.symm hkey))).trans (List.append_nil _)

/-- What a call that does not raise has done. -/
inductive Records (H : EquityHashes) (s : EquityStore) (id : EquityIdentity) (equity : ℚ) (t : Utc) : Observed → Prop
  | replay {row : EquityScopeRow} : s.scopes.get? (H.keyOf id) = some row → row.permitId = id.permitId →
      lower row.accountFingerprint = id.accountFingerprint → t.isoformat = row.lastObservedAt →
      IsClose equity row.currentEquity → Records H s id equity t ⟨id, s, false⟩
  | first {s' : EquityStore} : s.scopes.get? (H.keyOf id) = none → 0 < equity →
      Wrote H s id equity t.isoformat ⟨equity, equity, 0, 1, t.isoformat, ""⟩ s' → Records H s id equity t ⟨id, s', true⟩
  | next {row : EquityScopeRow} {s' : EquityStore} : s.scopes.get? (H.keyOf id) = some row → row.permitId = id.permitId →
      lower row.accountFingerprint = id.accountFingerprint → ¬ t.isoformat < row.lastObservedAt → t.isoformat ≠ row.lastObservedAt →
      Wrote H s id equity t.isoformat (nextMarks row.toEquityScope equity) s' → Records H s id equity t ⟨id, s', true⟩

theorem Records.other {t : Utc} {seen : Observed} (h : Records H s id equity t seen) {key : String} (hkey : key ≠ H.keyOf id) :
    seen.store.scopes.get? key = s.scopes.get? key ∧ seen.store.pointsOf key = s.pointsOf key := by
  cases h with
  | replay => exact ⟨rfl, rfl⟩
  | first _ _ hwrote => exact hwrote.other key hkey
  | next _ _ _ _ _ hwrote => exact hwrote.other key hkey

/-- The scope that a call leaves is that of its identity. -/
theorem Records.bound {t : Utc} {seen : Observed} (h : Records H s id equity t seen)
    (hid : lower id.accountFingerprint = id.accountFingerprint) : ∃ row, seen.store.scopes.get? (H.keyOf id) = some row ∧
      row.permitId = id.permitId ∧ lower row.accountFingerprint = id.accountFingerprint := by
  cases h with
  | replay hrow hpermit haccount => exact ⟨_, hrow, hpermit, haccount⟩
  | first hnone _ hwrote =>
    refine ⟨_, hwrote.scope, ?_⟩
    rw [hnone]
    exact ⟨rfl, hid⟩
  | next hrow hpermit haccount _ _ hwrote =>
    refine ⟨_, hwrote.scope, ?_⟩
    rw [hrow]
    exact ⟨hpermit, haccount⟩

theorem utcObservationText_eq_ok {raw : ObservedAt} {text : String} (h : utcObservationText raw = .ok text) :
    ∃ t, raw = .utc t ∧ text = t.isoformat := by
  cases raw with
  | utc t => exact ⟨t, rfl, (Except.ok.inj h).symm⟩
  | missing => cases h
  | malformed => cases h
  | naive => cases h
  | outOfRange => cases h

theorem recordObservation_records {c : EquityCall} {seen : Observed} (h : recordObservation H s c = .ok seen) : ∃ equity t,
    validateFunctionalTestEquityIdentity c.permitId c.accountFingerprint = .ok seen.id ∧ c.point = some (t, equity) ∧ 0 ≤ equity ∧
      Records H s seen.id equity t seen := by
  obtain ⟨id, hid, h⟩ := bind_eq_ok.mp h
  obtain ⟨equity, hequity, h⟩ := bind_eq_ok.mp h
  obtain ⟨_, hnonneg, h⟩ := bind_eq_ok.mp h
  obtain ⟨text, htext, h⟩ := bind_eq_ok.mp h
  obtain ⟨t, ht, rfl⟩ := utcObservationText_eq_ok htext
  have hpoint : c.point = some (t, equity) := by
    rw [EquityCall.point, ht, orRaise_eq_ok.mp hequity]
  split at h
  case h_1 hnone =>
    obtain ⟨marks, hmarks, h⟩ := bind_eq_ok.mp h
    obtain ⟨s', hwrite, h⟩ := bind_eq_ok.mp h
    obtain rfl := Except.ok.inj h
    obtain ⟨_, _, hmarks⟩ := bind_eq_ok.mp hmarks
    obtain ⟨_, hpositive, hmarks⟩ := bind_eq_ok.mp hmarks
    obtain rfl := Except.ok.inj hmarks
    exact ⟨equity, t, hid, hpoint, require_eq_ok.mp hnonneg, .first hnone (require_eq_ok.mp hpositive) (writePoint_wrote hwrite)⟩
  case h_2 row hrow =>
    obtain ⟨_, hbound, h⟩ := bind_eq_ok.mp h
    obtain ⟨_, hlater, h⟩ := bind_eq_ok.mp h
    obtain ⟨hpermit, haccount⟩ := require_eq_ok.mp hbound
    split at h
    case isTrue hsame =>
      obtain ⟨_, hclose, h⟩ := bind_eq_ok.mp h
      obtain rfl := Except.ok.inj h
      exact ⟨equity, t, hid, hpoint, require_eq_ok.mp hnonneg, .replay hrow hpermit haccount hsame (require_eq_ok.mp hclose)⟩
    case isFalse hother =>
      obtain ⟨s', hwrite, h⟩ := bind_eq_ok.mp h
      obtain rfl := Except.ok.inj h
      exact ⟨equity, t, hid, hpoint, require_eq_ok.mp hnonneg,
        .next hrow hpermit haccount (require_eq_ok.mp hlater) hother (writePoint_wrote hwrite)⟩

end transaction

/-! ## Accepted points and the tables -/

/-- The equities of points. -/
def equities (points : List (Utc × ℚ)) : List ℚ := points.map (·.2)

/-- A scope whose accepted points are `points`. -/
structure Tracked (H : EquityHashes) (s : EquityStore) (row : EquityScopeRow) (points : List (Utc × ℚ)) (first last : Utc × ℚ) :
    Prop where
  found : s.scopes.get? row.key = some row
  identity : validateFunctionalTestEquityIdentity row.permitId row.accountFingerprint = .ok ⟨row.permitId, row.accountFingerprint⟩
  keyed : row.key = H.scopeKey row.permitId row.accountFingerprint
  sealed : row.integrityHash = H.scope row.toEquityScope
  head : points.head? = some first
  tail : points.getLast? = some last
  starting : row.startingEquity = first.2
  current : row.currentEquity = last.2
  firstAt : row.firstObservedAt = first.1.isoformat
  lastAt : row.lastObservedAt = last.1.isoformat
  positive : 0 < first.2
  nonneg : 0 ≤ last.2
  peak : IsPeak (equities points) row.peakEquity
  worst : IsDrawdown (equities points) row.worstDrawdown
  count : row.observationCount = points.length
  times : points.Pairwise fun a b => a.1.micros < b.1.micros
  rows : (s.pointsOf row.key).map (·.observedAt) = points.map (·.1.isoformat)
  latest : ∃ o, (s.pointsOf row.key).getLast? = some o ∧ o.contentHash = row.latestObservationHash ∧
    o.observedAt = row.lastObservedAt ∧ o.equity = row.currentEquity ∧ o.peakEquity = row.peakEquity ∧
    o.worstDrawdown = row.worstDrawdown

/-- A scope with its accepted points, or none of both. -/
def Tracks (H : EquityHashes) (key : String) (s : EquityStore) (points : List (Utc × ℚ)) : Prop :=
  (s.scopes.get? key = none ∧ s.pointsOf key = [] ∧ points = []) ∨
    ∃ row first last, row.key = key ∧ Tracked H s row points first last

section tracks

variable {H : EquityHashes} {s s' : EquityStore} {key : String} {points : List (Utc × ℚ)}

/-- The row that a point leaves. -/
def scopeRow (H : EquityHashes) (id : EquityIdentity) (equity : ℚ) (observed : String) (marks : EquityMarks) : EquityScopeRow :=
  ⟨scopePayload H id equity observed marks, H.scope (scopePayload H id equity observed marks)⟩

theorem Tracks.frame (h : Tracks H key s points) (hscope : s'.scopes.get? key = s.scopes.get? key)
    (hpoints : s'.pointsOf key = s.pointsOf key) : Tracks H key s' points := by
  rcases h with ⟨hnone, hempty, rfl⟩ | ⟨row, first, last, rfl, h⟩
  · exact .inl ⟨hscope.trans hnone, hpoints.trans hempty, rfl⟩
  · refine .inr ⟨row, first, last, rfl, ?_⟩
    exact { h with found := hscope.trans h.found, rows := hpoints ▸ h.rows, latest := hpoints ▸ h.latest }

/-- The row of a scope is found under its identity. -/
theorem Tracked.key_eq {row : EquityScopeRow} {first last : Utc × ℚ} (h : Tracked H s row points first last) :
    row.key = H.keyOf ⟨row.permitId, row.accountFingerprint⟩ := h.keyed

theorem le_last {last a : Utc × ℚ} (h : points.Pairwise fun a b => a.1.micros < b.1.micros) (hlast : points.getLast? = some last)
    (ha : a ∈ points) : a.1.micros ≤ last.1.micros := by
  obtain ⟨front, rfl⟩ := List.getLast?_eq_some_iff.mp hlast
  rcases List.mem_append.mp ha with ha | ha
  · exact ((List.pairwise_append.mp h).2.2 a ha last (List.mem_singleton_self last)).le
  · exact (congrArg (fun p : Utc × ℚ => p.1.micros) (List.mem_singleton.mp ha)).le

theorem Tracks.record {id : EquityIdentity} (hid : validateFunctionalTestEquityIdentity id.permitId id.accountFingerprint = .ok id)
    {equity : ℚ} {t : Utc} (hnonneg : 0 ≤ equity) {seen : Observed} (hseen : Records H s id equity t seen)
    (h : Tracks H (H.keyOf id) s points) :
    Tracks H (H.keyOf id) seen.store (points ++ if seen.written = true then [(t, equity)] else []) := by
  cases hseen with
  | replay => simpa using h
  | first hnone hpositive hwrote =>
    rcases h with ⟨_, hempty, rfl⟩ | ⟨row, _, _, hkey, h⟩
    · obtain ⟨eventId, hpoints⟩ := hwrote.points
      have hscope := hwrote.scope
      rw [hnone] at hscope
      rw [hempty] at hpoints
      refine .inr ⟨scopeRow H id equity t.isoformat ⟨equity, equity, 0, 1, t.isoformat, ""⟩, (t, equity), (t, equity), rfl, ?_⟩
      exact {
        found := hscope
        identity := hid
        keyed := rfl
        sealed := rfl
        head := rfl
        tail := rfl
        starting := rfl
        current := rfl
        firstAt := rfl
        lastAt := rfl
        positive := hpositive
        nonneg := hnonneg
        peak := isPeak_singleton equity
        worst := isDrawdown_singleton equity
        count := rfl
        times := List.pairwise_singleton _ _
        rows := congrArg (List.map (·.observedAt)) hpoints
        latest := ⟨_, congrArg List.getLast? hpoints, rfl, rfl, rfl, rfl, rfl⟩ }
    · rw [← hkey, h.found] at hnone
      cases hnone
  | @next row s' hrow hpermit haccount hlater hother hwrote =>
    rcases h with ⟨hnone, _, _⟩ | ⟨old, first, last, hkey, h⟩
    · rw [hrow] at hnone
      cases hnone
    · obtain rfl : row = old := by
        have hfound := h.found
        rw [hkey, hrow] at hfound
        exact Option.some.inj hfound
      have hstored : row.accountFingerprint = id.accountFingerprint :=
        (validate_identity h.identity).2.symm.trans haccount
      obtain ⟨eventId, hpoints⟩ := hwrote.points
      have hscope := hwrote.scope
      rw [hrow] at hscope
      -- the columns that the upsert leaves alone hold what the payload has
      have htaken : row.take (scopePayload H id equity t.isoformat (nextMarks row.toEquityScope equity))
          (H.scope (scopePayload H id equity t.isoformat (nextMarks row.toEquityScope equity))) =
          scopeRow H id equity t.isoformat (nextMarks row.toEquityScope equity) := by
        obtain ⟨⟨_, _, _, _, _, _, _, _, _, _, _⟩, _⟩ := row
        subst hpermit hstored
        obtain rfl := hkey
        rfl
      have hlast : last.1.micros < t.micros := by
        rw [h.lastAt] at hlater hother
        refine lt_of_le_of_ne (not_lt.mp fun hlt => hlater (Utc.isoformat_lt_iff.mpr hlt)) fun heq => hother ?_
        rw [Utc.micros_inj heq]
      have hpeak : IsPeak (equities (points ++ [(t, equity)])) (max row.peakEquity equity) := by
        rw [equities, List.map_append]
        exact h.peak.concat equity
      refine .inr ⟨scopeRow H id equity t.isoformat (nextMarks row.toEquityScope equity), first, (t, equity), rfl, ?_⟩
      exact {
        found := hscope.trans (congrArg some htaken)
        identity := hid
        keyed := rfl
        sealed := rfl
        head := by
          show (points ++ [(t, equity)]).head? = some first
          rw [List.head?_append, h.head]
          rfl
        tail := List.getLast?_concat
        starting := h.starting
        current := rfl
        firstAt := h.firstAt
        lastAt := rfl
        positive := h.positive
        nonneg := hnonneg
        peak := hpeak
        worst := by
          rw [equities, List.map_append] at hpeak
          show IsDrawdown (equities (points ++ [(t, equity)])) _
          rw [equities, List.map_append]
          exact h.worst.concat hpeak
        count := by
          show row.observationCount + 1 = (points ++ [(t, equity)]).length
          rw [h.count, List.length_append]
          rfl
        times := by
          refine List.pairwise_append.mpr ⟨h.times, List.pairwise_singleton _ _, fun a ha b hb => ?_⟩
          obtain rfl := List.mem_singleton.mp hb
          exact lt_of_le_of_lt (le_last h.times h.tail ha) hlast
        rows := by
          show (s'.pointsOf (H.keyOf id)).map (·.observedAt) = (points ++ [(t, equity)]).map (·.1.isoformat)
          rw [hpoints, List.map_append, List.map_append, ← hkey, h.rows]
          rfl
        latest := ⟨_, (congrArg List.getLast? hpoints).trans List.getLast?_concat, rfl, rfl, rfl, rfl, rfl⟩ }

/-- **One call**: the scope of its point grows by it, and every other scope stays. -/
theorem Tracks.step (h : Tracks H key s points) (c : EquityCall) :
    Tracks H key (observeFunctionalTestEquity H s c).1 (points ++ (acceptedPoint H key s c).toList) := by
  rw [observeFunctionalTestEquity, acceptedPoint]
  cases hrecord : recordObservation H s c with
  | error _ =>
    show Tracks H key s (points ++ [])
    rwa [List.append_nil]
  | ok seen =>
    obtain ⟨equity, t, hid, hpoint, hnonneg, hseen⟩ := recordObservation_records hrecord
    show Tracks H key seen.store (points ++ Option.toList (if seen.written = true ∧ H.keyOf seen.id = key then c.point else none))
    by_cases hkey : H.keyOf seen.id = key
    · subst hkey
      have hrecorded := h.record (validate_identity hid).1 hnonneg hseen
      by_cases hwritten : seen.written = true
      · rw [if_pos ⟨hwritten, rfl⟩, hpoint]
        rwa [if_pos hwritten] at hrecorded
      · rw [if_neg fun hboth => hwritten hboth.1]
        rwa [if_neg hwritten] at hrecorded
    · rw [if_neg fun hboth => hkey hboth.2]
      show Tracks H key seen.store (points ++ [])
      rw [List.append_nil]
      obtain ⟨hscope, hpoints⟩ := hseen.other (Ne.symm hkey)
      exact h.frame hscope hpoints

/-- The relation after any sequence of calls. -/
theorem Tracks.run (h : Tracks H key s points) (calls : List EquityCall) :
    Tracks H key (observeAll H s calls) (points ++ acceptedPoints H key s calls) := by
  induction calls generalizing s points with
  | nil =>
    rw [acceptedPoints, List.append_nil]
    exact h
  | cons c calls ih =>
    rw [acceptedPoints, ← List.append_assoc]
    exact ih (h.step c)

theorem tracks_empty (key : String) : Tracks H key .empty [] := .inl ⟨rfl, rfl, rfl⟩

end tracks

/-! ## Reading a scope -/

section reading

variable {H : EquityHashes} {s : EquityStore} {row : EquityScopeRow} {points : List (Utc × ℚ)} {first last : Utc × ℚ}

/-- Rows whose texts grow are read in the order of insertion. -/
theorem latestOf_eq_getLast? {rows : List EquityObservation} (h : rows.Pairwise fun a b => a.observedAt < b.observedAt) :
    latestOf rows = rows.getLast? := by
  induction rows using List.reverseRecOn with
  | nil => rfl
  | append_singleton rows o ih =>
    obtain ⟨hrows, -, hbefore⟩ := List.pairwise_append.mp h
    rw [latestOf, List.foldl_append, List.getLast?_concat, List.foldl_cons, List.foldl_nil]
    refine if_neg fun hany => ?_
    have hlast : rows.foldl (fun best row => if best.any fun b => row.observedAt < b.observedAt then best else some row) none =
        rows.getLast? := ih hrows
    rw [hlast] at hany
    obtain ⟨b, hb, hlt⟩ := (Option.any_eq_true _ _).mp hany
    have hmem : b ∈ rows := List.mem_of_getLast? hb
    exact String.lt_asymm (hbefore b hmem o (List.mem_singleton_self o)) (of_decide_eq_true hlt)

/-- **A stored scope passes its reading.** -/
theorem Tracked.read (h : Tracked H s row points first last) :
    functionalTestEquityScope H s row.permitId row.accountFingerprint = .ok row.toEquityScope := by
  have hpairs : (s.pointsOf row.key).Pairwise fun a b => a.observedAt < b.observedAt := by
    have hrows : ((s.pointsOf row.key).map (·.observedAt)).Pairwise (· < ·) := by
      rw [h.rows, List.pairwise_map]
      exact h.times.imp fun hlt => Utc.isoformat_lt_iff.mpr hlt
    rwa [List.pairwise_map] at hrows
  have hcount : (s.pointsOf row.key).length = row.observationCount := by
    rw [h.count, ← List.length_map (·.observedAt), h.rows, List.length_map]
  have hmem : first ∈ points := List.mem_of_head? h.head
  have hworst : 0 ≤ row.worstDrawdown := by
    obtain ⟨i, j, hj, hij, heq⟩ := h.worst.1
    rw [heq]
    exact le_max_left _ _
  obtain ⟨o, ho, hhash, hat, hequity, hpeak, hdrawdown⟩ := h.latest
  have hclose : ∀ x y : ℚ, x = y → IsClose x y := by
    rintro x y rfl
    rw [IsClose, sub_self, abs_zero]
    norm_num
  refine bind_eq_ok.mpr ⟨_, h.identity, bind_eq_ok.mpr ⟨row, ?_, bind_eq_ok.mpr ⟨(), require_true ⟨rfl, (validate_identity h.identity).2⟩, ?_⟩⟩⟩
  · rw [← h.key_eq, h.found]
    rfl
  · dsimp only
    rw [← h.key_eq, latestOf_eq_getLast? hpairs, ho]
    refine bind_eq_ok.mpr ⟨(), require_true ⟨?_, ?_, ?_, hworst, ?_, hcount⟩, ?_⟩
    · exact h.starting ▸ h.positive
    · exact h.starting ▸ h.peak.2 (List.mem_map_of_mem hmem)
    · exact h.current ▸ h.nonneg
    · rw [h.count]
      exact List.length_pos_of_mem hmem
    · refine bind_eq_ok.mpr ⟨o, rfl, bind_eq_ok.mpr ⟨(), require_true h.sealed, bind_eq_ok.mpr ⟨(), require_true ?_, rfl⟩⟩⟩
      exact ⟨hhash, hat, hclose _ _ hequity, hclose _ _ hpeak, hclose _ _ hdrawdown⟩

/-- An observation of the scope at a time that is not after the last one. -/
theorem Tracked.again (h : Tracked H s row points first last) {c : EquityCall} {t : Utc} {equity : ℚ}
    (hid : validateFunctionalTestEquityIdentity c.permitId c.accountFingerprint = .ok ⟨row.permitId, row.accountFingerprint⟩)
    (hpoint : c.point = some (t, equity)) :
    (t.micros < last.1.micros → ∃ e, recordObservation H s c = .error e) ∧
    (t = last.1 → ¬ IsClose equity last.2 → ∃ e, recordObservation H s c = .error e) ∧
    (t = last.1 → 0 ≤ equity → IsClose equity last.2 →
      recordObservation H s c = .ok ⟨⟨row.permitId, row.accountFingerprint⟩, s, false⟩) := by
  have hraw : c.observedAt = .utc t ∧ c.currentEquity = some equity := by
    unfold EquityCall.point at hpoint
    split at hpoint
    case h_1 ht hequity =>
      obtain ⟨rfl, rfl⟩ := Prod.mk.inj (Option.some.inj hpoint)
      exact ⟨ht, hequity⟩
    case h_2 => cases hpoint
  obtain ⟨hat, hequity⟩ := hraw
  have hfound : s.scopes.get? (H.keyOf ⟨row.permitId, row.accountFingerprint⟩) = some row := h.key_eq ▸ h.found
  have hrecord : recordObservation H s c = (require (0 ≤ equity) (.value "functional-test-equity-value-invalid") >>= fun _ =>
      observeAgain H s row ⟨row.permitId, row.accountFingerprint⟩ equity t.isoformat c.nonce) := by
    rw [recordObservation, hid, ok_bind, hequity, hat]
    simp only [orRaise, ok_bind, utcObservationText, hfound]
  have hbound : row.permitId = row.permitId ∧ lower row.accountFingerprint = row.accountFingerprint :=
    ⟨rfl, (validate_identity h.identity).2⟩
  refine ⟨fun hlt => ?_, fun hsame hfar => ?_, fun hsame hnonneg hclose => ?_⟩
  · by_cases hnonneg : 0 ≤ equity
    · have hearlier : t.isoformat < row.lastObservedAt := h.lastAt ▸ Utc.isoformat_lt_iff.mpr hlt
      rw [hrecord, require_true hnonneg, ok_bind, observeAgain, require_true hbound, ok_bind,
        require_false (not_not_intro hearlier)]
      exact ⟨_, rfl⟩
    · rw [hrecord, require_false hnonneg]
      exact ⟨_, rfl⟩
  · by_cases hnonneg : 0 ≤ equity
    · have hequal : t.isoformat = row.lastObservedAt := by rw [hsame, h.lastAt]
      rw [hrecord, require_true hnonneg, ok_bind, observeAgain, require_true hbound, ok_bind,
        require_true (hequal ▸ String.lt_irrefl _), ok_bind, if_pos hequal, require_false (h.current ▸ hfar)]
      exact ⟨_, rfl⟩
    · rw [hrecord, require_false hnonneg]
      exact ⟨_, rfl⟩
  · have hequal : t.isoformat = row.lastObservedAt := by rw [hsame, h.lastAt]
    rw [hrecord, require_true hnonneg, ok_bind, observeAgain, require_true hbound, ok_bind,
      require_true (hequal ▸ String.lt_irrefl _), ok_bind, if_pos hequal, require_true (h.current ▸ hclose)]
    rfl

end reading

/-! ## Every sequence of calls -/

/-- What a scope says about its accepted points, and how it answers the next call. -/
structure EquityLedger (H : EquityHashes) (s : EquityStore) (row : EquityScopeRow) (points : List (Utc × ℚ)) (first last : Utc × ℚ) :
    Prop where
  ends : points.head? = some first ∧ points.getLast? = some last
  starting : row.startingEquity = first.2
  current : row.currentEquity = last.2
  peak : IsPeak (equities points) row.peakEquity
  worst : IsDrawdown (equities points) row.worstDrawdown
  count : row.observationCount = points.length
  observedAt : row.firstObservedAt = first.1.isoformat ∧ row.lastObservedAt = last.1.isoformat
  read : functionalTestEquityScope H s row.permitId row.accountFingerprint = .ok row.toEquityScope
  older : ∀ c t equity, validateFunctionalTestEquityIdentity c.permitId c.accountFingerprint =
    .ok ⟨row.permitId, row.accountFingerprint⟩ → c.point = some (t, equity) → t.micros < last.1.micros →
    ∃ e, observeFunctionalTestEquity H s c = (s, .error e)
  conflict : ∀ c t equity, validateFunctionalTestEquityIdentity c.permitId c.accountFingerprint =
    .ok ⟨row.permitId, row.accountFingerprint⟩ → c.point = some (t, equity) → t = last.1 → ¬ IsClose equity last.2 →
    ∃ e, observeFunctionalTestEquity H s c = (s, .error e)
  replay : ∀ c t equity, validateFunctionalTestEquityIdentity c.permitId c.accountFingerprint =
    .ok ⟨row.permitId, row.accountFingerprint⟩ → c.point = some (t, equity) → t = last.1 → 0 ≤ equity → IsClose equity last.2 →
    observeFunctionalTestEquity H s c = (s, .ok row.toEquityScope)

theorem Tracked.ledger {H : EquityHashes} {s : EquityStore} {row : EquityScopeRow} {points : List (Utc × ℚ)} {first last : Utc × ℚ}
    (h : Tracked H s row points first last) : EquityLedger H s row points first last where
  ends := ⟨h.head, h.tail⟩
  starting := h.starting
  current := h.current
  peak := h.peak
  worst := h.worst
  count := h.count
  observedAt := ⟨h.firstAt, h.lastAt⟩
  read := h.read
  older := by
    rintro c t equity hid hpoint hlt
    obtain ⟨e, he⟩ := (h.again hid hpoint).1 hlt
    exact ⟨e, by rw [observeFunctionalTestEquity, he]⟩
  conflict := by
    rintro c t equity hid hpoint hsame hfar
    obtain ⟨e, he⟩ := (h.again hid hpoint).2.1 hsame hfar
    exact ⟨e, by rw [observeFunctionalTestEquity, he]⟩
  replay := by
    rintro c t equity hid hpoint hsame hnonneg hclose
    rw [observeFunctionalTestEquity, (h.again hid hpoint).2.2 hsame hnonneg hclose]
    exact congrArg (Prod.mk s) h.read

theorem observe_error {H : EquityHashes} {s : EquityStore} (hs : ∀ key, ∃ points, Tracks H key s points) {c : EquityCall} {e : Error}
    (h : (observeFunctionalTestEquity H s c).2 = .error e) : (observeFunctionalTestEquity H s c).1 = s := by
  rw [observeFunctionalTestEquity] at h ⊢
  cases hrecord : recordObservation H s c with
  | error _ => rfl
  | ok seen =>
    -- the reading after the commit never raises
    rw [hrecord] at h
    obtain ⟨equity, t, hid, -, hnonneg, hseen⟩ := recordObservation_records hrecord
    obtain ⟨points, hpoints⟩ := hs (H.keyOf seen.id)
    obtain ⟨hvalid, hlower⟩ := validate_identity hid
    obtain ⟨bound, hfound, hpermit, haccount⟩ := hseen.bound hlower
    rcases hpoints.record hvalid hnonneg hseen with ⟨hnone, -, -⟩ | ⟨row, first, last, hkey, htracked⟩
    · rw [hfound] at hnone
      cases hnone
    · obtain rfl : bound = row := by
        have hsame := htracked.found
        rw [hkey, hfound] at hsame
        exact Option.some.inj hsame
      have hstored : bound.accountFingerprint = seen.id.accountFingerprint :=
        (validate_identity htracked.identity).2.symm.trans haccount
      have hread := htracked.read
      rw [hpermit, hstored] at hread
      have hraise : functionalTestEquityScope H seen.store seen.id.permitId seen.id.accountFingerprint = .error e := h
      rw [hread] at hraise
      cases hraise

/-- **The equity ledger equals its definition.**  After any sequence of calls, accepted or rejected, a scope exists exactly
where points were accepted and is what `EquityLedger` says of them; a call that raises changes nothing; and times are in
the order of their texts. -/
theorem equity_ledger_is_drawdown (H : EquityHashes) (calls : List EquityCall) :
    (∀ key, (observeAll H .empty calls).scopes.get? key = none → acceptedPoints H key .empty calls = []) ∧
    (∀ row ∈ (observeAll H .empty calls).scopes.rows, ∃ first last,
      EquityLedger H (observeAll H .empty calls) row (acceptedPoints H row.key .empty calls) first last) ∧
    (∀ c e, (observeFunctionalTestEquity H (observeAll H .empty calls) c).2 = .error e →
      (observeFunctionalTestEquity H (observeAll H .empty calls) c).1 = observeAll H .empty calls) ∧
    ∀ (t t' : Utc) (text text' : String), utcObservationText (.utc t) = .ok text → utcObservationText (.utc t') = .ok text' →
      (text < text' ↔ t.micros < t'.micros) ∧ (text = text' ↔ t = t') := by
  have htracks : ∀ key, Tracks H key (observeAll H .empty calls) (acceptedPoints H key .empty calls) := fun key =>
    (tracks_empty key).run calls
  refine ⟨fun key hnone => ?_, fun row hrow => ?_, fun c e => observe_error fun key => ⟨_, htracks key⟩, ?_⟩
  · rcases htracks key with ⟨-, -, h⟩ | ⟨row, first, last, hkey, h⟩
    · exact h
    · rw [← hkey, h.found] at hnone
      cases hnone
  · have hget : (observeAll H .empty calls).scopes.get? row.key = some row := Table.get?_of_mem hrow
    rcases htracks row.key with ⟨hnone, -, -⟩ | ⟨row', first, last, hkey, h⟩
    · rw [hget] at hnone
      cases hnone
    · obtain rfl : row = row' := by
        have hfound := h.found
        rw [hkey, hget] at hfound
        exact Option.some.inj hfound
      exact ⟨first, last, h.ledger⟩
  · rintro t t' text text' htext htext'
    obtain rfl := Except.ok.inj htext
    obtain rfl := Except.ok.inj htext'
    exact ⟨Utc.isoformat_lt_iff, Utc.isoformat_inj, fun h => h ▸ rfl⟩

/-! ### Three calls -/

def sampleEquityHashes : EquityHashes where
  scopeKey permit account := permit ++ "/" ++ account
  point p := p.previousHash ++ "|" ++ p.observedAt
  scope _ := "scope"

theorem sample_date : (1 ≤ 2026 ∧ 2026 ≤ 9999) ∧ (1 ≤ 8 ∧ 8 ≤ 12) ∧ 1 ≤ 5 ∧ 5 ≤ daysInMonth 2026 8 := by decide

theorem sample_clock (second : Fin 60) : 0 < 24 ∧ 0 < 60 ∧ second.val < 60 ∧ 0 < 1000000 :=
  ⟨by norm_num, by norm_num, second.isLt, by norm_num⟩

/-- A second of the fifth of August. -/
def sampleTime (second : Fin 60) : Utc := ⟨2026, 8, 5, 0, 0, second, 0, sample_date, sample_clock second⟩

def sampleEquityCall (t : Utc) (equity : ℚ) (nonce : String) : EquityCall :=
  ⟨"permit", "0123456789abcdef", some equity, .utc t, true, nonce⟩

/-- A gain of ten and a loss of thirty, with an older point in between. -/
def sampleEquityCalls : List EquityCall :=
  [sampleEquityCall (sampleTime 1) 100 "a", sampleEquityCall (sampleTime 2) 110 "b",
    sampleEquityCall (sampleTime 1) 90 "c", sampleEquityCall (sampleTime 3) 80 "d"]

theorem sample_equity_ledger : ∃ row ∈ (observeAll sampleEquityHashes .empty sampleEquityCalls).scopes.rows,
    row.worstDrawdown = 30 ∧ row.observationCount = 3 ∧ ∃ first last, EquityLedger sampleEquityHashes
      (observeAll sampleEquityHashes .empty sampleEquityCalls) row (acceptedPoints sampleEquityHashes row.key .empty sampleEquityCalls)
      first last := by
  obtain ⟨row, hrow, hworst, hcount⟩ : ∃ row ∈ (observeAll sampleEquityHashes .empty sampleEquityCalls).scopes.rows,
      row.worstDrawdown = 30 ∧ row.observationCount = 3 := by decide +kernel
  exact ⟨row, hrow, hworst, hcount, (equity_ledger_is_drawdown sampleEquityHashes sampleEquityCalls).2.1 row hrow⟩

/-- **An equity that is off by less than the tolerance is no conflict**: it is answered as a replay. -/
theorem near_equity_is_replayed : ∃ (t : Utc) (equity other : ℚ), equity ≠ other ∧
    ∃ s, s = observeAll sampleEquityHashes .empty [sampleEquityCall t equity "a"] ∧
    acceptedPoints sampleEquityHashes "permit/0123456789abcdef" .empty [sampleEquityCall t equity "a"] = [(t, equity)] ∧
    (observeFunctionalTestEquity sampleEquityHashes s (sampleEquityCall t other "b")).2.isOk = true := by
  refine ⟨sampleTime 1, 100, 100 + 1 / (2 * 10 ^ 9), by norm_num, _, rfl, ?_⟩
  decide +kernel

end LiveTrader.ProgramLedger
