/-
# `ProgramLedger.Permits` — order slots of functional-test permits

The table `functional_test_order_reservations`, the call that consumes an order slot
of a permit, the counter, and the call that records how an order went.  Each call is
one transaction, so calls of any number of connections are a list of steps; one that
is not `written` raises and changes nothing.

Over every run the grants of a permit are its stored reservations: a slot is taken by
an insertion under a free key, and nothing deletes or renames a row.
-/
import LiveTrader.Lib.Python
import LiveTrader.Lib.Runs
import LiveTrader.Lib.Table

namespace LiveTrader.ProgramLedger

open Lib Lib.Py Lib.Runs

/-! ## The table and its calls -/

structure Reservation where
  idempotencyKey : String
  permitId : String
  orderId : String
  reservedAt : String
  state : String
  deriving DecidableEq

abbrev Reservations := Table Reservation.idempotencyKey

/-- `SELECT COUNT(*) … WHERE permit_id=?`. -/
def countOf (t : Reservations) (permit : String) : ℕ := t.rows.countP (·.permitId = permit)

/-- What `reserve_functional_test_order` returns. -/
structure Answer where
  allowed : Bool
  created : Bool
  count : ℕ
  reservation : Option Reservation
  reason : String

/-- The arguments of a reservation; `now` is the clock it falls back to. -/
structure Request where
  permitId : String
  idempotencyKey : String
  orderId : String
  maximumOrders : ℤ
  reservedAt : String
  now : String

/-- `reserve_functional_test_order`. -/
def reserveFunctionalTestOrder (t : Reservations) (r : Request) : Result (Reservations × Answer) := do
  let permit := strip r.permitId
  let key := strip r.idempotencyKey
  let order := strip r.orderId
  require (permit ≠ "") (.value "functional-test-permit-id-required")
  require (key ≠ "") (.value "functional-test-idempotency-key-required")
  require (order ≠ "") (.value "functional-test-order-id-required")
  require (0 < r.maximumOrders) (.value "functional-test-maximum-orders-invalid")
  match t.get? key with
  | some item =>
    pure (t, {
      allowed := false
      created := false
      count := countOf t permit
      reservation := some item
      reason := if item.permitId = permit then "functional-test-order-slot-already-reserved"
        else "functional-test-idempotency-permit-mismatch" })
  | none =>
    let count := countOf t permit
    if r.maximumOrders ≤ count then
      pure (t, ⟨false, false, count, none, "functional-test-order-count-reservation-exhausted"⟩)
    else do
      let row : Reservation := ⟨key, permit, order, orElse r.reservedAt r.now, "RESERVED"⟩
      let t' ← orRaise (.integrity "functional_test_order_reservations.idempotency_key") (t.insert row)
      pure (t', ⟨true, true, count + 1, some row, "functional-test-order-slot-reserved"⟩)

/-- `functional_test_reservation_count`. -/
def functionalTestReservationCount (t : Reservations) (permitId excluded : String) : ℕ :=
  let permit := strip permitId
  let excluded := strip excluded
  if permit = "" then 0
  else if excluded = "" then countOf t permit
  else t.rows.countP fun row => row.permitId = permit ∧ row.idempotencyKey ≠ excluded

def Reservation.moved (state : String) (row : Reservation) : Reservation := { row with state }

theorem Reservation.moved_key (state : String) (row : Reservation) :
    (row.moved state).idempotencyKey = row.idempotencyKey := rfl

/-- `UPDATE … SET state=? WHERE idempotency_key=?`. -/
def setState (t : Reservations) (key state : String) : Reservations :=
  t.update key (Reservation.moved state) (Reservation.moved_key state)

/-- `update_functional_test_reservation`, and whether it found its row. -/
def updateFunctionalTestReservation (t : Reservations) (idempotencyKey state : String) :
    Reservations × Bool :=
  let key := strip idempotencyKey
  (setState t key (upper (strip (orElse state "UNKNOWN"))), (t.get? key).isSome)

/-! ## Runs -/

/-- A granted request, under its normalised names. -/
structure Grant where
  permitId : String
  idempotencyKey : String

structure System where
  table : Reservations
  /-- The requests that were made and those that were granted. -/
  asked : List Request
  granted : List Grant

namespace System

def init : System := ⟨.empty, [], []⟩

def grantsOf (s : System) (permit : String) : ℕ := s.granted.countP (·.permitId = permit)

end System

inductive Action where
  | reserve (r : Request) (written : Bool)
  | update (idempotencyKey state : String) (written : Bool)

/-- One call of any connection. -/
def step (s : System) : Action → Option System
  | .reserve r written =>
    let asked := s.asked ++ [r]
    match written, reserveFunctionalTestOrder s.table r with
    | true, .ok (t, answer) =>
      some ⟨t, asked, if answer.allowed
        then s.granted ++ [⟨strip r.permitId, strip r.idempotencyKey⟩] else s.granted⟩
    | _, _ => some { s with asked }
  | .update key state written =>
    if written then some { s with table := (updateFunctionalTestReservation s.table key state).1 }
    else some s

variable {t t' : Reservations} {s s' : System}

/-! ## What the calls do -/

/-- A reservation is refused and changes nothing, or it is granted under a free key below
the maximum. -/
theorem reserve_eq_ok {r : Request} {answer : Answer}
    (h : reserveFunctionalTestOrder t r = .ok (t', answer)) :
    (t' = t ∧ answer.allowed = false ∧ answer.count = countOf t (strip r.permitId)) ∨
    (answer.allowed = true ∧ answer.count = countOf t (strip r.permitId) + 1 ∧
      (countOf t (strip r.permitId) : ℤ) < r.maximumOrders ∧ strip r.permitId ≠ "" ∧
      ∃ row, t.insert row = some t' ∧ row.permitId = strip r.permitId ∧
        row.idempotencyKey = strip r.idempotencyKey) := by
  simp only [reserveFunctionalTestOrder, bind_eq_ok, require_eq_ok] at h
  obtain ⟨-, hpermit, -, -, -, -, -, -, h⟩ := h
  split at h
  · rw [pure_eq_ok] at h
    cases h
    exact .inl ⟨rfl, rfl, rfl⟩
  · split at h
    · rw [pure_eq_ok] at h
      cases h
      exact .inl ⟨rfl, rfl, rfl⟩
    · next hbelow =>
      simp only [bind_eq_ok, orRaise_eq_ok, pure_eq_ok] at h
      obtain ⟨t'', hinsert, h⟩ := h
      cases h
      exact .inr ⟨rfl, rfl, not_le.mp hbelow, hpermit, _, hinsert, rfl, rfl⟩

theorem countOf_insert {row : Reservation} (h : t.insert row = some t') (permit : String) :
    countOf t' permit = countOf t permit + if row.permitId = permit then 1 else 0 := by
  rw [countOf, Table.insert_rows h, List.countP_append, List.countP_singleton]
  simp only [countOf, decide_eq_true_eq]

theorem countOf_setState (key state permit : String) :
    countOf (setState t key state) permit = countOf t permit := by
  simp only [countOf, setState, Table.update, List.countP_map]
  congr 1
  funext row
  simp only [Function.comp]
  split <;> rfl

/-- Everything of a reservation but its state. -/
def Reservation.frozen (row : Reservation) : String × String × String × String :=
  (row.idempotencyKey, row.permitId, row.orderId, row.reservedAt)

theorem frozen_setState (key state : String) :
    (setState t key state).rows.map Reservation.frozen = t.rows.map Reservation.frozen := by
  simp only [setState, Table.update, List.map_map]
  congr 1
  funext row
  simp only [Function.comp]
  split <;> rfl

/-! ## The steps -/

inductive Step (s : System) : System → Prop
  | asked (r : Request) : Step s { s with asked := s.asked ++ [r] }
  | granted {row : Reservation} {t : Reservations} (r : Request) :
      (countOf s.table row.permitId : ℤ) < r.maximumOrders → row.permitId ≠ "" →
      strip r.permitId = row.permitId → s.table.insert row = some t →
      Step s ⟨t, s.asked ++ [r], s.granted ++ [⟨row.permitId, row.idempotencyKey⟩]⟩
  | updated (key state : String) : Step s { s with table := setState s.table key state }
  | stay : Step s s

theorem step_cases {a : Action} (h : step s a = some s') : Step s s' := by
  cases a with
  | reserve r written =>
    unfold step at h
    dsimp only at h
    split at h
    · next t answer hreserve =>
      cases h
      rcases reserve_eq_ok hreserve with
        ⟨rfl, hrefused, -⟩ | ⟨hallowed, -, hbelow, hpermit, row, hinsert, hrow, hkey⟩
      · rw [if_neg (by simp [hrefused])]
        exact .asked r
      · rw [if_pos hallowed, ← hrow, ← hkey]
        rw [← hrow] at hbelow hpermit
        exact .granted r hbelow hpermit hrow.symm hinsert
    · cases h
      exact .asked r
  | update key state written =>
    unfold step at h
    dsimp only at h
    split at h
    · cases h
      exact .updated _ _
    · cases h
      exact .stay

/-! ## The invariant -/

structure Inv (s : System) : Prop where
  /-- The grants of a permit are its reservations. -/
  grants : ∀ permit, s.grantsOf permit = countOf s.table permit
  named : ∀ row ∈ s.table.rows, row.permitId ≠ ""
  once : (s.granted.map Grant.idempotencyKey).Nodup
  stored : ∀ g ∈ s.granted, (s.table.get? g.idempotencyKey).isSome
  /-- The last grant of a permit was below the maximum of its request. -/
  bounded : ∀ permit, s.grantsOf permit = 0 ∨
    ∃ r ∈ s.asked, strip r.permitId = permit ∧ (s.grantsOf permit : ℤ) ≤ r.maximumOrders

theorem inv_init : Inv .init where
  grants permit := rfl
  named row h := by cases h
  once := List.nodup_nil
  stored g h := by cases h
  bounded permit := .inl rfl

theorem Inv.step {a : Action} (h : Inv s) (hstep : ProgramLedger.step s a = some s') : Inv s' := by
  -- a maximum that was asked for stays asked for
  have hasked : ∀ (r : Request) (permit : String) (n : ℤ),
      (∃ r ∈ s.asked, strip r.permitId = permit ∧ n ≤ r.maximumOrders) →
      ∃ r' ∈ s.asked ++ [r], strip r'.permitId = permit ∧ n ≤ r'.maximumOrders := by
    rintro r permit n ⟨r', hr', hbound⟩
    exact ⟨r', List.mem_append_left _ hr', hbound⟩
  cases step_cases hstep with
  | stay => exact h
  | asked r =>
    refine { h with bounded := fun permit => ?_ }
    exact (h.bounded permit).imp_right (hasked r permit _)
  | updated key state =>
    refine { h with grants := ?_, named := ?_, stored := ?_ }
    · intro permit
      rw [countOf_setState]
      exact h.grants permit
    · intro row hrow
      obtain ⟨row', hrow', rfl⟩ := List.mem_map.mp hrow
      split
      · exact h.named row' hrow'
      · exact h.named row' hrow'
    · intro g hg
      change ((setState s.table key state).get? _).isSome
      rw [setState, Table.get?_update, Option.isSome_map]
      exact h.stored g hg
  | @granted row t r hbelow hnamed hpermit hinsert =>
    have hgrants : ∀ permit, System.grantsOf ⟨t, s.asked ++ [r],
        s.granted ++ [⟨row.permitId, row.idempotencyKey⟩]⟩ permit =
          s.grantsOf permit + if row.permitId = permit then 1 else 0 := by
      intro permit
      simp only [System.grantsOf, List.countP_append, List.countP_singleton, decide_eq_true_eq]
    refine ⟨?_, ?_, ?_, ?_, ?_⟩
    · intro permit
      rw [hgrants, h.grants, countOf_insert hinsert]
    · intro row' hrow'
      rw [Table.insert_rows hinsert] at hrow'
      rcases List.mem_append.mp hrow' with hrow' | hrow'
      · exact h.named row' hrow'
      · obtain rfl := List.mem_singleton.mp hrow'
        exact hnamed
    · -- the key was free, and every granted key is stored
      rw [List.map_append, List.nodup_append]
      refine ⟨h.once, List.nodup_singleton _, ?_⟩
      rintro key hkey _ hlast rfl
      obtain ⟨g, hg, rfl⟩ := List.mem_map.mp hkey
      obtain hsame := List.mem_singleton.mp hlast
      have hstored := h.stored g hg
      rw [hsame, Table.get?_of_insert hinsert] at hstored
      cases hstored
    · intro g hg
      rw [Table.get?_insert hinsert]
      split
      · rfl
      · next hne =>
        rcases List.mem_append.mp hg with hg | hg
        · exact h.stored g hg
        · obtain rfl := List.mem_singleton.mp hg
          exact absurd rfl hne
    · intro permit
      rw [hgrants]
      by_cases hsame : row.permitId = permit
      · subst hsame
        right
        refine ⟨r, List.mem_append_right _ List.mem_cons_self, hpermit, ?_⟩
        rw [if_pos rfl, h.grants]
        omega
      · rw [if_neg hsame, Nat.add_zero]
        exact (h.bounded permit).imp_right (hasked r permit _)

/-- No step removes a reservation or changes more of it than its state. -/
theorem step_frozen {a : Action} (h : step s a = some s') :
    s.table.rows.map Reservation.frozen <+: s'.table.rows.map Reservation.frozen := by
  cases step_cases h with
  | stay => exact List.prefix_refl _
  | asked => exact List.prefix_refl _
  | updated key state => exact (frozen_setState key state).symm ▸ List.prefix_refl _
  | granted r hbelow hnamed hpermit hinsert =>
    rw [Table.insert_rows hinsert, List.map_append]
    exact List.prefix_append _ _

/-! ## Permits are never over-spent -/

/-- **Permits are never over-spent.**  In every run: a key is granted at most once; the
grants of a permit do not exceed the largest maximum asked for with it; no reservation
goes away or is freed; a repeated key takes nothing; and every count that is reported
is the number of stored reservations. -/
theorem permits_never_overspent {acts : List Action} (h : Run step Free .init acts s) :
    (∀ key, s.granted.countP (·.idempotencyKey = key) ≤ 1) ∧
    (∀ permit, s.grantsOf permit = 0 ∨ ∃ r ∈ s.asked, strip r.permitId = permit ∧
      (s.grantsOf permit : ℤ) ≤ r.maximumOrders) ∧
    (∀ permit, s.grantsOf permit = countOf s.table permit) ∧
    (∀ {acts' : List Action} {t : System}, Run step Free s acts' t →
      s.table.rows.map Reservation.frozen <+: t.table.rows.map Reservation.frozen) ∧
    (∀ key state permit,
      countOf (updateFunctionalTestReservation s.table key state).1 permit = countOf s.table permit) ∧
    (∀ r t answer, reserveFunctionalTestOrder s.table r = .ok (t, answer) →
      answer.count = countOf t (strip r.permitId) ∧
        ((s.table.get? (strip r.idempotencyKey)).isSome → t = s.table ∧ answer.allowed = false)) ∧
    ∀ permit, functionalTestReservationCount s.table permit "" = countOf s.table (strip permit) := by
  have hinv : Inv s := h.invariant (fun _ hstep hs => hs.step hstep) inv_init
  refine ⟨?_, hinv.bounded, hinv.grants, ?_, ?_, ?_, ?_⟩
  · intro key
    have hcount := List.nodup_iff_count_le_one.mp hinv.once key
    rw [List.count, List.countP_map] at hcount
    refine le_trans (le_of_eq (List.countP_congr fun g _ => ?_)) hcount
    simp
  · intro acts' t hrun
    exact hrun.relation
      (R := fun s t => s.table.rows.map Reservation.frozen <+: t.table.rows.map Reservation.frozen)
      (fun s => List.prefix_refl _) List.IsPrefix.trans fun _ hstep => step_frozen hstep
  · intro key state permit
    exact countOf_setState _ _ permit
  · intro r t answer hreserve
    rcases reserve_eq_ok hreserve with
      ⟨rfl, hrefused, hcount⟩ | ⟨hallowed, hcount, -, -, row, hinsert, hrow, hkey⟩
    · exact ⟨hcount, fun _ => ⟨rfl, hrefused⟩⟩
    · refine ⟨?_, fun hthere => ?_⟩
      · rw [hcount, countOf_insert hinsert, if_pos hrow]
      · rw [← hkey, Table.get?_of_insert hinsert] at hthere
        cases hthere
  · intro permit
    have hblank : strip "" = "" := by decide
    simp only [functionalTestReservationCount, hblank]
    split
    · next hempty =>
      -- no reservation has an empty permit
      rw [hempty]
      refine (List.countP_eq_zero.mpr fun row hrow => ?_).symm
      simpa using hinv.named row hrow
    · rfl

/-- Two requests for a permit of one order, and the first one again. -/
def samplePermit : List Action :=
  let request (key : String) : Request := ⟨"permit", key, "o-" ++ key, 1, "", "2026-01-05"⟩
  [.reserve (request "k1") true, .reserve (request "k2") true, .update "k1" "filled" true,
    .reserve (request "k1") true]

theorem samplePermit_grants_once : ∃ s : System, s.grantsOf "permit" = 1 ∧
    s.granted.countP (·.idempotencyKey = "k1") = 1 ∧
    ∀ key, s.granted.countP (·.idempotencyKey = key) ≤ 1 := by
  obtain ⟨s, hs, hone, hkey⟩ : ∃ s, runAll step .init samplePermit = some s ∧
      s.grantsOf "permit" = 1 ∧ s.granted.countP (·.idempotencyKey = "k1") = 1 := by decide
  exact ⟨s, hone, hkey, (permits_never_overspent (free_of_runAll hs)).1⟩

end LiveTrader.ProgramLedger
