/-
# `Terminal.Attribution` — every order is attributed once

Runs of `put` and `get` on one cache.  The invariant says where a row comes from: it
is the body of an accepted `put`, no earlier accepted `put` has one of its keys, and
every accepted `put` has the row of its own identity.  Lookup is then a question of
which rows share a key with an identity.
-/
import LiveTrader.Terminal.Cache
import LiveTrader.Lib.Runs
import LiveTrader.Lib.JsonText

namespace LiveTrader.Terminal

open Lib Lib.Py Lib.Decimal Lib.Runs

variable {env : Env} {c c' : Cache}

/-! ## The cache -/

theorem Cache.insert_rows {row : Row} (h : c.insert row = some c') : c'.rows = c.rows ++ [row] := by
  rw [Cache.insert] at h
  split at h
  · cases h
  · split at h
    · cases h
    · next htable =>
      cases h
      exact Table.insert_rows htable

theorem Cache.mem_find {slot broker : String} {row : Row} :
    row ∈ c.find slot broker ↔ row ∈ c.rows ∧ (row.slotKey = slot ∨ row.brokerKey = broker) := by
  simp [Cache.find]

/-- Two rows that share a key are one row. -/
theorem Cache.row_unique {row row' : Row} (h : row ∈ c.rows) (h' : row' ∈ c.rows)
    (hkey : row.slotKey = row'.slotKey ∨ row.brokerKey = row'.brokerKey) : row = row' := by
  rcases hkey with hslot | hbroker
  · exact List.inj_on_of_nodup_map c.table.unique h h' hslot
  · exact List.inj_on_of_nodup_map c.unique h h' hbroker

theorem Cache.rows_nodup (c : Cache) : c.rows.Nodup := List.Nodup.of_map _ c.unique

/-- The row with both keys is the only one a lookup finds. -/
theorem Cache.find_eq_singleton {row : Row} (h : row ∈ c.rows) :
    c.find row.slotKey row.brokerKey = [row] := by
  have hfind : ∀ row', row' ∈ c.find row.slotKey row.brokerKey ↔ row' = row := by
    intro row'
    rw [Cache.mem_find]
    constructor
    · rintro ⟨h', hkey⟩
      exact Cache.row_unique h' h hkey
    · rintro rfl
      exact ⟨h, .inl rfl⟩
  have hnodup : (c.find row.slotKey row.brokerKey).Nodup := c.rows_nodup.filter _
  exact List.perm_singleton.mp ((List.perm_ext_iff_of_nodup hnodup (List.nodup_singleton row)).mpr
    fun row' => (hfind row').trans List.mem_singleton.symm)

/-! ## What the operations do -/

theorem corruptOr_eq_ok {α : Type} {x : Result α} {a : α} : corruptOr x = .ok a ↔ x = .ok a := by
  unfold corruptOr
  split <;> simp

/-- A row is decoded for the identity it holds. -/
theorem decode_eq_ok {row : Row} {identity body : Fields} (h : decode env row identity = .ok body) :
    body = row.payload ∧ ∃ stored, row.payload.at "identity" = .obj stored ∧
      (Json.obj stored).eq (.obj identity) = true := by
  simp only [decode, corruptOr_eq_ok, bind_eq_ok, require_eq_ok, pure_eq_ok] at h
  obtain ⟨-, -, -, -, stored, hstored, ⟨slot, broker⟩, -, -, -, -, heq, rfl⟩ := h
  refine ⟨rfl, stored, ?_, heq⟩
  unfold Json.fields at hstored
  split at hstored
  · next hobj =>
    cases hstored
    exact hobj
  · cases hstored

/-- A lookup finds nothing or one row that decodes. -/
theorem lookup_eq_ok {slot broker : String} {identity : Fields} {found : Option Fields}
    (h : lookup env c slot broker identity = .ok found) :
    (found = none ∧ c.find slot broker = []) ∨
    ∃ row, c.find slot broker = [row] ∧ decode env row identity = .ok row.payload ∧
      found = some row.payload := by
  unfold lookup at h
  split at h
  · next hfind =>
    cases h
    exact .inl ⟨rfl, hfind⟩
  · next row hfind =>
    simp only [bind_eq_ok, pure_eq_ok] at h
    obtain ⟨body, hdecode, rfl⟩ := h
    obtain ⟨rfl, -⟩ := decode_eq_ok hdecode
    exact .inr ⟨row, hfind, hdecode, rfl⟩
  · cases h

theorem checkIdentity_obj {value : Json} {identity : Fields}
    (h : checkIdentity env value = .ok identity) : value = .obj identity := by
  simp only [checkIdentity, bind_eq_ok, orRaise_eq_ok, require_eq_ok] at h
  obtain ⟨d, hd, -, -, known, -, -, -, -, -, -, -, side, -, -, -, h⟩ := h
  have hvalue : value = .obj d := by
    cases value <;> simp_all [Json.fields?]
  have hident : d = identity := by
    split at h
    · simp only [bind_eq_ok, pure_eq_ok] at h
      obtain ⟨_, _, _, _, h⟩ := h
      exact h
    · simpa using h
  rw [hvalue, hident]

/-! ## Receipts -/

/-- The event that names a receipt. -/
def eventOf (identity : Fields) (receipt : Json) : Option Json :=
  receipt.fields?.map (·.at (if isKis identity then "eventKey" else "eventId"))

/-- The quantity of a receipt. -/
def quantityOf (env : Env) (receipt : Json) : Option ℚ :=
  receipt.fields?.bind fun d =>
    (decimalValue env.codec (d.at "quantity") "verified terminal quantity" true).toOption

/-- The receipts have distinct events, and their quantities, added up in the default
context, are the executed quantity of the proof; so is their exact sum if no partial
sum has more than 28 digits. -/
structure Adds (env : Env) (identity : Fields) (receipts proof : Json) : Prop where
  intro ::
  sums : ∃ (rows : List Json) (executed : ℚ) (events : List String) (quantities : List ℚ),
    receipts = .arr rows ∧ rows.map (eventOf identity) = events.map (some <| .str ·) ∧ events.Nodup ∧
    rows.map (quantityOf env) = quantities.map some ∧
    (∃ d : Fields, proof = .obj d ∧ decimalValue env.codec (d.at "executedQuantity")
      "complete terminal executed quantity" false = .ok executed) ∧
    ctxSum 28 quantities = executed ∧
    ((∀ part, part <+: quantities → Fits 28 part.sum) → quantities.sum = executed)

theorem kisReceipt_event {identity receipt : Fields} {quantity : ℚ} {event : Json}
    (h : kisReceipt env identity receipt quantity = .ok event) : event = receipt.at "eventKey" := by
  simp only [kisReceipt, bind_eq_ok, pure_eq_ok] at h
  obtain ⟨_, _, _, _, _, _, rfl⟩ := h
  rfl

theorem spotReceipt_event {identity receipt : Fields} {event : Json}
    (h : spotReceipt env identity receipt = .ok event) : event = receipt.at "eventId" := by
  simp only [spotReceipt, bind_eq_ok, pure_eq_ok] at h
  obtain ⟨_, _, _, _, _, _, _, _, _, _, _, _, _, _, rfl⟩ := h
  rfl

/-- One receipt adds its quantity and a new event. -/
theorem addReceipt_eq_ok {identity : Fields} {t t' : Tally} {value : Json}
    (h : addReceipt env identity t value = .ok t') :
    ∃ event quantity, eventOf identity value = some (.str event) ∧ event ∉ t.events ∧
      quantityOf env value = some quantity ∧
      t' = ⟨ctx 28 (t.total + quantity), event :: t.events⟩ := by
  simp only [addReceipt, bind_eq_ok, require_eq_ok] at h
  obtain ⟨receipt, hreceipt, -, -, quantity, hquantity, event, hevent, h⟩ := h
  have hvalue : value.fields? = some receipt := by
    cases value <;> simp_all [Json.fields, Json.fields?]
  have hat : event = receipt.at (if isKis identity then "eventKey" else "eventId") := by
    rw [receiptEvent] at hevent
    split at hevent
    · next hkis =>
      rw [if_pos hkis]
      exact kisReceipt_event hevent
    · next hkis =>
      rw [if_neg hkis]
      exact spotReceipt_event hevent
  split at h
  · next name =>
    simp only [bind_eq_ok, require_eq_ok, pure_eq_ok] at h
    obtain ⟨-, ⟨-, hnew⟩, rfl⟩ := h
    refine ⟨name, quantity, ?_, hnew, ?_, rfl⟩
    · rw [eventOf, hvalue, Option.map_some, ← hat]
    · rw [quantityOf, hvalue, Option.bind_some, hquantity]
      rfl
  · cases h

theorem foldlM_addReceipt {identity : Fields} {rows : List Json} {t t' : Tally}
    (h : rows.foldlM (addReceipt env identity) t = .ok t') (hnodup : t.events.Nodup) :
    ∃ (events : List String) (quantities : List ℚ),
      rows.map (eventOf identity) = events.map (some <| .str ·) ∧
      rows.map (quantityOf env) = quantities.map some ∧
      t'.total = quantities.foldl (fun acc x => ctx 28 (acc + x)) t.total ∧
      t'.events = events.reverse ++ t.events ∧ t'.events.Nodup := by
  induction rows generalizing t with
  | nil =>
    cases h
    exact ⟨[], [], rfl, rfl, rfl, rfl, hnodup⟩
  | cons row rows ih =>
    rw [List.foldlM_cons, bind_eq_ok] at h
    obtain ⟨t₁, hrow, h⟩ := h
    obtain ⟨event, quantity, hevent, hnew, hquantity, rfl⟩ := addReceipt_eq_ok hrow
    obtain ⟨events, quantities, hevents, hquantities, htotal, htevents, hnodup'⟩ :=
      ih h (List.nodup_cons.mpr ⟨hnew, hnodup⟩)
    refine ⟨event :: events, quantity :: quantities, ?_, ?_, htotal, ?_, hnodup'⟩
    · rw [List.map_cons, hevent, hevents, List.map_cons]
    · rw [List.map_cons, hquantity, hquantities, List.map_cons]
    · rw [htevents, List.reverse_cons, List.append_assoc, List.singleton_append]

/-- A rounded sum is exact while every partial sum fits. -/
theorem foldl_ctx_of_fits {prec : ℕ} {quantities : List ℚ} {acc : ℚ}
    (h : ∀ part, part <+: quantities → Fits prec (acc + part.sum)) :
    quantities.foldl (fun acc x => ctx prec (acc + x)) acc = acc + quantities.sum := by
  induction quantities generalizing acc with
  | nil => simp
  | cons q quantities ih =>
    have hq : ctx prec (acc + q) = acc + q := by
      refine ctx_of_fits ?_
      simpa using h [q] (List.prefix_append [q] quantities)
    rw [List.foldl_cons, hq, ih, List.sum_cons, add_assoc]
    intro part hpart
    have hcons := h (q :: part) (List.cons_prefix_cons.mpr ⟨rfl, hpart⟩)
    rwa [List.sum_cons, ← add_assoc] at hcons

theorem validate_adds {identity : Fields} {receipts proof : Json}
    (h : validate env (.obj identity) receipts proof = .ok ()) :
    Adds env identity receipts proof := by
  simp only [validate, bind_eq_ok, orRaise_eq_ok, require_eq_ok] at h
  obtain ⟨identity', hidentity, rows, hrows, -, -, d, hd, -, -, t, htally, executed, hexecuted, -,
    htotal, -⟩ := h
  cases checkIdentity_obj hidentity
  have hreceipts : receipts = .arr rows := by
    cases receipts <;> simp_all [Json.items?]
  have hproof : proof = .obj d := by
    cases proof <;> simp_all [Json.fields?]
  obtain ⟨events, quantities, hevents, hquantities, hsum, hnames, hnodup⟩ :=
    foldlM_addReceipt htally List.nodup_nil
  refine ⟨rows, executed, events, quantities, hreceipts, hevents, ?_, hquantities,
    ⟨d, hproof, hexecuted⟩, ?_, ?_⟩
  · rw [hnames, List.append_nil, List.nodup_reverse] at hnodup
    exact hnodup
  · rw [← htotal, hsum]
    rfl
  · intro hfits
    rw [← htotal, hsum, foldl_ctx_of_fits, zero_add]
    simpa using hfits

/-! ## `get` and `put` -/

/-- An accepted call of `put`. -/
structure Put where
  identity : Fields
  receipts : Json
  proof : Json

def Put.body (p : Put) : Fields := bodyOf p.identity p.receipts p.proof

/-- What `get` returns is the one row found, for the identity it holds. -/
theorem get_eq_ok {identity : Json} {body : Fields} (h : get env c identity = .ok (some body)) :
    ∃ d slot broker row stored, identity = .obj d ∧ keys env d = .ok (slot, broker) ∧
      c.find slot broker = [row] ∧ body = row.payload ∧
      row.payload.at "identity" = .obj stored ∧ (Json.obj stored).eq identity = true := by
  simp only [get, bind_eq_ok] at h
  obtain ⟨d, hd, ⟨slot, broker⟩, hkeys, h⟩ := h
  obtain rfl := checkIdentity_obj hd
  rcases lookup_eq_ok h with ⟨hnone, -⟩ | ⟨row, hfind, hdecode, hsome⟩
  · cases hnone
  · cases hsome
    obtain ⟨-, stored, hstored, heq⟩ := decode_eq_ok hdecode
    exact ⟨d, slot, broker, row, stored, rfl, hkeys, hfind, rfl, hstored, heq⟩

/-- An accepted `put` inserts a row under free keys, or repeats the body of the one row
that is found. -/
theorem put_eq_ok {identity receipts proof : Json} {new : Bool}
    (h : put env c identity receipts proof = .ok (c', new)) :
    ∃ d slot broker, identity = .obj d ∧ keys env d = .ok (slot, broker) ∧
      validate env (.obj d) receipts proof = .ok () ∧
      ((c.find slot broker = [] ∧ c'.rows = c.rows ++
          [⟨slot, broker, bodyOf d receipts proof, env.sha256 (.obj (bodyOf d receipts proof))⟩]) ∨
        c' = c ∧ ∃ row, c.find slot broker = [row] ∧
          (Json.obj row.payload).eq (.obj (bodyOf d receipts proof)) = true) := by
  simp only [put, bind_eq_ok] at h
  obtain ⟨d, hd, ⟨⟩, hvalid, ⟨slot, broker⟩, hkeys, found, hfound, h⟩ := h
  refine ⟨d, slot, broker, checkIdentity_obj hd, hkeys, hvalid, ?_⟩
  rcases lookup_eq_ok hfound with ⟨rfl, hfind⟩ | ⟨row, hfind, -, rfl⟩
  · simp only [bind_eq_ok, orRaise_eq_ok, pure_eq_ok] at h
    obtain ⟨c'', hinsert, h⟩ := h
    cases h
    exact .inl ⟨hfind, Cache.insert_rows hinsert⟩
  · simp only [bind_eq_ok, require_eq_ok, pure_eq_ok] at h
    obtain ⟨-, heq, h⟩ := h
    cases h
    exact .inr ⟨rfl, row, hfind, heq⟩

theorem validate_identityHash {d : Fields} {receipts proof : Json}
    (h : validate env (.obj d) receipts proof = .ok ()) :
    ∃ fields : Fields, proof = .obj fields ∧
      fields.at "identityHash" = .str (env.sha256 (.obj d)) := by
  simp only [validate, bind_eq_ok, orRaise_eq_ok, require_eq_ok] at h
  obtain ⟨d', hd', rows, -, -, -, fields, hfields, -, ⟨-, -, hhash, -⟩, -⟩ := h
  cases checkIdentity_obj hd'
  refine ⟨fields, ?_, Json.eq_str hhash⟩
  cases proof <;> simp_all [Json.fields?]

/-- Equal bodies are about the same identity: their proofs carry its digest. -/
theorem identity_of_body_eq (hsha : Function.Injective env.codec.sha256) {p q : Put}
    (hp : validate env (.obj p.identity) p.receipts p.proof = .ok ())
    (hq : validate env (.obj q.identity) q.receipts q.proof = .ok ())
    (heq : (Json.obj p.body).eq (.obj q.body) = true) : p.identity = q.identity := by
  obtain ⟨d, hd, hdhash⟩ := validate_identityHash hp
  obtain ⟨e, he, hehash⟩ := validate_identityHash hq
  rw [Json.eq, Bool.and_eq_true] at heq
  obtain ⟨y, hy, hproof⟩ := Json.eqFields_lookup heq.2 (k := "proof") (x := p.proof) rfl
  cases hy
  rw [hd, he, Json.eq, Bool.and_eq_true] at hproof
  obtain ⟨z, hz, hhash⟩ := Json.eqFields_lookup hproof.2
    (Fields.lookup_of_at hdhash fun hnull => by cases hnull)
  rw [Fields.lookup_of_at hehash fun hnull => by cases hnull] at hz
  cases hz
  have hsame := hsha (Json.str.inj (Json.eq_str hhash))
  exact Json.obj.inj hsame

/-! ## Runs -/

structure System where
  cache : Cache
  accepted : List Put

def System.init : System := ⟨.empty, []⟩

inductive Call where
  | put (identity receipts proof : Json)
  | get (identity : Json)

/-- One call; a call that raises changes nothing. -/
def step (env : Env) (s : System) : Call → Option System
  | .get _ => some s
  | .put identity receipts proof =>
    match identity, put env s.cache identity receipts proof with
    | .obj d, .ok (c, _) => some ⟨c, s.accepted ++ [⟨d, receipts, proof⟩]⟩
    | _, _ => some s

variable {s s' : System}

/-- Where a row comes from. -/
structure Origin (env : Env) (accepted : List Put) (row : Row) : Prop where
  intro ::
  put : ∃ before p after, accepted = before ++ p :: after ∧ row.payload = p.body ∧
    row.contentHash = env.sha256 (.obj p.body) ∧
    keys env p.identity = .ok (row.slotKey, row.brokerKey) ∧
    validate env (.obj p.identity) p.receipts p.proof = .ok () ∧
    ∀ q ∈ before, q.identity ≠ p.identity

theorem Origin.append {accepted : List Put} {row : Row} (h : Origin env accepted row) (p : Put) :
    Origin env (accepted ++ [p]) row := by
  obtain ⟨before, p', after, rfl, h⟩ := h
  exact ⟨before, p', after ++ [p], by rw [List.append_assoc, List.cons_append], h⟩

structure Inv (env : Env) (s : System) : Prop where
  origin : ∀ row ∈ s.cache.rows, Origin env s.accepted row
  settled : ∀ q ∈ s.accepted, ∃ row ∈ s.cache.rows, row.payload.at "identity" = .obj q.identity ∧
    keys env q.identity = .ok (row.slotKey, row.brokerKey)

theorem inv_init : Inv env .init := by
  constructor
  · intro row hrow
    cases hrow
  · intro q hq
    cases hq

/-- The cases of a step. -/
theorem step_cases {call : Call} (h : step env s call = some s') :
    s' = s ∨ ∃ p c new, put env s.cache (.obj p.identity) p.receipts p.proof = .ok (c, new) ∧
      s' = ⟨c, s.accepted ++ [p]⟩ := by
  cases call with
  | get identity =>
    cases h
    exact .inl rfl
  | put identity receipts proof =>
    unfold step at h
    dsimp only at h
    split at h
    · next d c new hput =>
      cases h
      exact .inr ⟨⟨d, receipts, proof⟩, c, new, hput, rfl⟩
    · cases h
      exact .inl rfl

theorem Inv.step (hsha : Function.Injective env.codec.sha256) {call : Call} (h : Inv env s)
    (hstep : Terminal.step env s call = some s') : Inv env s' := by
  rcases step_cases hstep with rfl | ⟨p, c, new, hput, rfl⟩
  · exact h
  obtain ⟨d, slot, broker, hd, hkeys, hvalid, hcases⟩ := put_eq_ok hput
  cases hd
  rcases hcases with ⟨hfree, hrows⟩ | ⟨rfl, row, hfind, heq⟩
  · -- no accepted call had this identity: its row would have been found
    have hfirst : ∀ q ∈ s.accepted, q.identity ≠ p.identity := by
      intro q hq hsame
      obtain ⟨row, hrow, -, hkeys'⟩ := h.settled q hq
      rw [hsame, hkeys] at hkeys'
      cases hkeys'
      rw [Cache.find_eq_singleton hrow] at hfree
      cases hfree
    constructor
    · intro row hrow
      change row ∈ c.rows at hrow
      rw [hrows, List.mem_append, List.mem_singleton] at hrow
      rcases hrow with hrow | rfl
      · exact (h.origin row hrow).append p
      · exact ⟨s.accepted, p, [], rfl, rfl, rfl, hkeys, hvalid, hfirst⟩
    · intro q hq
      rcases List.mem_append.mp hq with hq | hq
      · obtain ⟨row, hrow, hrest⟩ := h.settled q hq
        refine ⟨row, ?_, hrest⟩
        change row ∈ c.rows
        rw [hrows]
        exact List.mem_append_left _ hrow
      · obtain rfl := List.mem_singleton.mp hq
        refine ⟨⟨slot, broker, q.body, env.sha256 (.obj q.body)⟩, ?_, rfl, hkeys⟩
        change _ ∈ c.rows
        rw [hrows]
        exact List.mem_append_right _ List.mem_cons_self
  · constructor
    · intro row hrow
      exact (h.origin row hrow).append p
    · intro q hq
      rcases List.mem_append.mp hq with hq | hq
      · exact h.settled q hq
      · obtain rfl := List.mem_singleton.mp hq
        have hrow : row ∈ s.cache.rows := (Cache.mem_find.mp (hfind ▸ List.mem_cons_self)).1
        obtain ⟨before, p', after, -, hpayload, -, hkeys', hvalid', -⟩ := h.origin row hrow
        rw [hpayload] at heq
        have hsame := identity_of_body_eq hsha hvalid' hvalid heq
        refine ⟨row, hrow, ?_, hsame ▸ hkeys'⟩
        rw [hpayload, ← hsame]
        rfl

theorem step_rows {call : Call} (h : step env s call = some s') : s.cache.rows <+: s'.cache.rows := by
  rcases step_cases h with rfl | ⟨p, c, new, hput, rfl⟩
  · exact List.prefix_refl _
  · obtain ⟨d, slot, broker, -, -, -, hcases⟩ := put_eq_ok hput
    rcases hcases with ⟨-, hrows⟩ | ⟨rfl, -⟩
    · change _ <+: c.rows
      rw [hrows]
      exact List.prefix_append _ _
    · exact List.prefix_refl _

/-! ## Attribution -/

/-- Two identities share the local dispatch slot or the broker order key. -/
def SharesKey (env : Env) (d d' : Fields) : Prop :=
  (∃ slot, slotOf env d = .ok slot ∧ slotOf env d' = .ok slot) ∨ brokerKeyOf d = brokerKeyOf d'

/-- `get` and `put` of an identity raise, and the state stays as it is. -/
def Refused (env : Env) (s : System) (identity : Fields) : Prop :=
  (∃ e, get env s.cache (.obj identity) = .error e) ∧ ∀ receipts proof,
    (∃ e, put env s.cache (.obj identity) receipts proof = .error e) ∧
      step env s (.put (.obj identity) receipts proof) = some s

theorem refused_of_lookup {d : Fields}
    (h : ∀ slot broker found, keys env d = .ok (slot, broker) →
      lookup env s.cache slot broker d ≠ .ok found) : Refused env s d := by
  have hput : ∀ receipts proof, ∃ e, put env s.cache (.obj d) receipts proof = .error e := by
    intro receipts proof
    cases hcase : put env s.cache (.obj d) receipts proof with
    | error e => exact ⟨e, rfl⟩
    | ok result =>
      simp only [put, bind_eq_ok] at hcase
      obtain ⟨d', hd', -, -, ⟨slot, broker⟩, hkeys, found, hfound, -⟩ := hcase
      cases checkIdentity_obj hd'
      exact absurd hfound (h slot broker found hkeys)
  refine ⟨?_, fun receipts proof => ⟨hput receipts proof, ?_⟩⟩
  · cases hcase : get env s.cache (.obj d) with
    | error e => exact ⟨e, rfl⟩
    | ok found =>
      simp only [get, bind_eq_ok] at hcase
      obtain ⟨d', hd', ⟨slot, broker⟩, hkeys, hfound⟩ := hcase
      cases checkIdentity_obj hd'
      exact absurd hfound (h slot broker found hkeys)
  · obtain ⟨e, he⟩ := hput receipts proof
    unfold step
    dsimp only
    rw [he]

/-- A stored identity that shares a key with another one is found under its keys. -/
theorem mem_find_of_shares {row : Row} {d d' : Fields} {slot broker : String}
    (hrow : row ∈ c.rows) (hkeys : keys env d = .ok (row.slotKey, row.brokerKey))
    (hkeys' : keys env d' = .ok (slot, broker)) (hshares : SharesKey env d d') :
    row ∈ c.find slot broker := by
  simp only [keys, bind_eq_ok, pure_eq_ok, Prod.mk.injEq] at hkeys hkeys'
  obtain ⟨key, hkey, hslot, hbroker⟩ := hkeys
  obtain ⟨key', hkey', rfl, rfl⟩ := hkeys'
  refine Cache.mem_find.mpr ⟨hrow, ?_⟩
  rcases hshares with ⟨slot, h, h'⟩ | h
  · rw [hkey] at h
    rw [hkey'] at h'
    cases h
    cases h'
    exact .inl hslot.symm
  · rw [← h]
    exact .inr hbroker.symm

/-- A row of another identity under one of the keys. -/
theorem refused_of_conflict {row : Row} {stored d : Fields} (hrow : row ∈ s.cache.rows)
    (hstored : row.payload.at "identity" = .obj stored)
    (hkeys : keys env stored = .ok (row.slotKey, row.brokerKey)) (hshares : SharesKey env stored d)
    (hne : (Json.obj stored).eq (.obj d) = false) : Refused env s d := by
  refine refused_of_lookup fun slot broker found hkeys' hfound => ?_
  have hmem := mem_find_of_shares hrow hkeys hkeys' hshares
  rcases lookup_eq_ok hfound with ⟨-, hfind⟩ | ⟨row', hfind, hdecode, -⟩
  · rw [hfind] at hmem
    cases hmem
  · rw [hfind] at hmem
    obtain rfl := List.mem_singleton.mp hmem
    obtain ⟨-, stored', hstored', heq⟩ := decode_eq_ok hdecode
    rw [hstored] at hstored'
    cases hstored'
    rw [hne] at heq
    cases heq

theorem refused_of_two {row row' : Row} {stored stored' d : Fields} (hrow : row ∈ s.cache.rows)
    (hrow' : row' ∈ s.cache.rows) (hne : row ≠ row')
    (hkeys : keys env stored = .ok (row.slotKey, row.brokerKey))
    (hkeys' : keys env stored' = .ok (row'.slotKey, row'.brokerKey))
    (hshares : SharesKey env stored d) (hshares' : SharesKey env stored' d) : Refused env s d := by
  refine refused_of_lookup fun slot broker found hkeysd hfound => ?_
  have hmem := mem_find_of_shares hrow hkeys hkeysd hshares
  have hmem' := mem_find_of_shares hrow' hkeys' hkeysd hshares'
  rcases lookup_eq_ok hfound with ⟨-, hfind⟩ | ⟨row'', hfind, -, -⟩
  · rw [hfind] at hmem
    cases hmem
  · rw [hfind] at hmem hmem'
    exact hne ((List.mem_singleton.mp hmem).trans (List.mem_singleton.mp hmem').symm)

theorem Inv.get_accepted (h : Inv env s) {p : Put} (hp : p ∈ s.accepted)
    (hdistinct : (Json.obj p.identity).Distinct) :
    ∃ body, get env s.cache (.obj p.identity) = .ok (some body) := by
  obtain ⟨row, hrow, hidentity, hkeys⟩ := h.settled p hp
  obtain ⟨before, q, after, -, hpayload, hhash, hkeys', hvalid, -⟩ := h.origin row hrow
  have hsame : q.identity = p.identity := by
    rw [hpayload] at hidentity
    exact Json.obj.inj hidentity
  rw [hsame] at hvalid hkeys'
  have hcheck : checkIdentity env (.obj p.identity) = .ok p.identity := by
    simp only [validate, bind_eq_ok] at hvalid
    obtain ⟨d, hd, -⟩ := hvalid
    cases checkIdentity_obj hd
    exact hd
  have hdecode : decode env row p.identity = .ok row.payload := by
    rw [decode, corruptOr_eq_ok]
    simp only [bind_eq_ok, require_eq_ok, pure_eq_ok]
    refine ⟨(), ⟨?_, ?_⟩, (), ?_, p.identity, ?_, (row.slotKey, row.brokerKey), hkeys, (), ⟨rfl, rfl⟩,
      (), ?_, trivial⟩
    · rw [hpayload, hhash]
    · rw [hpayload]
      rfl
    · rw [hidentity, hpayload]
      exact hvalid
    · rw [hidentity]
      rfl
    · exact Json.eq_refl hdistinct
  refine ⟨row.payload, ?_⟩
  simp only [get, bind_eq_ok]
  refine ⟨p.identity, hcheck, (row.slotKey, row.brokerKey), hkeys, ?_⟩
  dsimp only
  rw [lookup, Cache.find_eq_singleton hrow]
  dsimp only
  rw [hdecode]
  rfl

/-- **Attributed once.**  In every run of `put` and `get`: rows are only added; two rows
differ in both keys; a body that `get` returns is that of the first accepted `put` of an
identity that equals (`==`) the one asked for, of that very identity if it was put,
and its receipts add up; and an identity that shares a key with a row of another
identity, or with two rows, is refused. -/
theorem order_attributed_once (hsha : Function.Injective env.codec.sha256) {calls : List Call}
    (h : Run (step env) Free .init calls s) :
    (∀ {calls' : List Call} {t : System}, Run (step env) Free s calls' t →
      s.cache.rows <+: t.cache.rows) ∧
    s.cache.rows.Pairwise (fun row row' => row.slotKey ≠ row'.slotKey ∧ row.brokerKey ≠ row'.brokerKey) ∧
    (∀ row ∈ s.cache.rows, ∃ stored, row.payload.at "identity" = .obj stored ∧
      keys env stored = .ok (row.slotKey, row.brokerKey)) ∧
    (∀ identity body, get env s.cache identity = .ok (some body) →
      ∃ before p after, s.accepted = before ++ p :: after ∧ body = p.body ∧
        (Json.obj p.identity).eq identity = true ∧ Adds env p.identity p.receipts p.proof ∧
        (∀ q ∈ before, q.identity ≠ p.identity) ∧
        ∀ q ∈ s.accepted, Json.obj q.identity = identity → q.identity = p.identity) ∧
    (∀ p ∈ s.accepted, (Json.obj p.identity).Distinct →
      ∃ body, get env s.cache (.obj p.identity) = .ok (some body)) ∧
    (∀ row ∈ s.cache.rows, ∀ stored d, row.payload.at "identity" = .obj stored →
      SharesKey env stored d → (Json.obj stored).eq (.obj d) = false → Refused env s d) ∧
    ∀ row ∈ s.cache.rows, ∀ row' ∈ s.cache.rows, ∀ stored stored' d, row ≠ row' →
      row.payload.at "identity" = .obj stored → row'.payload.at "identity" = .obj stored' →
      SharesKey env stored d → SharesKey env stored' d → Refused env s d := by
  have hinv : Inv env s := h.invariant (fun _ hstep hs => hs.step hsha hstep) inv_init
  have hkeyed : ∀ row ∈ s.cache.rows, ∃ stored, row.payload.at "identity" = .obj stored ∧
      keys env stored = .ok (row.slotKey, row.brokerKey) := by
    intro row hrow
    obtain ⟨before, p, after, -, hpayload, -, hkeys, -⟩ := hinv.origin row hrow
    exact ⟨p.identity, by rw [hpayload]; rfl, hkeys⟩
  -- the keys of a row are those of the identity read off it
  have hkeysOf : ∀ row ∈ s.cache.rows, ∀ stored, row.payload.at "identity" = .obj stored →
      keys env stored = .ok (row.slotKey, row.brokerKey) := by
    intro row hrow stored hstored
    obtain ⟨stored', hstored', hkeys⟩ := hkeyed row hrow
    rw [hstored] at hstored'
    cases hstored'
    exact hkeys
  refine ⟨?_, ?_, hkeyed, ?_, fun p hp hd => hinv.get_accepted hp hd, ?_, ?_⟩
  · intro calls' t hrun
    exact hrun.relation (R := fun s t => s.cache.rows <+: t.cache.rows) (fun s => List.prefix_refl _)
      List.IsPrefix.trans fun _ hstep => step_rows hstep
  · refine (List.pairwise_iff_getElem.mpr ?_ : List.Pairwise _ _)
    intro i j hi hj hij
    have hne : s.cache.rows[i] ≠ s.cache.rows[j] := by
      intro heq
      exact hij.ne ((s.cache.rows_nodup.getElem_inj_iff).mp heq)
    refine ⟨fun hslot => hne ?_, fun hbroker => hne ?_⟩
    · exact Cache.row_unique (List.getElem_mem hi) (List.getElem_mem hj) (.inl hslot)
    · exact Cache.row_unique (List.getElem_mem hi) (List.getElem_mem hj) (.inr hbroker)
  · intro identity body hget
    obtain ⟨d, slot, broker, row, stored, rfl, hkeys, hfind, rfl, hstored, heq⟩ := get_eq_ok hget
    have hrow : row ∈ s.cache.rows := (Cache.mem_find.mp (hfind ▸ List.mem_cons_self)).1
    obtain ⟨before, p, after, haccepted, hpayload, -, hkeysp, hvalid, hfirst⟩ := hinv.origin row hrow
    have hsame : stored = p.identity := by
      rw [hpayload] at hstored
      exact (Json.obj.inj hstored).symm
    refine ⟨before, p, after, haccepted, hpayload, hsame ▸ heq, validate_adds hvalid, hfirst, ?_⟩
    intro q hq hqd
    cases hqd
    obtain ⟨row', hrow', hidentity, hkeys'⟩ := hinv.settled q hq
    rw [hkeys] at hkeys'
    cases hkeys'
    rw [Cache.find_eq_singleton hrow'] at hfind
    cases hfind
    rw [hstored] at hidentity
    rw [← hsame]
    exact (Json.obj.inj hidentity).symm
  · intro row hrow stored d hstored hshares hne
    exact refused_of_conflict hrow hstored (hkeysOf row hrow stored hstored) hshares hne
  · intro row hrow row' hrow' stored stored' d hne hstored hstored' hshares hshares'
    exact refused_of_two hrow hrow' hne (hkeysOf row hrow stored hstored)
      (hkeysOf row' hrow' stored' hstored') hshares hshares'

/-! ## A sample -/

/-- A filled order; `tag` is a field no check looks at. -/
def sampleIdentity (tag : Json) : Fields :=
  let hash := "0123456789abcdef0123456789abcdef0123456789abcdef0123456789abcdef"
  [("version", .str schema), ("brokerId", .str "binance"), ("deploymentId", .str "d"),
    ("accountProfileId", .str "a"), ("accountFingerprint", .str hash),
    ("credentialConfigurationHash", .str hash), ("deploymentScopeHash", .str hash),
    ("strategyInstanceId", .str "s1"), ("sourceArtifactHash", .str hash),
    ("portfolioHash", .str hash), ("symbol", .str "BTCUSDT"), ("side", .str "BUY"),
    ("brokerOrderId", .str "42"), ("quoteCurrency", .str "USDT"), ("dispatchOrderId", .str "o1"),
    ("idempotencyKey", .str "k1"), ("immutableDispatchHash", .str hash), ("tag", tag)]

def sampleReceipt (event quantity : String) : Json :=
  let identity := sampleIdentity .null
  .obj [("accountFingerprint", identity.at "accountFingerprint"), ("symbol", identity.at "symbol"),
    ("strategyInstanceId", identity.at "strategyInstanceId"), ("side", identity.at "side"),
    ("quantity", .str quantity), ("brokerOrderId", identity.at "brokerOrderId"),
    ("feeCurrency", .str "USDT"), ("price", .str "100"), ("fee", .str "0.1"),
    ("occurredAt", .str "2026-01-05T09:00:03Z"), ("eventId", .str event)]

/-- One receipt for the quantity 1. -/
def sampleWhole : List Json := [sampleReceipt "e1" "1"]

/-- Another one for a quantity that 28 digits lose. -/
def sampleDust : List Json := [sampleReceipt "e1" "1", sampleReceipt "e2" "1e-30"]

/-- A proof over the digests of an identity and its receipts. -/
def sampleProof (identityHash receiptsHash : String) (receipts : List Json) : Json :=
  let hash := (sampleIdentity .null).at "portfolioHash"
  .obj [("kind", .str spotKind), ("terminalVerified", .bool true), ("complete", .bool true),
    ("identityHash", .str identityHash), ("receiptsHash", .str receiptsHash),
    ("executedQuantity", .str "1"), ("brokerResponseHash", hash),
    ("orderAuthorityGranted", .bool false), ("allTradesComplete", .bool true),
    ("actualFeesObserved", .bool true), ("terminalStatus", .str "FILLED"), ("allTradesHash", hash),
    ("tradeCount", .int receipts.length)]

/-- The body of a put, with the digests the sample environment gives. -/
def sampleBody (tag : Json) (receipts : List Json) (identity digest : ℕ) : Json :=
  .obj (bodyOf (sampleIdentity tag) (.arr receipts)
    (sampleProof (Json.shortText identity) (Json.shortText digest) receipts))

/-- Short digests for the values of the sample runs. -/
def sampleEnv : Env where
  codec := ⟨Json.digestAmong [.obj (sampleIdentity .null), .obj (sampleIdentity (.int 1)),
    .arr sampleWhole, .arr sampleDust, sampleBody .null sampleWhole 0 2,
    sampleBody (.int 1) sampleWhole 1 2, sampleBody .null sampleDust 0 3,
    brokerKeyOf (sampleIdentity .null)], fun v => v.code.length, sampleText⟩
  fromisoformat value := [("2026-01-05T09:00:03+00:00", ⟨1767603603000000, true⟩)].lookup value

/-- The call that puts a filled order with these receipts. -/
def samplePut (tag : Json) (receipts : List Json) : Call :=
  .put (.obj (sampleIdentity tag)) (.arr receipts)
    (sampleProof (sampleEnv.sha256 (.obj (sampleIdentity tag))) (sampleEnv.sha256 (.arr receipts))
      receipts)

theorem sampleOrder_attributed : ∃ (s : System) (body : Fields),
    get sampleEnv s.cache (.obj (sampleIdentity .null)) = .ok (some body) ∧
      ∃ p ∈ s.accepted, body = p.body := by
  obtain ⟨s, hs, found, hget, body, rfl, -⟩ : ∃ s,
      runAll (step sampleEnv) .init [samplePut .null sampleWhole] = some s ∧
      ∃ found, get sampleEnv s.cache (.obj (sampleIdentity .null)) = .ok found ∧
        ∃ body, found = some body ∧ True := by decide +kernel
  obtain ⟨-, -, -, hattributed, -⟩ :=
    order_attributed_once (Json.digestAmong_injective _) (free_of_runAll hs)
  obtain ⟨before, p, after, haccepted, hbody, -⟩ := hattributed _ body hget
  refine ⟨s, body, hget, p, ?_, hbody⟩
  rw [haccepted]
  exact List.mem_append_right before List.mem_cons_self

/-- The quantities of the receipts in a body. -/
def quantitiesIn (env : Env) (body : Fields) : List ℚ :=
  ((body.at "receipts").items?.getD []).filterMap (quantityOf env)

/-- The executed quantity in the proof of a body. -/
def executedIn (env : Env) (body : Fields) : Option ℚ :=
  (body.at "proof").fields?.bind fun d : Fields =>
    (decimalValue env.codec (d.at "executedQuantity") "" false).toOption

/-- An identity that was never put is answered when one that Python takes for equal was,
and receipts that add up in 28 digits need not add up. -/
theorem equal_identity_and_rounded_sum :
    (∃ (calls : List Call) (s : System) (body : Fields), Run (step sampleEnv) Free .init calls s ∧
      get sampleEnv s.cache (.obj (sampleIdentity (.bool true))) = .ok (some body) ∧
      ∀ p ∈ s.accepted, p.identity ≠ sampleIdentity (.bool true)) ∧
    ∃ (calls : List Call) (s : System) (body : Fields), Run (step sampleEnv) Free .init calls s ∧
      get sampleEnv s.cache (.obj (sampleIdentity .null)) = .ok (some body) ∧
      executedIn sampleEnv body = some 1 ∧ (quantitiesIn sampleEnv body).sum ≠ 1 := by
  constructor
  · obtain ⟨s, hs, htag, found, hget, body, rfl, -⟩ : ∃ s,
        runAll (step sampleEnv) .init [samplePut (.int 1) sampleWhole] = some s ∧
        (s.accepted.all fun p => (p.identity.at "tag").int? = some 1) = true ∧
        ∃ found, get sampleEnv s.cache (.obj (sampleIdentity (.bool true))) = .ok found ∧
          ∃ body, found = some body ∧ True := by decide +kernel
    refine ⟨_, s, body, free_of_runAll hs, hget, ?_⟩
    intro p hp heq
    have hone := of_decide_eq_true (List.all_eq_true.mp htag p hp)
    rw [heq] at hone
    exact absurd hone (by decide)
  · obtain ⟨s, hs, found, hget, body, rfl, hexecuted, hsum⟩ : ∃ s,
        runAll (step sampleEnv) .init [samplePut .null sampleDust] = some s ∧
        ∃ found, get sampleEnv s.cache (.obj (sampleIdentity .null)) = .ok found ∧
          ∃ body, found = some body ∧ executedIn sampleEnv body = some 1 ∧
            (quantitiesIn sampleEnv body).sum ≠ 1 := by decide +kernel
    exact ⟨_, s, body, free_of_runAll hs, hget, hexecuted, hsum⟩

end LiveTrader.Terminal
