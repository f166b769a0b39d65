/-
# `ProgramLedger.Identity` — a verified identity is kept by updates that carry it

`record_verified_kis_order_identity` writes the verified fields into the order of its row and
one verification beside it.  `update_order_dispatch` replaces the order of the row by any
order with the same keys, so the identity stays only where every order that is written over
a verified row carries it (`Keeps`).  Then it is read in every later journal, and a further
verification of it is accepted (`verified_of_run`).

The copy of an order that was read before the verification does not carry the identity:
after `sample_update_forgets` the row has lost it, while its verification is still there.
-/
import LiveTrader.ProgramLedger.Dispatches

namespace LiveTrader.ProgramLedger.Dispatches

open Lib Lib.Py Lib.Runs

variable {τ : Type} {env : Env τ} {j j' : Journal τ}

/-! ## Dictionaries -/

theorem lookup_setDefault_ne {d : Fields} {key key' : String} {value : Json} (h : key' ≠ key) :
    (setDefault d key value).lookup key' = d.lookup key' := by
  rw [setDefault]
  split
  · rfl
  · rw [Fields.lookup_put, if_neg h]

theorem lookup_setDefault (d : Fields) (key : String) (value : Json) :
    (setDefault d key value).lookup key = some ((d.lookup key).getD value) := by
  rw [setDefault]
  split
  · next h =>
    obtain ⟨v, hv⟩ := Option.isSome_iff_exists.mp h
    rw [hv, Option.getD_some]
  · next h =>
    rw [Fields.lookup_put, if_pos rfl, Option.not_isSome_iff_eq_none.mp h, Option.getD_none]

/-! ## Reading a row -/

theorem document_of_stores {row : Row τ} {o : Fields} (h : row.orderJson = env.dumps (.obj o)) :
    row.document env = o.sorted := by
  rw [Row.document, h, env.loads_dumps, Json.sortKeys_obj]

/-- The keys that reading a row may fill in. -/
def filledKeys : List String :=
  ["order_id", "idempotency_key", "broker_id", "broker_order_id", "state", "created_at", "updated_at"]

/-- Any other key is read as it is in the document. -/
theorem at_dispatchOrder {row : Row τ} {key : String} (h : key ∉ filledKeys) :
    (dispatchOrderFromRow env row).at key = (row.document env).at key := by
  simp only [filledKeys, List.mem_cons, List.not_mem_nil, or_false, not_or] at h
  obtain ⟨horder, hkey, hbroker, hnumber, hstate, hcreated, hupdated⟩ := h
  simp only [dispatchOrderFromRow, Fields.at, Fields.lookup_put, lookup_setDefault_ne horder,
    lookup_setDefault_ne hkey, lookup_setDefault_ne hbroker, lookup_setDefault_ne hnumber,
    lookup_setDefault_ne hcreated, if_neg hstate, if_neg hupdated]

theorem brokerId_dispatchOrder (row : Row τ) : (dispatchOrderFromRow env row).at "broker_id" =
    ((row.document env).lookup "broker_id").getD (.str row.brokerId) := by
  have hcreated : "broker_id" ≠ "created_at" := by decide
  have hnumber : "broker_id" ≠ "broker_order_id" := by decide
  have hkey : "broker_id" ≠ "idempotency_key" := by decide
  have horder : "broker_id" ≠ "order_id" := by decide
  have hstate : "broker_id" ≠ "state" := by decide
  have hupdated : "broker_id" ≠ "updated_at" := by decide
  simp only [dispatchOrderFromRow, Fields.at, Fields.lookup_put, lookup_setDefault_ne horder,
    lookup_setDefault_ne hkey, lookup_setDefault_ne hnumber, lookup_setDefault_ne hcreated,
    if_neg hstate, if_neg hupdated, lookup_setDefault, Option.getD_some]

theorem brokerOrderId_dispatchOrder (row : Row τ) : (dispatchOrderFromRow env row).at "broker_order_id" =
    ((row.document env).lookup "broker_order_id").getD (.str row.brokerOrderId) := by
  have hcreated : "broker_order_id" ≠ "created_at" := by decide
  have hbroker : "broker_order_id" ≠ "broker_id" := by decide
  have hkey : "broker_order_id" ≠ "idempotency_key" := by decide
  have horder : "broker_order_id" ≠ "order_id" := by decide
  have hstate : "broker_order_id" ≠ "state" := by decide
  have hupdated : "broker_order_id" ≠ "updated_at" := by decide
  simp only [dispatchOrderFromRow, Fields.at, Fields.lookup_put, lookup_setDefault_ne horder,
    lookup_setDefault_ne hkey, lookup_setDefault_ne hbroker, lookup_setDefault_ne hcreated,
    if_neg hstate, if_neg hupdated, lookup_setDefault, Option.getD_some]

/-! ## The scope of an identity -/

variable (env) in
/-- Two readings of a dispatch that `checkScope` does not tell apart. -/
structure SameScope (current current' : Fields) : Prop where
  brokerId : current'.at "broker_id" = current.at "broker_id"
  number : current'.at "broker_order_id" = current.at "broker_order_id"
  branch : env.text (current'.at "organization_no") = env.text (current.at "organization_no")
  metadata : current'.at "metadata" = current.at "metadata"
  symbol : current'.at "symbol" = current.at "symbol"
  side : current'.at "side" = current.at "side"

theorem checkScope_congr {brokerId number : String} {current current' identity : Fields}
    (h : SameScope env current current') :
    checkScope env brokerId number current' identity = checkScope env brokerId number current identity := by
  simp only [checkScope, h.brokerId, h.number, h.branch, h.metadata, h.symbol, h.side]

/-- Two identities with the same fields, asked for at the same boundary. -/
def SameIdentity (identity identity' : Fields) : Prop :=
  (∀ key ∈ identityFields, identity'.at key = identity.at key) ∧
    identity'.at "requestSessionBoundaryHash" = identity.at "requestSessionBoundaryHash"

theorem SameIdentity.trans {identity identity' identity'' : Fields} (h : SameIdentity identity identity')
    (h' : SameIdentity identity' identity'') : SameIdentity identity identity'' :=
  ⟨fun key hkey => (h'.1 key hkey).trans (h.1 key hkey), h'.2.trans h.2⟩

theorem SameIdentity.checkScope {brokerId number : String} {current identity identity' : Fields}
    (h : SameIdentity identity identity') :
    checkScope env brokerId number current identity' = checkScope env brokerId number current identity := by
  have hdate := h.1 "order_date" (by decide)
  have hbranch := h.1 "organization_no" (by decide)
  have hnumber := h.1 "broker_order_id" (by decide)
  simp only [Dispatches.checkScope, hdate, hbranch, hnumber, h.2]

/-- What the check has found of the dispatch and of the identity. -/
theorem checkScope_eq_ok {brokerId number : String} {current identity : Fields}
    (h : checkScope env brokerId number current identity = .ok ()) :
    current.at "broker_id" = .str "kis" ∧
      current.at "broker_order_id" = .str (env.text (identity.at "broker_order_id")) ∧
      env.text (current.at "organization_no") = env.text (identity.at "organization_no") ∧
      ∃ metadata, ((current.at "metadata").orElse (.obj [])).fields = .ok metadata ∧
        identity.at "requestSessionBoundaryHash" =
          .str (env.stableSha256 ((metadata.at "native_open_boundary").orElse (.obj []))) := by
  simp only [checkScope, bind_eq_ok, require_eq_ok] at h
  obtain ⟨metadata, hmetadata, ticket, -, -, hscope, -⟩ := h
  obtain ⟨-, hbroker, -, hnumber, hbranch, hseal, hboundary, -⟩ := hscope
  rw [Json.eq_str hseal] at hboundary
  exact ⟨Json.eq_str hbroker, Json.eq_str hnumber, hbranch, metadata, hmetadata, Json.str_eq hboundary⟩

/-! ## A row that carries an identity -/

/-- The identity gives its date and its order number as texts; the branch may be a number. -/
structure TextIdentity (identity : Fields) : Prop where
  date : ∃ day, identity.at "order_date" = .str day
  number : ∃ number, identity.at "broker_order_id" = .str number
  branch : (∃ branch, identity.at "organization_no" = .str branch) ∨
    ∃ n, identity.at "organization_no" = .int n

/-- The sources of a date that `checkConflict` can look up. -/
def IsSource (source : Json) : Prop := ∃ b, source.isOneOf
  ["KST_SUBMISSION_DATE_PROVISIONAL", "MARKET_SESSION_DATE_PROVISIONAL", "AWAITING_BROKER_TRADING_DATE"] = .ok b

variable (env) in
/-- A reading of a dispatch carries an identity, and a verification of it again finds so. -/
structure Carries (brokerId number : String) (current identity : Fields) : Prop where
  verified : isVerified current = true
  fields : ∀ key ∈ identityFields, current.at key = identity.at key
  source : IsSource (current.at "order_date_source")
  scope : checkScope env brokerId number current identity = .ok ()

/-- Texts and numbers are read back as they are. -/
theorem TextIdentity.read {identity : Fields} (h : TextIdentity identity)
    (hkey : ∃ key, identity.at "broker_order_key" = .str key) :
    ∀ key ∈ identityFields, (identity.at key).sortKeys = identity.at key ∧
      (identity.at key).eq (identity.at key) = true := by
  obtain ⟨day, hday⟩ := h.date
  obtain ⟨number, hnumber⟩ := h.number
  obtain ⟨k, hk⟩ := hkey
  intro key hmem
  simp only [identityFields, List.mem_cons, List.not_mem_nil, or_false] at hmem
  rcases hmem with rfl | rfl | rfl | rfl
  · simp [hday, Json.eq]
  · rcases h.branch with ⟨branch, hbranch⟩ | ⟨n, hn⟩
    · simp [hbranch, Json.eq]
    · simp [hn, Json.eq, Json.numbersEq, Json.number?]
  · simp [hnumber, Json.eq]
  · simp [hk, Json.eq]

theorem text_str (s : String) : env.text (.str s) = s := by
  rw [Env.text, Json.orElse]
  split
  · rfl
  · next h =>
    have hempty : s = "" := by simpa [Json.truthy] using h
    rw [hempty]
    rfl

theorem TextIdentity.same {identity identity' : Fields} (h : TextIdentity identity)
    (hsame : SameIdentity identity identity') : TextIdentity identity' := by
  have hdate := hsame.1 "order_date" (by decide)
  have hnumber := hsame.1 "broker_order_id" (by decide)
  have hbranch := hsame.1 "organization_no" (by decide)
  exact ⟨hdate ▸ h.date, hnumber ▸ h.number, hbranch ▸ h.branch⟩

theorem Carries.congr {brokerId number : String} {current current' identity : Fields}
    (h : Carries env brokerId number current identity) (hscope : SameScope env current current')
    (hverified : isVerified current' = true) (hfields : ∀ key ∈ identityFields, current'.at key = identity.at key)
    (hsource : IsSource (current'.at "order_date_source")) : Carries env brokerId number current' identity :=
  ⟨hverified, hfields, hsource, (checkScope_congr hscope).trans h.scope⟩

theorem Carries.same {brokerId number : String} {current identity identity' : Fields}
    (h : Carries env brokerId number current identity) (hsame : SameIdentity identity identity') :
    Carries env brokerId number current identity' :=
  ⟨h.verified, fun key hkey => (h.fields key hkey).trans (hsame.1 key hkey).symm, h.source,
    hsame.checkScope.trans h.scope⟩

/-- What `checkVerification` has found of an identity. -/
theorem checkVerification_eq_ok {hash : String} {identity : Fields}
    (h : checkVerification env hash identity = .ok ()) :
    identity.at "broker_order_key" = .str (env.text (identity.at "order_date") ++ ":" ++
      env.text (identity.at "organization_no") ++ ":" ++ env.text (identity.at "broker_order_id")) ∧
    env.text (identity.at "broker_order_id") ≠ "" ∧
    identity.at "order_date_source" = .str "OFFICIAL_ORDER_QUERY_EXACT_COMPOSITE_IDENTITY" := by
  simp only [checkVerification, require_eq_ok] at h
  obtain ⟨-, hsource, -, -, -, -, -, hnumber, hkey, -⟩ := h
  refine ⟨Json.eq_str hkey, fun hempty => ?_, Json.eq_str hsource⟩
  rw [hempty] at hnumber
  exact absurd hnumber (by decide)

/-- An identity that is there is confirmed again, and nothing is written. -/
theorem Carries.confirmed {row : Row τ} {v : Verification τ} {key : String} {identity identity' : Fields}
    (h : Carries env row.brokerId row.brokerOrderId (dispatchOrderFromRow env row) identity)
    (htext : TextIdentity identity) (hsame : SameIdentity identity identity')
    (hkey : strip key ≠ "") (hrow : j.row? (strip key) = some row) (hdocument : requireDocument env row = .ok ())
    (hv : j.verifications.find? (·.idempotencyKey = strip key) = some v)
    (hidentity : env.loads v.identityJson = .ok (.obj identity))
    (hcheck : checkVerification env (env.stableSha256 (.obj (dispatchOrderFromRow env row))) identity' = .ok ()) :
    recordVerifiedKisOrderIdentity env j key (env.stableSha256 (.obj (dispatchOrderFromRow env row))) identity' =
      .ok (j, { applied := false, alreadyVerified := true, order := dispatchOrderFromRow env row }) := by
  obtain ⟨hkeyText, -, -⟩ := checkVerification_eq_ok hcheck
  have hread := htext.read ⟨_, (hsame.1 "broker_order_key" (by decide)).symm.trans hkeyText⟩
  have hcarries := h.same hsame
  have hequal : ∀ k ∈ identityFields, (identity'.at k).eq (identity'.at k) = true := fun k hk => by
    rw [hsame.1 k hk]
    exact (hread k hk).2
  obtain ⟨b, hsource⟩ := h.source
  have hconflict : checkConflict env (dispatchOrderFromRow env row) identity' = .ok () := by
    obtain ⟨day, hday⟩ := htext.date
    have hday' : identity'.at "order_date" = .str day := (hsame.1 _ (by decide)).trans hday
    rw [checkConflict, hsource, ok_bind]
    refine require_true fun field hfield => .inr (.inl ?_)
    simp only [List.mem_cons, List.not_mem_nil, or_false] at hfield
    rcases hfield with rfl | rfl
    · rw [hcarries.fields "order_date" (by decide), hday', text_str]
      simp [Json.eq]
    · rw [hcarries.fields "broker_order_key" (by decide), hkeyText, text_str]
      simp [Json.eq]
  have hconfirm : confirmVerification env (dispatchOrderFromRow env row) identity' v =
      .ok { applied := false, alreadyVerified := true, order := dispatchOrderFromRow env row } := by
    have hcurrent : isVerified (dispatchOrderFromRow env row) = true ∧ ∀ k ∈ identityFields,
        ((dispatchOrderFromRow env row).at k).eq (identity'.at k) = true := by
      refine ⟨hcarries.verified, fun k hk => ?_⟩
      rw [hcarries.fields k hk]
      exact hequal k hk
    have hprevious : ∀ k ∈ identityFields, (identity.at k).eq (identity'.at k) = true := fun k hk => by
      rw [← hsame.1 k hk]
      exact hequal k hk
    simp only [confirmVerification, require_true hcurrent, hidentity, Json.fields, ok_bind,
      require_true hprevious]
    rfl
  simp only [recordVerifiedKisOrderIdentity, require_true (show strip key ≠ "" ∧ _ from ⟨hkey, env.stableSha256_isHash _⟩), hcheck,
    hrow, orRaise, hdocument, ok_bind, require_true, hcarries.scope, hconflict, hv, hconfirm]
  rfl

/-! ## Journals -/

variable (env) in
/-- What holds of a journal whatever calls were made, as long as they keep its identities. -/
structure Sound (j : Journal τ) : Prop where
  stored : ∀ row ∈ j.rows, ∃ o, row.orderJson = env.dumps (.obj o)
  keys : (j.rows.map (·.idempotencyKey)).Nodup
  once : (j.verifications.map (·.idempotencyKey)).Nodup
  verified : ∀ v ∈ j.verifications, ∃ row ∈ j.rows, row.idempotencyKey = v.idempotencyKey ∧
    ∃ identity, env.loads v.identityJson = .ok (.obj identity) ∧ TextIdentity identity ∧
      Carries env row.brokerId row.brokerOrderId (dispatchOrderFromRow env row) identity

/-- The order that `update_order_dispatch` writes, as it is read back. -/
def asRead (row : Row τ) (order : Fields) : Fields :=
  setDefault order.sorted "broker_id" (.str row.brokerId)

variable (env) in
/-- A call keeps the verified identities: an update of a verified row writes an order that
carries its identity, and an identity to be recorded consists of texts. -/
def Keeps (j : Journal τ) : Call → Prop
  | .checkpoint _ _ => True
  | .update order _ => ∀ row ∈ j.rows, row.isOf env order = true → ∀ v ∈ j.verifications,
      v.idempotencyKey = row.idempotencyKey → ∀ identity, env.loads v.identityJson = .ok (.obj identity) →
        Carries env row.brokerId (env.text (order.at "broker_order_id")) (asRead row order) identity
  | .record _ _ identity => TextIdentity identity

theorem sound_empty : Sound env ({} : Journal τ) :=
  ⟨fun _ h => (nomatch h), .nil, .nil, fun _ h => (nomatch h)⟩

theorem row?_eq_some {key : String} {row : Row τ} (h : j.row? key = some row) :
    row ∈ j.rows ∧ row.idempotencyKey = key :=
  ⟨List.mem_of_find?_eq_some h, by simpa using List.find?_some h⟩

theorem Sound.row? (hs : Sound env j) {row : Row τ} (h : row ∈ j.rows) :
    j.row? row.idempotencyKey = some row := by
  cases hfind : j.row? row.idempotencyKey with
  | none => exact absurd (decide_eq_true rfl) (List.find?_eq_none.mp hfind row h)
  | some row' =>
    obtain ⟨hmem, hkey⟩ := row?_eq_some hfind
    exact congrArg some (List.inj_on_of_nodup_map hs.keys hmem h hkey)

theorem Sound.verification? (hs : Sound env j) {v : Verification τ} (h : v ∈ j.verifications) :
    j.verifications.find? (·.idempotencyKey = v.idempotencyKey) = some v := by
  cases hfind : j.verifications.find? (·.idempotencyKey = v.idempotencyKey) with
  | none => exact absurd (decide_eq_true rfl) (List.find?_eq_none.mp hfind v h)
  | some v' =>
    have hkey : v'.idempotencyKey = v.idempotencyKey := by simpa using List.find?_some hfind
    exact congrArg some (List.inj_on_of_nodup_map hs.once (List.mem_of_find?_eq_some hfind) h hkey)

/-! ### Checkpoints and updates -/

theorem Sound.checkpoint (hs : Sound env j) {order : Fields} {now : String} {answer : Checkpoint}
    (h : checkpointOrderDispatch env j order now = .ok (j', answer)) : Sound env j' := by
  simp only [checkpointOrderDispatch, bind_eq_ok, require_eq_ok] at h
  obtain ⟨-, -, h⟩ := h
  split at h
  · obtain ⟨rfl, -⟩ := Prod.mk.inj (Except.ok.inj h)
    exact hs
  · next hfind =>
    obtain ⟨rfl, -⟩ := Prod.mk.inj (Except.ok.inj h)
    constructor
    · intro row hrow
      rcases List.mem_append.mp hrow with hrow | hrow
      · exact hs.stored row hrow
      · exact ⟨order, by rw [List.mem_singleton.mp hrow]; rfl⟩
    · rw [List.map_append, List.nodup_append]
      refine ⟨hs.keys, List.nodup_singleton _, ?_⟩
      rintro _ hkey _ hnew rfl
      obtain ⟨row, hrow, hkey⟩ := List.mem_map.mp hkey
      have hne := List.find?_eq_none.mp hfind row hrow
      simp only [Bool.or_eq_true, decide_eq_true_eq, not_or] at hne
      exact hne.2 (hkey.trans (List.mem_singleton.mp hnew))
    · exact hs.once
    · intro v hv
      obtain ⟨row, hrow, hrest⟩ := hs.verified v hv
      exact ⟨row, List.mem_append_left _ hrow, hrest⟩

theorem at_asRead {row : Row τ} {order : Fields} {key : String} (h : key ≠ "broker_id") :
    (asRead row order).at key = order.sorted.at key := by
  rw [asRead, Fields.at, lookup_setDefault_ne h, Fields.at]

theorem sameScope_updated (row : Row τ) {order : Fields} {now : String}
    (hnumber : order.sorted.at "broker_order_id" ≠ .null) :
    SameScope env (asRead row order) (dispatchOrderFromRow env (row.updated env order now)) := by
  have hdocument : (row.updated env order now).document env = order.sorted := document_of_stores rfl
  have hplain : ∀ {key : String}, key ∉ filledKeys → key ≠ "broker_id" →
      (dispatchOrderFromRow env (row.updated env order now)).at key = (asRead row order).at key :=
    fun hfilled hne => by rw [at_dispatchOrder hfilled, hdocument, at_asRead hne]
  constructor
  · rw [brokerId_dispatchOrder, hdocument, asRead, Fields.at, lookup_setDefault, Option.getD_some]
    rfl
  · rw [brokerOrderId_dispatchOrder, hdocument, at_asRead (by decide), Fields.at]
    cases hlookup : order.sorted.lookup "broker_order_id" with
    | none => exact absurd (by rw [Fields.at, hlookup]; rfl) hnumber
    | some v => rfl
  · rw [hplain (by decide) (by decide)]
  · exact hplain (by decide) (by decide)
  · exact hplain (by decide) (by decide)
  · exact hplain (by decide) (by decide)

/-- A row after an update that carries the identity. -/
theorem Carries.updated {row : Row τ} {order identity : Fields} {now : String}
    (h : Carries env row.brokerId (env.text (order.at "broker_order_id")) (asRead row order) identity)
    (htext : TextIdentity identity) :
    Carries env row.brokerId (row.updated env order now).brokerOrderId
      (dispatchOrderFromRow env (row.updated env order now)) identity := by
  have hdocument : (row.updated env order now).document env = order.sorted := document_of_stores rfl
  have hnumber : order.sorted.at "broker_order_id" ≠ .null := by
    obtain ⟨number, hnumber⟩ := htext.number
    have hread : (asRead row order).at "broker_order_id" = order.sorted.at "broker_order_id" :=
      at_asRead (by decide)
    rw [← hread, h.fields _ (by decide), hnumber]
    exact nofun
  have hscope : SameScope env (asRead row order) (dispatchOrderFromRow env (row.updated env order now)) :=
    sameScope_updated row hnumber
  have hplain : ∀ {key : String}, key ∉ filledKeys → key ≠ "broker_id" →
      (dispatchOrderFromRow env (row.updated env order now)).at key = (asRead row order).at key :=
    fun hfilled hne => by rw [at_dispatchOrder hfilled, hdocument, at_asRead hne]
  refine h.congr hscope ?_ (fun key hkey => ?_) ?_
  · rw [isVerified, hplain (by decide) (by decide)]
    exact h.verified
  · rw [← h.fields key hkey]
    simp only [identityFields, List.mem_cons, List.not_mem_nil, or_false] at hkey
    rcases hkey with rfl | rfl | rfl | rfl
    · exact hplain (by decide) (by decide)
    · exact hplain (by decide) (by decide)
    · exact hscope.number
    · exact hplain (by decide) (by decide)
  · rw [hplain (by decide) (by decide)]
    exact h.source

theorem Sound.update (hs : Sound env j) {order : Fields} {now : String}
    (hkeeps : Keeps env j (.update order now)) : Sound env (updateOrderDispatch env j order now).1 := by
  rw [updateOrderDispatch]
  split
  · exact hs
  · constructor
    · intro row' hrow'
      obtain ⟨row, hrow, rfl⟩ := List.mem_map.mp hrow'
      split
      · exact ⟨order, rfl⟩
      · exact hs.stored row hrow
    · have hkeys : (j.rows.map fun row => if row.isOf env order then row.updated env order now else row).map
          (·.idempotencyKey) = j.rows.map (·.idempotencyKey) := by
        rw [List.map_map]
        refine List.map_congr_left fun row _ => ?_
        simp only [Function.comp]
        split <;> rfl
      rw [hkeys]
      exact hs.keys
    · exact hs.once
    · intro v hv
      obtain ⟨row, hrow, hkey, identity, hidentity, htext, hcarries⟩ := hs.verified v hv
      refine ⟨if row.isOf env order then row.updated env order now else row, List.mem_map.mpr ⟨row, hrow, rfl⟩,
        ?_, identity, hidentity, htext, ?_⟩
      · split <;> exact hkey
      · split
        · next his => exact (hkeeps row hrow his v hv hkey.symm identity hidentity).updated htext
        · exact hcarries

/-! ### Recordings -/

theorem recordVerified_eq_ok {key hash : String} {identity : Fields} {answer : Recorded}
    (h : recordVerifiedKisOrderIdentity env j key hash identity = .ok (j', answer)) :
    strip key ≠ "" ∧ checkVerification env hash identity = .ok () ∧
    ∃ row, j.row? (strip key) = some row ∧
      checkScope env row.brokerId row.brokerOrderId (dispatchOrderFromRow env row) identity = .ok () ∧
      ((∃ v, j.verifications.find? (·.idempotencyKey = strip key) = some v ∧ j' = j ∧
          confirmVerification env (dispatchOrderFromRow env row) identity v = .ok answer) ∨
        (j.verifications.find? (·.idempotencyKey = strip key) = none ∧
          writeVerification env j (strip key) hash (dispatchOrderFromRow env row) identity = .ok (j', answer))) := by
  simp only [recordVerifiedKisOrderIdentity, bind_eq_ok, require_eq_ok, orRaise_eq_ok] at h
  obtain ⟨_, ⟨hkey, -⟩, _, hcheck, row, hrow, _, -, _, -, _, hscope, _, -, h⟩ := h
  refine ⟨hkey, hcheck, row, hrow, hscope, ?_⟩
  split at h
  · next v hv =>
    simp only [bind_eq_ok, pure_eq_ok] at h
    obtain ⟨recorded, hconfirm, hdone⟩ := h
    obtain ⟨rfl, rfl⟩ := Prod.mk.inj hdone
    exact .inl ⟨v, hv, rfl, hconfirm⟩
  · next hv => exact .inr ⟨hv, h⟩

/-- The row a verification was written for. -/
def Row.withOrder (env : Env τ) (row : Row τ) (order : Fields) : Row τ :=
  { row with orderJson := env.dumps (.obj order) }

theorem writeVerification_eq_ok {key hash : String} {current identity : Fields} {answer : Recorded}
    (h : writeVerification env j key hash current identity = .ok (j', answer)) :
    j' = { rows := j.rows.map fun row =>
             if row.idempotencyKey = key then row.withOrder env (verifiedOrder current identity) else row
           verifications := j.verifications ++ [⟨key, hash,
             env.stableSha256 (.obj (verifiedOrder current identity)), env.dumps (.obj identity)⟩] } := by
  simp only [writeVerification, bind_eq_ok, pure_eq_ok] at h
  obtain ⟨_, -, _, -, hdone⟩ := h
  exact (Prod.mk.inj hdone).1.symm

/-- The order with its identity, as it is read from its row. -/
theorem verifiedOrder_fields (current identity : Fields) : ∀ key ∈ identityFields,
    (verifiedOrder current identity).at key = identity.at key := by
  intro key hkey
  simp only [identityFields, List.mem_cons, List.not_mem_nil, or_false] at hkey
  rcases hkey with rfl | rfl | rfl | rfl <;>
    simp [verifiedOrder, identityFields, Fields.at, Fields.lookup_put]

theorem verifiedOrder_flag (current identity : Fields) :
    (verifiedOrder current identity).at "broker_order_identity_verified" = .bool true := by
  simp [verifiedOrder, Fields.at, Fields.lookup_put]

theorem verifiedOrder_source (current identity : Fields) :
    (verifiedOrder current identity).at "order_date_source" = identity.at "order_date_source" := by
  simp [verifiedOrder, Fields.at, Fields.lookup_put]

/-- The other keys are those of the order before. -/
theorem verifiedOrder_lookup (current identity : Fields) {key : String} (hfields : key ∉ identityFields)
    (hrest : key ∉ ["broker_order_identity_verified", "order_date_source", "broker_order_identity_receipt_hash"]) :
    (verifiedOrder current identity).lookup key = current.lookup key := by
  simp only [identityFields, List.mem_cons, List.not_mem_nil, or_false, not_or] at hfields hrest
  obtain ⟨hdate, hbranch, hnumber, hkey⟩ := hfields
  obtain ⟨hflag, hsource, hreceipt⟩ := hrest
  simp only [verifiedOrder, identityFields, List.foldl_cons, List.foldl_nil, Fields.lookup_put, if_neg hdate,
    if_neg hbranch, if_neg hnumber, if_neg hkey, if_neg hflag, if_neg hsource, if_neg hreceipt]

/-- What is read from a row is in the canonical order. -/
theorem sortKeys_dispatchOrder {row : Row τ} (hstored : ∃ o, row.orderJson = env.dumps (.obj o))
    {key : String} (h : key ∉ filledKeys) :
    ((dispatchOrderFromRow env row).at key).sortKeys = (dispatchOrderFromRow env row).at key := by
  obtain ⟨o, ho⟩ := hstored
  rw [at_dispatchOrder h, document_of_stores ho, Fields.at_sorted, Json.sortKeys_idem]

/-- A recorded order is the same dispatch as before. -/
theorem sameScope_withOrder {row : Row τ} {identity : Fields} (hstored : ∃ o, row.orderJson = env.dumps (.obj o))
    (htext : TextIdentity identity) (hread : ∀ key ∈ identityFields, (identity.at key).sortKeys = identity.at key)
    (hscope : checkScope env row.brokerId row.brokerOrderId (dispatchOrderFromRow env row) identity = .ok ()) :
    SameScope env (dispatchOrderFromRow env row) (dispatchOrderFromRow env
      (row.withOrder env (verifiedOrder (dispatchOrderFromRow env row) identity))) := by
  obtain ⟨hbroker, hnumberIs, hbranch, -⟩ := checkScope_eq_ok hscope
  obtain ⟨number, hnumber⟩ := htext.number
  have hdocument : (row.withOrder env (verifiedOrder (dispatchOrderFromRow env row) identity)).document env =
      (verifiedOrder (dispatchOrderFromRow env row) identity).sorted := document_of_stores rfl
  have hkept : ∀ {key : String}, key ∉ filledKeys → key ∉ identityFields →
      key ∉ ["broker_order_identity_verified", "order_date_source", "broker_order_identity_receipt_hash"] →
      (dispatchOrderFromRow env (row.withOrder env
        (verifiedOrder (dispatchOrderFromRow env row) identity))).at key =
          (dispatchOrderFromRow env row).at key := fun hfilled hfields hrest => by
    rw [at_dispatchOrder hfilled, hdocument, Fields.at_sorted, Fields.at,
      verifiedOrder_lookup _ _ hfields hrest]
    exact sortKeys_dispatchOrder hstored hfilled
  constructor
  · rw [brokerId_dispatchOrder, hdocument, Fields.lookup_sorted,
      verifiedOrder_lookup _ _ (by decide) (by decide), Fields.lookup_of_at hbroker (by simp), hbroker, Option.map_some,
      Json.sortKeys_str, Option.getD_some]
  · have hwritten := (verifiedOrder_fields (dispatchOrderFromRow env row) identity "broker_order_id"
      (by decide)).trans hnumber
    rw [brokerOrderId_dispatchOrder, hdocument, Fields.lookup_sorted, Fields.lookup_of_at hwritten (by simp), hnumberIs,
      hnumber, text_str, Option.map_some, Json.sortKeys_str, Option.getD_some]
  · rw [at_dispatchOrder (by decide), hdocument, Fields.at_sorted, verifiedOrder_fields _ _ _ (by decide),
      hread _ (by decide), hbranch]
  · exact hkept (by decide) (by decide) (by decide)
  · exact hkept (by decide) (by decide) (by decide)
  · exact hkept (by decide) (by decide) (by decide)

/-- **A recording.**  The row carries the identity that was written. -/
theorem carries_withOrder {row : Row τ} {hash : String} {identity : Fields}
    (hstored : ∃ o, row.orderJson = env.dumps (.obj o)) (htext : TextIdentity identity)
    (hcheck : checkVerification env hash identity = .ok ())
    (hscope : checkScope env row.brokerId row.brokerOrderId (dispatchOrderFromRow env row) identity = .ok ()) :
    SameIdentity identity identity.sorted ∧ Carries env row.brokerId row.brokerOrderId
      (dispatchOrderFromRow env (row.withOrder env (verifiedOrder (dispatchOrderFromRow env row) identity)))
      identity.sorted := by
  obtain ⟨hkey, -, hsource⟩ := checkVerification_eq_ok hcheck
  obtain ⟨-, hnumberIs, -, _, -, hboundary⟩ := checkScope_eq_ok hscope
  obtain ⟨number, hnumber⟩ := htext.number
  have hread := fun key hmem => (htext.read ⟨_, hkey⟩ key hmem).1
  have hsame : SameIdentity identity identity.sorted := by
    refine ⟨fun k hk => ?_, ?_⟩
    · rw [Fields.at_sorted, hread k hk]
    · rw [Fields.at_sorted, hboundary, Json.sortKeys_str]
  have hscope' := sameScope_withOrder hstored htext hread hscope
  have hdocument : (row.withOrder env (verifiedOrder (dispatchOrderFromRow env row) identity)).document env =
      (verifiedOrder (dispatchOrderFromRow env row) identity).sorted := document_of_stores rfl
  have hplain : ∀ {key : String}, key ∉ filledKeys → (dispatchOrderFromRow env (row.withOrder env
      (verifiedOrder (dispatchOrderFromRow env row) identity))).at key =
        ((verifiedOrder (dispatchOrderFromRow env row) identity).at key).sortKeys := fun hfilled => by
    rw [at_dispatchOrder hfilled, hdocument, Fields.at_sorted]
  refine ⟨hsame, Carries.same ⟨?_, fun key hmem => ?_, ?_, (checkScope_congr hscope').trans hscope⟩ hsame⟩
  · rw [isVerified, hplain (by decide), verifiedOrder_flag]
    rfl
  · have hwritten := verifiedOrder_fields (dispatchOrderFromRow env row) identity key hmem
    by_cases hfilled : key ∈ filledKeys
    · have hnumberKey : key = "broker_order_id" := by
        revert hfilled hmem
        simp only [identityFields, filledKeys, List.mem_cons, List.not_mem_nil, or_false]
        rintro (rfl | rfl | rfl | rfl) h <;> first | rfl | exact absurd h (by decide)
      subst hnumberKey
      rw [hscope'.number, hnumberIs, hnumber, text_str]
    · rw [hplain hfilled, hwritten, hread key hmem]
  · rw [hplain (by decide), verifiedOrder_source, hsource, Json.sortKeys_str]
    exact ⟨_, rfl⟩

theorem Sound.record (hs : Sound env j) {key hash : String} {identity : Fields} {answer : Recorded}
    (htext : TextIdentity identity)
    (h : recordVerifiedKisOrderIdentity env j key hash identity = .ok (j', answer)) : Sound env j' := by
  obtain ⟨hkey, hcheck, row, hrow, hscope, ⟨v, -, rfl, -⟩ | ⟨hnone, hwrite⟩⟩ := recordVerified_eq_ok h
  · exact hs
  · obtain rfl := writeVerification_eq_ok hwrite
    obtain ⟨hmem, hrowKey⟩ := row?_eq_some hrow
    obtain ⟨hsame, hcarries⟩ := carries_withOrder (hs.stored row hmem) htext hcheck hscope
    constructor
    · intro row' hrow'
      obtain ⟨r, hr, rfl⟩ := List.mem_map.mp hrow'
      split
      · exact ⟨_, rfl⟩
      · exact hs.stored r hr
    · have hkeys : (j.rows.map fun r => if r.idempotencyKey = strip key then
          r.withOrder env (verifiedOrder (dispatchOrderFromRow env row) identity) else r).map
            (·.idempotencyKey) = j.rows.map (·.idempotencyKey) := by
        rw [List.map_map]
        refine List.map_congr_left fun r _ => ?_
        simp only [Function.comp]
        split <;> rfl
      rw [hkeys]
      exact hs.keys
    · rw [List.map_append, List.nodup_append]
      refine ⟨hs.once, List.nodup_singleton _, ?_⟩
      rintro _ hold _ hnew rfl
      obtain ⟨v, hv, hvkey⟩ := List.mem_map.mp hold
      have hne := List.find?_eq_none.mp hnone v hv
      exact hne (decide_eq_true (hvkey.trans (List.mem_singleton.mp hnew)))
    · intro v hv
      rcases List.mem_append.mp hv with hv | hv
      · obtain ⟨r, hr, hrkey, hrest⟩ := hs.verified v hv
        have hne : r.idempotencyKey ≠ strip key := fun heq =>
          List.find?_eq_none.mp hnone v hv (decide_eq_true (hrkey.symm.trans heq))
        refine ⟨r, List.mem_map.mpr ⟨r, hr, if_neg hne⟩, hrkey, hrest⟩
      · obtain rfl := List.mem_singleton.mp hv
        refine ⟨row.withOrder env (verifiedOrder (dispatchOrderFromRow env row) identity),
          List.mem_map.mpr ⟨row, hmem, if_pos hrowKey⟩, hrowKey, identity.sorted, ?_, ?_, hcarries⟩
        · rw [env.loads_dumps, Json.sortKeys_obj]
        · exact htext.same hsame

/-! ### Runs -/

theorem Sound.perform (hs : Sound env j) {call : Call} (hkeeps : Keeps env j call) :
    Sound env (perform env j call) := by
  cases call with
  | checkpoint order now =>
    rw [Dispatches.perform]
    split
    · next h => exact hs.checkpoint h
    · exact hs
  | update order now => exact hs.update hkeeps
  | record key hash identity =>
    rw [Dispatches.perform]
    split
    · next h => exact hs.record hkeeps h
    · exact hs

theorem sound_of_run {calls : List Call} (h : Run (step env) (Keeps env) j calls j') (hs : Sound env j) :
    Sound env j' := by
  refine h.invariant (fun hkeeps hstep hs => ?_) hs
  obtain rfl := Option.some.inj hstep
  exact hs.perform hkeeps

/-- No verification is ever removed. -/
theorem verifications_perform (call : Call) : j.verifications <+: (perform env j call).verifications := by
  cases call with
  | checkpoint order now =>
    rw [perform]
    split
    · next h =>
      simp only [checkpointOrderDispatch, bind_eq_ok, require_eq_ok] at h
      obtain ⟨-, -, h⟩ := h
      split at h <;> obtain ⟨rfl, -⟩ := Prod.mk.inj (Except.ok.inj h) <;> exact List.prefix_rfl
    · exact List.prefix_rfl
  | update order now =>
    rw [perform, updateOrderDispatch]
    split <;> exact List.prefix_rfl
  | record key hash identity =>
    rw [perform]
    split
    · next h =>
      obtain ⟨-, -, row, -, -, ⟨v, -, rfl, -⟩ | ⟨-, hwrite⟩⟩ := recordVerified_eq_ok h
      · exact List.prefix_rfl
      · obtain rfl := writeVerification_eq_ok hwrite
        exact List.prefix_append _ _
    · exact List.prefix_rfl

theorem verifications_run {ok : Journal τ → Call → Prop} {calls : List Call}
    (h : Run (step env) ok j calls j') : j.verifications <+: j'.verifications := by
  refine h.relation (R := fun j j' => j.verifications <+: j'.verifications) (fun _ => List.prefix_rfl)
    List.IsPrefix.trans (fun _ hstep => ?_)
  obtain rfl := Option.some.inj hstep
  exact verifications_perform _

/-- Texts and numbers that are equal to each other are the same. -/
theorem TextIdentity.ext {identity identity' : Fields} (h : TextIdentity identity) (h' : TextIdentity identity')
    (hkey : ∃ key, identity.at "broker_order_key" = .str key)
    (hequal : ∀ key ∈ identityFields, (identity'.at key).eq (identity.at key) = true) :
    ∀ key ∈ identityFields, identity'.at key = identity.at key := by
  obtain ⟨day, hday⟩ := h.date
  obtain ⟨number, hnumber⟩ := h.number
  obtain ⟨k, hk⟩ := hkey
  intro key hmem
  have heq := hequal key hmem
  simp only [identityFields, List.mem_cons, List.not_mem_nil, or_false] at hmem
  rcases hmem with rfl | rfl | rfl | rfl
  · rw [hday] at heq ⊢
    exact Json.eq_str heq
  · rcases h.branch with ⟨branch, hbranch⟩ | ⟨n, hn⟩
    · rw [hbranch] at heq ⊢
      exact Json.eq_str heq
    · rw [hn] at heq ⊢
      rcases h'.branch with ⟨branch, hbranch⟩ | ⟨m, hm⟩
      · rw [hbranch] at heq
        exact absurd (Json.str_eq heq) nofun
      · rw [hm] at heq ⊢
        simp only [Json.eq, Json.numbersEq, Json.number?, beq_iff_eq] at heq
        rw [Int.cast_inj.mp heq]
  · rw [hnumber] at heq ⊢
    exact Json.eq_str heq
  · rw [hk] at heq ⊢
    exact Json.eq_str heq

/-- After a recording there is a verification of the identity. -/
theorem Sound.recorded (hs : Sound env j) {key hash : String} {identity : Fields} {answer : Recorded}
    (htext : TextIdentity identity)
    (h : recordVerifiedKisOrderIdentity env j key hash identity = .ok (j', answer)) :
    strip key ≠ "" ∧ ∃ v ∈ j'.verifications, v.idempotencyKey = strip key ∧
      ∃ read, env.loads v.identityJson = .ok (.obj read) ∧ SameIdentity read identity := by
  obtain ⟨hkey, hcheck, row, hrow, hscope, ⟨v, hv, rfl, hconfirm⟩ | ⟨-, hwrite⟩⟩ := recordVerified_eq_ok h
  · have hvkey : v.idempotencyKey = strip key := by simpa using List.find?_some hv
    obtain ⟨row', hrow', hkey', read, hread, htext', hcarries⟩ := hs.verified v (List.mem_of_find?_eq_some hv)
    obtain ⟨hmem, hrowKey⟩ := row?_eq_some hrow
    obtain rfl := List.inj_on_of_nodup_map hs.keys hrow' hmem (hkey'.trans (hvkey.trans hrowKey.symm))
    simp only [confirmVerification, bind_eq_ok, require_eq_ok, hread, Json.fields, pure_eq_ok,
      Except.ok.injEq] at hconfirm
    obtain ⟨-, -, _, rfl, _, hfields, -, hequal, -⟩ := hconfirm
    obtain rfl := Except.ok.inj hfields
    obtain ⟨hkeyText, -, -⟩ := checkVerification_eq_ok hcheck
    -- both identities were asked for at the boundary of the dispatch
    obtain ⟨-, -, -, metadata, hmetadata, hboundary⟩ := checkScope_eq_ok hscope
    obtain ⟨-, -, -, metadata', hmetadata', hboundary'⟩ := checkScope_eq_ok hcarries.scope
    obtain rfl := Except.ok.inj (hmetadata.symm.trans hmetadata')
    refine ⟨hkey, v, List.mem_of_find?_eq_some hv, hvkey, _, hread, fun k hk => ?_, ?_⟩
    · exact (htext.ext htext' ⟨_, hkeyText⟩ hequal k hk).symm
    · exact hboundary.trans hboundary'.symm
  · obtain rfl := writeVerification_eq_ok hwrite
    obtain ⟨hmem, -⟩ := row?_eq_some hrow
    obtain ⟨hsame, -⟩ := carries_withOrder (hs.stored row hmem) htext hcheck hscope
    refine ⟨hkey, _, List.mem_append_right _ (List.mem_singleton_self _), rfl, identity.sorted, ?_, ?_⟩
    · rw [env.loads_dumps, Json.sortKeys_obj]
    · exact ⟨fun k hk => (hsame.1 k hk).symm, hsame.2.symm⟩

/-! ## Every run -/

variable (env) in
/-- The identity is there: it is read, and a further verification of it finds it verified. -/
structure Verified (j : Journal τ) (idempotencyKey : String) (identity : Fields) : Prop where
  read : ∃ order, orderDispatchForIdempotencyKey env j idempotencyKey = some order ∧
    order.at "broker_order_identity_verified" = .bool true ∧
    ∀ field ∈ identityFields, order.at field = identity.at field
  again : ∀ order, orderDispatchForIdempotencyKey env j idempotencyKey = some order →
    ∀ identity', SameIdentity identity identity' →
      checkVerification env (env.stableSha256 (.obj order)) identity' = .ok () →
      recordVerifiedKisOrderIdentity env j idempotencyKey (env.stableSha256 (.obj order)) identity' =
        .ok (j, { applied := false, alreadyVerified := true, order })

theorem requireDocument_of_stored {row : Row τ} (h : ∃ o, row.orderJson = env.dumps (.obj o)) :
    requireDocument env row = .ok () := by
  obtain ⟨o, ho⟩ := h
  simp only [requireDocument, ho, env.loads_dumps, Json.sortKeys_obj]

/-- A verification in a sound journal says what is read. -/
theorem Sound.verified_of_mem (hs : Sound env j) {key : String} {identity read : Fields} {v : Verification τ}
    (hkey : strip key ≠ "") (hv : v ∈ j.verifications) (hvkey : v.idempotencyKey = strip key)
    (hread : env.loads v.identityJson = .ok (.obj read)) (hsame : SameIdentity read identity) :
    Verified env j key identity := by
  obtain ⟨row, hrow, hrowKey, identity', hidentity', htext, hcarries⟩ := hs.verified v hv
  obtain rfl := Json.obj.inj (Except.ok.inj (hread.symm.trans hidentity'))
  have hfound : j.row? (strip key) = some row := by
    rw [← hvkey, ← hrowKey]
    exact hs.row? hrow
  have horder : orderDispatchForIdempotencyKey env j key = some (dispatchOrderFromRow env row) := by
    simp only [orderDispatchForIdempotencyKey, if_neg hkey, hfound, Option.map_some]
  have hcarries' := hcarries.same hsame
  constructor
  · refine ⟨_, horder, ?_, hcarries'.fields⟩
    have hflag := hcarries'.verified
    rw [isVerified] at hflag
    cases hvalue : (dispatchOrderFromRow env row).at "broker_order_identity_verified" with
    | bool b => cases b <;> simp_all [Json.isTrue]
    | _ => simp [hvalue, Json.isTrue] at hflag
  · intro order horder' identity' hsame' hcheck
    obtain rfl := Option.some.inj (horder.symm.trans horder')
    refine hcarries.confirmed htext (hsame.trans hsame') hkey hfound
      (requireDocument_of_stored (hs.stored row hrow)) ?_ hread hcheck
    rw [← hvkey]
    exact hs.verification? hv

/-- **A verified identity is never lost** in a run of calls that keep the identities. -/
theorem verified_of_run {j₁ j₂ : Journal τ} {before after : List Call}
    (hbefore : Run (step env) (Keeps env) {} before j₁) {key hash : String} {identity : Fields}
    {answer : Recorded} (hkeeps : Keeps env j₁ (.record key hash identity))
    (hrecord : recordVerifiedKisOrderIdentity env j₁ key hash identity = .ok (j₂, answer))
    (hafter : Run (step env) (Keeps env) j₂ after j) : Verified env j key identity := by
  have hs₁ := sound_of_run hbefore sound_empty
  obtain ⟨hkey, v, hv, hvkey, read, hread, hsame⟩ := hs₁.recorded hkeeps hrecord
  have hs := sound_of_run hafter (hs₁.record hkeeps hrecord)
  exact hs.verified_of_mem hkey ((verifications_run hafter).subset hv) hvkey hread hsame

/-! ## A run -/

/-- A hash for each kind of document of the sample runs. -/
def sampleHash (n : ℕ) : String := String.ofList (List.replicate 64 (Char.ofNat (48 + n % 10)))

theorem sampleHash_isHash (n : ℕ) : isHash (sampleHash n) = true := by
  have hdigit : ∀ m < 10, isHash (String.ofList (List.replicate 64 (Char.ofNat (48 + m)))) = true := by
    decide
  exact hdigit (n % 10) (Nat.mod_lt n (by decide))

/-- Events, tickets and orders before and after a verification have hashes of their own. -/
def sampleKind : Json → ℕ
  | .obj d =>
    if (d.lookup "provider").isSome then 1
    else if (d.lookup "version").isSome then 2
    else if (d.lookup "broker_order_identity_verified").isSome then 3
    else 4
  | _ => 0

theorem sampleKind_isHash (v : Json) : isHash (sampleHash (sampleKind v)) = true := sampleHash_isHash _

theorem sample_loads (v : Json) : (Except.ok v.sortKeys : Result Json) = .ok v.sortKeys := rfl

/-- Values are their own texts, so that a run can be evaluated. -/
def Env.sample : Env Json where
  dumps := id
  loads v := .ok v.sortKeys
  loads_dumps := sample_loads
  stableSha256 v := sampleHash (sampleKind v)
  stableSha256_isHash := sampleKind_isHash
  repr _ := "?"
  fromisoformat s := if s = "2026-10-15T09:00:00+09:00" then some ⟨0, true⟩ else none
  localDay _ _ := "20261015"

def sampleBoundary : Fields :=
  [("provider", .str "kis"), ("attestation", .str "KIS_WEBSOCKET"), ("recoveryOnly", .bool false),
    ("promotionEligible", .bool true), ("startTime", .str "2026-10-15T09:00:00+09:00")]

def sampleTicket : Fields :=
  [("version", .str quantityResult), ("contentHash", .str (sampleHash 2)), ("boundaryHash", .str (sampleHash 1)),
    ("sourceArtifactHash", .str "source"), ("deploymentId", .str "deployment"),
    ("accountFingerprint", .str "account"), ("exchange", .str "KRX"), ("symbol", .str "005930"),
    ("side", .str "BUY")]

/-- An order that the broker has acknowledged without a date. -/
def sampleOrder (state : String) : Fields :=
  [("order_id", .str "order-1"), ("idempotency_key", .str "dispatch-1"), ("broker_id", .str "kis"),
    ("broker_order_id", .str "2"), ("organization_no", .str "1"), ("state", .str state),
    ("created_at", .str "2026-10-15"), ("updated_at", .str "2026-10-15"), ("symbol", .str "005930"),
    ("side", .str "BUY"),
    ("metadata", .obj [("native_quantity_model", .obj sampleTicket), ("native_open_boundary", .obj sampleBoundary),
      ("source_artifact_hash", .str "source"), ("deployment_id", .str "deployment"),
      ("native_account_fingerprint", .str "account")])]

/-- What the official query has confirmed of it. -/
def sampleIdentity : Fields :=
  [("order_date", .str "20261015"), ("organization_no", .str "1"), ("broker_order_id", .str "2"),
    ("broker_order_key", .str "20261015:1:2"), ("broker_order_identity_verified", .bool true),
    ("order_date_source", .str "OFFICIAL_ORDER_QUERY_EXACT_COMPOSITE_IDENTITY"),
    ("officialReceiptHash", .str (sampleHash 5)), ("verifiedDispatchHash", .str (sampleHash 4)),
    ("requestSessionDate", .str "20261015"), ("requestSessionBoundaryHash", .str (sampleHash 1)),
    ("querySessionDateWasProvisional", .bool true), ("orderAuthorityGranted", .bool false)]

def sampleJournal : Journal Json := perform Env.sample {} (.checkpoint (sampleOrder "accepted") "")

/-- The journal with the identity of the order. -/
def sampleVerified : Journal Json :=
  perform Env.sample sampleJournal (.record "dispatch-1" (sampleHash 4) sampleIdentity)

theorem sampleJournal_run : Run (step Env.sample) (Keeps Env.sample) {}
    [.checkpoint (sampleOrder "accepted") ""] sampleJournal :=
  .cons trivial rfl (.nil _)

theorem sampleVerified_eq : ∃ answer, recordVerifiedKisOrderIdentity Env.sample sampleJournal "dispatch-1"
    (sampleHash 4) sampleIdentity = .ok (sampleVerified, answer) := by
  have happlied : ((recordVerifiedKisOrderIdentity Env.sample sampleJournal "dispatch-1" (sampleHash 4)
      sampleIdentity).toOption.map fun r => r.2.applied) = some true := by decide
  rw [sampleVerified, perform]
  cases h : recordVerifiedKisOrderIdentity Env.sample sampleJournal "dispatch-1" (sampleHash 4) sampleIdentity with
  | error e =>
    rw [h] at happlied
    cases happlied
  | ok r => exact ⟨r.2, rfl⟩

/-- The document of a verification, if it is a dictionary. -/
def Verification.document (env : Env τ) (v : Verification τ) : Fields :=
  match env.loads v.identityJson with
  | .ok (.obj d) => d
  | _ => []

/-- The fill of the verified order, from a copy that was read after the verification. -/
def sampleFilled : Fields := verifiedOrder (sampleOrder "filled") sampleIdentity

theorem sampleFilled_keeps : Keeps Env.sample sampleVerified (.update sampleFilled "") := by
  have hcarries : ∀ row ∈ sampleVerified.rows, ∀ v ∈ sampleVerified.verifications,
      isVerified (asRead row sampleFilled) = true ∧
      (∀ key ∈ identityFields, (asRead row sampleFilled).at key = (v.document Env.sample).at key) ∧
      (asRead row sampleFilled).at "order_date_source" = .str "OFFICIAL_ORDER_QUERY_EXACT_COMPOSITE_IDENTITY" ∧
      checkScope Env.sample row.brokerId (Env.sample.text (sampleFilled.at "broker_order_id"))
        (asRead row sampleFilled) (v.document Env.sample) = .ok () := by
    decide
  intro row hrow _ v hv _ identity hidentity
  obtain ⟨hverified, hfields, hsource, hscope⟩ := hcarries row hrow v hv
  rw [Verification.document, hidentity] at hfields hscope
  refine ⟨hverified, hfields, ?_, hscope⟩
  rw [hsource]
  exact ⟨_, rfl⟩

/-- The fill keeps the identity. -/
theorem verified_of_run_sample : Verified Env.sample
    (perform Env.sample sampleVerified (.update sampleFilled "")) "dispatch-1" sampleIdentity := by
  have htext : TextIdentity sampleIdentity := ⟨⟨_, rfl⟩, ⟨_, rfl⟩, .inl ⟨_, rfl⟩⟩
  obtain ⟨answer, hanswer⟩ := sampleVerified_eq
  exact verified_of_run sampleJournal_run htext hanswer (.cons sampleFilled_keeps rfl (.nil _))

/-- **The identity can be lost.**  The cancellation of the order writes the copy from before
the verification. -/
theorem sample_update_forgets : ∃ answer,
    recordVerifiedKisOrderIdentity Env.sample sampleJournal "dispatch-1" (sampleHash 4) sampleIdentity =
      .ok (sampleVerified, answer) ∧
    ¬ Verified Env.sample (perform Env.sample sampleVerified (.update (sampleOrder "cancel_pending") ""))
      "dispatch-1" sampleIdentity := by
  obtain ⟨answer, hanswer⟩ := sampleVerified_eq
  refine ⟨answer, hanswer, fun hverified => ?_⟩
  have hforgot : (orderDispatchForIdempotencyKey Env.sample (perform Env.sample sampleVerified
      (.update (sampleOrder "cancel_pending") "")) "dispatch-1").map isVerified = some false := by
    decide
  obtain ⟨order, horder, hflag, -⟩ := hverified.read
  rw [horder, Option.map_some, isVerified, hflag] at hforgot
  exact absurd hforgot (by decide)

end LiveTrader.ProgramLedger.Dispatches
