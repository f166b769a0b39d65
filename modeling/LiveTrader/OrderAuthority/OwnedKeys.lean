/-
# `OrderAuthority.OwnedKeys` — which order a cancel is about

`_normalize_intent` asks a cancel for the official key of the order, and any other operation for none.  `OVERSEAS_CANCEL_ORDER` counts
among the others: its callers give no key, and its order number is read off the wire.  A transport goes out on the lease of an intent
that was accepted, so what holds of accepted intents holds of every transport.
-/
import LiveTrader.OrderAuthority.Consumed

namespace LiveTrader.OrderAuthority

open Lib Lib.Py Lib.Runs

/-! ## Keys -/

/-- The endpoints that cancel or revise an order. -/
def cancelEndpoints : List String :=
  ["/uapi/domestic-stock/v1/trading/order-rvsecncl", "/uapi/overseas-stock/v1/trading/order-rvsecncl"]

/-- The endpoints that place an order. -/
def placeEndpoints : List String := ["/uapi/domestic-stock/v1/trading/order-cash", "/uapi/overseas-stock/v1/trading/order"]

/-- A complete official key. -/
def OwnedOrderKey.Complete (k : OwnedOrderKey) : Prop :=
  isOfficialId k.orderDate = true ∧ isOfficialId k.organizationNo = true ∧ isOfficialId k.orderNo = true

instance : DecidablePred OwnedOrderKey.Complete := fun k =>
  inferInstanceAs (Decidable (isOfficialId k.orderDate = true ∧ isOfficialId k.organizationNo = true ∧ isOfficialId k.orderNo = true))

/-- No key. -/
def OwnedOrderKey.empty : OwnedOrderKey := ⟨"", "", ""⟩

/-- The intent names the order it cancels, and none if it places one; the ordinary overseas cancel names none. -/
structure Intent.KeyFits (i : Intent) : Prop where
  cancel : i.endpoint ∈ cancelEndpoints → i.operation ≠ "OVERSEAS_CANCEL_ORDER" → i.ownedOrderKey.Complete
  overseas : i.operation = "OVERSEAS_CANCEL_ORDER" →
    i.endpoint = "/uapi/overseas-stock/v1/trading/order-rvsecncl" ∧ i.ownedOrderKey = .empty
  place : i.endpoint ∈ placeEndpoints → i.ownedOrderKey = .empty

theorem checkOwned_eq_ok {value : Json} {operation : String} {k : OwnedOrderKey} (h : checkOwned value operation = .ok k) :
    (operation ∈ cancelOperations → k.Complete) ∧ (operation ∉ cancelOperations → k = .empty) := by
  simp only [checkOwned, bind_eq_ok] at h
  obtain ⟨d, -, date, -, organization, -, number, -, h⟩ := h
  split at h
  · next hcancel =>
    simp only [bind_eq_ok, require_eq_ok, pure_eq_ok] at h
    obtain ⟨_, hcomplete, rfl⟩ := h
    exact ⟨fun _ => hcomplete, fun hnot => absurd hcancel hnot⟩
  · next hother =>
    simp only [bind_eq_ok, require_eq_ok, pure_eq_ok] at h
    obtain ⟨_, hempty, rfl⟩ := h
    exact ⟨fun hcancel => absurd hcancel hother, fun _ => hempty⟩

theorem Intent.Normalized.owned {i : Intent} (h : i.Normalized) :
    (i.operation ∈ cancelOperations → i.ownedOrderKey.Complete) ∧ (i.operation ∉ cancelOperations → i.ownedOrderKey = .empty) := by
  obtain ⟨value, operation, h⟩ := h
  simp only [normalizeIntent, bind_eq_ok, require_eq_ok, pure_eq_ok] at h
  obtain ⟨_, -, _, -, _, -, _, -, _, -, _, -, _, -, _, -, _, -, _, howned, rfl⟩ := h
  exact checkOwned_eq_ok howned

/-- The two tables agree, but for one operation: it has the overseas cancel endpoint and asks for no key. -/
theorem operation_of_cancelEndpoint {operation endpoint : String} (h : endpoint ∈ operationEndpoints operation)
    (hcancel : endpoint ∈ cancelEndpoints) : operation ∈ cancelOperations ∨ operation = "OVERSEAS_CANCEL_ORDER" := by
  rw [operationEndpoints] at h
  split at h
  · -- a place endpoint is no cancel endpoint
    rcases List.mem_pair.mp h with rfl | rfl
    · exact absurd hcancel (by decide)
    · exact absurd hcancel (by decide)
  · split at h
    · obtain rfl := List.mem_singleton.mp h
      exact absurd hcancel (by decide)
    · split at h
      · next hdomestic =>
        refine .inl ?_
        simp only [cancelOperations, List.mem_cons, List.not_mem_nil, or_false] at hdomestic ⊢
        tauto
      · split at h
        · next hoverseas =>
          rcases List.mem_pair.mp hoverseas with rfl | rfl
          · exact .inr rfl
          · exact .inl (by decide)
        · exact absurd h List.not_mem_nil

theorem operation_of_placeEndpoint {operation endpoint : String} (h : endpoint ∈ operationEndpoints operation)
    (hplace : endpoint ∈ placeEndpoints) : operation ∉ cancelOperations := by
  intro hcancel
  simp only [cancelOperations, List.mem_cons, List.not_mem_nil, or_false] at hcancel
  rcases hcancel with rfl | rfl | rfl | rfl | rfl
  all_goals
    obtain rfl := List.mem_singleton.mp h
    exact absurd hplace (by decide)

/-- **An accepted intent** names the order it cancels. -/
theorem Intent.Normalized.keyFits {i : Intent} (h : i.Normalized) : i.KeyFits := by
  obtain ⟨hcomplete, hempty⟩ := h.owned
  obtain ⟨value, operation, hvalue⟩ := h
  have hendpoint : i.endpoint ∈ operationEndpoints i.operation := owns_of_normalizeIntent hvalue
  refine ⟨fun hcancel hother => ?_, fun hoverseas => ?_, fun hplace => ?_⟩
  · rcases operation_of_cancelEndpoint hendpoint hcancel with hop | hop
    · exact hcomplete hop
    · exact absurd hop hother
  · rw [hoverseas] at hendpoint hempty
    exact ⟨List.mem_singleton.mp hendpoint, hempty (by decide)⟩
  · exact hempty (operation_of_placeEndpoint hendpoint hplace)

/-! ## Leases -/

/-- The intent that a lease was made for. -/
def Lease.intent (lease : Lease) : Intent := lease.owner.intent

/-- Every lease in the process is that of an accepted intent. -/
structure Keyed (s : State) : Prop where
  lease : ∀ t l, s.lease t = some l → l.intent.Normalized
  pending : ∀ t p, s.pending t = some p → p.lease.intent.Normalized
  log : ∀ c ∈ s.log, c.pending.lease.intent.Normalized

theorem keyed_init : Keyed {} := by
  refine ⟨fun t l hl => ?_, fun t p hp => ?_, fun c hc => absurd hc List.not_mem_nil⟩
  · cases hl
  · cases hp

variable {env : Env} {s : State}

/-- A thread whose lease is another one now. -/
theorem Keyed.setLease (h : Keyed s) {t : ℕ} {lease : Option Lease} (hlease : ∀ l, lease = some l → l.intent.Normalized) :
    Keyed (s.setLease t lease) := by
  refine ⟨fun u l hl => ?_, h.pending, h.log⟩
  change Function.update s.lease t lease u = some l at hl
  by_cases hu : u = t
  · rw [hu, Function.update_self] at hl
    exact hlease l hl
  · rw [Function.update_of_ne hu] at hl
    exact h.lease u l hl

theorem Keyed.setFrames (h : Keyed s) (t : ℕ) (frames : List Frame) : Keyed (s.setFrames t frames) := ⟨h.lease, h.pending, h.log⟩

theorem Keyed.setPending (h : Keyed s) {t : ℕ} {pending : Option Pending}
    (hpending : ∀ p, pending = some p → p.lease.intent.Normalized) : Keyed (s.setPending t pending) := by
  refine ⟨h.lease, fun u p hp => ?_, h.log⟩
  change Function.update s.pending t pending u = some p at hp
  by_cases hu : u = t
  · rw [hu, Function.update_self] at hp
    exact hpending p hp
  · rw [Function.update_of_ne hu] at hp
    exact h.pending u p hp

theorem Keyed.openBoundary (h : Keyed s) (t : ℕ) (b : Sealed) (hb : b.intent.Normalized) (nonce : String) (initial : Snapshot) :
    Keyed (openBoundary env s t b nonce initial) := by
  have hleased : Keyed (s.setLease t (some (Lease.of env b s.serial nonce initial))) := h.setLease fun l hl => by
    obtain rfl := Option.some.inj hl
    exact hb
  exact ⟨hleased.lease, hleased.pending, hleased.log⟩

theorem Keyed.enter (h : Keyed s) {t : ℕ} {b : Sealed} (hb : b.intent.Normalized) (entry : Entry) : Keyed (enter env s t b entry) := by
  rw [OrderAuthority.enter]
  cases s.lease t with
  | some lease =>
    dsimp only
    split
    · split
      · exact h.setFrames t _
      · exact h
    · exact h
  | none =>
    dsimp only
    split
    · exact h
    · split
      · exact h
      · next initial _ =>
        have hopened :
            Keyed (OrderAuthority.openBoundary env s t { b with emergencyActive := entry.emergencyActive } entry.nonce initial) :=
          h.openBoundary t { b with emergencyActive := entry.emergencyActive } hb entry.nonce initial
        split
        · split
          · exact h
          · exact ⟨hopened.lease, hopened.pending, hopened.log⟩
        · exact hopened

theorem Keyed.burn (h : Keyed s) {t : ℕ} {p : Pending} (hp : s.pending t = some p) (a : Answers) : Keyed (burn s t p a) := by
  have hdropped : Keyed (s.setPending t none) := h.setPending fun p hp => by cases hp
  rw [OrderAuthority.burn]
  split
  · exact hdropped
  · split
    · exact hdropped
    · refine ⟨hdropped.lease, hdropped.pending, fun c hc => ?_⟩
      rcases List.mem_append.mp hc with hc | hc
      · exact h.log c hc
      · rw [List.mem_singleton.mp hc]
        exact h.pending t p hp

/-- **A step of a thread** makes leases of accepted intents only. -/
theorem keyed_step {s' : State} {label : Label} (hstep : step env s label = some s') (h : Keyed s) : Keyed s' := by
  cases label with
  | enter t call first entry =>
    rw [step] at hstep
    split at hstep
    · cases hstep
    · obtain rfl := Option.some.inj hstep
      exact h
    · next hcheck =>
      obtain rfl := Option.some.inj hstep
      exact h.enter (normalized_of_check hcheck) entry
  | leave t i =>
    rw [step] at hstep
    split at hstep
    · obtain rfl := Option.some.inj hstep
      exact (h.setLease fun l hl => h.lease t l (leaseAfter_eq_some hl).1).setFrames t _
    · cases hstep
  | require t transport a =>
    rw [step] at hstep
    split at hstep
    · cases hstep
    · obtain rfl := Option.some.inj hstep
      exact h
    · next lease _ hlease =>
      split at hstep
      · next p hp =>
        obtain rfl := Option.some.inj hstep
        refine h.setPending fun q hq => ?_
        obtain rfl := Option.some.inj hq
        simp only [requireTransport, bind_eq_ok, pure_eq_ok] at hp
        obtain ⟨_, -, _, -, _, -, rfl⟩ := hp
        exact h.lease t lease hlease
      · obtain rfl := Option.some.inj hstep
        exact h
  | burn t a =>
    rw [step] at hstep
    split at hstep
    · next p hp =>
      obtain rfl := Option.some.inj hstep
      exact h.burn hp a
    · cases hstep

/-- **Every order that is cancelled is named**, by every accepted intent and by every transport that is let through; the ordinary
overseas cancel is the one that names none. -/
theorem cancel_names_order : (∀ i : Intent, i.Normalized → i.KeyFits) ∧
    ∀ {labels : List Label} {s : State}, Run (step env) Free {} labels s → ∀ c ∈ s.log,
      c.pending.transport.endpoint = c.pending.lease.intent.endpoint ∧ c.pending.lease.intent.KeyFits := by
  refine ⟨fun i hi => hi.keyFits, fun hrun c hc => ?_⟩
  have hkeyed := hrun.invariant (P := Keyed) (fun _ => keyed_step) keyed_init
  obtain ⟨initial, -, hchecked⟩ := ((backed_of_run hrun).1 c hc).inside
  exact ⟨hchecked.endpoint, (hkeyed.log c hc).keyFits⟩

/-! ## Two cancels -/

/-- The intent of a cancel. -/
def cancelIntent (operation market date organization number : String) : Json :=
  .obj [("operation", .str operation), ("claimId", .str "claim-1"),
    ("ownedOrderKey", .obj [("orderDate", .str date), ("organizationNo", .str organization), ("orderNo", .str number)]),
    ("accountFingerprint", .str (sampleHash 1)), ("credentialConfigurationHash", .str (sampleHash 2)),
    ("endpoint", .str ("/uapi/" ++ market ++ "/v1/trading/order-rvsecncl")), ("payloadHash", .str (sampleHash 3))]

/-- A cancel of a domestic order, and one of an overseas order. -/
def domesticCancel : Json := cancelIntent "CANCEL_ORDER" "domestic-stock" "20260805" "00950" "0000117057"

def overseasCancel : Json := cancelIntent "OVERSEAS_CANCEL_ORDER" "overseas-stock" "" "" ""

def Env.cancels : Env where
  hash := Json.digestAmong [.obj [], domesticCancel, overseasCancel]
  hash_injective := Json.digestAmong_injective _

/-- A cancel goes out inside of a boundary of its own. -/
def cancelRun (operation : String) (intent : Json) (market : String) : List Label :=
  [.enter 0 (.ordinary (.str operation) intent) (sampleAnswers 1) (sampleEntry "a"),
    .require 0 { sampleTransport with endpoint := "/uapi/" ++ market ++ "/v1/trading/order-rvsecncl" } (sampleAnswers 1),
    .burn 0 (sampleAnswers 1)]

/-- The overseas cancel is let through without a key. -/
theorem overseas_cancel_names_none : ∃ s, Run (step Env.cancels) Free {} (cancelRun "OVERSEAS_CANCEL_ORDER" overseasCancel "overseas-stock") s ∧
    ∃ c, s.log.head? = some c ∧ c.pending.transport.endpoint ∈ cancelEndpoints ∧ c.pending.lease.intent.ownedOrderKey = ⟨"", "", ""⟩ ∧
      ¬c.pending.lease.intent.ownedOrderKey.Complete := by
  have hrun : ∃ s, runAll (step Env.cancels) {} (cancelRun "OVERSEAS_CANCEL_ORDER" overseasCancel "overseas-stock") = some s ∧
      ∃ c, s.log.head? = some c ∧ c.pending.transport.endpoint ∈ cancelEndpoints ∧
        c.pending.lease.intent.ownedOrderKey = ⟨"", "", ""⟩ ∧ ¬c.pending.lease.intent.ownedOrderKey.Complete := by
    decide
  obtain ⟨s, hs, hc⟩ := hrun
  exact ⟨s, free_of_runAll hs, hc⟩

/-- A domestic cancel carries the whole key. -/
theorem domestic_cancel_names_order : ∃ s, Run (step Env.cancels) Free {} (cancelRun "CANCEL_ORDER" domesticCancel "domestic-stock") s ∧
    ∃ c ∈ s.log, c.pending.lease.intent.operation = "CANCEL_ORDER" ∧ c.pending.lease.intent.ownedOrderKey.Complete := by
  have hrun : ∃ s, runAll (step Env.cancels) {} (cancelRun "CANCEL_ORDER" domesticCancel "domestic-stock") = some s ∧
      ∃ c, s.log.head? = some c ∧ c.pending.lease.intent.operation = "CANCEL_ORDER" ∧
        c.pending.lease.intent.endpoint ∈ cancelEndpoints := by
    decide
  obtain ⟨s, hs, c, hc, hoperation, hendpoint⟩ := hrun
  have hmem : c ∈ s.log := List.mem_of_head? hc
  obtain ⟨-, hfits⟩ := cancel_names_order.2 (free_of_runAll hs) c hmem
  exact ⟨s, free_of_runAll hs, c, hmem, hoperation, hfits.cancel hendpoint (by rw [hoperation]; decide)⟩

end LiveTrader.OrderAuthority
