/-
# `ShortCleanup.Completion` — once per order, and complete when it is

The log of an adapter tells what each cancel, each closing order and each return was preceded by.  `Owed` is
what the code owes of an event whatever the exchange answers, and `Marked` says that the marks in memory
cover the log; every function of the cleanup keeps it.  `Allowed` is what is asked of an event.  It follows
where the replies of the exchange agree with each other (`Seen.agrees`), so that a read that shows nothing
but a conditional order is not one whose stops were all read as gone.
-/
import LiveTrader.Lib.Runs
import LiveTrader.ShortCleanup.Adapter

namespace LiveTrader.ShortCleanup

open Lib Lib.Py Lib.Runs
open FuturesProtection (Direction)

/-! ## What the log tells -/

/-- The last account read, if it has passed every check. -/
def lastRead : List Event → Option Seen
  | [] => none
  | .looked :: _ => none
  | .read seen :: _ => some seen
  | _ :: log => lastRead log

/-- The last account that was known to `reconcile`. -/
def lastReconciled : List Event → Option Current
  | [] => none
  | .reconciled current :: _ => some current
  | _ :: log => lastReconciled log

/-- The value is an empty list. -/
def isEmptyList : Json → Bool
  | .arr items => items.isEmpty
  | _ => false

/-- No open order and no position. -/
def Seen.flat (seen : Seen) : Bool :=
  isEmptyList (seen.raw.at "openOrders") && seen.positions.all fun position => position.quantity = 0

/-- Every stop was read as gone. -/
def Seen.stopsGone (seen : Seen) : Bool :=
  match FuturesProtection.retirementVerified seen.stops with
  | .ok gone => gone
  | .error _ => false

/-- A conditional order is listed. -/
def Seen.listsConditional (seen : Seen) : Bool := (seen.raw.at "openAlgoOrders").truthy

/-- The direction of the row is that of the quantity, and of a spec of its symbol; a spot route holds what it has. -/
def Setup.directs (setup : Setup) (position : Position) : Bool :=
  if setup.futures then (setup.specs.lookup position.symbol).isSome && (!position.short || decide (position.quantity < 0))
  else decide (0 ≤ position.quantity)

/-- The replies of the exchange agree with each other. -/
def Seen.agrees (setup : Setup) (seen : Seen) : Bool :=
  (seen.positions.all fun position => position.quantity = 0 || setup.directs position) &&
    !(seen.flat && seen.stopsGone && seen.listsConditional)

/-- The read was complete and fresh. -/
def Seen.Current (env : Env) (seen : Seen) : Prop :=
  complete seen.raw = true ∧ ∃ observedAt, env.epoch (seen.raw.at "observedAt") = .ok observedAt ∧ fresh seen.now observedAt

/-! ## What is asked -/

/-- A closing order reduces the position, by no more than it has. -/
def Reduces (position : Position) (side : String) (quantity : ℚ) : Prop :=
  quantity ≤ |position.quantity| ∧ (side = "SELL" ∧ 0 < position.quantity ∨ side = "BUY" ∧ position.quantity < 0)

/-- What is asked of an event, after those that came before it. -/
def Allowed (env : Env) (past : List Event) : Event → Prop
  | .cancelled symbol brokerOrderId => .cancelled symbol brokerOrderId ∉ past ∧
      ∃ earlier, past = .cancelAuthorized symbol brokerOrderId :: .cancelReserved symbol brokerOrderId :: earlier
  | .closed symbol direction side quantity => (∀ side' quantity', .closed symbol direction side' quantity' ∉ past) ∧
      (∃ current, lastReconciled past = some current ∧ current.pendingOrders = []) ∧
      ∃ seen position, lastRead past = some seen ∧ seen.Current env ∧ matching seen.positions symbol = [position] ∧
        Reduces position side quantity
  | .stopCancelled _ => ∃ seen, lastRead past = some seen ∧ seen.flat = true
  | .returned true => ∃ seen, lastRead past = some seen ∧ seen.Current env ∧ seen.flat = true ∧ seen.listsConditional = false
  | _ => True

/-! ## What is owed -/

/-- The sides of the positions are those of the specs, on the futures route. -/
def Seen.Sided (setup : Setup) (seen : Seen) : Prop :=
  setup.futures = true → ∀ position ∈ seen.positions, position.quantity ≠ 0 → specAgrees setup position = true

/-- The account that `reconcile` has returned is one that was read. -/
structure Shows (seen : Seen) (current : Current) : Prop where
  orders : seen.raw.at "openOrders" = .arr current.pendingOrders
  positions : current.positions = seen.positions
  retired : current.retired = true → seen.stopsGone = true

/-- The last account that was reconciled, and a read that shows it. -/
structure Reconciled (setup : Setup) (log : List Event) (current : Current) : Prop where
  last : lastReconciled log = some current
  shown : ∃ seen, .read seen ∈ log ∧ seen.Sided setup ∧ Shows seen current

/-- What a closing order was sized on. -/
structure Sized (env : Env) (setup : Setup) (log : List Event) (symbol : String) (direction : Direction) (quantity : ℚ) : Prop where
  spot : setup.futures = true ∨ direction = .long
  shown : ∃ seen position, lastRead log = some seen ∧ seen.Current env ∧ seen.Sided setup ∧
    matching seen.positions symbol = [position] ∧ quantity ≤ |position.quantity|

/-- The last read is one of a flat account whose stops are gone. -/
structure Done (env : Env) (log : List Event) : Prop where
  shown : ∃ seen, lastRead log = some seen ∧ seen.Current env ∧ seen.flat = true ∧ seen.stopsGone = true

/-- What the code owes of an event, after those that came before it. -/
def Owed (env : Env) (setup : Setup) (past : List Event) : Event → Prop
  | .cancelled symbol brokerOrderId => .cancelled symbol brokerOrderId ∉ past ∧
      ∃ earlier, past = .cancelAuthorized symbol brokerOrderId :: .cancelReserved symbol brokerOrderId :: earlier
  | .closed symbol direction side quantity => (∀ side' quantity', .closed symbol direction side' quantity' ∉ past) ∧
      side = closingSide direction ∧ Sized env setup past symbol direction quantity ∧
      ∃ current, Reconciled setup past current ∧ current.pendingOrders = [] ∧
        ∃ position ∈ current.positions, position.quantity ≠ 0 ∧ position.symbol = symbol ∧ position.direction = direction
  | .stopCancelled _ => ∃ seen, lastRead past = some seen ∧ seen.flat = true
  | .returned true => Done env past
  | _ => True

/-- The marks in memory cover the log. -/
structure Marked (env : Env) (setup : Setup) (s : Adapter) : Prop where
  owed : Each (Owed env setup) s.log
  cancelled : ∀ symbol brokerOrderId, .cancelled symbol brokerOrderId ∈ s.log → (symbol, brokerOrderId) ∈ s.cancelAttempts
  closed : ∀ symbol direction side quantity, .closed symbol direction side quantity ∈ s.log → env.closingId symbol direction ∈ s.claims

variable {env : Env} {setup : Setup} {world : World} {s s' : Adapter} {current : Current}

/-! ## Reads -/

theorem owed_of_isReconcile {past : List Event} {e : Event} (h : e.isReconcile = true) : Owed env setup past e := by
  cases e with
  | looked => trivial
  | read seen => trivial
  | reconciled current => trivial
  | cancelReserved _ _ => cases h
  | cancelAuthorized _ _ => cases h
  | cancelled _ _ => cases h
  | closed _ _ _ _ => cases h
  | stopCancelled _ => cases h
  | returned _ => cases h

theorem Event.isReconcile_of_isRead {e : Event} (h : e.isRead = true) : e.isReconcile = true := by
  cases e <;> first | rfl | exact h

theorem Marked.adds (h : Marked env setup s) (hadds : Adds Event.isReconcile s s') : Marked env setup s' := by
  obtain ⟨delta, hlog, hkind⟩ := hadds.log
  have hold : ∀ e ∈ s'.log, e.isReconcile = false → e ∈ s.log := by
    intro e he hread
    rw [hlog] at he
    rcases List.mem_append.mp he with hdelta | hmem
    · rw [hkind e hdelta] at hread
      cases hread
    · exact hmem
  refine ⟨?_, fun symbol id hmem => ?_, fun symbol direction side quantity hmem => ?_⟩
  · rw [hlog]
    exact h.owed.append fun past e he => owed_of_isReconcile (hkind e he)
  · rw [hadds.attempts]
    exact h.cancelled symbol id (hold _ hmem rfl)
  · exact hadds.claims _ (h.closed symbol direction side quantity (hold _ hmem rfl))

theorem Marked.reads (h : Marked env setup s) (hadds : Adds Event.isRead s s') : Marked env setup s' :=
  h.adds (hadds.mono fun _ he => Event.isReconcile_of_isRead he)

theorem lastReconciled_adds (h : Adds Event.isRead s s') : lastReconciled s'.log = lastReconciled s.log := by
  obtain ⟨delta, hlog, hkind⟩ := h.log
  rw [hlog]
  clear hlog
  induction delta with
  | nil => rfl
  | cons e delta ih =>
    have hrest := ih fun e he => hkind e (List.mem_cons_of_mem _ he)
    have he := hkind e List.mem_cons_self
    cases e with
    | looked => exact hrest
    | read seen => exact hrest
    | _ => cases he

theorem mem_log_adds {kind : Event → Bool} (h : Adds kind s s') {e : Event} (hmem : e ∈ s.log) : e ∈ s'.log := by
  obtain ⟨delta, hlog, -⟩ := h.log
  rw [hlog]
  exact List.mem_append_right _ hmem

theorem Reconciled.reads (h : Reconciled setup s.log current) (hadds : Adds Event.isRead s s') : Reconciled setup s'.log current := by
  obtain ⟨seen, hmem, hshown⟩ := h.shown
  exact ⟨(lastReconciled_adds hadds).trans h.last, seen, mem_log_adds hadds hmem, hshown⟩

theorem closed_not_mem_adds (hadds : Adds Event.isRead s s') {symbol : String} {direction : Direction}
    (h : ∀ side quantity, .closed symbol direction side quantity ∉ s.log) (side : String) (quantity : ℚ) :
    .closed symbol direction side quantity ∉ s'.log := by
  obtain ⟨delta, hlog, hkind⟩ := hadds.log
  rw [hlog]
  intro hmem
  rcases List.mem_append.mp hmem with hdelta | hpast
  · cases hkind _ hdelta
  · exact h side quantity hpast

/-! ## What a read shows -/

theorem listOf_eq_ok {value : Json} {items : List Json} (h : listOf value = .ok items) : value = .arr items := by
  cases value with
  | arr items' =>
    obtain rfl := Except.ok.inj h
    rfl
  | _ => cases h

/-- What a read that has passed every check is. -/
structure Read (env : Env) (setup : Setup) (seen : Seen) (s : Adapter) : Prop where
  last : lastRead s.log = some seen
  mem : .read seen ∈ s.log
  current : seen.Current env
  sided : seen.Sided setup
  stops : seen.stops = s.protection.elim [] fun m => m.claims.map Prod.snd

theorem checkRoute_spec (raw : Fields) (positions : List Position) :
    (checkRoute setup world raw positions).wp (fun _ _ => setup.futures = true → ∀ position ∈ positions, position.quantity ≠ 0 →
      specAgrees setup position = true) (fun _ => True) s := by
  refine Proc.wp_ite (fun _ => ?_) fun hspot hfutures => absurd hfutures hspot
  rw [checkFutures]
  refine Proc.wp_skip fun algos s₁ => Proc.wp_skip fun protection s₂ => Proc.wp_skip fun _ s₃ => Proc.wp_skip fun _ s₄ => ?_
  exact Proc.wp_check (fun hsides _ => hsides) trivial

theorem snapshot_spec : (snapshot env setup world).wp (fun seen s' => Read env setup seen s') (fun _ => True) s := by
  rw [snapshot]
  refine Proc.wp_skip fun _ s₁ => Proc.wp_skip fun _ s₂ => Proc.wp_skip fun raw s₃ => ?_
  refine Proc.wp_bind.mpr (Proc.wp_check (fun hcomplete => ?_) trivial)
  refine Proc.wp_skip fun now s₄ => Proc.wp_bind.mpr (Proc.wp_of (fun observedAt hepoch => ?_) trivial)
  refine Proc.wp_bind.mpr (Proc.wp_check (fun hfresh => ?_) trivial)
  refine Proc.wp_skip fun _ s₅ => Proc.wp_skip fun positions s₆ => ?_
  refine Proc.wp_then (checkRoute_spec raw positions) (fun _ s₇ hsides => ?_) fun _ _ => trivial
  refine Proc.wp_skip fun _ s₈ => Proc.wp_skip fun _ s₉ => ?_
  rw [Proc.wp_bind, Proc.wp_read, Proc.wp_bind, note, Proc.wp_modify, Proc.wp_pure]
  exact ⟨rfl, List.mem_cons_self, ⟨hcomplete, observedAt, hepoch, hfresh⟩, hsides, rfl⟩

theorem Read.ask {α : Type} {answer : ℕ → FuturesProtection.Answer α} {seen : Seen} {Q : α → Adapter → Prop}
    (h : Read env setup seen s) (hQ : ∀ a s', Read env setup seen s' → Q a s') : (ask answer).wp Q (fun _ => True) s := by
  rw [ShortCleanup.ask, Proc.wp_bind, Proc.wp_read, Proc.wp_bind, Proc.wp_modify]
  exact Proc.wp_of (fun a _ => hQ a _ ⟨h.last, h.mem, h.current, h.sided, h.stops⟩) trivial

theorem retirementVerified_spec {seen : Seen} (h : Read env setup seen s) :
    retirementVerified.wp (fun retired s' => Read env setup seen s' ∧ (retired = true → seen.stopsGone = true)) (fun _ => True) s := by
  rw [retirementVerified, Proc.wp_bind, Proc.wp_read]
  refine Proc.wp_of (fun retired hretired => ⟨h, fun htrue => ?_⟩) trivial
  have hstops := h.stops
  cases hprotection : s.protection with
  | none =>
    rw [hprotection] at hstops
    rw [Seen.stopsGone, show seen.stops = [] from hstops]
    rfl
  | some m =>
    rw [hprotection] at hretired hstops
    rw [Seen.stopsGone, show seen.stops = m.claims.map Prod.snd from hstops, FuturesProtection.Answer.of_eq_ok hretired]
    exact htrue

/-- What an account that is known to `reconcile` is. -/
structure Known (env : Env) (setup : Setup) (current : Current) (log : List Event) : Prop where
  reconciled : Reconciled setup log current
  read : ∃ seen, lastRead log = some seen ∧ seen.Current env ∧ Shows seen current

theorem trying_spec {α : Type} {code : Code α} {Q : α → Adapter → Prop} {J : Adapter → Prop} (h : code.wp Q J s) :
    (trying code).wp (fun answer s' => (∀ a, answer = some a → Q a s') ∧ (answer = none → J s')) J s := by
  refine Proc.wp_then (Q := fun result s' => (∀ a, result = .ok a → Q a s') ∧ (∀ k, result = .error k → J s')) ?_ ?_ fun _ hJ => hJ
  · refine Proc.wp_outcome (J := J) ?_ ?_ fun _ hJ => hJ
    · refine Proc.wp_mono h (fun a s' hQ => ⟨fun a' heq => ?_, fun k hk => ?_⟩) fun _ hJ => hJ
      · cases heq
        exact hQ
      · cases hk
    · exact fun k s' hJ => ⟨fun a ha => (by cases ha), fun _ _ => hJ⟩
  · intro result s' hresult
    cases result with
    | ok a =>
      refine ⟨fun a' heq => ?_, fun hnone => ?_⟩
      · obtain rfl := Option.some.inj heq
        exact hresult.1 a rfl
      · cases hnone
    | error k => exact ⟨fun a ha => (by cases ha), fun _ => hresult.2 k rfl⟩

theorem reconcile_known : (reconcile env setup world).wp (fun answer s' => ∀ current, answer = some current → Known env setup current s'.log)
    (fun _ => True) s := by
  have hinner : (reconcileAccount env setup world).wp (fun current s' => Known env setup current s'.log) (fun _ => True) s := by
    rw [reconcileAccount]
    refine Proc.wp_skip fun _ s₁ => Proc.wp_then snapshot_spec (fun seen s₂ hread => ?_) fun _ _ => trivial
    rw [Proc.wp_bind]
    refine hread.ask fun _ s₃ hread => ?_
    refine Proc.wp_bind.mpr (Proc.wp_of (fun pendingOrders horders => ?_) trivial)
    refine Proc.wp_then (retirementVerified_spec hread) ?_ fun _ _ => trivial
    rintro retired s₄ ⟨hread, hretired⟩
    rw [Proc.wp_bind, note, Proc.wp_modify, Proc.wp_pure]
    have hshows : Shows seen ⟨pendingOrders, seen.positions, seen.raw.at "openAlgoOrders", retired⟩ :=
      ⟨listOf_eq_ok horders, rfl, hretired⟩
    exact ⟨⟨rfl, seen, List.mem_cons_of_mem _ hread.mem, hread.sided, hshows⟩, seen, hread.last, hread.current, hshows⟩
  exact Proc.wp_mono (trying_spec hinner) (fun _ _ h => h.1) fun _ _ => trivial

/-- **`reconcile`** keeps the marks, and what it returns was read. -/
theorem reconcile_spec (h : Marked env setup s) :
    (reconcile env setup world).wp
      (fun answer s' => Marked env setup s' ∧ ∀ current, answer = some current → Known env setup current s'.log) (Marked env setup) s := by
  refine Proc.wp_mono (adds_reconcile.and reconcile_known) ?_ ?_
  · rintro answer s' ⟨hknown, hadds⟩
    exact ⟨h.adds hadds, hknown⟩
  · rintro s' ⟨-, hadds⟩
    exact h.adds hadds

theorem Current.flat_iff {current : Current} : current.flat = true ↔
    current.pendingOrders = [] ∧ ∀ position ∈ current.positions, position.quantity = 0 := by
  rw [Current.flat, Bool.and_eq_true, List.isEmpty_iff, List.all_eq_true]
  simp only [decide_eq_true_eq]

theorem Shows.flat {seen : Seen} (h : Shows seen current) (hflat : current.flat = true) : seen.flat = true := by
  obtain ⟨hnone, hzero⟩ := Current.flat_iff.mp hflat
  rw [Seen.flat, h.orders, hnone, Bool.and_eq_true]
  refine ⟨rfl, List.all_eq_true.mpr fun position hposition => decide_eq_true (hzero position ?_)⟩
  rw [h.positions]
  exact hposition

theorem Known.isFlat (h : Known env setup current s.log) (hflat : current.flat = true) :
    ∃ seen, lastRead s.log = some seen ∧ seen.flat = true := by
  obtain ⟨seen, hlast, -, hshows⟩ := h.read
  exact ⟨seen, hlast, hshows.flat hflat⟩

theorem Known.done (h : Known env setup current s.log) (hcomplete : isComplete (some current) = true) : Done env s.log := by
  obtain ⟨seen, hlast, hcurrent, hshows⟩ := h.read
  have hboth : current.flat = true ∧ current.retired = true := Bool.and_eq_true_iff.mp hcomplete
  exact ⟨seen, hlast, hcurrent, hshows.flat hboth.1, hshows.retired hboth.2⟩

/-! ## Cancels -/

theorem wp_ask {α : Type} {answer : ℕ → FuturesProtection.Answer α} {Q : α → Adapter → Prop} {R : Adapter → Prop}
    (hok : ∀ a, Q a { s with calls := s.calls + 1 }) (herror : R { s with calls := s.calls + 1 }) : (ask answer).wp Q R s := by
  rw [ask, Proc.wp_bind, Proc.wp_read, Proc.wp_bind, Proc.wp_modify]
  exact Proc.wp_of (fun a _ => hok a) herror

theorem wp_permitted {answer : ℕ → FuturesProtection.Answer Bool} {code : String} {Q : Unit → Adapter → Prop} {R : Adapter → Prop}
    (hok : Q () { s with calls := s.calls + 1 }) (herror : R { s with calls := s.calls + 1 }) :
    (permitted answer code).wp Q R s := by
  rw [permitted, Proc.wp_bind]
  exact wp_ask (fun granted => Proc.wp_check (fun _ => hok) herror) herror

theorem Marked.calls (h : Marked env setup s) (calls : ℕ) : Marked env setup { s with calls } :=
  ⟨h.owed, h.cancelled, h.closed⟩

/-- A reservation or an authority owes nothing. -/
theorem Marked.reserved (h : Marked env setup s) (symbol brokerOrderId : String) :
    Marked env setup { s with log := .cancelReserved symbol brokerOrderId :: s.log } := by
  refine ⟨⟨trivial, h.owed⟩, fun symbol' id hmem => ?_, fun symbol' direction side quantity hmem => ?_⟩
  · cases hmem with
    | tail _ hmem => exact h.cancelled symbol' id hmem
  · cases hmem with
    | tail _ hmem => exact h.closed symbol' direction side quantity hmem

theorem Marked.authorized (h : Marked env setup s) (symbol brokerOrderId : String) :
    Marked env setup { s with log := .cancelAuthorized symbol brokerOrderId :: s.log } := by
  refine ⟨⟨trivial, h.owed⟩, fun symbol' id hmem => ?_, fun symbol' direction side quantity hmem => ?_⟩
  · cases hmem with
    | tail _ hmem => exact h.cancelled symbol' id hmem
  · cases hmem with
    | tail _ hmem => exact h.closed symbol' direction side quantity hmem

theorem Marked.attempted (h : Marked env setup s) (key : String × String) :
    Marked env setup { s with cancelAttempts := key :: s.cancelAttempts } :=
  ⟨h.owed, fun symbol id hmem => List.mem_cons_of_mem _ (h.cancelled symbol id hmem), h.closed⟩

/-- A cancel that was not tried before, right after its reservation and its authority. -/
theorem Marked.cancel (h : Marked env setup s) {symbol brokerOrderId : String} {earlier : List Event}
    (hlog : s.log = .cancelAuthorized symbol brokerOrderId :: .cancelReserved symbol brokerOrderId :: earlier)
    (hnew : .cancelled symbol brokerOrderId ∉ s.log) (hattempt : (symbol, brokerOrderId) ∈ s.cancelAttempts) :
    Marked env setup { s with log := .cancelled symbol brokerOrderId :: s.log } := by
  refine ⟨⟨⟨hnew, earlier, hlog⟩, h.owed⟩, fun symbol' id hmem => ?_, fun symbol' direction side quantity hmem => ?_⟩
  · cases hmem with
    | head => exact hattempt
    | tail _ hmem => exact h.cancelled symbol' id hmem
  · cases hmem with
    | tail _ hmem => exact h.closed symbol' direction side quantity hmem

theorem sendCancel_spec (h : Marked env setup s) {key : String × String} (hnew : key ∉ s.cancelAttempts) :
    (sendCancel world key).wp (fun _ => Marked env setup) (Marked env setup) s := by
  obtain ⟨symbol, brokerOrderId⟩ := key
  have hfirst : .cancelled symbol brokerOrderId ∉ s.log := fun hmem => hnew (h.cancelled symbol brokerOrderId hmem)
  rw [sendCancel, Proc.wp_bind]
  refine wp_permitted ?_ (h.calls _)
  rw [Proc.wp_bind, note, Proc.wp_modify, Proc.wp_bind]
  have hreserved := (h.calls (s.calls + 1)).reserved symbol brokerOrderId
  refine wp_permitted ?_ (hreserved.calls _)
  rw [Proc.wp_bind, note, Proc.wp_modify, Proc.wp_bind, Proc.wp_modify, Proc.wp_bind]
  have hauthorized := ((hreserved.calls (s.calls + 1 + 1)).authorized symbol brokerOrderId).attempted (symbol, brokerOrderId)
  refine wp_ask (fun _ => ?_) (hauthorized.calls _)
  rw [Proc.wp_bind, note, Proc.wp_modify]
  have hcancel := (hauthorized.calls (s.calls + 1 + 1 + 1)).cancel rfl (fun hmem => hfirst ?_) List.mem_cons_self
  · exact wp_ask (fun _ => hcancel.calls _) (hcancel.calls _)
  · cases hmem with
    | tail _ hmem => cases hmem with
      | tail _ hmem => exact hmem

theorem cancelOrder_spec (h : Marked env setup s) (row : Json) :
    (cancelOrder env world row).wp (fun _ => Marked env setup) (Marked env setup) s := by
  rw [cancelOrder, Proc.wp_bind]
  refine wp_ask (fun owned => ?_) (h.calls _)
  refine Proc.wp_bind.mpr (Proc.wp_check (fun _ => ?_) (h.calls _))
  refine Proc.wp_bind.mpr (Proc.wp_of (fun key _ => ?_) (h.calls _))
  rw [Proc.wp_bind, Proc.wp_read]
  refine Proc.wp_ite (fun _ => h.calls _) fun hnew => sendCancel_spec (h.calls _) fun hmem => ?_
  exact hnew (List.contains_iff_mem.mpr hmem)

/-! ## Closing orders -/

/-- The marks, with the account on which the positions are closed. -/
structure Closing (env : Env) (setup : Setup) (current : Current) (s : Adapter) : Prop where
  marked : Marked env setup s
  reconciled : Reconciled setup s.log current

theorem Closing.reads (h : Closing env setup current s) (hadds : Adds Event.isRead s s') : Closing env setup current s' :=
  ⟨h.marked.reads hadds, h.reconciled.reads hadds⟩

theorem Closing.claimed (h : Closing env setup current s) (client : String) :
    Closing env setup current { s with claims := client :: s.claims } :=
  ⟨⟨h.marked.owed, h.marked.cancelled, fun symbol direction side quantity hmem =>
    List.mem_cons_of_mem _ (h.marked.closed symbol direction side quantity hmem)⟩, h.reconciled⟩

theorem reduced_eq_ok {positions : List Position} {symbol : String} {position : Position}
    (h : reduced positions symbol = .ok position) : matching positions symbol = [position] := by
  rw [reduced] at h
  split at h
  · next position' hmatching =>
    obtain rfl := Except.ok.inj h
    exact hmatching
  · cases h

theorem sizeOrder_sized (symbol : String) (direction : Direction) (quantity : ℚ) :
    (sizeOrder env setup world symbol direction (some quantity)).wp
      (fun sized s' => ∀ q, sized = some q → Sized env setup s'.log symbol direction quantity) (fun _ => True) s := by
  have hinner : (sizeAccount env setup world symbol direction (some quantity)).wp
      (fun _ s' => Sized env setup s'.log symbol direction quantity) (fun _ => True) s := by
    rw [sizeAccount]
    refine Proc.wp_skip fun _ s₁ => Proc.wp_then snapshot_spec (fun seen s₂ hread => ?_) fun _ _ => trivial
    rw [Proc.wp_bind]
    refine hread.ask fun _ s₃ hread => ?_
    refine Proc.wp_bind.mpr (Proc.wp_check (fun hspot => ?_) trivial)
    refine Proc.wp_bind.mpr (Proc.wp_of (fun position hposition => ?_) trivial)
    refine Proc.wp_bind.mpr (Proc.wp_check (fun hquantity => ?_) trivial)
    exact hread.ask fun _ s₄ hread => ⟨hspot, seen, position, hread.last, hread.current, hread.sided, reduced_eq_ok hposition,
      hquantity quantity rfl⟩
  exact Proc.wp_mono (trying_spec hinner) (fun _ _ h => h.1) fun _ _ => trivial

/-- A position of the account, and no closing order for it so far. -/
structure Fresh (current : Current) (symbol : String) (direction : Direction) (s : Adapter) : Prop where
  position : ∃ position ∈ current.positions, position.quantity ≠ 0 ∧ position.symbol = symbol ∧ position.direction = direction
  closed : ∀ side quantity, .closed symbol direction side quantity ∉ s.log

theorem Fresh.reads {symbol : String} {direction : Direction} (h : Fresh current symbol direction s) (hadds : Adds Event.isRead s s') :
    Fresh current symbol direction s' :=
  ⟨h.position, closed_not_mem_adds hadds h.closed⟩

/-- A closing order that is sized and claimed is sent. -/
theorem Closing.close (h : Closing env setup current s) {symbol : String} {direction : Direction} {quantity : ℚ}
    (hnone : current.pendingOrders = []) (hfresh : Fresh current symbol direction s)
    (hsized : Sized env setup s.log symbol direction quantity) (hclaim : env.closingId symbol direction ∈ s.claims) :
    Closing env setup current { s with log := .closed symbol direction (closingSide direction) quantity :: s.log } := by
  have howed : Owed env setup s.log (.closed symbol direction (closingSide direction) quantity) :=
    ⟨hfresh.closed, rfl, hsized, current, h.reconciled, hnone, hfresh.position⟩
  refine ⟨⟨⟨howed, h.marked.owed⟩, fun symbol' id hmem => ?_, fun symbol' direction' side quantity' hmem => ?_⟩, ?_⟩
  · cases hmem with
    | tail _ hmem => exact h.marked.cancelled symbol' id hmem
  · cases hmem with
    | head => exact hclaim
    | tail _ hmem => exact h.marked.closed symbol' direction' side quantity' hmem
  · obtain ⟨seen, hmem, hshown⟩ := h.reconciled.shown
    exact ⟨h.reconciled.last, seen, List.mem_cons_of_mem _ hmem, hshown⟩

theorem submitClaim_spec (h : Closing env setup current s) {symbol : String} {direction : Direction} {quantity : ℚ}
    (hfresh : Fresh current symbol direction s) :
    (submitClaim env setup world symbol direction quantity).wp
      (fun _ s' => Closing env setup current s' ∧ Fresh current symbol direction s' ∧
        Sized env setup s'.log symbol direction quantity ∧ env.closingId symbol direction ∈ s'.claims)
      (Closing env setup current) s := by
  have hreads : ∀ {t t'}, Closing env setup current t ∧ Fresh current symbol direction t → Adds Event.isRead t t' →
      Closing env setup current t' ∧ Fresh current symbol direction t' :=
    fun hboth hadds => ⟨hboth.1.reads hadds, hboth.2.reads hadds⟩
  rw [submitClaim]
  refine Proc.wp_bind.mpr ((adds_permitted _ _).wp (fun _ s₁ hadds => ?_) fun s₁ hadds => h.reads hadds)
  have h₁ := hreads ⟨h, hfresh⟩ hadds
  refine Proc.wp_bind.mpr ((adds_permitted _ _).wp (fun _ s₂ hadds => ?_) fun s₂ hadds => h₁.1.reads hadds)
  have h₂ := hreads h₁ hadds
  refine Proc.wp_bind.mpr ((adds_ask _).wp (fun _ s₃ hadds => ?_) fun s₃ hadds => h₂.1.reads hadds)
  have h₃ := hreads h₂ hadds
  refine Proc.wp_then ((adds_sizeOrder symbol direction (some quantity)).and (sizeOrder_sized symbol direction quantity)) ?_
    fun s₄ hend => h₃.1.reads hend.2
  rintro sized s₄ ⟨hsized, hadds⟩
  have h₄ := hreads h₃ hadds
  refine Proc.wp_bind.mpr (Proc.wp_check (fun hsame => ?_) h₄.1)
  rw [Proc.wp_bind]
  refine wp_ask (fun _ => ?_) ⟨h₄.1.marked.calls _, h₄.1.reconciled⟩
  have h₅ : Closing env setup current { s₄ with calls := s₄.calls + 1 } := ⟨h₄.1.marked.calls _, h₄.1.reconciled⟩
  exact ⟨h₅.claimed _, ⟨h₄.2.position, h₄.2.closed⟩, hsized quantity hsame, List.mem_cons_self⟩

/-- **`submit`** of a closing order sends it once. -/
theorem submit_spec (h : Closing env setup current s) (hnone : current.pendingOrders = []) {symbol : String} {direction : Direction}
    (hposition : ∃ position ∈ current.positions, position.quantity ≠ 0 ∧ position.symbol = symbol ∧ position.direction = direction)
    (quantity : ℚ) :
    (submit env setup world symbol direction quantity).wp (fun _ => Closing env setup current) (Closing env setup current) s := by
  have hinner : (submitOrder env setup world symbol direction quantity).wp (fun _ => Closing env setup current)
      (Closing env setup current) s := by
    rw [submitOrder]
    refine Proc.wp_bind.mpr ((adds_ask _).wp (fun _ s₁ hadds => ?_) fun s₁ hadds => h.reads hadds)
    have h₁ := h.reads hadds
    rw [Proc.wp_bind, Proc.wp_read]
    refine Proc.wp_ite (fun _ => h₁) fun hnew => ?_
    have hfresh : Fresh current symbol direction s₁ :=
      ⟨hposition, fun side quantity hmem => hnew (h₁.marked.closed symbol direction side quantity hmem)⟩
    refine Proc.wp_then (submitClaim_spec h₁ hfresh) ?_ fun _ h => h
    rintro _ s₂ ⟨h₂, hfresh₂, hsized, hclaim⟩
    rw [Proc.wp_bind]
    refine wp_ask (fun _ => ?_) ⟨h₂.marked.calls _, h₂.reconciled⟩
    have h₃ : Closing env setup current { s₂ with calls := s₂.calls + 1 } := ⟨h₂.marked.calls _, h₂.reconciled⟩
    rw [Proc.wp_bind, note, Proc.wp_modify]
    have hclose := h₃.close hnone ⟨hfresh₂.position, hfresh₂.closed⟩ hsized hclaim
    exact wp_ask (fun _ => ⟨hclose.marked.calls _, hclose.reconciled⟩) ⟨hclose.marked.calls _, hclose.reconciled⟩
  rw [submit]
  refine Proc.wp_then (trying_spec hinner) ?_ fun _ h => h
  rintro answer s' ⟨hsome, hraised⟩
  cases answer with
  | none => exact hraised rfl
  | some a => exact hsome a rfl

theorem sendClose_spec (h : Closing env setup current s) (hnone : current.pendingOrders = []) {position : Position}
    (hmem : position ∈ current.positions) (hnonzero : position.quantity ≠ 0) :
    (sendClose env setup world position).wp (fun _ => Closing env setup current) (Closing env setup current) s := by
  rw [sendClose]
  refine Proc.wp_bind.mpr ((adds_sizeOrder _ _ _).wp (fun sized s₁ hadds => ?_) fun s₁ hadds => h.reads hadds)
  have h₁ := h.reads hadds
  cases sized with
  | none => exact h₁
  | some quantity =>
    refine Proc.wp_bind.mpr ((adds_permitted _ _).wp (fun _ s₂ hadds => ?_) fun s₂ hadds => h₁.reads hadds)
    have h₂ := h₁.reads hadds
    refine Proc.wp_then (submit_spec h₂ hnone ⟨position, hmem, hnonzero, rfl, rfl⟩ quantity) (fun _ s₃ h₃ => ?_) fun _ h => h
    exact (adds_ask _).wp (fun _ s₄ hadds => h₃.reads hadds) fun s₄ hadds => h₃.reads hadds

theorem closePosition_spec (h : Closing env setup current s) (hnone : current.pendingOrders = []) {position : Position}
    (hmem : position ∈ current.positions) :
    (closePosition env setup world position).wp (fun _ => Closing env setup current) (Closing env setup current) s := by
  refine Proc.wp_ite (fun _ => h) fun hnonzero => ?_
  refine Proc.wp_bind.mpr ((adds_ask _).wp (fun _ s₁ hadds => ?_) fun s₁ hadds => h.reads hadds)
  have h₁ := h.reads hadds
  rw [Proc.wp_bind, Proc.wp_read]
  refine Proc.wp_ite (fun _ => ?_) fun _ => sendClose_spec h₁ hnone hmem hnonzero
  exact (adds_ask _).wp (fun _ s₂ hadds => h₁.reads hadds) fun s₂ hadds => h₁.reads hadds

end LiveTrader.ShortCleanup
