/-
# `ShortCleanup.Runs` — the passes of the cleanup, and its runs

A stop is cancelled where the last read is flat, and it stays the last read while stops are cancelled.  From
the passes the marks go through every call, and from there through every run.
-/
import LiveTrader.FuturesProtection.Stops
import LiveTrader.ShortCleanup.Completion

namespace LiveTrader.ShortCleanup

open Lib Lib.Py Lib.Runs
open FuturesProtection (Direction)

variable {env : Env} {setup : Setup} {world : World} {s s' : Adapter} {current : Current}

/-! ## The end of the protection -/

theorem stop_of_mem_stopEvents {m m' : FuturesProtection.Manager} {e : Event} (h : e ∈ stopEvents m m') :
    ∃ claim, e = .stopCancelled claim := by
  obtain ⟨event, -, hstop⟩ := List.mem_filterMap.mp h
  cases event with
  | cancel claim cause => exact ⟨claim, (Option.some.inj hstop).symm⟩
  | _ => cases hstop

/-- Stops are cancelled after a read that shows a flat account. -/
theorem Marked.stops (h : Marked env setup s) {seen : Seen} (hlast : lastRead s.log = some seen) (hflat : seen.flat = true)
    {stops : List Event} (hstops : ∀ e ∈ stops, ∃ claim, e = .stopCancelled claim) (protection : Option FuturesProtection.Manager) :
    Marked env setup { s with protection, log := stops ++ s.log } := by
  have hold : ∀ e ∈ stops ++ s.log, (∃ claim, e = .stopCancelled claim) ∨ e ∈ s.log :=
    fun e he => (List.mem_append.mp he).imp_left (hstops e)
  have howed : Each (Owed env setup) (stops ++ s.log) ∧ lastRead (stops ++ s.log) = some seen := by
    clear hold
    induction stops with
    | nil => exact ⟨h.owed, hlast⟩
    | cons e stops ih =>
      obtain ⟨hrest, hread⟩ := ih fun e he => hstops e (List.mem_cons_of_mem _ he)
      obtain ⟨claim, rfl⟩ := hstops e List.mem_cons_self
      exact ⟨⟨⟨seen, hread, hflat⟩, hrest⟩, hread⟩
  refine ⟨howed.1, fun symbol id hmem => ?_, fun symbol direction side quantity hmem => ?_⟩
  · rcases hold _ hmem with ⟨claim, hstop⟩ | hmem
    · cases hstop
    · exact h.cancelled symbol id hmem
  · rcases hold _ hmem with ⟨claim, hstop⟩ | hmem
    · cases hstop
    · exact h.closed symbol direction side quantity hmem

theorem Marked.onProtection (h : Marked env setup s) (hread : ∃ seen, lastRead s.log = some seen ∧ seen.flat = true)
    (code : FuturesProtection.Code Unit) : Marked env setup (onProtection () code s).2 := by
  obtain ⟨seen, hlast, hflat⟩ := hread
  rw [ShortCleanup.onProtection.eq_def]
  cases s.protection with
  | none => exact h
  | some m => exact h.stops hlast hflat (fun e he => stop_of_mem_stopEvents he) _

theorem finishFlat_spec (h : Marked env setup s) (hread : ∃ seen, lastRead s.log = some seen ∧ seen.flat = true) :
    (finishFlat env world).wp (fun _ => Marked env setup) (Marked env setup) s := by
  rw [finishFlat, Proc.wp_bind]
  have hcalls := h.calls (s.calls + 1)
  exact wp_ask (fun _ => Proc.wp_of_state (hcalls.onProtection hread _)) hcalls

/-! ## The passes -/

/-- What a pass returns is `True` only of an account that is done. -/
def Passed (env : Env) (setup : Setup) (complete : Bool) (s : Adapter) : Prop :=
  Marked env setup s ∧ (complete = true → Done env s.log)

/-- The account that `reconcile` has returned is the last one that was read. -/
def Returned (env : Env) (setup : Setup) (final : Option Current) (s : Adapter) : Prop :=
  Marked env setup s ∧ ∀ current, final = some current → Known env setup current s.log

theorem Returned.passed {final : Option Current} (h : Returned env setup final s) : Passed env setup (isComplete final) s := by
  refine ⟨h.1, fun hcomplete => ?_⟩
  cases final with
  | none => cases hcomplete
  | some current => exact (h.2 current rfl).done hcomplete

theorem Returned.flat {final : Option Current} (h : Returned env setup final s) (hflat : final.any Current.flat = true) :
    ∃ seen, lastRead s.log = some seen ∧ seen.flat = true := by
  cases final with
  | none => cases hflat
  | some current => exact (h.2 current rfl).isFlat hflat

theorem finish_spec {final : Option Current} (h : Returned env setup final s) :
    (finish env setup world final).wp (Passed env setup) (Marked env setup) s := by
  rw [finish, Proc.wp_bind, Proc.wp_read]
  refine Proc.wp_ite (fun hflat => ?_) fun _ => h.passed
  refine Proc.wp_then (finishFlat_spec h.1 (h.flat hflat.2)) (fun _ s₁ h₁ => ?_) fun _ h => h
  exact Proc.wp_then (reconcile_spec h₁) (fun final s₂ h₂ => Returned.passed h₂) fun _ h => h

theorem flatten_spec {answer : Option Current} (h : Returned env setup answer s) :
    (flatten env setup world answer).wp (Passed env setup) (Marked env setup) s := by
  have hraise : Passed env setup false s := ⟨h.1, fun hfalse => by cases hfalse⟩
  cases answer with
  | none => exact hraise
  | some current =>
    refine Proc.wp_ite (fun hnone => ?_) fun _ => hraise
    have hclosing : Closing env setup current s := ⟨h.1, (h.2 current rfl).reconciled⟩
    have hloop : (Proc.forEach (closePosition env setup world) current.positions).wp (fun _ => Closing env setup current)
        (Closing env setup current) s :=
      Proc.wp_forEach (fun position hmem _ h => closePosition_spec h hnone hmem) hclosing
    refine Proc.wp_then hloop (fun _ s₁ h₁ => ?_) fun _ h => h.marked
    exact Proc.wp_then (reconcile_spec h₁.marked) (fun final s₂ h₂ => finish_spec h₂) fun _ h => h

theorem cleanupAccount_spec (h : Marked env setup s) (current : Current) :
    (cleanupAccount env setup world current).wp (Passed env setup) (Marked env setup) s := by
  rw [cleanupAccount, Proc.wp_bind]
  refine wp_ask (fun _ => ?_) (h.calls _)
  refine Proc.wp_then (Proc.wp_forEach (fun row _ _ h => cancelOrder_spec h row) (h.calls _)) (fun _ s₁ h₁ => ?_) fun _ h => h
  exact Proc.wp_then (reconcile_spec h₁) (fun answer s₂ h₂ => flatten_spec h₂) fun _ h => h

theorem Passed.note {complete : Bool} (h : Passed env setup complete s) :
    Marked env setup { s with log := .returned complete :: s.log } := by
  refine ⟨⟨?_, h.1.owed⟩, fun symbol id hmem => ?_, fun symbol direction side quantity hmem => ?_⟩
  · cases complete with
    | false => trivial
    | true => exact h.2 rfl
  · cases hmem with
    | tail _ hmem => exact h.1.cancelled symbol id hmem
  · cases hmem with
    | tail _ hmem => exact h.1.closed symbol direction side quantity hmem

/-- **`cleanup`** keeps the marks, and says that it is complete only of an account that is done. -/
theorem cleanup_spec (h : Marked env setup s) :
    (cleanup env setup world).wp (fun _ => Marked env setup) (Marked env setup) s := by
  have hfailed : ∀ {t}, Marked env setup t → Passed env setup false t := fun ht => ⟨ht, fun hfalse => by cases hfalse⟩
  rw [cleanup]
  refine Proc.wp_then (reconcile_spec h) (fun answer s₁ h₁ => ?_) fun _ h => h
  cases answer with
  | none => exact (hfailed h₁.1).note
  | some current =>
    refine Proc.wp_then (trying_spec (cleanupAccount_spec h₁.1 current)) ?_ fun _ h => h
    rintro result s₂ ⟨hpassed, hraised⟩
    cases result with
    | none => exact (hfailed (hraised rfl)).note
    | some complete => exact Passed.note (hpassed complete rfl)

theorem finishProtection_spec {answer : Option Current} (h : Returned env setup answer s)
    (hflat : answer.any Current.flat = true) :
    (finishProtection env world).wp (fun _ => Marked env setup) (Marked env setup) s := by
  rw [finishProtection, Proc.wp_bind, Proc.wp_read]
  exact Proc.wp_ite (fun _ => finishFlat_spec h.1 (h.flat hflat)) fun _ => h.1

theorem retireFlatProtection_spec (h : Marked env setup s) :
    (retireFlatProtection env setup world).wp (fun _ => Marked env setup) (Marked env setup) s := by
  rw [retireFlatProtection]
  refine Proc.wp_then (reconcile_spec h) (fun answer s₁ h₁ => ?_) fun _ h => h
  refine Proc.wp_ite (fun hflat => ?_) fun _ => h₁.1
  refine Proc.wp_then (finishProtection_spec h₁ hflat) (fun _ s₂ h₂ => ?_) fun _ h => h
  exact Proc.wp_then (reconcile_spec h₂) (fun final s₃ h₃ => h₃.1) fun _ h => h

/-! ## Runs -/

/-- A call of the adapter, with the answers that it gets. -/
def step (env : Env) (setup : Setup) (s : Adapter) (call : World × Call) : Option Adapter :=
  some (perform env setup call.1 s call.2)

theorem Marked.step (h : Marked env setup s) {call : World × Call} (hstep : step env setup s call = some s') : Marked env setup s' := by
  obtain rfl := Option.some.inj hstep
  cases call with
  | mk world call =>
    cases call with
    | cleanup => exact Proc.of_wp (cleanup_spec h)
    | continueCleanup => exact Proc.of_wp (cleanup_spec h)
    | retireFlatProtection => exact Proc.of_wp (retireFlatProtection_spec h)

/-- The replies behind each read of the call agree with each other. -/
def Meets (env : Env) (setup : Setup) (s : Adapter) (call : World × Call) : Prop :=
  ∀ seen, .read seen ∈ (perform env setup call.1 s call.2).log → seen.agrees setup = true

/-- A position of a read that agrees has the direction that it is closed in. -/
theorem closes {seen seen' : Seen} {position position' : Position} (hagrees : seen.agrees setup = true)
    (hagrees' : seen'.agrees setup = true) (hsided : seen.Sided setup) (hsided' : seen'.Sided setup)
    (hmem : position ∈ seen.positions) (hnonzero : position.quantity ≠ 0) (hmem' : position' ∈ seen'.positions)
    (hnonzero' : position'.quantity ≠ 0) (hsymbol : position'.symbol = position.symbol)
    (hspot : setup.futures = true ∨ position.direction = .long) :
    closingSide position.direction = "SELL" ∧ 0 < position'.quantity ∨
      closingSide position.direction = "BUY" ∧ position'.quantity < 0 := by
  have hdirects : ∀ {r : Seen} {p}, r.agrees setup = true → p ∈ r.positions → p.quantity ≠ 0 → setup.directs p = true := by
    intro r p hr hp hnonzero
    have hall := List.all_eq_true.mp (Bool.and_eq_true_iff.mp hr).1 p hp
    exact (Bool.or_eq_true_iff.mp hall).resolve_left fun hzero => hnonzero (of_decide_eq_true hzero)
  have hp := hdirects hagrees hmem hnonzero
  have hp' := hdirects hagrees' hmem' hnonzero'
  rw [Setup.directs] at hp hp'
  by_cases hfutures : setup.futures = true
  · rw [if_pos hfutures, Bool.and_eq_true] at hp
    obtain ⟨direction, hspec⟩ := Option.isSome_iff_exists.mp hp.1
    have hagree := hsided hfutures position hmem hnonzero
    have hagree' := hsided' hfutures position' hmem' hnonzero'
    rw [specAgrees, hspec] at hagree
    rw [specAgrees, hsymbol, hspec] at hagree'
    have hshort : position.short = true → position.quantity < 0 := fun hshort => by
      have hnegative := hp.2
      rw [hshort] at hnegative
      exact of_decide_eq_true hnegative
    by_cases hnegative : position.quantity < 0
    · have hdirection : direction = .short := (of_decide_eq_true hagree).mp hnegative
      refine .inr ⟨?_, (of_decide_eq_true hagree').mpr hdirection⟩
      rw [Position.direction, if_pos (.inl hnegative)]
      rfl
    · have hdirection : direction ≠ .short := fun heq => hnegative ((of_decide_eq_true hagree).mpr heq)
      refine .inl ⟨?_, lt_of_le_of_ne (not_lt.mp fun hneg => hdirection ((of_decide_eq_true hagree').mp hneg)) hnonzero'.symm⟩
      rw [Position.direction, if_neg fun hor => hor.elim hnegative fun hshortRow => hnegative (hshort hshortRow)]
      rfl
  · rw [if_neg hfutures] at hp'
    rw [hspot.resolve_left hfutures]
    exact .inl ⟨rfl, lt_of_le_of_ne (of_decide_eq_true hp') hnonzero'.symm⟩

theorem mem_matching {positions : List Position} {symbol : String} {position : Position}
    (h : matching positions symbol = [position]) :
    position ∈ positions ∧ position.quantity ≠ 0 ∧ position.symbol = symbol := by
  have hmem : position ∈ matching positions symbol := h ▸ List.mem_singleton_self position
  obtain ⟨hmem, hboth⟩ := List.mem_filter.mp hmem
  rw [Bool.and_eq_true] at hboth
  exact ⟨hmem, of_decide_eq_true hboth.1, of_decide_eq_true hboth.2⟩

theorem mem_of_lastRead {log : List Event} {seen : Seen} (h : lastRead log = some seen) : .read seen ∈ log := by
  induction log with
  | nil => cases h
  | cons e log ih =>
    cases e with
    | looked => cases h
    | read seen' =>
      obtain rfl := Option.some.inj h
      exact List.mem_cons_self
    | _ => exact List.mem_cons_of_mem _ (ih h)

/-- What is owed of an event gives what is asked of it, where the replies agree. -/
theorem allowed_of_owed {past : List Event} {e : Event} (h : Owed env setup past e)
    (hagrees : ∀ seen, .read seen ∈ past → seen.agrees setup = true) : Allowed env past e := by
  cases e with
  | looked => trivial
  | read seen => trivial
  | reconciled current => trivial
  | cancelReserved symbol id => trivial
  | cancelAuthorized symbol id => trivial
  | cancelled symbol id => exact h
  | stopCancelled claim => exact h
  | closed symbol direction side quantity =>
    obtain ⟨hfirst, rfl, hsized, current, hreconciled, hnone, position, hmem, hnonzero, rfl, rfl⟩ := h
    obtain ⟨seen, hread, hsided, hshows⟩ := hreconciled.shown
    obtain ⟨seen', position', hlast, hcurrent, hsided', hmatching, hquantity⟩ := hsized.shown
    obtain ⟨hmem', hnonzero', hsymbol⟩ := mem_matching hmatching
    refine ⟨hfirst, ⟨current, hreconciled.last, hnone⟩, seen', position', hlast, hcurrent, hmatching, hquantity, ?_⟩
    exact closes (hagrees seen hread) (hagrees seen' (mem_of_lastRead hlast)) hsided hsided' (hshows.positions ▸ hmem) hnonzero hmem'
      hnonzero' hsymbol hsized.spot
  | returned complete =>
    cases complete with
    | false => trivial
    | true =>
      obtain ⟨seen, hlast, hcurrent, hflat, hgone⟩ := h.shown
      have hnone := (Bool.and_eq_true_iff.mp (hagrees seen (mem_of_lastRead hlast))).2
      rw [hflat, hgone, Bool.true_and, Bool.true_and, Bool.not_eq_true'] at hnone
      exact ⟨seen, hlast, hcurrent, hflat, hnone⟩

/-- **The cleanup acts once per order, and is complete when it says so**, where the replies agree. -/
theorem completion_of_run {calls : List (World × Call)} (hstart : s.log = [])
    (hrun : Run (step env setup) (Meets env setup) s calls s') : Each (Allowed env) s'.log := by
  have hmarked : Marked env setup s := by
    refine ⟨?_, fun symbol id hmem => ?_, fun symbol direction side quantity hmem => ?_⟩
    · rw [hstart]
      trivial
    · rw [hstart] at hmem
      cases hmem
    · rw [hstart] at hmem
      cases hmem
  have hreads : ∀ seen, .read seen ∈ s.log → seen.agrees setup = true := by
    intro seen hmem
    rw [hstart] at hmem
    cases hmem
  have hboth : Marked env setup s' ∧ ∀ seen, .read seen ∈ s'.log → seen.agrees setup = true := by
    refine hrun.invariant (P := fun t => Marked env setup t ∧ ∀ seen, .read seen ∈ t.log → seen.agrees setup = true) ?_ ⟨hmarked, hreads⟩
    intro t call t' hmeets hstep ht
    have hnext := ht.1.step hstep
    obtain rfl := Option.some.inj hstep
    exact ⟨hnext, hmeets⟩
  exact hboth.1.owed.mono fun past e howed hsub => allowed_of_owed howed fun seen hmem => hboth.2 seen (hsub _ hmem)

/-! ## A futures session -/

def sampleEnv : Env where
  str := fun value => match value with | .str s => s | _ => "None"
  epoch := fun _ => .ok 0
  closingId := fun symbol direction => symbol ++ (if direction = .short then "short" else "long")
  protection := FuturesProtection.sampleEnv

def sampleSetup : Setup := ⟨true, [("BTCUSDT", .long)]⟩

/-- The stop of a long position. -/
def sampleStop : FuturesProtection.Claim :=
  { (FuturesProtection.sampleOrder .long "entry-1" "90").claim "slp-1" "90" with
    algoId := "17", observation := some [("known", .bool true), ("status", .str "NEW")], lastReadVerified := true }

/-- An adapter that has sent one order, with its stop. -/
def sampleAdapter : Adapter where
  claims := ["entry-1"]
  protection := some { claims := [("slp-1", sampleStop)], activeBySymbol := [("BTCUSDT", "slp-1")] }

/-- A stop is gone once it was cancelled. -/
def sampleProtection : FuturesProtection.World :=
  { FuturesProtection.sampleWorld with
    reader := fun _ claim => .ok (.obj [("known", .bool true), ("clientAlgoId", .str claim.clientAlgoId),
      ("symbol", .str claim.symbol), ("side", .str claim.side), ("positionSide", .str "LONG"), ("closePosition", .bool true),
      ("workingType", .str "MARK_PRICE"), ("type", .str "STOP_MARKET"), ("priceProtect", .bool false),
      ("triggerPrice", .str claim.triggerPrice), ("algoId", .str "17"),
      ("status", .str (if claim.cancelAttempted then "CANCELED" else "NEW"))]) }

/-- An account with these orders, these conditional orders and this many contracts. -/
def sampleWorld (openOrders openAlgoOrders : List Json) (quantity : ℚ) : World where
  protection := sampleProtection
  account := fun _ => .ok [("known", .bool true), ("ordersComplete", .bool true), ("positionsComplete", .bool true),
    ("openOrders", .arr openOrders), ("openAlgoOrders", .arr openAlgoOrders)]
  clock := fun _ => .ok 0
  positions := fun _ => .ok [⟨"BTCUSDT", quantity, false, [("quantity", .int 0)]⟩]
  owned := fun _ _ => .ok true
  reserveCancel := fun _ => .ok true
  reserveClose := fun _ => .ok true
  guard := fun _ => .ok true
  enabled := fun _ => .ok true
  sized := fun _ => .ok quantity
  cancel := fun _ => .ok ()
  submit := fun _ => .ok ()
  recorded := fun _ => []
  other := fun _ => .ok ()

def sampleOrder : Json := .obj [("symbol", .str "BTCUSDT"), ("brokerOrderId", .str "7")]

/-- The order is cancelled, then the position is closed, then the stop is retired. -/
def sampleCalls : List (World × Call) :=
  [(sampleWorld [sampleOrder] [.null] 1, .cleanup), (sampleWorld [] [.null] 1, .continueCleanup), (sampleWorld [] [] 0, .continueCleanup)]

/-- The accounts that were read. -/
def readsOf (log : List Event) : List Seen :=
  log.filterMap fun e => match e with | .read seen => some seen | _ => none

/-- What was sent and returned. -/
def Event.act : Event → Option String
  | .cancelled _ brokerOrderId => some ("cancel " ++ brokerOrderId)
  | .closed symbol _ side _ => some (side ++ " " ++ symbol)
  | .stopCancelled claim => some ("stop " ++ claim.algoId)
  | .returned complete => some (if complete then "complete" else "incomplete")
  | _ => none

def sampleMeets (s : Adapter) (call : World × Call) : Bool :=
  (readsOf (perform sampleEnv sampleSetup call.1 s call.2).log).all (Seen.agrees sampleSetup)

theorem mem_readsOf {log : List Event} {seen : Seen} (h : .read seen ∈ log) : seen ∈ readsOf log :=
  List.mem_filterMap.mpr ⟨.read seen, h, rfl⟩

theorem completion_of_run_sample : ∃ s, Run (step sampleEnv sampleSetup) (Meets sampleEnv sampleSetup) sampleAdapter sampleCalls s ∧
    s.log.filterMap Event.act = ["complete", "stop 17", "incomplete", "SELL BTCUSDT", "incomplete", "cancel 7"] ∧
    Each (Allowed sampleEnv) s.log := by
  have heval : ∃ s, runAll (fun s call => if sampleMeets s call then step sampleEnv sampleSetup s call else none) sampleAdapter
      sampleCalls = some s ∧
        s.log.filterMap Event.act = ["complete", "stop 17", "incomplete", "SELL BTCUSDT", "incomplete", "cancel 7"] := by
    decide +kernel
  obtain ⟨s, hrun, hacts⟩ := heval
  have hrun' : Run (step sampleEnv sampleSetup) (Meets sampleEnv sampleSetup) sampleAdapter sampleCalls s :=
    (run_of_guarded hrun).weaken fun _ _ hmeets seen hmem => List.all_eq_true.mp hmeets seen (mem_readsOf hmem)
  exact ⟨s, hrun', hacts, completion_of_run rfl hrun'⟩

/-- The log ends with a completion after a read that lists a conditional order. -/
def completesListed : List Event → Bool
  | .returned true :: past => (lastRead past).any Seen.listsConditional
  | _ => false

/-- **A conditional order may be left.**  The stop is read as gone by its id, and the account still lists it; the
cleanup is complete. -/
theorem sample_leaves_conditional : ∃ s, Run (step sampleEnv sampleSetup) Free sampleAdapter
    [(sampleWorld [] [.obj [("algoId", .str "17")]] 0, .cleanup)] s ∧ ¬ Each (Allowed sampleEnv) s.log := by
  obtain ⟨s, hs, hlisted⟩ : ∃ s, runAll (step sampleEnv sampleSetup) sampleAdapter
      [(sampleWorld [] [.obj [("algoId", .str "17")]] 0, .cleanup)] = some s ∧ completesListed s.log = true := by
    decide +kernel
  refine ⟨s, free_of_runAll hs, fun hallowed => ?_⟩
  rw [completesListed.eq_def] at hlisted
  split at hlisted
  · next past hlog =>
    rw [hlog] at hallowed
    obtain ⟨seen, hlast, -, -, hnone⟩ := hallowed.1
    rw [hlast] at hlisted
    rw [show seen.listsConditional = true from hlisted] at hnone
    cases hnone
  · cases hlisted

end LiveTrader.ShortCleanup
