/-
# `ShortLive.Owners` — one owner per exchange

An activation compares each of its rows with the owners that are there, and not with the
other rows: as long as the rows of one list that are written agree on the owner of an
exchange, all routes of an exchange have one owner in every state, and a check of an owned
exchange passes in a dispatch of that owner only (`one_owner_of_run`).  A list with the spot
and the futures route of two sessions gives one exchange two owners
(`sample_two_owners`).
-/
import LiveTrader.ShortLive.Authority
import Mathlib.Data.List.Induction

namespace LiveTrader.ShortLive

open Lib Lib.Py Lib.Runs

variable {env : Env}

/-- The routes of one exchange have one owner. -/
def OneOwner (active : Active) : Prop :=
  ∀ e ∈ active, ∀ e' ∈ active, exchangeOf e.1 = exchangeOf e'.1 → e.2 = e'.2

instance (active : Active) : Decidable (OneOwner active) :=
  inferInstanceAs (Decidable (∀ e ∈ active, ∀ e' ∈ active, exchangeOf e.1 = exchangeOf e'.1 → e.2 = e'.2))

theorem oneOwner_nil : OneOwner [] := fun _ h => absurd h List.not_mem_nil

theorem OneOwner.filter {active : Active} (h : OneOwner active) (keep : String × Owner → Bool) :
    OneOwner (active.filter keep) :=
  fun e he e' he' => h e (List.mem_filter.mp he).1 e' (List.mem_filter.mp he').1

/-! ## Activation -/

theorem nodup_foldl_write {rows : List (String × Owner)} {active : Active}
    (h : (active.map Prod.fst).Nodup) : ((rows.foldl write active).map Prod.fst).Nodup := by
  induction rows generalizing active with
  | nil => exact h
  | cons row rows ih => exact ih (Dict.nodup_set h row.1 row.2)

/-- A route has the owner of its last row, or the one it had. -/
theorem lookup_foldl_write (rows : List (String × Owner)) (active : Active) (route : String) :
    (rows.foldl write active).lookup route = ((rows.foldl write []).lookup route).or (active.lookup route) := by
  induction rows using List.reverseRecOn with
  | nil => rfl
  | append_singleton rows row ih =>
    simp only [List.foldl_append, List.foldl_cons, List.foldl_nil]
    rw [write, write, Dict.lookup_set, Dict.lookup_set, ih]
    split <;> rfl

/-- What is there after an activation is written by it, or was there. -/
theorem mem_foldl_write {rows : List (String × Owner)} {active : Active} (hkeys : (active.map Prod.fst).Nodup)
    {e : String × Owner} (h : e ∈ rows.foldl write active) : e ∈ rows.foldl write [] ∨ e ∈ active := by
  have hlookup := Dict.lookup_of_mem (nodup_foldl_write hkeys) h
  rw [lookup_foldl_write, Option.or_eq_some_iff] at hlookup
  rcases hlookup with hnew | ⟨-, hold⟩
  · exact .inl (Dict.mem_of_lookup hnew)
  · exact .inr (Dict.mem_of_lookup hold)

theorem mem_of_written {rows : List (String × Owner)} {e : String × Owner} (h : e ∈ rows.foldl write []) :
    e ∈ rows := by
  have hkeys : (([] : Active).map Prod.fst).Nodup := List.nodup_nil
  have hlookup := Dict.lookup_of_mem (nodup_foldl_write hkeys) h
  clear h
  induction rows using List.reverseRecOn with
  | nil => cases hlookup
  | append_singleton rows row ih =>
    simp only [List.foldl_append, List.foldl_cons, List.foldl_nil] at hlookup
    rw [write, Dict.lookup_set] at hlookup
    split at hlookup
    · next heq =>
      have hrow : e = row := Prod.ext heq (Option.some.inj hlookup).symm
      exact List.mem_append_right _ (List.mem_singleton.mpr hrow)
    · exact List.mem_append_left _ (ih hlookup)

/-- The rows of an accepted activation have no other owner against them. -/
theorem checkOwners_eq_ok {rows : List (String × Owner)} {active : Active}
    (h : checkOwners active rows = .ok ()) :
    ∀ row ∈ rows, ∀ e ∈ active, exchangeOf e.1 = exchangeOf row.1 → e.2 = row.2 := by
  induction rows with
  | nil => exact fun _ hrow => absurd hrow List.not_mem_nil
  | cons row rows ih =>
    simp only [checkOwners, bind_eq_ok] at h
    obtain ⟨_, hrow, hrows⟩ := h
    intro row' hmem
    rcases List.mem_cons.mp hmem with rfl | hmem
    · simp only [checkOwner, bind_eq_ok, require_eq_ok] at hrow
      exact hrow.choose_spec.1
    · exact ih hrows row' hmem

/-- What an activation does: it raises and changes nothing, or writes its rows. -/
theorem activate_cases (active : Active) (manifests : List Fields) :
    ((activateShortLiveRoutes env active manifests).1 = active ∧
      ∃ e, (activateShortLiveRoutes env active manifests).2 = .error e) ∨
    ∃ rows, checkRows env manifests = .ok rows ∧
      (∀ row ∈ rows, ∀ e ∈ active, exchangeOf e.1 = exchangeOf row.1 → e.2 = row.2) ∧
      activateShortLiveRoutes env active manifests = (rows.foldl write active, .ok ()) := by
  rw [activateShortLiveRoutes]
  cases hrows : checkRows env manifests with
  | error e => exact .inl ⟨rfl, e, rfl⟩
  | ok rows =>
    cases howners : checkOwners active rows with
    | error e =>
      refine .inl ⟨?_, e, ?_⟩
      · simp only [howners]
      · simp only [howners]
    | ok _ =>
      simp only [howners]
      exact .inr ⟨rows, rfl, checkOwners_eq_ok howners, rfl⟩

variable (env) in
/-- The rows of an activation that are written, the last of each route, agree on the owner of
an exchange. -/
def consistent (_ : System) : Label → Bool
  | .activate manifests =>
    match checkRows env manifests with
    | .ok rows => OneOwner (rows.foldl write [])
    | .error _ => true
  | _ => true

theorem OneOwner.activate {active : Active} {rows : List (String × Owner)} (h : OneOwner active)
    (hkeys : (active.map Prod.fst).Nodup) (hrows : OneOwner (rows.foldl write []))
    (hchecked : ∀ row ∈ rows, ∀ e ∈ active, exchangeOf e.1 = exchangeOf row.1 → e.2 = row.2) :
    OneOwner (rows.foldl write active) := by
  intro e he e' he' hsame
  rcases mem_foldl_write hkeys he with hnew | hold
  · rcases mem_foldl_write hkeys he' with hnew' | hold'
    · exact hrows e hnew e' hnew' hsame
    · exact (hchecked e (mem_of_written hnew) e' hold' hsame.symm).symm
  · rcases mem_foldl_write hkeys he' with hnew' | hold'
    · exact hchecked e' (mem_of_written hnew') e hold hsame
    · exact h e hold e' hold' hsame

/-! ## Checks -/

variable (env) in
/-- **The fence.**  While an exchange has an owner, a check of it passes only in a dispatch of
that owner, in its own thread, whose order is the reserved one and accepted by the guard; it
raises everywhere else and never returns `False`. -/
def Fenced (checked : Checked) : Prop :=
  checked.owners ≠ [] → checked.result ≠ .ok false ∧
    (checked.result = .ok true → ∃ context, checked.context = some context ∧
      context.exchange = checked.exchange ∧ context.thread = checked.thread ∧
      (∀ e ∈ checked.owners, e.2 = ownerOf env context.order) ∧
      env.digest (.obj context.order) = env.digest (.obj context.reserved) ∧
      ∃ accepted, checked.guard = .ok accepted ∧ accepted.isTrue = true)

theorem checkShortLiveAuthority_eq_true {owners : Active} {context : Option Context} {n : ℕ}
    {exchange : String} {operation : Option String} {guard : Result Json} (howned : owners ≠ [])
    (h : checkShortLiveAuthority env owners context n exchange operation guard = .ok true) :
    ∃ c, context = some c ∧ c.exchange = exchange ∧ c.thread = n ∧
      owners.lookup c.route = some (ownerOf env c.order) ∧
      env.digest (.obj c.order) = .ok c.orderHash ∧ ∃ accepted, guard = .ok accepted ∧ accepted.isTrue = true := by
  unfold checkShortLiveAuthority at h
  rw [if_neg howned] at h
  split at h
  · cases h
  · next c =>
    simp only [bind_eq_ok, require_eq_ok] at h
    obtain ⟨_, ⟨hexchange, hthread⟩, _, howner, hash, hdigest, _, rfl, accepted, hguard, _, htrue, -⟩ := h
    exact ⟨c, rfl, hexchange, hthread, howner, hdigest, accepted, hguard, htrue⟩

/-- A check of an owned exchange never returns `False`. -/
theorem checkShortLiveAuthority_ne_false {owners : Active} (howned : owners ≠ []) (context : Option Context)
    (n : ℕ) (exchange : String) (operation : Option String) (guard : Result Json) :
    checkShortLiveAuthority env owners context n exchange operation guard ≠ .ok false := by
  intro h
  unfold checkShortLiveAuthority at h
  rw [if_neg howned] at h
  split at h
  · cases h
  · simp only [bind_eq_ok, require_eq_ok] at h
    obtain ⟨_, -, _, -, _, -, _, -, _, -, _, -, h⟩ := h
    split at h
    · simp only [bind_eq_ok, require_eq_ok] at h
      obtain ⟨_, -, _, -, h⟩ := h
      cases h
    · cases h

/-! ## Steps -/

/-- What holds of a thread: its pending check has read one owner, and the hash of its dispatch
is that of the order it was entered with. -/
structure ThreadInv (env : Env) (t : Thread) : Prop where
  pending : ∀ {p}, t.pending = some p → OneOwner p.owners ∧ ∀ e ∈ p.owners, exchangeOf e.1 = some p.exchange
  dispatch : ∀ {c}, t.dispatch = some c → env.digest (.obj c.reserved) = .ok c.orderHash

structure Inv (env : Env) (s : System) : Prop where
  keys : (s.active.map Prod.fst).Nodup
  owner : OneOwner s.active
  threads : ∀ n, ThreadInv env (s.thread n)
  fenced : ∀ checked ∈ s.log, Fenced env checked

theorem inv_init : Inv env {} := by
  refine ⟨List.nodup_nil, oneOwner_nil, fun _ => ⟨nofun, nofun⟩, ?_⟩
  intro checked h
  exact absurd h List.not_mem_nil

theorem Inv.setThread {s : System} (h : Inv env s) {n : ℕ} {t : Thread} (ht : ThreadInv env t) :
    Inv env (s.setThread n t) := by
  refine ⟨h.keys, h.owner, fun m => ?_, h.fenced⟩
  by_cases hm : m = n
  · subst hm
    simp only [System.setThread, Function.update_self]
    exact ht
  · simp only [System.setThread, Function.update_of_ne hm]
    exact h.threads m

theorem Inv.begin {s : System} (h : Inv env s) {n : ℕ} {dispatch : Option Context} (purpose : Purpose)
    (exchange : String) (hdispatch : ∀ {c}, dispatch = some c → env.digest (.obj c.reserved) = .ok c.orderHash) :
    Inv env (begin s n dispatch purpose exchange) := by
  refine h.setThread ⟨fun hp => ?_, hdispatch⟩
  obtain rfl := Option.some.inj hp
  exact ⟨h.owner.filter _, fun e he => of_decide_eq_true (List.mem_filter.mp he).2⟩

/-- The context of a dispatch is that of its order. -/
theorem openContext_eq_ok {n : ℕ} {present callable : Bool} {order : Fields} {native : Json} {c : Context}
    (h : openContext env n present order native callable = .ok c) :
    env.digest (.obj c.reserved) = .ok c.orderHash := by
  simp only [openContext, bind_eq_ok, require_eq_ok] at h
  obtain ⟨_, -, route, -, h⟩ := h
  cases route with
  | none => cases h
  | some route =>
    simp only [bind_eq_ok, pure_eq_ok] at h
    obtain ⟨exchange, -, _, -, hash, hhash, nativeHash, -, rfl⟩ := h
    exact hhash

theorem afterCheck_eq_some {purpose : Purpose} {result : Result Bool} {dispatch : Option Context} {c : Context}
    (h : afterCheck purpose result dispatch = some c) :
    ∃ c', dispatch = some c' ∧ c'.reserved = c.reserved ∧ c'.orderHash = c.orderHash := by
  unfold afterCheck at h
  split at h
  · cases h
  · obtain ⟨c', hc', rfl⟩ := Option.map_eq_some_iff.mp h
    exact ⟨c', hc', rfl, rfl⟩
  · exact ⟨c, h, rfl, rfl⟩

theorem ThreadInv.fenced {t : Thread} (h : ThreadInv env t) {p : Pending} (hp : t.pending = some p) (n : ℕ)
    (guard : Result Json) : Fenced env ⟨n, p.exchange, p.owners, t.dispatch, guard,
      checkShortLiveAuthority env p.owners t.dispatch n p.exchange p.purpose.operation guard⟩ := by
  intro howned
  refine ⟨checkShortLiveAuthority_ne_false howned _ _ _ _ _, fun htrue => ?_⟩
  obtain ⟨c, hc, hexchange, hthread, howner, hdigest, hguard⟩ := checkShortLiveAuthority_eq_true howned htrue
  obtain ⟨hone, hroutes⟩ := h.pending hp
  have hmem := Dict.mem_of_lookup howner
  refine ⟨c, hc, hexchange, hthread, fun e he => ?_, ?_, hguard⟩
  · exact hone e he _ hmem ((hroutes e he).trans (hroutes _ hmem).symm)
  · rw [hdigest, h.dispatch hc]

theorem Inv.conclude {s : System} (h : Inv env s) {n : ℕ} {p : Pending} (hp : (s.thread n).pending = some p)
    (guard : Result Json) : Inv env (conclude env s n p guard) := by
  have ht := h.threads n
  have hset : Inv env (s.setThread n { dispatch := afterCheck p.purpose (checkShortLiveAuthority env p.owners
      (s.thread n).dispatch n p.exchange p.purpose.operation guard) (s.thread n).dispatch, pending := none }) := by
    refine h.setThread ⟨nofun, fun hc => ?_⟩
    obtain ⟨c', hc', hreserved, hhash⟩ := afterCheck_eq_some hc
    rw [← hreserved, ← hhash]
    exact ht.dispatch hc'
  refine ⟨hset.keys, hset.owner, hset.threads, fun checked hmem => ?_⟩
  rcases List.mem_append.mp hmem with hmem | hmem
  · exact h.fenced checked hmem
  · rw [List.mem_singleton.mp hmem]
    exact ht.fenced hp n guard

/-- **A step.** -/
theorem Inv.step {s s' : System} {label : Label} (hok : consistent env s label = true)
    (hstep : step env s label = some s') (h : Inv env s) : Inv env s' := by
  cases label with
  | activate manifests =>
    obtain rfl := Option.some.inj hstep
    rcases @activate_cases env s.active manifests with ⟨hsame, -⟩ | ⟨rows, hrows, hchecked, hwritten⟩
    · exact ⟨by rw [hsame]; exact h.keys, by rw [hsame]; exact h.owner, h.threads, h.fenced⟩
    · refine ⟨?_, ?_, h.threads, h.fenced⟩
      · rw [hwritten]
        exact nodup_foldl_write h.keys
      · rw [hwritten]
        rw [consistent, hrows] at hok
        exact h.owner.activate h.keys (of_decide_eq_true hok) hchecked
  | release sessionId manifestHash =>
    obtain rfl := Option.some.inj hstep
    refine ⟨?_, h.owner.filter _, h.threads, h.fenced⟩
    exact h.keys.sublist (List.filter_sublist.map _)
  | enter n order native callable =>
    rw [ShortLive.step] at hstep
    split at hstep
    · next context _ hcontext =>
      obtain rfl := Option.some.inj hstep
      refine h.begin _ _ fun hc => ?_
      obtain rfl := Option.some.inj hc
      exact openContext_eq_ok hcontext
    · obtain rfl := Option.some.inj hstep
      exact h
    · cases hstep
  | leave n =>
    rw [ShortLive.step] at hstep
    split at hstep
    · obtain rfl := Option.some.inj hstep
      exact h.setThread ⟨nofun, nofun⟩
    · cases hstep
  | check n exchange operation =>
    rw [ShortLive.step] at hstep
    split at hstep
    · obtain rfl := Option.some.inj hstep
      exact h.begin _ _ (h.threads n).dispatch
    · cases hstep
  | router n native =>
    rw [ShortLive.step] at hstep
    split at hstep
    · next context _ hcontext =>
      split at hstep
      · obtain rfl := Option.some.inj hstep
        refine h.begin _ _ fun hc => ?_
        obtain rfl := Option.some.inj hc
        exact (h.threads n).dispatch hcontext
      · obtain rfl := Option.some.inj hstep
        exact h
    · obtain rfl := Option.some.inj hstep
      exact h
    · cases hstep
  | answer n guard =>
    rw [ShortLive.step, Option.map_eq_some_iff] at hstep
    obtain ⟨p, hp, rfl⟩ := hstep
    exact h.conclude hp guard
  | tamper n order =>
    obtain rfl := Option.some.inj hstep
    refine h.setThread ⟨(h.threads n).pending, fun hc => ?_⟩
    obtain ⟨c', hc', rfl⟩ := Option.map_eq_some_iff.mp hc
    have hhash : env.digest (.obj c'.reserved) = .ok c'.orderHash := (h.threads n).dispatch hc'
    exact hhash

/-! ## Every run -/

/-- **One owner per exchange**, in every state; an activation that raises changes nothing; and
every check is fenced by the owner it has read. -/
theorem one_owner_of_run {s : System} {labels : List Label}
    (h : Run (step env) (fun s label => consistent env s label = true) {} labels s) :
    OneOwner s.active ∧
    (∀ manifests e, (activateShortLiveRoutes env s.active manifests).2 = .error e →
      (activateShortLiveRoutes env s.active manifests).1 = s.active) ∧
    ∀ checked ∈ s.log, Fenced env checked := by
  have hinv : Inv env s := h.invariant Inv.step inv_init
  refine ⟨hinv.owner, fun manifests e herror => ?_, hinv.fenced⟩
  rcases @activate_cases env s.active manifests with ⟨hsame, -⟩ | ⟨rows, -, -, hwritten⟩
  · exact hsame
  · rw [hwritten] at herror
    cases herror

/-! ## Two runs -/

def Env.sample : Env where
  repr _ := "?"
  digest v := .ok (sampleText v)
  exactNative _ _ := .ok ()

def sampleRow (route session : String) : Fields :=
  [("route", .str route), ("sessionId", .str session), ("manifestHash", .str "m")]

/-- Both routes of an exchange are activated for one session; a dispatch of that session is
entered, and another thread asks for the exchange. -/
def sampleLabels : List Label :=
  [.activate [sampleRow "BINANCE_SPOT" "a", sampleRow "BINANCE_USDM_FUTURES" "a"],
    .enter 0 (sampleRow "BINANCE_SPOT" "a") (.str "native") true, .answer 0 (.ok (.bool true)),
    .check 1 "BINANCE" none, .answer 1 (.ok (.bool true))]

theorem one_owner_of_run_sample : ∃ s,
    runAll (fun s label => if consistent Env.sample s label then step Env.sample s label else none) {}
      sampleLabels = some s ∧
    (s.active.length = 2 ∧ s.log.map (·.result) =
      [.ok true, .error (.runtime "SHORT_LIVE_EXCLUSIVE_ROUTE_FENCE")]) ∧
    OneOwner s.active ∧ ∀ checked ∈ s.log, Fenced Env.sample checked := by
  obtain ⟨s, hs, hlog⟩ : ∃ s,
      runAll (fun s label => if consistent Env.sample s label then step Env.sample s label else none) {}
        sampleLabels = some s ∧
      (s.active.length = 2 ∧ s.log.map (·.result) =
        [.ok true, .error (.runtime "SHORT_LIVE_EXCLUSIVE_ROUTE_FENCE")]) := by
    decide
  obtain ⟨hone, -, hfenced⟩ := one_owner_of_run (run_of_guarded hs)
  exact ⟨s, hs, hlog, hone, hfenced⟩

/-- **An exchange can have two owners.**  One list names both of its routes, with a session
each. -/
theorem sample_two_owners : ∃ s, Run (step Env.sample) Free {}
    [.activate [sampleRow "BINANCE_SPOT" "a", sampleRow "BINANCE_USDM_FUTURES" "b"]] s ∧
    ¬ OneOwner s.active := by
  obtain ⟨s, hs, htwo⟩ : ∃ s, runAll (step Env.sample) {}
      [.activate [sampleRow "BINANCE_SPOT" "a", sampleRow "BINANCE_USDM_FUTURES" "b"]] = some s ∧
      ¬ OneOwner s.active := by
    decide
  exact ⟨s, free_of_runAll hs, htwo⟩

end LiveTrader.ShortLive
