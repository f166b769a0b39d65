/-
# `Boundary.Released` — a staged intent is released at most once

Over every run: `prepare` is called at most once for an evaluation key, by the
owner that staged it and only for a boundary that is `Timely`; a row that has left
`WAIT_OPEN_BOUNDARY` does not come back; staging its key again changes nothing.

The invariant ties three things together: a waiting row has no call of `prepare`
behind it; a thread that is about to make one holds the only claim on a row that
has none; and what was staged is what the table holds.
-/
import LiveTrader.Boundary.Steps

namespace LiveTrader.Boundary

open Lib Lib.Py Lib.Runs

variable {env : Env} {s s' : System}

/-! ## The log -/

/-- The calls of `prepare` for a key. -/
def Event.prepares (key : String) : Event → Bool
  | .prepared p => p.payload.evaluationKey = key
  | _ => false

/-- How often `prepare` was called for a key. -/
def System.preparations (s : System) (key : String) : ℕ := s.log.countP (Event.prepares key)

/-- A call of `prepare` follows the staging of its payload by the same owner, and its
boundary was right. -/
def Justified (env : Env) (log : List Event) : Prop :=
  ∀ before p after, log = before ++ .prepared p :: after →
    Event.staged p.owner p.payload ∈ before ∧ Timely env p

theorem Justified.snoc {log : List Event} {e : Event} (h : Justified env log)
    (he : ∀ p, e = .prepared p → Event.staged p.owner p.payload ∈ log ∧ Timely env p) :
    Justified env (log ++ [e]) := by
  intro before p after heq
  rcases List.eq_nil_or_concat after with rfl | ⟨after, last, rfl⟩
  · obtain ⟨rfl, hlast⟩ := List.append_inj' heq rfl
    exact he p (List.cons.inj hlast).1
  · rw [List.concat_eq_append, ← List.cons_append, ← List.append_assoc] at heq
    obtain ⟨hlog, -⟩ := List.append_inj' heq rfl
    exact h before p after hlog

@[simp] theorem System.preparations_note (e : Event) (key : String) :
    (s.note e).preparations key = s.preparations key + if e.prepares key then 1 else 0 := by
  simp only [preparations, note, List.countP_append, List.countP_singleton]

/-! ## The invariant -/

/-- A row read earlier is still there. -/
def Stored (q : Queue) (row : Row) : Prop :=
  ∃ row', q.get? row.evaluationKey = some row' ∧ row.Later row'

theorem Stored.mono {q q' : Queue} {row : Row} (h : Stored q row) (hkept : Kept q q') :
    Stored q' row := by
  obtain ⟨row', hrow', hlater⟩ := h
  obtain ⟨row'', hrow'', hlater'⟩ := hkept _ _ hrow'
  exact ⟨row'', hrow'', hlater.trans hlater'⟩

/-- A thread that is about to call `prepare` holds a claimed row of its owner for which
no call was made. -/
structure Claims (env : Env) (s : System) (p : Preparation) : Prop where
  stored : ∃ row, s.queue.get? p.payload.evaluationKey = some row ∧ row.owner = p.owner ∧
    row.payload = p.payload ∧ row.state ≠ .waitOpenBoundary
  unprepared : s.preparations p.payload.evaluationKey = 0
  timely : Timely env p

structure Inv (env : Env) (s : System) : Prop where
  keyed : ∀ key row, s.queue.get? key = some row → row.payload.evaluationKey = key
  staged : ∀ o p, Event.staged o p ∈ s.log ↔
    ∃ row, s.queue.get? p.evaluationKey = some row ∧ row.owner = o ∧ row.payload = p
  read : ∀ o n, ∀ row ∈ (s.thread o n).rows, Stored s.queue row
  claims : ∀ o n p, (s.thread o n).ready o = some p → Claims env s p
  sole : ∀ o n p o' n' p', (s.thread o n).ready o = some p → (s.thread o' n').ready o' = some p' →
    p.payload.evaluationKey = p'.payload.evaluationKey → o = o' ∧ n = n'
  waiting : ∀ key row, s.queue.get? key = some row → row.state = .waitOpenBoundary →
    s.preparations key = 0
  once : ∀ key, s.preparations key ≤ 1
  justified : Justified env s.log

theorem inv_init : Inv env System.init where
  keyed key row h := by cases h
  staged o p := by
    constructor
    · intro h
      cases h
    · rintro ⟨row, h, -⟩
      cases h
  read o n row h := by cases h
  claims o n p h := by cases h
  sole o n p o' n' p' h := by cases h
  waiting key row h := by cases h
  once key := Nat.zero_le 1
  justified before p after h := by cases before <;> cases h

theorem Claims.mono {p : Preparation} (h : Claims env s p) (hkept : Kept s.queue s'.queue)
    (hcount : s'.preparations p.payload.evaluationKey = s.preparations p.payload.evaluationKey) :
    Claims env s' p := by
  obtain ⟨row, hrow, ho, hp, hstate⟩ := h.stored
  obtain ⟨row', hrow', hlater⟩ := hkept _ _ hrow
  refine ⟨⟨row', hrow', hlater.owner.trans ho, hlater.payload.trans hp, ?_⟩, ?_, h.timely⟩
  · intro hw
    exact hstate (hlater.armed hw)
  · rw [hcount]
    exact h.unprepared

/-- A thread moves to a point where its rows are in the table and its claim, if it has
one, is the only one on its key. -/
theorem Inv.setThread (h : Inv env s) {o : String} {n : ℕ} {t : Thread}
    (hrows : ∀ row ∈ t.rows, Stored s.queue row)
    (hready : ∀ p, t.ready o = some p → Claims env s p ∧ ∀ o' n' p',
      (s.thread o' n').ready o' = some p' → p'.payload.evaluationKey ≠ p.payload.evaluationKey) :
    Inv env (s.setThread o n t) := by
  have hthread : ∀ o' n' p, ((s.setThread o n t).thread o' n').ready o' = some p →
      (o' = o ∧ n' = n ∧ t.ready o = some p) ∨ (s.thread o' n').ready o' = some p := by
    intro o' n' p hp
    dsimp only [System.setThread] at hp
    split at hp
    · next hon =>
      obtain ⟨rfl, rfl⟩ := hon
      exact .inl ⟨rfl, rfl, hp⟩
    · exact .inr hp
  refine { h with read := ?_, claims := ?_, sole := ?_ }
  · intro o' n' row hrow
    dsimp only [System.setThread] at hrow
    split at hrow
    · exact hrows row hrow
    · exact h.read o' n' row hrow
  · intro o' n' p hp
    rcases hthread o' n' p hp with ⟨-, -, hp⟩ | hp
    · exact (hready p hp).1.mono (.refl _) rfl
    · exact (h.claims o' n' p hp).mono (.refl _) rfl
  · intro o₁ n₁ p₁ o₂ n₂ p₂ h₁ h₂ hkey
    rcases hthread o₁ n₁ p₁ h₁ with ⟨rfl, rfl, hr₁⟩ | hr₁ <;>
      rcases hthread o₂ n₂ p₂ h₂ with ⟨rfl, rfl, hr₂⟩ | hr₂
    · exact ⟨rfl, rfl⟩
    · exact absurd hkey.symm ((hready p₁ hr₁).2 o₂ n₂ p₂ hr₂)
    · exact absurd hkey ((hready p₂ hr₂).2 o₁ n₁ p₁ hr₁)
    · exact h.sole o₁ n₁ p₁ o₂ n₂ p₂ hr₁ hr₂ hkey

theorem Inv.moveThread (h : Inv env s) {o : String} {n : ℕ} {t : Thread}
    (hrows : ∀ row ∈ t.rows, Stored s.queue row) (hready : t.ready o = none) :
    Inv env (s.setThread o n t) := by
  refine h.setThread hrows fun p hp => ?_
  rw [hready] at hp
  cases hp

/-- A table whose rows are the same up to their states, none of them armed again. -/
theorem Inv.write (h : Inv env s) {q : Queue} (hkept : Kept s.queue q)
    (hback : ∀ key row', q.get? key = some row' → ∃ row, s.queue.get? key = some row) :
    Inv env (s.write q) := by
  -- a row of the new table is a later form of a row of the old one
  have hback' : ∀ key row', q.get? key = some row' →
      ∃ row, s.queue.get? key = some row ∧ row.Later row' := by
    intro key row' hrow'
    obtain ⟨row, hrow⟩ := hback key row' hrow'
    obtain ⟨row'', hrow'', hlater⟩ := hkept key row hrow
    rw [show q.get? key = some row' from hrow'] at hrow''
    cases hrow''
    exact ⟨row, hrow, hlater⟩
  refine { h with keyed := ?_, staged := ?_, read := ?_, claims := ?_, waiting := ?_ }
  · intro key row' hrow'
    obtain ⟨row, hrow, hlater⟩ := hback' key row' hrow'
    rw [hlater.payload]
    exact h.keyed key row hrow
  · intro o p
    refine (h.staged o p).trans ⟨?_, ?_⟩
    · rintro ⟨row, hrow, ho, hp⟩
      obtain ⟨row', hrow', hlater⟩ := hkept _ _ hrow
      exact ⟨row', hrow', hlater.owner.trans ho, hlater.payload.trans hp⟩
    · rintro ⟨row', hrow', ho, hp⟩
      obtain ⟨row, hrow, hlater⟩ := hback' _ _ hrow'
      exact ⟨row, hrow, hlater.owner.symm.trans ho, hlater.payload.symm.trans hp⟩
  · intro o n row hrow
    exact (h.read o n row hrow).mono hkept
  · intro o n p hp
    exact (h.claims o n p hp).mono hkept rfl
  · intro key row' hrow' hw
    obtain ⟨row, hrow, hlater⟩ := hback' key row' hrow'
    exact h.waiting key row hrow (hlater.armed hw)

/-- A compare-and-set finds no row that was not there. -/
theorem compareAndSet_back {q q' : Queue} {key key' o : String} {old new : RowState} {done : Bool}
    (h : compareAndSet q key o old new = (q', done)) {row' : Row} (hrow' : q'.get? key' = some row') :
    ∃ row, q.get? key' = some row := by
  rcases compareAndSet_cases q key o old new with hc | ⟨row, -, -, -, hc⟩
  · rw [hc] at h
    cases h
    exact ⟨row', hrow'⟩
  · rw [hc] at h
    cases h
    rw [Table.get?_update, Option.map_eq_some_iff] at hrow'
    obtain ⟨row, hrow, -⟩ := hrow'
    exact ⟨row, hrow⟩

/-! ## The invariant is kept -/

theorem Inv.crash (h : Inv env s) (o : String) : Inv env (Boundary.crash s o) := by
  have hthread : ∀ o' n' p, ((Boundary.crash s o).thread o' n').ready o' = some p →
      (s.thread o' n').ready o' = some p := by
    intro o' n' p hp
    dsimp only [Boundary.crash] at hp
    split at hp
    · cases hp
    · exact hp
  refine { h with read := ?_, claims := ?_, sole := ?_ }
  · intro o' n' row hrow
    dsimp only [Boundary.crash] at hrow
    split at hrow
    · cases hrow
    · exact h.read o' n' row hrow
  · intro o' n' p hp
    exact (h.claims o' n' p (hthread o' n' p hp)).mono (.refl _) rfl
  · intro o₁ n₁ p₁ o₂ n₂ p₂ h₁ h₂ hkey
    exact h.sole o₁ n₁ p₁ o₂ n₂ p₂ (hthread _ _ _ h₁) (hthread _ _ _ h₂) hkey

theorem Inv.stage (h : Inv env s) {row : Row} {q : Queue} (hinsert : s.queue.insert row = some q)
    (hkey : row.evaluationKey = row.payload.evaluationKey) :
    Inv env ((s.write q).note (.staged row.owner row.payload)) := by
  have hfree := Table.get?_of_insert hinsert
  have hkept : Kept s.queue q := .insert hinsert
  have hcount : ∀ key, ((s.write q).note (.staged row.owner row.payload)).preparations key =
      s.preparations key := by
    intro key
    rw [System.preparations_note]
    rfl
  -- a call of `prepare` for the new key would follow its staging
  have hunprepared : s.preparations row.evaluationKey = 0 := by
    refine List.countP_eq_zero.mpr fun e he hprep => ?_
    cases e with
    | staged o p => cases hprep
    | prepared p =>
      obtain ⟨before, after, hlog⟩ := List.append_of_mem he
      obtain ⟨hstaged, -⟩ := h.justified before p after hlog
      obtain ⟨row', hrow', -⟩ := (h.staged p.owner p.payload).mp
        (hlog ▸ List.mem_append_left _ hstaged)
      have hp : p.payload.evaluationKey = row.evaluationKey := by
        simpa [Event.prepares] using hprep
      rw [hp, hfree] at hrow'
      cases hrow'
  constructor
  · intro key row' hrow'
    change q.get? key = some row' at hrow'
    rw [Table.get?_insert hinsert] at hrow'
    split at hrow'
    · next hk =>
      cases hrow'
      rw [hk, hkey]
    · exact h.keyed key row' hrow'
  · intro o p
    change Event.staged o p ∈ s.log ++ [.staged row.owner row.payload] ↔
      ∃ row', q.get? p.evaluationKey = some row' ∧ row'.owner = o ∧ row'.payload = p
    rw [List.mem_append, List.mem_singleton, h.staged]
    constructor
    · rintro (⟨row', hrow', ho, hp⟩ | heq)
      · exact ⟨row', Table.get?_insert_of_some hinsert hrow', ho, hp⟩
      · cases heq
        exact ⟨row, by rw [Table.get?_insert hinsert, if_pos hkey.symm], rfl, rfl⟩
    · rintro ⟨row', hrow', ho, hp⟩
      rw [Table.get?_insert hinsert] at hrow'
      split at hrow'
      · cases hrow'
        right
        rw [ho, hp]
      · exact .inl ⟨row', hrow', ho, hp⟩
  · intro o n row' hrow'
    exact (h.read o n row' hrow').mono hkept
  · intro o n p hp
    exact (h.claims o n p hp).mono hkept (hcount _)
  · exact h.sole
  · intro key row' hrow' hw
    rw [hcount]
    change q.get? key = some row' at hrow'
    rw [Table.get?_insert hinsert] at hrow'
    split at hrow'
    · next hk =>
      rw [hk]
      exact hunprepared
    · exact h.waiting key row' hrow' hw
  · intro key
    rw [hcount]
    exact h.once key
  · refine h.justified.snoc fun p hp => ?_
    cases hp

theorem Inv.consume (h : Inv env s) {o : String} {n : ℕ} {call : Call} {row : Row}
    {rest : List Row} {q : Queue} {verdict : String ⊕ Spec}
    (hthread : s.thread o n = .releasing call (row :: rest))
    (hverdict : ∀ spec, verdict = .inr spec → screen env o call row = .ok (.ready spec))
    (hclaim : claim s.queue o row.evaluationKey = (q, true)) :
    Inv env ((s.write q).setThread o n (.consumed call ⟨row, verdict⟩ rest)) := by
  have hread : ∀ r ∈ row :: rest, Stored s.queue r := by
    intro r hr
    refine h.read o n r ?_
    rw [hthread]
    exact hr
  obtain ⟨stored, hstored, howner, hw, hclaimed, hkept⟩ := claim_eq_true hclaim
  have hwrite : Inv env (s.write q) :=
    h.write hkept fun key row' hrow' => compareAndSet_back hclaim hrow'
  refine hwrite.setThread (fun r hr => (hread r hr).mono hkept) fun p hp => ?_
  cases verdict with
  | inl reason => cases hp
  | inr spec =>
    cases hp
    obtain ⟨hmine, htimely⟩ := screen_ready (hverdict spec rfl)
    -- the row that was read is the one that is stored, up to its state
    obtain ⟨row', hrow', hlater⟩ := hread row List.mem_cons_self
    rw [hstored] at hrow'
    cases hrow'
    have hkey : row.payload.evaluationKey = row.evaluationKey := by
      rw [← hlater.payload]
      exact h.keyed _ _ hstored
    refine ⟨⟨?_, ?_, htimely⟩, ?_⟩
    · dsimp only
      rw [hkey]
      refine ⟨_, hclaimed, howner, hlater.payload, ?_⟩
      intro hstate
      cases hstate
    · dsimp only
      rw [hkey]
      exact h.waiting _ _ hstored hw
    · intro o' n' p' hp' hsame
      obtain ⟨row', hrow', -, -, hstate⟩ := (h.claims o' n' p' hp').stored
      rw [hsame, hkey, hstored] at hrow'
      cases hrow'
      exact hstate hw

/-- The one call of `prepare` for a key. -/
theorem Inv.prepare (h : Inv env s) {p : Preparation} (hclaims : Claims env s p)
    (hothers : ∀ o n p', (s.thread o n).ready o = some p' →
      p'.payload.evaluationKey ≠ p.payload.evaluationKey) :
    Inv env (s.note (.prepared p)) := by
  obtain ⟨row, hrow, howner, hpayload, hstate⟩ := hclaims.stored
  have hcount : ∀ key, key ≠ p.payload.evaluationKey →
      (s.note (.prepared p)).preparations key = s.preparations key := by
    intro key hkey
    rw [System.preparations_note, if_neg, Nat.add_zero]
    intro hprep
    exact hkey (of_decide_eq_true hprep).symm
  refine { h with staged := ?_, claims := ?_, waiting := ?_, once := ?_, justified := ?_ }
  · intro o p'
    refine Iff.trans ?_ (h.staged o p')
    change _ ∈ s.log ++ [_] ↔ _
    rw [List.mem_append, List.mem_singleton]
    constructor
    · rintro (hmem | heq)
      · exact hmem
      · cases heq
    · exact .inl
  · intro o n p' hp'
    exact (h.claims o n p' hp').mono (.refl _) (hcount _ (hothers o n p' hp'))
  · intro key row' hrow' hw
    rw [hcount]
    · exact h.waiting key row' hrow' hw
    · rintro rfl
      rw [show s.queue.get? _ = some row' from hrow'] at hrow
      cases hrow
      exact hstate hw
  · intro key
    by_cases hkey : key = p.payload.evaluationKey
    · rw [System.preparations_note, hkey, hclaims.unprepared]
      split <;> decide
    · rw [hcount key hkey]
      exact h.once key
  · refine h.justified.snoc fun p' hp' => ?_
    cases hp'
    exact ⟨(h.staged _ _).mpr ⟨row, hrow, howner, hpayload⟩, hclaims.timely⟩

/-- Every step keeps the invariant. -/
theorem Inv.step {a : Action} (h : Inv env s) (hstep : Boundary.step env s a = some s') :
    Inv env s' := by
  cases step_cases hstep with
  | stay => exact h
  | openQueue o hnew => exact { h with claims := fun o n p hp => (h.claims o n p hp).mono (.refl _) rfl }
  | crash o => exact h.crash o
  | stage decision spec deploymentId written hinsert howner hkey hdecision =>
    subst howner
    exact h.stage hinsert hkey
  | move o n t hrows hready =>
    refine h.moveThread (fun row hrow => ?_) hready
    rcases hrows row hrow with hmem | hmem
    · exact h.read o n row hmem
    · exact ⟨row, Table.get?_of_mem hmem, .refl row⟩
  | consume verdict hthread hverdict hclaim => exact h.consume hthread hverdict hclaim
  | @prepare o n call row spec rest hthread =>
    have hready : (s.thread o n).ready o =
        some ⟨o, row.payload, spec, call.boundary, call.now⟩ := by rw [hthread]; rfl
    have hmoved : Inv env (s.setThread o n (.preparing call row.evaluationKey rest)) := by
      refine h.moveThread (fun r hr => h.read o n r ?_) rfl
      rw [hthread]
      exact List.mem_cons_of_mem row hr
    refine hmoved.prepare ((h.claims o n _ hready).mono (.refl _) rfl) ?_
    intro o' n' p' hp' hkey
    dsimp only [System.setThread] at hp'
    split at hp'
    · cases hp'
    · next hne =>
      exact hne (h.sole o' n' p' o n _ hp' hready hkey)
  | @record o n call key result rest hthread =>
    have hwrite : Inv env (s.write (record s.queue o key result)) :=
      h.write (record_kept _ _ _ _) fun key' row' hrow' => compareAndSet_back rfl hrow'
    refine hwrite.moveThread (fun row hrow => ?_) rfl
    refine (h.read o n row ?_).mono (record_kept _ _ _ _)
    rw [hthread]
    exact hrow

/-! ## Released at most once -/

/-- What is staged is staged once: two stagings of a key are the same. -/
theorem Inv.staged_once (h : Inv env s) {o o' : String} {p p' : Payload}
    (hs : Event.staged o p ∈ s.log) (hs' : Event.staged o' p' ∈ s.log)
    (hkey : p.evaluationKey = p'.evaluationKey) : o = o' ∧ p = p' := by
  obtain ⟨row, hrow, rfl, rfl⟩ := (h.staged o p).mp hs
  obtain ⟨row', hrow', rfl, rfl⟩ := (h.staged o' p').mp hs'
  rw [hkey, hrow'] at hrow
  cases hrow
  exact ⟨rfl, rfl⟩

/-- Staging a key that is there leaves the table as it is. -/
theorem stage_again {o : String} {decision : Decision} {spec : Spec} {deploymentId : String}
    {written : Bool}
    (h : Boundary.step env s (.stage o decision spec deploymentId written) = some s')
    (hthere : (s.queue.get? decision.evaluationKey).isSome) : s' = s := by
  rcases stageAt_cases h with rfl | ⟨row, q, hinsert, -, -, hdecision, -⟩
  · rfl
  · have hfree := Table.get?_of_insert hinsert
    rw [hdecision] at hfree
    rw [hfree] at hthere
    cases hthere

/-- **Released at most once.**  On a file that any number of owners work on, with their
processes ending anywhere, `prepare` is called at most once for an evaluation key, by
the one owner that staged it and for a timely boundary; no row returns to waiting,
and staging its key again changes nothing. -/
theorem released_at_most_once {acts : List Action}
    (h : Run (Boundary.step env) Free System.init acts s) :
    (∀ key, s.preparations key ≤ 1) ∧
    (∀ before p after, s.log = before ++ .prepared p :: after →
      Event.staged p.owner p.payload ∈ before ∧ Timely env p ∧
        ∀ o q, Event.staged o q ∈ s.log → q.evaluationKey = p.payload.evaluationKey →
          o = p.owner ∧ q = p.payload) ∧
    (∀ {acts' : List Action} {t : System}, Run (Boundary.step env) Free s acts' t →
      ∀ key row, s.queue.get? key = some row → ∃ row', t.queue.get? key = some row' ∧
        row'.owner = row.owner ∧ row'.payload = row.payload ∧
        (row.state ≠ .waitOpenBoundary → row'.state ≠ .waitOpenBoundary)) ∧
    ∀ o decision spec deploymentId written t,
      Boundary.step env s (.stage o decision spec deploymentId written) = some t →
      (s.queue.get? decision.evaluationKey).isSome → t = s := by
  have hinv : Inv env s := h.invariant (fun _ hstep hs => hs.step hstep) inv_init
  refine ⟨hinv.once, ?_, ?_, ?_⟩
  · intro before p after hlog
    obtain ⟨hstaged, htimely⟩ := hinv.justified before p after hlog
    refine ⟨hstaged, htimely, fun o q hq hkey => ?_⟩
    exact hinv.staged_once hq (hlog ▸ List.mem_append_left _ hstaged) hkey
  · intro acts' t hrun key row hrow
    have hkept : Kept s.queue t.queue :=
      hrun.relation (R := fun s t => Kept s.queue t.queue) (fun s => .refl s.queue) Kept.trans
        fun _ hstep => (step_cases hstep).kept
    obtain ⟨row', hrow', hlater⟩ := hkept key row hrow
    exact ⟨row', hrow', hlater.owner, hlater.payload, fun hstate hw => hstate (hlater.armed hw)⟩
  · intro o decision spec deploymentId written t hstep hthere
    exact stage_again hstep hthere

/-- Two points in time and a calendar with one session. -/
def sampleEnv : Env where
  sha256 := sampleText
  fromisoformat value :=
    [("2026-01-05T09:00:00+09:00", ⟨1767571200000000, true⟩),
      ("2026-01-05T09:00:03+09:00", ⟨1767571203000000, true⟩)].lookup value
  nextStart _ _ := .ok "2026-01-05T09:00:00+09:00"

def sampleSpec : Spec :=
  ⟨[("executionTiming", .str "next-open")], [], "artifact", "portfolio", "s1", "s", "kis", "KR:005930",
    "005930", "1d"⟩

/-- A signal waits, is released by its owner within three seconds of the open, and the
call that follows finds nothing to release. -/
def sampleRelease : List Action :=
  let boundary : OpenBoundary := ⟨"kis", "KR:005930", "005930", "1d", "2026-01-05T09:00:00+09:00",
    "2026-01-05T09:00:03+09:00", false, true, "KIS_WEBSOCKET", "kis", "hash"⟩
  let call : Call := ⟨boundary, [sampleSpec], "deployment", ⟨1767571205000000, true⟩⟩
  [.openQueue "owner",
    .stage "owner" ⟨"e1", "BUY", "", ⟨.null, "2026-01-02T15:30:00+09:00", "70000"⟩⟩ sampleSpec
      "deployment" true,
    .release "owner" 0 call, .release "owner" 1 call, .consume "owner" 0 true, .act "owner" 0,
    .reply "owner" 0 (.result (.obj [("ok", .bool true)])), .consume "owner" 1 true,
    .record "owner" 0 true]

theorem sampleRelease_prepares_once :
    ∃ s : System, s.preparations "e1" = 1 ∧ ∀ key, s.preparations key ≤ 1 := by
  obtain ⟨s, hs, hone⟩ : ∃ s, runAll (Boundary.step sampleEnv) .init sampleRelease = some s ∧
      s.preparations "e1" = 1 := by decide +kernel
  exact ⟨s, hone, (released_at_most_once (free_of_runAll hs)).1⟩

end LiveTrader.Boundary
