/-
# `Dispatch.Batches` — who is working on which command

Bookkeeping about the threads of all controllers, as an invariant of their runs:
a command waiting in a batch was never claimed and waits in one place only; a
command under way was claimed by the one thread that holds it, its row is
dispatching under that thread's controller, or was closed meanwhile by another
controller's reconciliation; and nothing else is dispatching unclaimed.
-/
import LiveTrader.Dispatch.Steps

namespace LiveTrader.Dispatch

open Lib.Py Lib.Runs

/-! ## What a thread holds -/

/-- The commands a thread still has to work off. -/
def pending : Thread → List String
  | .idle => []
  | .cycle _ batch | .enqueuing _ batch _ => batch
  | .aborting rest | .dispatching rest | .attempting _ rest => rest

/-- The row under way, and whether its intent was handed to `submit`. -/
def flight : Thread → Option (Row × Bool)
  | .attempting a _ => some (a.row, a.handed)
  | _ => none

variable {codec : Codec} {s s' : System}

theorem Shift.pending {c : Control} {o : String} {t t' : Thread} (h : Shift codec c o t t') :
    (pending t').Sublist (pending t) := by
  cases h with
  | notAborted | notClaimed => exact List.sublist_cons_self _ _
  | leaveAborting | leaveDispatching => exact List.nil_sublist _
  | _ => exact .refl _

theorem Shift.flight {c : Control} {o : String} {t t' : Thread} (h : Shift codec c o t t') :
    flight t' = flight t := by
  cases h <;> rfl

/-- A reconciliation that went through held evidence for the row. -/
def Reconciled (log : List Event) (row : Row) : Prop :=
  ∃ o orders order, Event.reconciled o orders ∈ log ∧ order ∈ orders ∧ Settles row order

theorem Reconciled.append {log log' : List Event} {row : Row} (h : Reconciled log row) :
    Reconciled (log ++ log') row := by
  obtain ⟨o, orders, order, hmem, hrest⟩ := h
  exact ⟨o, orders, order, List.mem_append_left _ hmem, hrest⟩

theorem Settles.closed {row : Row} {order : Fields} (h : Settles row order) (state : RowState) :
    Settles { row with state } order :=
  ⟨h.exactSeal, h.known, h.symbol, h.scope⟩

/-! ## The invariant -/

structure Batches (s : System) : Prop where
  dispatched : ∀ {id row}, s.journal.row? id = some row → row.state = .dispatching →
    Event.claimed id ∈ s.log
  known : ∀ {id}, Event.claimed id ∈ s.log → ∃ row, s.journal.row? id = some row
  waiting : ∀ {o n id}, id ∈ pending (s.thread o n) →
    Event.claimed id ∉ s.log ∧ ∃ row, s.journal.row? id = some row
  nodup : ∀ o n, (pending (s.thread o n)).Nodup
  apart : ∀ {o n o' n' id}, id ∈ pending (s.thread o n) → id ∈ pending (s.thread o' n') →
    o = o' ∧ n = n'
  flying : ∀ {o n row handed}, flight (s.thread o n) = some (row, handed) →
    Event.claimed row.commandId ∈ s.log ∧
      ∃ stored, s.journal.row? row.commandId = some stored ∧ stored.owner = o ∧
        (stored.state = .dispatching ∨ (stored.state = .resolved ∧ Reconciled s.log stored))
  alone : ∀ {o n row handed o' n' row' handed'}, flight (s.thread o n) = some (row, handed) →
    flight (s.thread o' n') = some (row', handed') → row.commandId = row'.commandId →
    o = o' ∧ n = n'
  unsent : ∀ {o n row}, flight (s.thread o n) = some (row, false) →
    Event.submitted row.commandId ∉ s.log
  sent : ∀ {id}, Event.submitted id ∈ s.log → Event.claimed id ∈ s.log

theorem Batches.init : Batches .init where
  dispatched h _ := by cases h
  known h := by cases h
  waiting h := by cases h
  nodup _ _ := List.nodup_nil
  apart h := by cases h
  flying h := by cases h
  alone h := by cases h
  unsent h := by cases h
  sent h := by cases h

theorem Batches.not_waiting (h : Batches s) {o n o' n' row handed}
    (hf : flight (s.thread o n) = some (row, handed)) :
    row.commandId ∉ pending (s.thread o' n') :=
  fun hmem => (h.waiting hmem).1 (h.flying hf).1

/-! ## What a step does to the bookkeeping -/

inductive Work (s s' : System) : Prop
  /-- Batches shrink, flights end, rows in flight stay or are reconciled. -/
  | shrink (log : List Event) : s'.log = s.log ++ log →
      (∀ e ∈ log, ∀ id, e ≠ .claimed id ∧ e ≠ .submitted id) →
      (∀ o n, (pending (s'.thread o n)).Sublist (pending (s.thread o n))) →
      (∀ o n f, flight (s'.thread o n) = some f → flight (s.thread o n) = some f) →
      (∀ id row, s.journal.row? id = some row → ∃ row', s'.journal.row? id = some row') →
      (∀ id row', s'.journal.row? id = some row' → ∃ row, s.journal.row? id = some row ∧
        (row'.state = .dispatching → row.state = .dispatching)) →
      (∀ o n row handed stored, flight (s'.thread o n) = some (row, handed) →
        s.journal.row? row.commandId = some stored →
        s'.journal.row? row.commandId = some stored ∨
          (s'.journal.row? row.commandId = some { stored with state := .resolved } ∧
            Reconciled s'.log stored)) → Work s s'
  | create (o : String) (n : ℕ) (id : String) (row : Row) : s.journal.row? id = none →
      (∀ key, s'.journal.row? key = if key = id then some row else s.journal.row? key) →
      row.state ≠ .dispatching → s'.log = s.log ++ [.created id] →
      (∀ o' n', flight (s'.thread o' n') = flight (s.thread o' n')) →
      (∀ o' n', ¬(o' = o ∧ n' = n) → pending (s'.thread o' n') = pending (s.thread o' n')) →
      (pending (s'.thread o n) = pending (s.thread o n) ∨
        pending (s'.thread o n) = pending (s.thread o n) ++ [id]) → Work s s'
  | claim (o : String) (n : ℕ) (id : String) (row : Row) (rest : List String) :
      s.journal.row? id = some row → row.owner = o → row.state = .queued →
      s'.journal = s.journal.update id .dispatching none → s'.log = s.log ++ [.claimed id] →
      pending (s.thread o n) = id :: rest → pending (s'.thread o n) = rest →
      flight (s'.thread o n) = some (row, false) →
      (∀ o' n', ¬(o' = o ∧ n' = n) → s'.thread o' n' = s.thread o' n') → Work s s'
  | submit (o : String) (n : ℕ) (row : Row) (handed : Bool) :
      flight (s.thread o n) = some (row, handed) → s'.journal = s.journal →
      s'.log = s.log ++ [.submitted row.commandId] →
      pending (s'.thread o n) = pending (s.thread o n) →
      flight (s'.thread o n) = some (row, true) →
      (∀ o' n', ¬(o' = o ∧ n' = n) → s'.thread o' n' = s.thread o' n') → Work s s'

theorem Batches.shrink (h : Batches s) {log : List Event} (hlog : s'.log = s.log ++ log)
    (hquiet : ∀ e ∈ log, ∀ id, e ≠ .claimed id ∧ e ≠ .submitted id)
    (hpending : ∀ o n, (pending (s'.thread o n)).Sublist (pending (s.thread o n)))
    (hflight : ∀ o n f, flight (s'.thread o n) = some f → flight (s.thread o n) = some f)
    (hkeep : ∀ id row, s.journal.row? id = some row → ∃ row', s'.journal.row? id = some row')
    (hback : ∀ id row', s'.journal.row? id = some row' → ∃ row, s.journal.row? id = some row ∧
      (row'.state = .dispatching → row.state = .dispatching))
    (hrows : ∀ o n row handed stored, flight (s'.thread o n) = some (row, handed) →
      s.journal.row? row.commandId = some stored →
      s'.journal.row? row.commandId = some stored ∨
        (s'.journal.row? row.commandId = some { stored with state := .resolved } ∧
          Reconciled s'.log stored)) : Batches s' := by
  have hclaimed : ∀ {id}, Event.claimed id ∈ s'.log ↔ Event.claimed id ∈ s.log := by
    intro id
    rw [hlog, List.mem_append]
    exact or_iff_left fun hmem => (hquiet _ hmem id).1 rfl
  have hsent : ∀ {id}, Event.submitted id ∈ s'.log ↔ Event.submitted id ∈ s.log := by
    intro id
    rw [hlog, List.mem_append]
    exact or_iff_left fun hmem => (hquiet _ hmem id).2 rfl
  constructor
  case dispatched =>
    intro id row' hrow' hd
    obtain ⟨row, hrow, hstate⟩ := hback id row' hrow'
    exact hclaimed.mpr (h.dispatched hrow (hstate hd))
  case known =>
    intro id hc
    obtain ⟨row, hrow⟩ := h.known (hclaimed.mp hc)
    exact hkeep id row hrow
  case waiting =>
    intro o n id hid
    obtain ⟨hfresh, row, hrow⟩ := h.waiting ((hpending o n).mem hid)
    exact ⟨fun hc => hfresh (hclaimed.mp hc), hkeep id row hrow⟩
  case nodup => exact fun o n => (h.nodup o n).sublist (hpending o n)
  case apart => exact fun hid hid' => h.apart ((hpending _ _).mem hid) ((hpending _ _).mem hid')
  case flying =>
    intro o n row handed hf
    obtain ⟨hc, stored, hstored, howner, hstate⟩ := h.flying (hflight o n _ hf)
    refine ⟨hclaimed.mpr hc, ?_⟩
    rcases hrows o n row handed stored hf hstored with hsame | ⟨hclosed, hrec⟩
    · exact ⟨stored, hsame, howner, hstate.imp_right fun hr => ⟨hr.1, hlog ▸ hr.2.append⟩⟩
    · refine ⟨_, hclosed, howner, .inr ⟨rfl, ?_⟩⟩
      obtain ⟨o', orders, order, hmem, horder, hsettles⟩ := hrec
      exact ⟨o', orders, order, hmem, horder, hsettles.closed _⟩
  case alone => exact fun hf hf' => h.alone (hflight _ _ _ hf) (hflight _ _ _ hf')
  case unsent => exact fun hf hs => h.unsent (hflight _ _ _ hf) (hsent.mp hs)
  case sent => exact fun hs => hclaimed.mpr (h.sent (hsent.mp hs))

theorem Batches.create (h : Batches s) {o : String} {n : ℕ} {id : String} {row : Row}
    (hnone : s.journal.row? id = none)
    (hrows : ∀ key, s'.journal.row? key = if key = id then some row else s.journal.row? key)
    (hstate : row.state ≠ .dispatching) (hlog : s'.log = s.log ++ [.created id])
    (hflight : ∀ o' n', flight (s'.thread o' n') = flight (s.thread o' n'))
    (hothers : ∀ o' n', ¬(o' = o ∧ n' = n) →
      pending (s'.thread o' n') = pending (s.thread o' n'))
    (hself : pending (s'.thread o n) = pending (s.thread o n) ∨
      pending (s'.thread o n) = pending (s.thread o n) ++ [id]) : Batches s' := by
  have hclaimed : ∀ {key}, Event.claimed key ∈ s'.log ↔ Event.claimed key ∈ s.log := by
    simp [hlog]
  have hsent : ∀ {key}, Event.submitted key ∈ s'.log ↔ Event.submitted key ∈ s.log := by
    simp [hlog]
  have hkeep : ∀ {key stored}, s.journal.row? key = some stored →
      s'.journal.row? key = some stored := by
    intro key stored hkey
    rw [hrows, if_neg]
    · exact hkey
    · rintro rfl
      rw [hnone] at hkey
      cases hkey
  -- the new key waits nowhere yet and was never claimed
  have hnew : ∀ {o' n'}, id ∉ pending (s.thread o' n') := by
    intro o' n' hmem
    obtain ⟨-, stored, hstored⟩ := h.waiting hmem
    rw [hnone] at hstored
    cases hstored
  have hmem : ∀ {o' n' key}, key ∈ pending (s'.thread o' n') →
      key ∈ pending (s.thread o' n') ∨ (key = id ∧ o' = o ∧ n' = n) := by
    intro o' n' key hkey
    by_cases hat : o' = o ∧ n' = n
    · obtain ⟨rfl, rfl⟩ := hat
      rcases hself with hself | hself
      · exact .inl (hself ▸ hkey)
      · rw [hself, List.mem_append, List.mem_singleton] at hkey
        exact hkey.imp_right fun h => ⟨h, rfl, rfl⟩
    · exact .inl (hothers o' n' hat ▸ hkey)
  constructor
  case dispatched =>
    intro key stored hkey hd
    rw [hrows] at hkey
    split_ifs at hkey with hid
    · exact absurd (Option.some.inj hkey ▸ hd) hstate
    · exact hclaimed.mpr (h.dispatched hkey hd)
  case known =>
    intro key hc
    obtain ⟨stored, hstored⟩ := h.known (hclaimed.mp hc)
    exact ⟨stored, hkeep hstored⟩
  case waiting =>
    intro o' n' key hkey
    rcases hmem hkey with hold | ⟨rfl, -, -⟩
    · obtain ⟨hfresh, stored, hstored⟩ := h.waiting hold
      exact ⟨fun hc => hfresh (hclaimed.mp hc), stored, hkeep hstored⟩
    · refine ⟨fun hc => ?_, row, by rw [hrows, if_pos rfl]⟩
      obtain ⟨stored, hstored⟩ := h.known (hclaimed.mp hc)
      rw [hnone] at hstored
      cases hstored
  case nodup =>
    intro o' n'
    by_cases hat : o' = o ∧ n' = n
    · obtain ⟨rfl, rfl⟩ := hat
      rcases hself with hself | hself
      · exact hself ▸ h.nodup _ _
      · rw [hself]
        refine List.nodup_append.mpr ⟨h.nodup _ _, List.pairwise_singleton _ id, ?_⟩
        rintro key hkey _ hid rfl
        exact hnew (List.mem_singleton.mp hid ▸ hkey)
    · exact hothers o' n' hat ▸ h.nodup _ _
  case apart =>
    intro o₁ n₁ o₂ n₂ key hkey hkey'
    rcases hmem hkey with hold | ⟨rfl, rfl, rfl⟩ <;> rcases hmem hkey' with hold' | ⟨hid, rfl, rfl⟩
    · exact h.apart hold hold'
    · exact absurd (hid ▸ hold) hnew
    · exact absurd hold' hnew
    · exact ⟨rfl, rfl⟩
  case flying =>
    intro o' n' r handed hf
    obtain ⟨hc, stored, hstored, howner, hst⟩ := h.flying (hflight o' n' ▸ hf)
    exact ⟨hclaimed.mpr hc, stored, hkeep hstored, howner,
      hst.imp_right fun hr => ⟨hr.1, hlog ▸ hr.2.append⟩⟩
  case alone => exact fun hf hf' => h.alone (hflight _ _ ▸ hf) (hflight _ _ ▸ hf')
  case unsent => exact fun hf hs => h.unsent (hflight _ _ ▸ hf) (hsent.mp hs)
  case sent => exact fun hs => hclaimed.mpr (h.sent (hsent.mp hs))

theorem Batches.claim (h : Batches s) {o : String} {n : ℕ} {id : String} {row : Row}
    {rest : List String} (hrow : s.journal.row? id = some row) (howner : row.owner = o)
    (hq : row.state = .queued) (hjournal : s'.journal = s.journal.update id .dispatching none)
    (hlog : s'.log = s.log ++ [.claimed id]) (hbefore : pending (s.thread o n) = id :: rest)
    (hafter : pending (s'.thread o n) = rest) (hflight : flight (s'.thread o n) = some (row, false))
    (hothers : ∀ o' n', ¬(o' = o ∧ n' = n) → s'.thread o' n' = s.thread o' n') : Batches s' := by
  obtain rfl := Journal.row?_key hrow
  have hclaimed : ∀ {key}, Event.claimed key ∈ s'.log ↔
      Event.claimed key ∈ s.log ∨ key = row.commandId := by
    simp [hlog]
  have hsent : ∀ {key}, Event.submitted key ∈ s'.log ↔ Event.submitted key ∈ s.log := by
    simp [hlog]
  have hwaits : row.commandId ∈ pending (s.thread o n) := hbefore ▸ List.mem_cons_self
  have hfresh := (h.waiting hwaits).1
  have hself : s'.journal.row? row.commandId = some { row with state := .dispatching } := by
    rw [hjournal]
    exact Journal.row?_update_self .dispatching none hrow
  have hother : ∀ {key}, key ≠ row.commandId → s'.journal.row? key = s.journal.row? key := by
    intro key hkey
    rw [hjournal]
    exact Journal.row?_update_ne .dispatching none hkey
  have hkeep : ∀ {key stored}, s.journal.row? key = some stored →
      ∃ stored', s'.journal.row? key = some stored' := by
    intro key stored hkey
    by_cases hid : key = row.commandId
    · exact ⟨_, hid ▸ hself⟩
    · exact ⟨stored, (hother hid).trans hkey⟩
  have hmem : ∀ {o' n' key}, key ∈ pending (s'.thread o' n') →
      key ∈ pending (s.thread o' n') ∧ key ≠ row.commandId := by
    intro o' n' key hkey
    by_cases hat : o' = o ∧ n' = n
    · obtain ⟨rfl, rfl⟩ := hat
      have hnodup := h.nodup o' n'
      rw [hbefore, List.nodup_cons] at hnodup
      rw [hafter] at hkey
      exact ⟨hbefore ▸ List.mem_cons_of_mem _ hkey, fun hid => hnodup.1 (hid ▸ hkey)⟩
    · rw [hothers o' n' hat] at hkey
      exact ⟨hkey, fun hid => hat (h.apart (hid ▸ hkey) hwaits)⟩
  have hfly : ∀ {o' n' f}, flight (s'.thread o' n') = some f →
      (flight (s.thread o' n') = some f ∧ ¬(o' = o ∧ n' = n)) ∨
        (f = (row, false) ∧ o' = o ∧ n' = n) := by
    intro o' n' f hf
    by_cases hat : o' = o ∧ n' = n
    · obtain ⟨rfl, rfl⟩ := hat
      exact .inr ⟨Option.some.inj (hf.symm.trans hflight), rfl, rfl⟩
    · exact .inl ⟨hothers o' n' hat ▸ hf, hat⟩
  constructor
  case dispatched =>
    intro key stored hkey hd
    by_cases hid : key = row.commandId
    · exact hclaimed.mpr (.inr hid)
    · exact hclaimed.mpr (.inl (h.dispatched ((hother hid).symm.trans hkey) hd))
  case known =>
    intro key hc
    rcases hclaimed.mp hc with hold | rfl
    · obtain ⟨stored, hstored⟩ := h.known hold
      exact hkeep hstored
    · exact ⟨_, hself⟩
  case waiting =>
    intro o' n' key hkey
    obtain ⟨hold, hid⟩ := hmem hkey
    obtain ⟨hnot, stored, hstored⟩ := h.waiting hold
    exact ⟨fun hc => (hclaimed.mp hc).elim hnot hid, hkeep hstored⟩
  case nodup =>
    intro o' n'
    by_cases hat : o' = o ∧ n' = n
    · obtain ⟨rfl, rfl⟩ := hat
      have hnodup := h.nodup o' n'
      rw [hbefore, List.nodup_cons] at hnodup
      exact hafter ▸ hnodup.2
    · exact hothers o' n' hat ▸ h.nodup o' n'
  case apart => exact fun hkey hkey' => h.apart (hmem hkey).1 (hmem hkey').1
  case flying =>
    intro o' n' r handed hf
    rcases hfly hf with ⟨hold, -⟩ | ⟨heq, rfl, rfl⟩
    · obtain ⟨hc, stored, hstored, hown, hst⟩ := h.flying hold
      have hid : r.commandId ≠ row.commandId := fun hid => hfresh (hid ▸ hc)
      exact ⟨hclaimed.mpr (.inl hc), stored, (hother hid).trans hstored, hown,
        hst.imp_right fun hr => ⟨hr.1, hlog ▸ hr.2.append⟩⟩
    · obtain ⟨rfl, -⟩ := Prod.mk.inj heq
      exact ⟨hclaimed.mpr (.inr rfl), _, hself, howner, .inl rfl⟩
  case alone =>
    intro o₁ n₁ r₁ b₁ o₂ n₂ r₂ b₂ hf₁ hf₂ hid
    rcases hfly hf₁ with ⟨hold₁, -⟩ | ⟨heq₁, rfl, rfl⟩ <;>
      rcases hfly hf₂ with ⟨hold₂, -⟩ | ⟨heq₂, rfl, rfl⟩
    · exact h.alone hold₁ hold₂ hid
    · obtain ⟨rfl, -⟩ := Prod.mk.inj heq₂
      exact absurd (hid ▸ (h.flying hold₁).1) hfresh
    · obtain ⟨rfl, -⟩ := Prod.mk.inj heq₁
      exact absurd (hid ▸ (h.flying hold₂).1) hfresh
    · exact ⟨rfl, rfl⟩
  case unsent =>
    intro o' n' r hf hs
    rcases hfly hf with ⟨hold, -⟩ | ⟨heq, -, -⟩
    · exact h.unsent hold (hsent.mp hs)
    · obtain ⟨rfl, -⟩ := Prod.mk.inj heq
      exact hfresh (h.sent (hsent.mp hs))
  case sent => exact fun hs => hclaimed.mpr (.inl (h.sent (hsent.mp hs)))

theorem Batches.submit (h : Batches s) {o : String} {n : ℕ} {row : Row} {handed : Bool}
    (hbefore : flight (s.thread o n) = some (row, handed)) (hjournal : s'.journal = s.journal)
    (hlog : s'.log = s.log ++ [.submitted row.commandId])
    (hpending : pending (s'.thread o n) = pending (s.thread o n))
    (hafter : flight (s'.thread o n) = some (row, true))
    (hothers : ∀ o' n', ¬(o' = o ∧ n' = n) → s'.thread o' n' = s.thread o' n') : Batches s' := by
  have hclaimed : ∀ {key}, Event.claimed key ∈ s'.log ↔ Event.claimed key ∈ s.log := by
    simp [hlog]
  have hpend : ∀ o' n', pending (s'.thread o' n') = pending (s.thread o' n') := by
    intro o' n'
    by_cases hat : o' = o ∧ n' = n
    · obtain ⟨rfl, rfl⟩ := hat
      exact hpending
    · rw [hothers o' n' hat]
  have hfly : ∀ {o' n' r b}, flight (s'.thread o' n') = some (r, b) →
      ∃ b', flight (s.thread o' n') = some (r, b') ∧ (b = false → b' = false ∧ ¬(o' = o ∧ n' = n)) := by
    intro o' n' r b hf
    by_cases hat : o' = o ∧ n' = n
    · obtain ⟨rfl, rfl⟩ := hat
      obtain ⟨rfl, rfl⟩ := Prod.mk.inj (Option.some.inj (hf.symm.trans hafter))
      exact ⟨handed, hbefore, fun hb => by cases hb⟩
    · exact ⟨b, hothers o' n' hat ▸ hf, fun hb => ⟨hb, hat⟩⟩
  constructor
  case dispatched => exact fun hrow hd => hclaimed.mpr (h.dispatched (hjournal ▸ hrow) hd)
  case known => exact fun hc => hjournal ▸ h.known (hclaimed.mp hc)
  case waiting =>
    intro o' n' id hid
    obtain ⟨hfresh, hrow⟩ := h.waiting (hpend o' n' ▸ hid)
    exact ⟨fun hc => hfresh (hclaimed.mp hc), hjournal ▸ hrow⟩
  case nodup => exact fun o' n' => hpend o' n' ▸ h.nodup o' n'
  case apart => exact fun hid hid' => h.apart (hpend _ _ ▸ hid) (hpend _ _ ▸ hid')
  case flying =>
    intro o' n' r b hf
    obtain ⟨b', hold, -⟩ := hfly hf
    obtain ⟨hc, stored, hstored, hown, hst⟩ := h.flying hold
    exact ⟨hclaimed.mpr hc, stored, hjournal ▸ hstored, hown,
      hst.imp_right fun hr => ⟨hr.1, hlog ▸ hr.2.append⟩⟩
  case alone =>
    intro o₁ n₁ r₁ b₁ o₂ n₂ r₂ b₂ hf₁ hf₂ hid
    obtain ⟨_, hold₁, -⟩ := hfly hf₁
    obtain ⟨_, hold₂, -⟩ := hfly hf₂
    exact h.alone hold₁ hold₂ hid
  case unsent =>
    intro o' n' r hf hs
    obtain ⟨b', hold, hb⟩ := hfly hf
    obtain ⟨rfl, hat⟩ := hb rfl
    rw [hlog, List.mem_append, List.mem_singleton] at hs
    rcases hs with hs | hs
    · exact h.unsent hold hs
    · exact hat (h.alone hold hbefore (Event.submitted.inj hs))
  case sent =>
    intro id hs
    rw [hlog, List.mem_append, List.mem_singleton] at hs
    rcases hs with hs | hs
    · exact hclaimed.mpr (h.sent hs)
    · obtain rfl := Event.submitted.inj hs
      exact hclaimed.mpr (h.flying hbefore).1

/-- **Step.**  The bookkeeping survives every step. -/
theorem Work.batches (hw : Work s s') (h : Batches s) : Batches s' := by
  cases hw with
  | shrink log hlog hquiet hpending hflight hkeep hback hrows =>
    exact h.shrink hlog hquiet hpending hflight hkeep hback hrows
  | create o n id row hnone hrows hstate hlog hflight hothers hself =>
    exact h.create hnone hrows hstate hlog hflight hothers hself
  | claim o n id row rest hrow howner hq hjournal hlog hbefore hafter hflight hothers =>
    exact h.claim hrow howner hq hjournal hlog hbefore hafter hflight hothers
  | submit o n row handed hbefore hjournal hlog hpending hafter hothers =>
    exact h.submit hbefore hjournal hlog hpending hafter hothers

/-! ## Every step is such work -/

theorem thread_setThread (s : System) (o : String) (n : ℕ) (t : Thread) (o' : String) (n' : ℕ) :
    (s.setThread o n t).thread o' n' = if o' = o ∧ n' = n then t else s.thread o' n' := rfl

theorem pending_setThread {o : String} {n : ℕ} {t : Thread}
    (h : (pending t).Sublist (pending (s.thread o n))) (o' : String) (n' : ℕ) :
    (pending ((s.setThread o n t).thread o' n')).Sublist (pending (s.thread o' n')) := by
  rw [thread_setThread]
  split_ifs with hat
  · obtain ⟨rfl, rfl⟩ := hat
    exact h
  · exact .refl _

theorem flight_setThread {o : String} {n : ℕ} {t : Thread}
    (h : ∀ f, flight t = some f → flight (s.thread o n) = some f) (o' : String) (n' : ℕ)
    (f : Row × Bool) (hf : flight ((s.setThread o n t).thread o' n') = some f) :
    flight (s.thread o' n') = some f := by
  rw [thread_setThread] at hf
  split_ifs at hf with hat
  · obtain ⟨rfl, rfl⟩ := hat
    exact h f hf
  · exact hf

theorem work_of_threads (log : List Event) (hjournal : s'.journal = s.journal)
    (hlog : s'.log = s.log ++ log)
    (hquiet : ∀ e ∈ log, ∀ id, e ≠ .claimed id ∧ e ≠ .submitted id)
    (hpending : ∀ o n, (pending (s'.thread o n)).Sublist (pending (s.thread o n)))
    (hflight : ∀ o n f, flight (s'.thread o n) = some f → flight (s.thread o n) = some f) :
    Work s s' :=
  .shrink log hlog hquiet hpending hflight (fun _ row h => ⟨row, hjournal ▸ h⟩)
    (fun _ row h => ⟨row, hjournal ▸ h, fun hd => hd⟩)
    fun _ _ _ _ _ _ hstored => .inl (hjournal ▸ hstored)

/-- A row that is not in flight is rewritten to a state other than dispatching. -/
theorem work_of_update (log : List Event) {id : String} {state : RowState}
    {result : Option Summary} (hjournal : s'.journal = s.journal.update id state result)
    (hstate : state ≠ .dispatching) (hlog : s'.log = s.log ++ log)
    (hquiet : ∀ e ∈ log, ∀ id, e ≠ .claimed id ∧ e ≠ .submitted id)
    (hpending : ∀ o n, (pending (s'.thread o n)).Sublist (pending (s.thread o n)))
    (hflight : ∀ o n f, flight (s'.thread o n) = some f → flight (s.thread o n) = some f)
    (hfree : ∀ o n row handed, flight (s'.thread o n) = some (row, handed) → row.commandId ≠ id) :
    Work s s' := by
  refine .shrink log hlog hquiet hpending hflight (fun key row hrow => ?_) (fun key row' hrow' => ?_)
    fun o n row handed stored hf hstored => .inl ?_
  · rw [hjournal, Journal.row?_update, hrow]
    exact ⟨_, rfl⟩
  · rw [hjournal, Journal.row?_update, Option.map_eq_some_iff] at hrow'
    obtain ⟨row, hrow, rfl⟩ := hrow'
    refine ⟨row, hrow, fun hd => ?_⟩
    rw [Journal.rewritten] at hd
    split_ifs at hd
    · exact absurd hd hstate
    · exact hd
  · rw [hjournal, Journal.row?_update_ne _ _ (hfree o n row handed hf)]
    exact hstored

/-- Once an attempt has ended, nothing in flight carries its command. -/
theorem Batches.landed (h : Batches s) {o : String} {n : ℕ} {a : Attempt} {rest : List String}
    {t : Thread} (ht : s.thread o n = .attempting a rest) (hidle : flight t = none) (o' : String)
    (n' : ℕ) (row : Row) (handed : Bool)
    (hf : flight ((s.setThread o n t).thread o' n') = some (row, handed)) :
    row.commandId ≠ a.row.commandId := by
  intro hid
  rw [thread_setThread] at hf
  split_ifs at hf with hat
  · rw [hidle] at hf
    cases hf
  · have hself : flight (s.thread o n) = some (a.row, a.handed) := by
      rw [ht]
      rfl
    exact hat (h.alone hf hself hid)

theorem Outcome.state_ne (outcome : Outcome) : outcome.state ≠ .dispatching := by
  cases outcome <;> decide

theorem work_of_step (h : Batches s) {a : Action} (hstep : Step codec s a s') : Work s s' := by
  cases hstep with
  | boot | openJournal | beginControl | endControl =>
    exact work_of_threads [] rfl (by simp [System.draw, System.setControl]) (by simp)
      (fun _ _ => .refl _) fun _ _ _ hf => hf
  | same => exact work_of_threads [] rfl (by simp) (by simp) (fun _ _ => .refl _) fun _ _ _ hf => hf
  | crash =>
    refine work_of_threads [] rfl (by simp [crash, System.setControl, System.setLock]) (by simp)
      (fun o n => ?_) fun o n f hf => ?_
    · simp only [crash]
      split_ifs
      · exact List.nil_sublist _
      · exact .refl _
    · simp only [crash] at hf
      split_ifs at hf
      · cases hf
      · exact hf
  | shift _ _ hshift =>
    exact work_of_threads [] rfl (by simp [System.setThread]) (by simp)
      (pending_setThread hshift.pending) (flight_setThread fun f hf => hshift.flight ▸ hf)
  | insertOld _ ht =>
    exact work_of_threads [] rfl (by simp [System.setThread]) (by simp)
      (pending_setThread (by rw [ht]; exact .refl _)) (flight_setThread fun f hf => by cases hf)
  | @insertNew o n p c depth batch d _ ht hnone hins =>
    rcases insertDraft_row? s.journal d with ⟨_, hstored, -⟩ | ⟨-, -, hrows⟩
    · rw [hnone] at hstored
      cases hstored
    · have hbatch : pending (s.thread o n) = batch := by
        rw [ht]
        rfl
      refine .create o n d.commandId _ hnone hrows (d.row_state _) rfl (fun o' n' => ?_)
        (fun o' n' hat => ?_) ?_
      · change flight (ite _ _ _) = _
        split_ifs with hat
        · rw [hat.1, hat.2, ht]
          rfl
        · rfl
      · change pending (ite _ _ _) = _
        rw [if_neg hat]
        rfl
      · change pending (ite _ _ _) = _ ∨ pending (ite _ _ _) = _
        rw [if_pos ⟨rfl, rfl⟩, hbatch]
        simp only [pending, grownBatch]
        split_ifs
        · exact .inr rfl
        · exact .inl rfl
  | @aborted o n p c id rest j _ ht hfinish =>
    obtain ⟨row, kept, -, -, -, rfl⟩ := finish_eq_ok hfinish
    have hmem : id ∈ pending (s.thread o n) := by
      rw [ht]
      exact List.mem_cons_self
    have hback := flight_setThread (s := s) (o := o) (n := n) (t := .aborting rest)
      fun f hf => by cases hf
    exact work_of_update [_] rfl (Outcome.state_ne _) rfl (by simp)
      (pending_setThread (by rw [ht]; exact List.sublist_cons_self _ _)) hback
      fun o' n' r handed hf hid => h.not_waiting (hback o' n' _ hf) (hid ▸ hmem)
  | @claimed o n p c id rest j row _ ht _ hclaim =>
    rcases claim_eq_ok hclaim with ⟨-, hnone⟩ | ⟨r, hrow, howner, hq, ⟨-, hnone⟩ | ⟨-, -, -, rfl, hsome⟩⟩
    · cases hnone
    · cases hnone
    · obtain rfl := Option.some.inj hsome
      have hself : ∀ t, (s.setThread o n t).thread o n = t := fun t => if_pos ⟨rfl, rfl⟩
      refine .claim o n id row rest hrow howner hq rfl rfl ?_ ?_ ?_ fun o' n' hat => if_neg hat
      · rw [ht]
        rfl
      · exact congrArg pending (hself _)
      · exact congrArg flight (hself _)
  | @declined o n p c id rest j _ ht hclaim =>
    have hpending := pending_setThread (s := s) (o := o) (n := n) (t := .dispatching rest)
      (by rw [ht]; exact List.sublist_cons_self _ _)
    have hflight := flight_setThread (s := s) (o := o) (n := n) (t := .dispatching rest)
      fun f hf => by cases hf
    have hlog : s.log = s.log ++ [] := (List.append_nil _).symm
    rcases claim_eq_ok hclaim with ⟨rfl, -⟩ | ⟨r, hrow, -, hq, ⟨rfl, -⟩ | ⟨-, -, -, -, hsome⟩⟩
    · exact work_of_threads [] rfl hlog (by simp) hpending hflight
    · refine work_of_update [] rfl (by simp) hlog (by simp) hpending hflight
        fun o' n' r' handed hf hid => ?_
      -- a row in flight is not queued
      obtain ⟨-, stored, hstored, -, hst⟩ := h.flying (hflight o' n' _ hf)
      obtain rfl := Option.some.inj (hrow.symm.trans (hid ▸ hstored))
      rcases hst with hst | ⟨hst, -⟩ <;> simp [hq] at hst
    · cases hsome
  | @submitted o n p c row handed rest _ _ _ ht =>
    have hself : ∀ t, (s.setThread o n t).thread o n = t := fun t => if_pos ⟨rfl, rfl⟩
    refine .submit o n row handed ?_ rfl rfl ?_ ?_ fun o' n' hat => if_neg hat
    · rw [ht]
      rfl
    · refine (congrArg pending (hself _)).trans ?_
      rw [ht]
      rfl
    · exact congrArg flight (hself _)
  | escaped =>
    exact work_of_threads [] rfl (by simp [System.setThread, System.setLock]) (by simp)
      (pending_setThread (List.nil_sublist _)) (flight_setThread fun f hf => by cases hf)
  | gaveUp _ ht =>
    exact work_of_threads [] rfl (by simp [System.setThread, System.setLock]) (by simp)
      (pending_setThread (by rw [ht]; exact .refl _)) (flight_setThread fun f hf => by cases hf)
  | recorded _ ht hfinish =>
    obtain ⟨_, _, -, -, -, rfl⟩ := finish_eq_ok hfinish
    exact work_of_update [_] rfl (Outcome.state_ne _) rfl (by simp)
      (pending_setThread (by simp only [System.write, ht]; exact .refl _)) (flight_setThread fun f hf => by cases hf)
      (h.landed ht rfl)
  | fellBack _ ht hfinish =>
    obtain ⟨_, _, -, -, -, rfl⟩ := finish_eq_ok hfinish
    exact work_of_update [_] rfl (Outcome.state_ne _) rfl (by simp)
      (pending_setThread (by rw [ht]; exact .refl _)) (flight_setThread fun f hf => by cases hf)
      (h.landed ht rfl)
  | @reconciled o p c orders j k _ hrec =>
    refine .shrink [_] rfl (by simp) (fun _ _ => .refl _) (fun _ _ _ hf => hf) (fun id row hrow => ?_)
      (fun id row' hrow' => ?_) fun o' n' row handed stored hf hstored => ?_
    · rcases reconcile_row? hrec hrow with hsame | ⟨-, -, hclosed⟩
      · exact ⟨row, hsame⟩
      · exact ⟨_, hclosed⟩
    · cases hrow : s.journal.row? id with
      | none =>
        have hnone : j.row? id = none := reconcile_row?_none hrec hrow
        cases hnone.symm.trans hrow'
      | some row =>
        refine ⟨row, rfl, fun hd => ?_⟩
        rcases reconcile_row? hrec hrow with hsame | ⟨-, -, hclosed⟩
        · obtain rfl := Option.some.inj (hsame.symm.trans hrow')
          exact hd
        · obtain rfl := Option.some.inj (hclosed.symm.trans hrow')
          cases hd
    · rcases reconcile_row? hrec hstored with hsame | ⟨-, ⟨order, horder, hsettles⟩, hclosed⟩
      · exact .inl hsame
      · exact .inr ⟨hclosed, o, orders, order, List.mem_append_right _ List.mem_cons_self, horder,
          hsettles⟩

/-- **Run.**  The bookkeeping holds after every run of the controllers. -/
theorem batches_run {ok : System → Action → Prop} {acts : List Action}
    (h : Run (step codec) ok .init acts s) : Batches s :=
  h.invariant (fun _ hstep hinv => (work_of_step hinv (step_cases hstep)).batches hinv) .init

end LiveTrader.Dispatch
