/-
# `Dispatch.JournalSteps` — what each journal operation can do to a row

A row keeps its key, owner, epoch, payload and payload hash for good; only its
state and its result column are ever rewritten.  `Move` lists the changes of
state a call by one owner can make; the operations are then one lemma each
(`insertDraft_row?`, `claim_eq_ok`, `finish_eq_ok`, `reconcile_row?`), and the
rest of the development does not open them again.
-/
import LiveTrader.Dispatch.Journal

namespace LiveTrader.Dispatch

open Lib.Py

variable {codec : Codec} {j j' : Journal} {o id : String}

/-! ## Reading the table -/

namespace Journal

theorem row?_key {row : Row} (h : j.row? id = some row) : row.commandId = id := by
  simpa using List.find?_some h

theorem row?_mem {row : Row} (h : j.row? id = some row) : row ∈ j.rows := List.mem_of_find?_eq_some h

theorem row?_of_mem {row : Row} (h : row ∈ j.rows) : j.row? row.commandId = some row := by
  obtain ⟨rows, hnodup⟩ := j
  rw [row?]
  induction rows with
  | nil => cases h
  | cons r rows ih =>
    rw [List.map_cons, List.nodup_cons] at hnodup
    rcases List.mem_cons.mp h with rfl | h
    · simp
    · rw [List.find?_cons_of_neg]
      · exact ih hnodup.2 h
      · intro heq
        simp only [decide_eq_true_eq] at heq
        exact hnodup.1 (heq ▸ List.mem_map_of_mem h)

theorem row?_eq_none : j.row? id = none ↔ id ∉ j.rows.map Row.commandId := by
  simp [row?, List.find?_eq_none]

/-- The row under a key as an update of `id` leaves it. -/
def rewritten (id : String) (state : RowState) (result : Option Summary) (row : Row) : Row :=
  if row.commandId = id then { row with state, result := result.getD row.result } else row

theorem row?_update (state : RowState) (result : Option Summary) (key : String) :
    (j.update id state result).row? key = (j.row? key).map (rewritten id state result) := by
  rw [row?, row?, update, List.find?_map]
  congr 1
  refine congrArg (fun p => List.find? p j.rows) (funext fun row => ?_)
  simp only [Function.comp]
  split <;> rfl

theorem row?_update_ne (state : RowState) (result : Option Summary) {key : String} (h : key ≠ id) :
    (j.update id state result).row? key = j.row? key := by
  rw [row?_update]
  cases hrow : j.row? key with
  | none => rfl
  | some row =>
    have hkey := row?_key hrow
    simp [rewritten, hkey, h]

theorem row?_update_self (state : RowState) (result : Option Summary) {row : Row}
    (h : j.row? id = some row) : (j.update id state result).row? id =
      some { row with state, result := result.getD row.result } := by
  rw [row?_update, h]
  simp [rewritten, row?_key h]

/-- `_unresolved`, over the rows under their keys. -/
theorem unresolved_iff : j.unresolved o = true ↔ ∃ id row, j.row? id = some row ∧
    (row.state = .unknown ∨ (row.state = .dispatching ∧ row.owner ≠ o)) := by
  simp only [unresolved, List.any_eq_true, Bool.or_eq_true, Bool.and_eq_true, decide_eq_true_eq]
  constructor
  · rintro ⟨row, hmem, h⟩
    exact ⟨row.commandId, row, row?_of_mem hmem, h⟩
  · rintro ⟨id, row, hrow, h⟩
    exact ⟨row, row?_mem hrow, h⟩

theorem insert_of_some (row : Row) {stored : Row} (h : j.row? row.commandId = some stored) :
    j.insert row = (j, false) := by
  rw [insert, dif_pos]
  exact row?_key h ▸ List.mem_map_of_mem (row?_mem h)

/-- A row is created under a free key and nothing else changes. -/
theorem insert_of_none (row : Row) (h : j.row? row.commandId = none) :
    (j.insert row).2 = true ∧ ∀ key, (j.insert row).1.row? key =
      if key = row.commandId then some row else j.row? key := by
  rw [insert, dif_neg (row?_eq_none.mp h)]
  refine ⟨rfl, fun key => ?_⟩
  rw [row?, List.find?_append]
  change (j.row? key).or _ = _
  by_cases hkey : key = row.commandId
  · subst hkey
    simp [h]
  · cases hrow : j.row? key <;> simp [hkey, Ne.symm hkey]

end Journal

/-! ## Moves of a row -/

/-- The changes of state a call by `o` can make. -/
inductive Edge (o : String) (row : Row) : RowState → Prop
  | block : row.owner = o → row.state = .queued → Edge o row .blocked
  | claim : row.owner = o → row.state = .queued → Edge o row .dispatching
  | finish (outcome : Outcome) : row.owner = o → row.state = .queued ∨ row.state = .dispatching →
      Edge o row outcome.state
  | resolve : row.state = .unknown ∨ (row.state = .dispatching ∧ row.owner ≠ o) →
      Edge o row .resolved

/-- What a row becomes in one call by `o`. -/
structure Move (o : String) (row row' : Row) : Prop where
  keeps : row' = { row with state := row'.state, result := row'.result }
  edge : row'.state = row.state ∨ Edge o row row'.state

theorem Move.refl (row : Row) : Move o row row := ⟨rfl, .inl rfl⟩

theorem Move.owner {row row' : Row} (h : Move o row row') : row'.owner = row.owner := by
  rw [h.keeps]

theorem Move.epoch {row row' : Row} (h : Move o row row') : row'.epoch = row.epoch := by
  rw [h.keeps]

theorem Move.queued {row row' : Row} (h : Move o row row') (hq : row'.state = .queued) :
    row.state = .queued := by
  rcases h.edge with heq | hedge
  · exact heq ▸ hq
  · rw [hq] at hedge
    generalize hst : RowState.queued = st at hedge
    cases hedge with
    | finish outcome => cases outcome <;> cases hst
    | block | claim | resolve => cases hst

theorem Edge.not_final {row : Row} {state : RowState} (h : Edge o row state) :
    row.state.final = false := by
  cases h with
  | block _ hq | claim _ hq => rw [hq]; rfl
  | finish _ _ hq => rcases hq with hq | hq <;> rw [hq] <;> rfl
  | resolve hq => rcases hq with hq | ⟨hq, -⟩ <;> rw [hq] <;> rfl

/-- The final states are never left. -/
theorem Move.final {row row' : Row} (h : Move o row row') (hfinal : row.state.final = true) :
    row'.state = row.state := by
  rcases h.edge with heq | hedge
  · exact heq
  · rw [hedge.not_final] at hfinal
    cases hfinal

/-- Only the owner takes a row out of the queue into dispatch. -/
theorem Move.dispatched {row row' : Row} (h : Move o row row') (hd : row'.state = .dispatching)
    (hne : row.state ≠ .dispatching) : row.state = .queued ∧ row.owner = o := by
  rcases h.edge with heq | hedge
  · exact absurd (heq ▸ hd) hne
  · rw [hd] at hedge
    generalize hst : RowState.dispatching = st at hedge
    cases hedge with
    | claim howner hq => exact ⟨hq, howner⟩
    | finish outcome => cases outcome <;> cases hst
    | block | resolve => cases hst

/-- Every row makes a move; rows are never deleted. -/
def Advances (o : String) (j j' : Journal) : Prop :=
  ∀ id row, j.row? id = some row → ∃ row', j'.row? id = some row' ∧ Move o row row'

theorem Advances.refl (o : String) (j : Journal) : Advances o j j :=
  fun _ row h => ⟨row, h, .refl row⟩

theorem advances_update {row : Row} {state : RowState} {result : Option Summary}
    (hrow : j.row? id = some row) (hedge : Edge o row state) :
    Advances o j (j.update id state result) := by
  intro key row₁ hkey
  by_cases h : key = id
  · subst h
    obtain rfl := Option.some.inj (hrow.symm.trans hkey)
    exact ⟨_, Journal.row?_update_self _ _ hrow, rfl, .inr hedge⟩
  · exact ⟨row₁, (Journal.row?_update_ne _ _ h).trans hkey, .refl row₁⟩

/-! ## The operations -/

/-- A draft carries its caller and the authority it read. -/
theorem draft_keeps {authority : Authority} {intent : OrderIntent} {d : Draft}
    (h : draft codec authority o intent = .ok d) :
    d.owner = o ∧ d.epoch = authority.epoch ∧ d.blocked = authority.blocked ∧
      d.payloadHash = codec.sha256 (.obj d.payload) := by
  simp only [draft, bind_eq_ok, pure_eq_ok] at h
  obtain ⟨_, -, _, -, _, -, _, -, rfl⟩ := h
  exact ⟨rfl, rfl, rfl, rfl⟩

/-- **`enqueue`.**  A free key gets the drafted row, a taken key changes nothing. -/
theorem insertDraft_row? (j : Journal) (d : Draft) :
    (∃ stored, j.row? d.commandId = some stored ∧ insertDraft j d = (j, false)) ∨
    (j.row? d.commandId = none ∧ (insertDraft j d).2 = true ∧
      ∀ key, (insertDraft j d).1.row? key =
        if key = d.commandId then some (d.row (j.unresolved d.owner)) else j.row? key) := by
  cases h : j.row? d.commandId with
  | some stored =>
    exact .inl ⟨stored, rfl, Journal.insert_of_some (d.row (j.unresolved d.owner)) h⟩
  | none => exact .inr ⟨rfl, Journal.insert_of_none (d.row (j.unresolved d.owner)) h⟩

theorem insertDraft_advances (j : Journal) (d : Draft) : Advances o j (insertDraft j d).1 := by
  intro id stored hstored
  rcases insertDraft_row? j d with ⟨_, -, h⟩ | ⟨hnone, -, h⟩
  · rw [h]
    exact ⟨stored, hstored, .refl stored⟩
  · refine ⟨stored, ?_, .refl stored⟩
    rw [h, if_neg]
    · exact hstored
    · rintro rfl
      rw [hnone] at hstored
      cases hstored

theorem Draft.row_state (d : Draft) (unresolved : Bool) : (d.row unresolved).state ≠ .dispatching := by
  rw [row]
  dsimp only
  split_ifs <;> decide

/-- **`claim`.**  Nothing, or the owner's queued row is blocked, or it is claimed
under the epoch in force with nothing unresolved. -/
theorem claim_eq_ok {authority : Authority} {claimed : Option Row}
    (h : claim codec authority o j id = .ok (j', claimed)) :
    (j' = j ∧ claimed = none) ∨
    ∃ row, j.row? id = some row ∧ row.owner = o ∧ row.state = .queued ∧
      ((j' = j.update id .blocked none ∧ claimed = none) ∨
        (authority.blocked = false ∧ row.epoch = authority.epoch ∧ j.unresolved o = false ∧
          j' = j.update id .dispatching none ∧ claimed = some row)) := by
  rw [claim] at h
  cases hrow : j.row? id with
  | none =>
    rw [hrow] at h
    cases h
    exact .inl ⟨rfl, rfl⟩
  | some row =>
    rw [hrow] at h
    dsimp only at h
    split_ifs at h with hforeign hfence
    · cases h
      exact .inl ⟨rfl, rfl⟩
    · push Not at hforeign
      cases h
      exact .inr ⟨row, rfl, hforeign.1, hforeign.2, .inl ⟨rfl, rfl⟩⟩
    · push Not at hforeign
      simp only [bind_eq_ok, pure_eq_ok] at h
      obtain ⟨_, -, h⟩ := h
      cases h
      simp only [Bool.or_eq_true, decide_eq_true_eq, not_or, Bool.not_eq_true, not_not] at hfence
      exact .inr ⟨row, rfl, hforeign.1, hforeign.2,
        .inr ⟨hfence.1.1, hfence.1.2, hfence.2, rfl, rfl⟩⟩

theorem claim_advances {authority : Authority} {claimed : Option Row}
    (h : claim codec authority o j id = .ok (j', claimed)) : Advances o j j' := by
  rcases claim_eq_ok h with ⟨rfl, -⟩ | ⟨row, hrow, howner, hq, ⟨rfl, -⟩ | ⟨-, -, -, rfl, -⟩⟩
  · exact .refl o _
  · exact advances_update hrow (.block howner hq)
  · exact advances_update hrow (.claim howner hq)

/-- **`finish`.**  The caller's own open row gets the outcome. -/
theorem finish_eq_ok {outcome : Outcome} {result : Fields}
    (h : finish codec o j id outcome result = .ok j') :
    ∃ row kept, j.row? id = some row ∧ row.owner = o ∧
      (row.state = .queued ∨ row.state = .dispatching) ∧
      j' = j.update id outcome.state (some kept) := by
  simp only [finish, bind_eq_ok] at h
  obtain ⟨kept, -, h⟩ := h
  cases hrow : j.row? id with
  | none => simp [hrow] at h
  | some row =>
    rw [hrow] at h
    dsimp only at h
    split_ifs at h with hopen
    · cases h
      exact ⟨row, kept, rfl, hopen.1, hopen.2, rfl⟩

theorem finish_advances {outcome : Outcome} {result : Fields}
    (h : finish codec o j id outcome result = .ok j') : Advances o j j' := by
  obtain ⟨row, kept, hrow, howner, hopen, rfl⟩ := finish_eq_ok h
  exact advances_update hrow (.finish outcome howner hopen)

/-! ## Reconciliation -/

/-- A dispatch row that settles a row: the exact seal, a known order state, and the
symbol, broker and portfolio plan of the sealed payload. -/
structure Settles (row : Row) (order : Fields) : Prop where
  exactSeal : (order.at metaKey).eq row.sealDict = true
  known : (order.at "state").isOneOf knownStates = .ok true
  symbol : (order.at "symbol").eq (row.payload.at "symbol") = true
  scope : ∃ metadata, row.payload.section "metadata" = .ok metadata ∧
    (order.at "broker_id").eq (metadata.at "broker_id") = true ∧
    (metadata.at "portfolio_execution").eq (order.at "portfolio_execution") = true

theorem matchesOrder_eq_ok {row : Row} {carried order : Fields}
    (h : matchesOrder codec row carried order = .ok true) :
    (Json.obj carried).eq row.sealDict = true ∧
      (order.at "symbol").eq (row.payload.at "symbol") = true ∧
      ∃ metadata, row.payload.section "metadata" = .ok metadata ∧
        (order.at "broker_id").eq (metadata.at "broker_id") = true ∧
        (metadata.at "portfolio_execution").eq (order.at "portfolio_execution") = true := by
  unfold matchesOrder at h
  split_ifs at h with hseal hhash
  · simp at h
  · simp at h
  · simp only [bind_eq_ok] at h
    obtain ⟨acknowledged, -, h⟩ := h
    split_ifs at h
    · simp at h
    · simp only [bind_eq_ok, pure_eq_ok, Bool.and_eq_true] at h
      obtain ⟨metadata, hmeta, ⟨hsymbol, hbroker⟩, hplan⟩ := h
      refine ⟨?_, hsymbol, metadata, hmeta, hbroker, hplan⟩
      simpa using hseal

/-- One row of evidence closes at most the row it names. -/
theorem reconcileOne_eq_ok {order : Fields} {n : ℕ}
    (h : reconcileOne codec o j order = .ok (j', n)) :
    j' = j ∨ ∃ id row, j.row? id = some row ∧
      (row.state = .unknown ∨ (row.state = .dispatching ∧ row.owner ≠ o)) ∧
      Settles row order ∧ j' = j.update id .resolved none := by
  unfold reconcileOne at h
  split at h
  · rename_i carried hcarried
    simp only [bind_eq_ok] at h
    obtain ⟨known, hknown, h⟩ := h
    split_ifs at h with hk
    · cases h
      exact .inl rfl
    · split at h
      · cases h
        exact .inl rfl
      · rename_i row hrow
        split_ifs at h with hopen
        · simp only [bind_eq_ok] at h
          obtain ⟨matched, hmatched, h⟩ := h
          split_ifs at h with hm
          · cases h
            subst hm
            obtain ⟨hseal, hsymbol, hscope⟩ := matchesOrder_eq_ok hmatched
            refine .inr ⟨_, row, hrow, hopen, ⟨hcarried ▸ hseal, ?_, hsymbol, hscope⟩, ?_⟩
            · rw [hknown]
              simpa using hk
            · rw [Journal.row?_key hrow]
          · cases h
            exact .inl rfl
        · cases h
          exact .inl rfl
  · cases h
    exact .inl rfl

/-- **`reconcile`.**  Every row stays or is closed on evidence among the dispatch rows. -/
theorem reconcile_row? {orders : List Fields} {n : ℕ}
    (h : reconcile codec o j orders = .ok (j', n)) {row : Row} (hrow : j.row? id = some row) :
    j'.row? id = some row ∨
      ((row.state = .unknown ∨ (row.state = .dispatching ∧ row.owner ≠ o)) ∧
        (∃ order ∈ orders, Settles row order) ∧
        j'.row? id = some { row with state := .resolved }) := by
  induction orders generalizing j n row with
  | nil =>
    cases h
    exact .inl hrow
  | cons order orders ih =>
    simp only [reconcile, bind_eq_ok, pure_eq_ok, Prod.exists, Prod.mk.injEq] at h
    obtain ⟨j₁, n₁, hone, j₂, n₂, hrest, rfl, -⟩ := h
    rcases reconcileOne_eq_ok hone with rfl | ⟨key, row₁, hrow₁, hopen, hsettles, rfl⟩
    · rcases ih hrest hrow with h | ⟨hopen, ⟨order', hmem, hsettles⟩, h⟩
      · exact .inl h
      · exact .inr ⟨hopen, ⟨order', List.mem_cons_of_mem _ hmem, hsettles⟩, h⟩
    · by_cases hkey : id = key
      · subst hkey
        obtain rfl := Option.some.inj (hrow₁.symm.trans hrow)
        have hself := Journal.row?_update_self .resolved none hrow
        simp only [Option.getD_none] at hself
        -- a resolved row is not open, so no later evidence touches it
        rcases ih hrest hself with h | ⟨hopen', -, -⟩
        · exact .inr ⟨hopen, ⟨order, List.mem_cons_self, hsettles⟩, h⟩
        · simp at hopen'
      · have hsame := (Journal.row?_update_ne .resolved none hkey).trans hrow
        rcases ih hrest hsame with h | ⟨hopen', ⟨order', hmem, hs⟩, h⟩
        · exact .inl h
        · exact .inr ⟨hopen', ⟨order', List.mem_cons_of_mem _ hmem, hs⟩, h⟩

/-- A reconciliation creates no row. -/
theorem reconcile_row?_none {orders : List Fields} {n : ℕ}
    (h : reconcile codec o j orders = .ok (j', n)) (hrow : j.row? id = none) :
    j'.row? id = none := by
  induction orders generalizing j n with
  | nil =>
    cases h
    exact hrow
  | cons order orders ih =>
    simp only [reconcile, bind_eq_ok, pure_eq_ok, Prod.exists, Prod.mk.injEq] at h
    obtain ⟨j₁, n₁, hone, j₂, n₂, hrest, rfl, -⟩ := h
    refine ih hrest ?_
    rcases reconcileOne_eq_ok hone with rfl | ⟨key, _, _, _, _, rfl⟩
    · exact hrow
    · rw [Journal.row?_update, hrow]
      rfl

theorem reconcile_advances {orders : List Fields} {n : ℕ}
    (h : reconcile codec o j orders = .ok (j', n)) : Advances o j j' := by
  intro id row hrow
  rcases reconcile_row? h hrow with hsame | ⟨hopen, -, hclosed⟩
  · exact ⟨row, hsame, .refl row⟩
  · exact ⟨_, hclosed, rfl, .inr (.resolve hopen)⟩

end LiveTrader.Dispatch
