/-
# `ExecutionFeed.Applied` — every event is applied exactly once

In every run whose steps lose no event, an event of a dispatched order that was received is applied
to that order exactly once, or it waits in a queue or in the poll that is under way
(`applied_of_run`).

The list gets an order after the broker has it.  A poll in between finds no order for its events,
and records them all the same (`sample_event_lost`).
-/
import LiveTrader.ExecutionFeed.System
import LiveTrader.LiveOrders.Terminal

namespace LiveTrader.ExecutionFeed

open Lib Lib.Py Lib.Runs
open LiveOrders (Env Oms World eventIdOf applyEvent)

variable {feed : Feed} {s : State}

/-! ## What is claimed -/

namespace State

/-- The events of dispatched orders that were applied. -/
def applied (s : State) : List String := s.log.map Prod.fst

/-- The event waits in a queue, or in the poll. -/
def Waits (feed : Feed) (s : State) (id : String) : Prop :=
  (∃ brokerId, id ∈ feed.ownedIds (drainRows feed brokerId (s.queues brokerId))) ∨
    ∃ poll, s.poll = some poll ∧ id ∈ feed.ownedIds poll.events

end State

/-- No event of a dispatched order is lost or applied twice. -/
structure AppliedOnce (feed : Feed) (s : State) : Prop where
  once : s.applied.Nodup
  /-- An event is applied to the order that it is about. -/
  right : ∀ entry ∈ s.log, feed.owner entry.1 = some entry.2
  kept : ∀ id ∈ s.received, id ∈ s.applied ∨ s.Waits feed id
  /-- Between the polls, with empty queues, every event is applied. -/
  settled : s.poll = none → (∀ brokerId, s.queues brokerId = []) → ∀ id ∈ s.received, id ∈ s.applied

/-! ## The condition -/

/-- The event has an id, and it is recorded if it was applied. -/
def Fresh (feed : Feed) (s : State) (event : Fields) : Prop :=
  eventIdOf feed.env event ≠ "" ∧
    (feed.owns (eventIdOf feed.env event) = true → eventIdOf feed.env event ∈ s.applied →
      rawEventId feed.env event ∈ s.eventIds)

/-- The steps that lose no event. -/
def Meets (feed : Feed) (s : State) : Label → Prop
  -- the row normalizes, and a row that it pushes out of the queue is not about a dispatched order
  | .deliver brokerId row => (feed.normalize brokerId row).isSome = true ∧
      ∀ old ∈ (s.queues brokerId ++ [row]).take ((s.queues brokerId ++ [row]).length - 1000),
        feed.ownedIds (feed.normalize brokerId old).toList = []
  -- an event comes again only when it is recorded
  | .drain brokerIds => ∀ brokerId ∈ brokerIds, ∀ event ∈ drainRows feed brokerId (s.queues brokerId), Fresh feed s event
  | .collect brokerId rows => ∀ events, s.poll = some (.collecting events) →
      (rows.mapM (feed.normalize brokerId) = none → feed.ownedIds events = []) ∧
        ∀ more, rows.mapM (feed.normalize brokerId) = some more → ∀ event ∈ more, Fresh feed s event
  -- the order of the event is on the list, and is the first that the event matches
  | .applyNext => ∀ batch event rest known, s.poll = some (.applying batch (event :: rest) known) →
      eventIdOf feed.env event ∉ known →
      (feed.owns (eventIdOf feed.env event) = true → ∃ i, s.world.target feed.env event = some i ∧
        feed.owner (eventIdOf feed.env event) = some (feed.env.text ((s.world.order i).at "order_id"))) ∧
      ∀ world e, applyEvent feed.env feed.oms s.world event = (world, .error e) → feed.ownedIds (event :: rest) = []
  | .fail => ∀ poll, s.poll = some poll → feed.ownedIds poll.events = []
  | .restart _ => s.received = []
  | _ => True

/-! ## The invariant -/

/-- A poll that is under way. -/
def Poll.Sound (feed : Feed) (s : State) : Poll → Prop
  | .collecting events => ∀ event ∈ events, Fresh feed s event
  | .applying batch rest known =>
    (rest.Pairwise fun event event' => eventIdOf feed.env event ≠ eventIdOf feed.env event') ∧
    (∀ event ∈ rest, eventIdOf feed.env event ≠ "" ∧
      (feed.owns (eventIdOf feed.env event) = true → eventIdOf feed.env event ∉ s.applied)) ∧
    (∀ id ∈ known, feed.owns (strip id) = true → strip id ∈ s.applied) ∧
    ∀ event ∈ batch, eventIdOf feed.env event ≠ "" ∧ (feed.owns (eventIdOf feed.env event) = true →
      eventIdOf feed.env event ∈ s.applied ∨ eventIdOf feed.env event ∈ feed.ownedIds rest)

structure Sound (feed : Feed) (s : State) : Prop where
  once : s.applied.Nodup
  right : ∀ entry ∈ s.log, feed.owner entry.1 = some entry.2
  received : ∀ id ∈ s.applied, id ∈ s.received
  /-- What waits was received. -/
  waiting : ∀ id, s.Waits feed id → id ∈ s.received
  owned : ∀ id ∈ s.received, feed.owns id = true
  kept : ∀ id ∈ s.received, id ∈ s.applied ∨ s.Waits feed id
  queues : ∀ brokerId, ∀ row ∈ s.queues brokerId, (feed.normalize brokerId row).isSome = true
  recorded : ∀ id ∈ s.eventIds, feed.owns (strip id) = true → strip id ∈ s.applied
  poll : ∀ poll, s.poll = some poll → poll.Sound feed s

/-! ## Ids -/

theorem eventIdOf_eq (env : Env) (event : Fields) : eventIdOf env event = strip (rawEventId env event) := rfl

theorem mem_ownedIds {events : List Fields} {id : String} :
    id ∈ feed.ownedIds events ↔ (∃ event ∈ events, eventIdOf feed.env event = id) ∧ feed.owns id = true := by
  rw [Feed.ownedIds, List.mem_filter, List.mem_map]

theorem ownedIds_append (events more : List Fields) :
    feed.ownedIds (events ++ more) = feed.ownedIds events ++ feed.ownedIds more := by
  rw [Feed.ownedIds, List.map_append, List.filter_append, Feed.ownedIds, Feed.ownedIds]

/-- The drained events of a queue whose rows normalize. -/
theorem mem_drainRows {brokerId : String} {rows : List Fields}
    (h : ∀ row ∈ rows, (feed.normalize brokerId row).isSome = true) {event : Fields} :
    event ∈ drainRows feed brokerId rows ↔ ∃ row ∈ rows, feed.normalize brokerId row = some event := by
  induction rows with
  | nil => exact ⟨fun hmem => absurd hmem List.not_mem_nil, fun hmem => by
      obtain ⟨row, hrow, -⟩ := hmem
      exact absurd hrow List.not_mem_nil⟩
  | cons row rows ih =>
    obtain ⟨first, hfirst⟩ := Option.isSome_iff_exists.mp (h row List.mem_cons_self)
    have ih := ih fun row' hrow' => h row' (List.mem_cons_of_mem _ hrow')
    simp only [drainRows, hfirst, List.mem_cons, ih]
    constructor
    · rintro (rfl | ⟨row', hrow', hevent⟩)
      · exact ⟨row, .inl rfl, hfirst⟩
      · exact ⟨row', .inr hrow', hevent⟩
    · rintro ⟨row', rfl | hrow', hevent⟩
      · exact .inl (Option.some.inj (hevent.symm.trans hfirst))
      · exact .inr ⟨row', hrow', hevent⟩

/-! ## Deduplication -/

theorem mem_of_mem_deduplicate {env : Env} {seen : List String} {events : List Fields} {event : Fields}
    (h : event ∈ deduplicate env seen events) : event ∈ events ∧ (eventIdOf env event ≠ "" → eventIdOf env event ∉ seen) := by
  induction events generalizing seen with
  | nil => exact absurd h List.not_mem_nil
  | cons first events ih =>
    rw [deduplicate] at h
    split at h
    · exact ⟨List.mem_cons_of_mem _ (ih h).1, (ih h).2⟩
    · next hnew =>
      rcases List.mem_cons.mp h with rfl | h
      · exact ⟨List.mem_cons_self, fun hid hseen => hnew ⟨hid, hseen⟩⟩
      · obtain ⟨hmem, hnotSeen⟩ := ih h
        refine ⟨List.mem_cons_of_mem _ hmem, fun hid hseen => hnotSeen hid ?_⟩
        split
        · exact List.mem_cons_of_mem _ hseen
        · exact hseen

/-- No id is left out. -/
theorem exists_mem_deduplicate {env : Env} {seen : List String} {events : List Fields} {event : Fields}
    (h : event ∈ events) : eventIdOf env event ∈ seen ∨
      ∃ event' ∈ deduplicate env seen events, eventIdOf env event' = eventIdOf env event := by
  induction events generalizing seen with
  | nil => exact absurd h List.not_mem_nil
  | cons first events ih =>
    rw [deduplicate]
    split
    · next hseen =>
      rcases List.mem_cons.mp h with rfl | h
      · exact .inl hseen.2
      · exact ih h
    · rcases List.mem_cons.mp h with rfl | h
      · exact .inr ⟨event, List.mem_cons_self, rfl⟩
      · have hrest : eventIdOf env event ∈ (if eventIdOf env first ≠ "" then eventIdOf env first :: seen else seen) ∨
            ∃ event' ∈ deduplicate env (if eventIdOf env first ≠ "" then eventIdOf env first :: seen else seen) events,
              eventIdOf env event' = eventIdOf env event := ih h
        rcases hrest with hseen | hkept
        · split at hseen
          · rcases List.mem_cons.mp hseen with heq | hseen
            · exact .inr ⟨first, List.mem_cons_self, heq.symm⟩
            · exact .inl hseen
          · exact .inl hseen
        · obtain ⟨event', hevent', heq⟩ := hkept
          exact .inr ⟨event', List.mem_cons_of_mem _ hevent', heq⟩

theorem pairwise_deduplicate {env : Env} {seen : List String} {events : List Fields}
    (h : ∀ event ∈ events, eventIdOf env event ≠ "") :
    (deduplicate env seen events).Pairwise fun event event' => eventIdOf env event ≠ eventIdOf env event' := by
  induction events generalizing seen with
  | nil => exact .nil
  | cons first events ih =>
    have hfirst := h first List.mem_cons_self
    rw [deduplicate, if_pos hfirst]
    split
    · exact ih fun event hevent => h event (List.mem_cons_of_mem _ hevent)
    · refine List.pairwise_cons.mpr ⟨fun event hevent heq => ?_, ih fun event hevent => h event (List.mem_cons_of_mem _ hevent)⟩
      have hnotSeen := (mem_of_mem_deduplicate hevent).2 (heq ▸ hfirst)
      exact hnotSeen (heq ▸ List.mem_cons_self)

/-! ## Streams and snapshots -/

theorem Poll.Sound.congr {s' : State} {poll : Poll} (h : poll.Sound feed s) (hlog : s'.log = s.log)
    (heventIds : s'.eventIds = s.eventIds) : poll.Sound feed s' := by
  have happlied : s'.applied = s.applied := by
    rw [State.applied, hlog, State.applied]
  cases poll with
  | collecting events =>
    intro event hevent
    rw [Fresh, happlied, heventIds]
    exact h event hevent
  | applying batch rest known =>
    obtain ⟨hdistinct, hrest, hknown, hbatch⟩ := h
    simp only [Poll.Sound, happlied]
    exact ⟨hdistinct, hrest, hknown, hbatch⟩

/-- **A row of a stream.** -/
theorem Sound.deliver (h : Sound feed s) {brokerId : String} {row : Fields} (hmeets : Meets feed s (.deliver brokerId row)) :
    Sound feed (s.deliver feed brokerId row) := by
  obtain ⟨hnormal, hold⟩ := hmeets
  have hqueue : ∀ row' ∈ s.queues brokerId ++ [row], (feed.normalize brokerId row').isSome = true := by
    intro row' hrow'
    rcases List.mem_append.mp hrow' with hrow' | hrow'
    · exact h.queues brokerId row' hrow'
    · exact List.mem_singleton.mp hrow' ▸ hnormal
  have hafter : ∀ row' ∈ (s.queues brokerId ++ [row]).drop ((s.queues brokerId ++ [row]).length - 1000),
      (feed.normalize brokerId row').isSome = true := fun row' hrow' => hqueue row' (List.mem_of_mem_drop hrow')
  -- what waited in the queue, or comes, and is about a dispatched order, is in the queue afterwards
  have hwaits : ∀ row' ∈ s.queues brokerId ++ [row], ∀ event, feed.normalize brokerId row' = some event →
      feed.owns (eventIdOf feed.env event) = true → (s.deliver feed brokerId row).Waits feed (eventIdOf feed.env event) := by
    intro row' hrow' event hevent howns
    rw [← List.take_append_drop ((s.queues brokerId ++ [row]).length - 1000) (s.queues brokerId ++ [row])] at hrow'
    rcases List.mem_append.mp hrow' with hrow' | hrow'
    · have hnone := hold row' hrow'
      rw [hevent] at hnone
      have hmem : eventIdOf feed.env event ∈ feed.ownedIds [event] :=
        mem_ownedIds.mpr ⟨⟨event, List.mem_cons_self, rfl⟩, howns⟩
      exact absurd (hnone ▸ hmem) List.not_mem_nil
    · refine .inl ⟨brokerId, mem_ownedIds.mpr ⟨⟨event, ?_, rfl⟩, howns⟩⟩
      simp only [State.deliver, Function.update_self]
      exact (mem_drainRows hafter).mpr ⟨row', hrow', hevent⟩
  refine { once := h.once, right := h.right, recorded := h.recorded,
           received := fun id hid => List.mem_append_right _ (h.received id hid), waiting := fun id hid => ?_,
           owned := fun id hid => ?_, kept := fun id hid => ?_, queues := fun brokerId' row' hrow' => ?_,
           poll := fun poll hpoll => (h.poll poll hpoll).congr rfl rfl }
  · rcases hid with ⟨brokerId', hqueued⟩ | hpolled
    · by_cases hbroker : brokerId' = brokerId
      · subst hbroker
        simp only [State.deliver, Function.update_self] at hqueued
        obtain ⟨⟨event, hevent, rfl⟩, howns⟩ := mem_ownedIds.mp hqueued
        obtain ⟨row', hrow', hnormalized⟩ := (mem_drainRows hafter).mp hevent
        rcases List.mem_append.mp (List.mem_of_mem_drop hrow') with hrow' | hrow'
        · refine List.mem_append_right _ (h.waiting _ (.inl ⟨brokerId', mem_ownedIds.mpr ⟨⟨event, ?_, rfl⟩, howns⟩⟩))
          exact (mem_drainRows (h.queues brokerId')).mpr ⟨row', hrow', hnormalized⟩
        · obtain rfl := List.mem_singleton.mp hrow'
          refine List.mem_append_left _ (mem_ownedIds.mpr ⟨⟨event, ?_, rfl⟩, howns⟩)
          exact Option.mem_toList.mpr hnormalized
      · simp only [State.deliver, Function.update_of_ne hbroker] at hqueued
        exact List.mem_append_right _ (h.waiting id (.inl ⟨brokerId', hqueued⟩))
    · exact List.mem_append_right _ (h.waiting id (.inr hpolled))
  · rcases List.mem_append.mp hid with hid | hid
    · exact (mem_ownedIds.mp hid).2
    · exact h.owned id hid
  · rcases List.mem_append.mp hid with hid | hid
    · obtain ⟨⟨event, hevent, rfl⟩, howns⟩ := mem_ownedIds.mp hid
      exact .inr (hwaits row (List.mem_append_right _ List.mem_cons_self) event (Option.mem_toList.mp hevent) howns)
    · rcases h.kept id hid with happlied | ⟨brokerId', hqueued⟩ | hpolled
      · exact .inl happlied
      · by_cases hbroker : brokerId' = brokerId
        · subst hbroker
          obtain ⟨⟨event, hevent, rfl⟩, howns⟩ := mem_ownedIds.mp hqueued
          obtain ⟨row', hrow', hnormalized⟩ := (mem_drainRows (h.queues brokerId')).mp hevent
          exact .inr (hwaits row' (List.mem_append_left _ hrow') event hnormalized howns)
        · refine .inr (.inl ⟨brokerId', ?_⟩)
          simp only [State.deliver, Function.update_of_ne hbroker]
          exact hqueued
      · exact .inr (.inr hpolled)
  · by_cases hbroker : brokerId' = brokerId
    · subst hbroker
      simp only [State.deliver, Function.update_self] at hrow'
      exact hafter row' hrow'
    · simp only [State.deliver, Function.update_of_ne hbroker] at hrow'
      exact h.queues brokerId' row' hrow'

/-- **The start of a poll.** -/
theorem Sound.drain (h : Sound feed s) (hidle : s.poll = none) {brokerIds : List String}
    (hmeets : Meets feed s (.drain brokerIds)) : Sound feed (s.drain feed brokerIds) := by
  refine { once := h.once, right := h.right, recorded := h.recorded, received := h.received, owned := h.owned,
           waiting := fun id hid => ?_, kept := fun id hid => ?_, queues := fun brokerId row hrow => ?_,
           poll := fun poll hpoll => ?_ }
  · rcases hid with ⟨brokerId, hqueued⟩ | ⟨poll, hpoll, hpolled⟩
    · refine h.waiting id (.inl ⟨brokerId, ?_⟩)
      simp only [State.drain] at hqueued
      split at hqueued
      · exact absurd hqueued List.not_mem_nil
      · exact hqueued
    · obtain rfl := Option.some.inj hpoll
      obtain ⟨⟨event, hevent, rfl⟩, howns⟩ := mem_ownedIds.mp hpolled
      obtain ⟨brokerId, -, hevent⟩ := List.mem_flatMap.mp hevent
      exact h.waiting _ (.inl ⟨brokerId, mem_ownedIds.mpr ⟨⟨event, hevent, rfl⟩, howns⟩⟩)
  · rcases h.kept id hid with happlied | ⟨brokerId, hqueued⟩ | ⟨poll, hpoll, -⟩
    · exact .inl happlied
    · by_cases hdrained : brokerId ∈ brokerIds
      · refine .inr (.inr ⟨_, rfl, ?_⟩)
        obtain ⟨⟨event, hevent, rfl⟩, howns⟩ := mem_ownedIds.mp hqueued
        refine mem_ownedIds.mpr ⟨⟨event, ?_, rfl⟩, howns⟩
        exact List.mem_flatMap.mpr ⟨brokerId, List.mem_eraseDups.mpr hdrained, hevent⟩
      · refine .inr (.inl ⟨brokerId, ?_⟩)
        simp only [State.drain, if_neg hdrained]
        exact hqueued
    · exact absurd (hpoll.symm.trans hidle) (by simp only [reduceCtorEq, not_false_eq_true])
  · simp only [State.drain] at hrow
    split at hrow
    · exact absurd hrow List.not_mem_nil
    · exact h.queues brokerId row hrow
  · obtain rfl := Option.some.inj hpoll
    intro event hevent
    obtain ⟨brokerId, hbroker, hevent⟩ := List.mem_flatMap.mp hevent
    exact hmeets brokerId (List.mem_eraseDups.mp hbroker) event hevent

/-- A poll that ends and leaves out no event of a dispatched order. -/
theorem Sound.giveUp (h : Sound feed s) (hnone : ∀ poll, s.poll = some poll → feed.ownedIds poll.events = []) :
    Sound feed { s with poll := none } := by
  refine { once := h.once, right := h.right, recorded := h.recorded, received := h.received, owned := h.owned,
           waiting := fun id hid => ?_, kept := fun id hid => ?_, queues := h.queues,
           poll := fun _ hpoll => absurd hpoll (by simp only [reduceCtorEq, not_false_eq_true]) }
  · rcases hid with hqueued | ⟨poll, hpoll, -⟩
    · exact h.waiting id (.inl hqueued)
    · exact absurd hpoll (by simp only [reduceCtorEq, not_false_eq_true])
  rcases h.kept id hid with happlied | hqueued | ⟨poll, hpoll, hwaits⟩
  · exact .inl happlied
  · exact .inr (.inl hqueued)
  · rw [hnone poll hpoll] at hwaits
    exact absurd hwaits List.not_mem_nil

/-- **The rows of a snapshot.** -/
theorem Sound.collect (h : Sound feed s) {events : List Fields} (hpoll : s.poll = some (.collecting events))
    {brokerId : String} {rows : List Fields} (hmeets : Meets feed s (.collect brokerId rows)) :
    Sound feed (s.collect feed events brokerId rows) := by
  obtain ⟨hlost, hfresh⟩ := hmeets events hpoll
  rw [State.collect]
  split
  · next more hmore =>
    refine { once := h.once, right := h.right, recorded := h.recorded,
             received := fun id hid => List.mem_append_right _ (h.received id hid), waiting := fun id hid => ?_,
             owned := fun id hid => ?_, kept := fun id hid => ?_, queues := h.queues, poll := fun poll hpoll' => ?_ }
    · rcases hid with hqueued | ⟨poll, hpoll', hpolled⟩
      · exact List.mem_append_right _ (h.waiting id (.inl hqueued))
      · obtain rfl := Option.some.inj hpoll'
        rw [Poll.events, ownedIds_append] at hpolled
        rcases List.mem_append.mp hpolled with hpolled | hpolled
        · exact List.mem_append_right _ (h.waiting id (.inr ⟨_, hpoll, hpolled⟩))
        · exact List.mem_append_left _ hpolled
    · rcases List.mem_append.mp hid with hid | hid
      · exact (mem_ownedIds.mp hid).2
      · exact h.owned id hid
    · rcases List.mem_append.mp hid with hid | hid
      · refine .inr (.inr ⟨_, rfl, ?_⟩)
        rw [Poll.events, ownedIds_append]
        exact List.mem_append_right _ hid
      · rcases h.kept id hid with happlied | hqueued | ⟨poll, hpoll', hwaits⟩
        · exact .inl happlied
        · exact .inr (.inl hqueued)
        · obtain rfl := Option.some.inj (hpoll.symm.trans hpoll')
          refine .inr (.inr ⟨_, rfl, ?_⟩)
          rw [Poll.events, ownedIds_append]
          exact List.mem_append_left _ hwaits
    · obtain rfl := Option.some.inj hpoll'
      intro event hevent
      rcases List.mem_append.mp hevent with hevent | hevent
      · exact h.poll _ hpoll event hevent
      · exact hfresh more hmore event hevent
  · next hraises =>
    refine h.giveUp fun poll hpoll' => ?_
    obtain rfl := Option.some.inj (hpoll.symm.trans hpoll')
    exact hlost hraises

/-- **The choice of the new events.** -/
theorem Sound.select (h : Sound feed s) {events : List Fields} (hpoll : s.poll = some (.collecting events)) :
    Sound feed (s.select feed events) := by
  have hfresh : ∀ event ∈ events, Fresh feed s event := h.poll _ hpoll
  have hchosen : ∀ {event}, event ∈ (deduplicate feed.env [] events).filter (fun event => rawEventId feed.env event ∉
      existingExecutionEventIds s.eventIds ((deduplicate feed.env [] events).map (rawEventId feed.env))) →
      event ∈ deduplicate feed.env [] events ∧ rawEventId feed.env event ∉ s.eventIds := by
    intro event hevent
    obtain ⟨hmem, hnew⟩ := List.mem_filter.mp hevent
    refine ⟨hmem, fun hrecorded => of_decide_eq_true hnew ?_⟩
    refine List.mem_filter.mpr ⟨List.mem_eraseDups.mpr (List.mem_map_of_mem hmem), Bool.and_eq_true _ _ |>.mpr ⟨?_, ?_⟩⟩
    · refine decide_eq_true fun hblank => (hfresh event (mem_of_mem_deduplicate hmem).1).1 ?_
      rw [eventIdOf_eq, hblank]
      rfl
    · exact decide_eq_true hrecorded
  refine { once := h.once, right := h.right, recorded := h.recorded, received := h.received, owned := h.owned,
           waiting := fun id hid => ?_, kept := fun id hid => ?_, queues := h.queues, poll := fun poll hpoll' => ?_ }
  · rcases hid with hqueued | ⟨poll, hpoll', hpolled⟩
    · exact h.waiting id (.inl hqueued)
    · obtain rfl := Option.some.inj hpoll'
      obtain ⟨⟨event, hevent, rfl⟩, howns⟩ := mem_ownedIds.mp hpolled
      have hmem : event ∈ events := (mem_of_mem_deduplicate (hchosen hevent).1).1
      exact h.waiting _ (.inr ⟨_, hpoll, mem_ownedIds.mpr ⟨⟨event, hmem, rfl⟩, howns⟩⟩)
  · rcases h.kept id hid with happlied | hqueued | ⟨poll, hpoll', hwaits⟩
    · exact .inl happlied
    · exact .inr (.inl hqueued)
    · obtain rfl := Option.some.inj (hpoll.symm.trans hpoll')
      obtain ⟨⟨event, hevent, rfl⟩, howns⟩ := mem_ownedIds.mp hwaits
      have hkept : eventIdOf feed.env event ∈ ([] : List String) ∨ ∃ event' ∈ deduplicate feed.env [] events,
          eventIdOf feed.env event' = eventIdOf feed.env event := exists_mem_deduplicate hevent
      obtain ⟨event', hevent', heq⟩ := hkept.resolve_left List.not_mem_nil
      by_cases hknown : rawEventId feed.env event' ∈ existingExecutionEventIds s.eventIds
          ((deduplicate feed.env [] events).map (rawEventId feed.env))
      · -- the event is recorded, so it was applied
        have hrecorded : rawEventId feed.env event' ∈ s.eventIds :=
          of_decide_eq_true (Bool.and_eq_true _ _ |>.mp (List.mem_filter.mp hknown).2).2
        rw [← heq, eventIdOf_eq]
        rw [← heq, eventIdOf_eq] at howns
        exact .inl (h.recorded _ hrecorded howns)
      · refine .inr (.inr ⟨_, rfl, mem_ownedIds.mpr ⟨⟨event', ?_, heq⟩, howns⟩⟩)
        exact List.mem_filter.mpr ⟨hevent', decide_eq_true hknown⟩
  · obtain rfl := Option.some.inj hpoll'
    have hnew : ∀ event ∈ (deduplicate feed.env [] events).filter (fun event => rawEventId feed.env event ∉
        existingExecutionEventIds s.eventIds ((deduplicate feed.env [] events).map (rawEventId feed.env))),
        eventIdOf feed.env event ≠ "" ∧
          (feed.owns (eventIdOf feed.env event) = true → eventIdOf feed.env event ∉ s.applied) := by
      intro event hevent
      obtain ⟨hmem, hunknown⟩ := hchosen hevent
      obtain ⟨hid, hagain⟩ := hfresh event (mem_of_mem_deduplicate hmem).1
      exact ⟨hid, fun howns happlied => hunknown (hagain howns happlied)⟩
    refine ⟨?_, hnew, fun id hid howns => ?_, fun event hevent => ⟨(hnew event hevent).1, fun howns => .inr ?_⟩⟩
    · exact (pairwise_deduplicate fun event hevent => (hfresh event hevent).1).sublist List.filter_sublist
    · have hrecorded : id ∈ s.eventIds := of_decide_eq_true (Bool.and_eq_true _ _ |>.mp (List.mem_filter.mp hid).2).2
      exact h.recorded id hrecorded howns
    · exact mem_ownedIds.mpr ⟨⟨event, hevent, rfl⟩, howns⟩

/-! ## The events are applied -/

theorem Sound.withWorld (h : Sound feed s) (world : World) (flights : List Fields) :
    Sound feed { s with world, flights } :=
  { once := h.once, right := h.right, received := h.received, waiting := h.waiting, owned := h.owned,
    kept := h.kept, queues := h.queues, recorded := h.recorded,
    poll := fun poll hpoll => (h.poll poll hpoll).congr rfl rfl }

theorem mem_ownedIds_cons {event : Fields} {events : List Fields} {id : String} :
    id ∈ feed.ownedIds (event :: events) ↔
      (id = eventIdOf feed.env event ∧ feed.owns id = true) ∨ id ∈ feed.ownedIds events := by
  rw [mem_ownedIds, mem_ownedIds, List.exists_mem_cons_iff, or_and_right]
  constructor
  · rintro (⟨rfl, howns⟩ | hrest)
    · exact .inl ⟨rfl, howns⟩
    · exact .inr hrest
  · rintro (⟨rfl, howns⟩ | hrest)
    · exact .inl ⟨rfl, howns⟩
    · exact .inr hrest

/-- **A known event is left out.** -/
theorem Sound.skip (h : Sound feed s) {batch rest : List Fields} {event : Fields} {known : List String}
    (hpoll : s.poll = some (.applying batch (event :: rest) known)) (hknown : eventIdOf feed.env event ∈ known) :
    Sound feed { s with poll := some (.applying batch rest known) } := by
  obtain ⟨hdistinct, hnew, hknowns, hbatch⟩ := h.poll _ hpoll
  -- a known event of a dispatched order was applied before the poll chose its events
  have hother : ¬ feed.owns (eventIdOf feed.env event) = true := by
    intro howns
    have hstrip : strip (eventIdOf feed.env event) = eventIdOf feed.env event := strip_strip _
    have happlied := hknowns _ hknown
    rw [hstrip] at happlied
    exact (hnew event List.mem_cons_self).2 howns (happlied howns)
  have hrest : ∀ id, id ∈ feed.ownedIds (event :: rest) → id ∈ feed.ownedIds rest := by
    intro id hid
    rcases mem_ownedIds_cons.mp hid with ⟨rfl, howns⟩ | hid
    · exact absurd howns hother
    · exact hid
  refine { once := h.once, right := h.right, received := h.received, owned := h.owned, queues := h.queues,
           recorded := h.recorded, waiting := fun id hid => ?_, kept := fun id hid => ?_,
           poll := fun poll hpoll' => ?_ }
  · rcases hid with hqueued | ⟨poll, hpoll', hpolled⟩
    · exact h.waiting id (.inl hqueued)
    · obtain rfl := Option.some.inj hpoll'
      exact h.waiting id (.inr ⟨_, hpoll, mem_ownedIds_cons.mpr (.inr hpolled)⟩)
  · rcases h.kept id hid with happlied | hqueued | ⟨poll, hpoll', hwaits⟩
    · exact .inl happlied
    · exact .inr (.inl hqueued)
    · obtain rfl := Option.some.inj (hpoll.symm.trans hpoll')
      exact .inr (.inr ⟨_, rfl, hrest id hwaits⟩)
  · obtain rfl := Option.some.inj hpoll'
    refine ⟨(List.pairwise_cons.mp hdistinct).2, fun event' hevent' => hnew event' (List.mem_cons_of_mem _ hevent'),
      hknowns, fun event' hevent' => ⟨(hbatch event' hevent').1, fun howns => ?_⟩⟩
    exact ((hbatch event' hevent').2 howns).imp_right (hrest _)

/-- **An event is applied.**  `log` has it, if it is about a dispatched order. -/
theorem Sound.apply (h : Sound feed s) {batch rest : List Fields} {event : Fields} {known : List String}
    (hpoll : s.poll = some (.applying batch (event :: rest) known)) {world : World} {log : List (String × String)}
    (hlog : feed.owns (eventIdOf feed.env event) = true →
      ∃ orderId, log = (eventIdOf feed.env event, orderId) :: s.log ∧ feed.owner (eventIdOf feed.env event) = some orderId)
    (hother : feed.owns (eventIdOf feed.env event) = false → log = s.log) :
    Sound feed { s with world, log, poll := some (.applying batch rest (eventIdOf feed.env event :: known)) } := by
  obtain ⟨hdistinct, hnew, hknowns, hbatch⟩ := h.poll _ hpoll
  obtain ⟨hfirst, hdistinct⟩ := List.pairwise_cons.mp hdistinct
  have hafter : ∀ id, id ∈ log.map Prod.fst ↔
      (id = eventIdOf feed.env event ∧ feed.owns id = true) ∨ id ∈ s.applied := by
    intro id
    cases howns : feed.owns (eventIdOf feed.env event) with
    | true =>
      obtain ⟨orderId, rfl, -⟩ := hlog howns
      rw [List.map_cons, List.mem_cons, State.applied]
      exact or_congr_left ⟨fun heq => ⟨heq, heq ▸ howns⟩, And.left⟩
    | false =>
      rw [hother howns, State.applied]
      refine ⟨.inr, fun hid => hid.resolve_left ?_⟩
      rintro ⟨rfl, howns'⟩
      exact Bool.false_ne_true (howns.symm.trans howns')
  refine { once := ?_, right := fun entry hentry => ?_, received := fun id hid => ?_, waiting := fun id hid => ?_,
           owned := h.owned, kept := fun id hid => ?_, queues := h.queues,
           recorded := fun id hid howns => (hafter _).mpr (.inr (h.recorded id hid howns)),
           poll := fun poll hpoll' => ?_ }
  · cases howns : feed.owns (eventIdOf feed.env event) with
    | true =>
      obtain ⟨orderId, rfl, -⟩ := hlog howns
      exact List.nodup_cons.mpr ⟨(hnew event List.mem_cons_self).2 howns, h.once⟩
    | false =>
      obtain rfl := hother howns
      exact h.once
  · cases howns : feed.owns (eventIdOf feed.env event) with
    | true =>
      obtain ⟨orderId, rfl, howner⟩ := hlog howns
      rcases List.mem_cons.mp hentry with rfl | hentry
      · exact howner
      · exact h.right entry hentry
    | false =>
      obtain rfl := hother howns
      exact h.right entry hentry
  · rcases (hafter id).mp hid with ⟨rfl, howns⟩ | hid
    · exact h.waiting _ (.inr ⟨_, hpoll, mem_ownedIds_cons.mpr (.inl ⟨rfl, howns⟩)⟩)
    · exact h.received id hid
  · rcases hid with hqueued | ⟨poll, hpoll', hpolled⟩
    · exact h.waiting id (.inl hqueued)
    · obtain rfl := Option.some.inj hpoll'
      exact h.waiting id (.inr ⟨_, hpoll, mem_ownedIds_cons.mpr (.inr hpolled)⟩)
  · rcases h.kept id hid with happlied | hqueued | ⟨poll, hpoll', hwaits⟩
    · exact .inl ((hafter id).mpr (.inr happlied))
    · exact .inr (.inl hqueued)
    · obtain rfl := Option.some.inj (hpoll.symm.trans hpoll')
      rcases mem_ownedIds_cons.mp hwaits with happlied | hwaits
      · exact .inl ((hafter id).mpr (.inl happlied))
      · exact .inr (.inr ⟨_, rfl, hwaits⟩)
  · obtain rfl := Option.some.inj hpoll'
    refine ⟨hdistinct, fun event' hevent' => ?_, fun id hid howns => (hafter _).mpr ?_, fun event' hevent' => ?_⟩
    · obtain ⟨hid, hnotApplied⟩ := hnew event' (List.mem_cons_of_mem _ hevent')
      refine ⟨hid, fun howns happlied => ?_⟩
      rcases (hafter _).mp happlied with ⟨heq, -⟩ | happlied
      · exact hfirst event' hevent' heq.symm
      · exact hnotApplied howns happlied
    · rcases List.mem_cons.mp hid with rfl | hid
      · have hstrip : strip (eventIdOf feed.env event) = eventIdOf feed.env event := strip_strip _
        exact .inl ⟨hstrip, howns⟩
      · exact .inr (hknowns id hid howns)
    · obtain ⟨hid, hwaited⟩ := hbatch event' hevent'
      refine ⟨hid, fun howns => ?_⟩
      rcases hwaited howns with happlied | hwaits
      · exact .inl ((hafter _).mpr (.inr happlied))
      · rcases mem_ownedIds_cons.mp hwaits with happlied | hwaits
        · exact .inl ((hafter _).mpr (.inl happlied))
        · exact .inr hwaits

/-- **The next event.** -/
theorem Sound.applyNext (h : Sound feed s) {batch rest : List Fields} {event : Fields} {known : List String}
    (hpoll : s.poll = some (.applying batch (event :: rest) known)) (hmeets : Meets feed s .applyNext) :
    Sound feed (s.applyNext feed batch event rest known) := by
  have hid : eventIdOf feed.env event ≠ "" := ((h.poll _ hpoll).2.1 event List.mem_cons_self).1
  rw [State.applyNext]
  split
  · next hskip => exact h.skip hpoll (hskip.resolve_left hid)
  · next hnew =>
    obtain ⟨hlisted, hraises⟩ := hmeets batch event rest known hpoll fun hknown => hnew (.inr hknown)
    split
    · next world e happly =>
      refine (h.withWorld world s.flights).giveUp fun poll hpoll' => ?_
      obtain rfl := Option.some.inj (hpoll.symm.trans hpoll')
      exact hraises world e happly
    · refine h.apply hpoll (fun howns => ?_) fun hother => ?_
      · obtain ⟨i, htarget, howner⟩ := hlisted howns
        refine ⟨_, ?_, howner⟩
        simp only [htarget, if_pos howns]
      · simp only [hother, Bool.false_eq_true, if_false]
        split <;> rfl

/-! ## The end of a poll, and a restart -/

theorem recordedId_eq {env : Env} {event : Fields} {now id : String} (hid : eventIdOf env event ≠ "")
    (h : recordedId env event now = some id) : id = rawEventId env event := by
  have htruthy : (event.at "event_id").truthy = true := by
    by_contra hfalsy
    refine hid ?_
    rw [eventIdOf, Env.text, Json.orElse, if_neg hfalsy]
    rfl
  simp only [recordedId, Json.orElse, if_pos htruthy] at h
  exact (Option.some.inj (Option.ite_none_left_eq_some.mp h).2).symm

/-- **The events are recorded.** -/
theorem Sound.record (h : Sound feed s) {batch : List Fields} {known : List String}
    (hpoll : s.poll = some (.applying batch [] known)) (now : String) : Sound feed (s.record feed batch now) := by
  have hend : Sound feed { s with poll := none } := h.giveUp fun poll hpoll' => by
    obtain rfl := Option.some.inj (hpoll.symm.trans hpoll')
    rfl
  refine { hend with recorded := fun id hid howns => ?_,
                     poll := fun _ hpoll' => absurd hpoll' (by simp only [State.record, reduceCtorEq, not_false_eq_true]) }
  rcases List.mem_append.mp hid with hid | hid
  · obtain ⟨event, hevent, hrecorded⟩ := List.mem_filterMap.mp hid
    obtain ⟨hne, hbatch⟩ := (h.poll _ hpoll).2.2.2 event hevent
    obtain rfl := recordedId_eq hne hrecorded
    exact (hbatch howns).resolve_right List.not_mem_nil
  · exact h.recorded id hid howns

/-- **A restart before the first event.** -/
theorem Sound.restart (h : Sound feed s) (hreceived : s.received = []) (orders : List Fields) :
    Sound feed { s with world := { orders }, flights := [], queues := fun _ => [], poll := none, log := [] } := by
  have hnone : ∀ id, id ∉ s.applied := fun id hid => List.not_mem_nil (hreceived ▸ h.received id hid)
  refine { once := .nil, right := fun _ hentry => absurd hentry List.not_mem_nil,
           received := fun _ hid => absurd hid List.not_mem_nil, waiting := fun id hid => ?_, owned := h.owned,
           kept := fun id hid => absurd (hreceived ▸ hid) List.not_mem_nil,
           queues := fun _ _ hrow => absurd hrow List.not_mem_nil,
           recorded := fun id hid howns => absurd (h.recorded id hid howns) (hnone _),
           poll := fun _ hpoll => absurd hpoll (by simp only [reduceCtorEq, not_false_eq_true]) }
  rcases hid with ⟨brokerId, hqueued⟩ | ⟨poll, hpoll, -⟩
  · exact absurd hqueued List.not_mem_nil
  · exact absurd hpoll (by simp only [reduceCtorEq, not_false_eq_true])

/-! ## Runs -/

theorem Sound.step {s' : State} {label : Label} (h : Sound feed s) (hmeets : Meets feed s label)
    (hstep : step feed s label = some s') : Sound feed s' := by
  cases label with
  | submit order =>
    obtain rfl := Option.some.inj hstep
    exact h.withWorld s.world _
  | manage managed ambiguous =>
    obtain rfl := Option.some.inj hstep
    exact h.withWorld _ s.flights
  | publish flight =>
    obtain ⟨order, -, rfl⟩ := Option.map_eq_some_iff.mp hstep
    exact h.withWorld _ _
  | deliver brokerId row =>
    obtain rfl := Option.some.inj hstep
    exact h.deliver hmeets
  | drain brokerIds =>
    obtain ⟨hidle, heq⟩ := Option.ite_none_right_eq_some.mp hstep
    obtain rfl := Option.some.inj heq
    exact h.drain (Option.isNone_iff_eq_none.mp hidle) hmeets
  | collect brokerId rows =>
    simp only [ExecutionFeed.step] at hstep
    split at hstep
    · next events hpoll =>
      obtain rfl := Option.some.inj hstep
      exact h.collect hpoll hmeets
    · exact absurd hstep (by simp only [reduceCtorEq, not_false_eq_true])
  | select =>
    simp only [ExecutionFeed.step] at hstep
    split at hstep
    · next events hpoll =>
      obtain rfl := Option.some.inj hstep
      exact h.select hpoll
    · exact absurd hstep (by simp only [reduceCtorEq, not_false_eq_true])
  | applyNext =>
    simp only [ExecutionFeed.step] at hstep
    split at hstep
    · next batch event rest known hpoll =>
      obtain rfl := Option.some.inj hstep
      exact h.applyNext hpoll hmeets
    · exact absurd hstep (by simp only [reduceCtorEq, not_false_eq_true])
  | record now =>
    simp only [ExecutionFeed.step] at hstep
    split at hstep
    · next batch known hpoll =>
      obtain rfl := Option.some.inj hstep
      exact h.record hpoll now
    · exact absurd hstep (by simp only [reduceCtorEq, not_false_eq_true])
  | fail =>
    obtain ⟨-, heq⟩ := Option.ite_none_right_eq_some.mp hstep
    obtain rfl := Option.some.inj heq
    exact h.giveUp hmeets
  | restart orders =>
    obtain rfl := Option.some.inj hstep
    exact h.restart hmeets orders

theorem sound_empty : Sound feed {} := by
  refine { once := .nil, right := fun _ hentry => absurd hentry List.not_mem_nil,
           received := fun _ hid => absurd hid List.not_mem_nil, waiting := fun id hid => ?_,
           owned := fun _ hid => absurd hid List.not_mem_nil, kept := fun _ hid => absurd hid List.not_mem_nil,
           queues := fun _ _ hrow => absurd hrow List.not_mem_nil,
           recorded := fun _ hid => absurd hid List.not_mem_nil,
           poll := fun _ hpoll => absurd hpoll (by simp only [reduceCtorEq, not_false_eq_true]) }
  rcases hid with ⟨brokerId, hqueued⟩ | ⟨poll, hpoll, -⟩
  · exact absurd hqueued List.not_mem_nil
  · exact absurd hpoll (by simp only [reduceCtorEq, not_false_eq_true])

theorem Sound.appliedOnce (h : Sound feed s) : AppliedOnce feed s := by
  refine ⟨h.once, h.right, h.kept, fun hidle hempty id hid => (h.kept id hid).resolve_right ?_⟩
  rintro (⟨brokerId, hqueued⟩ | ⟨poll, hpoll, -⟩)
  · rw [hempty brokerId] at hqueued
    exact absurd hqueued List.not_mem_nil
  · exact absurd (hpoll.symm.trans hidle) (by simp only [reduceCtorEq, not_false_eq_true])

/-- **No event is lost or applied twice.** -/
theorem applied_of_run (feed : Feed) {labels : List Label} (h : Run (step feed) (Meets feed) {} labels s) :
    AppliedOnce feed s :=
  (h.invariant (P := Sound feed) (fun hmeets hstep hsound => hsound.step hmeets hstep) sound_empty).appliedOnce

/-! ## Two runs -/

/-- The event with id "1" is about the order "o". -/
def Feed.sample : Feed where
  env := .sample
  oms := .sample
  normalize _ row := some row
  owner id := if id = "1" then some "o" else none

/-- The submission of the order "o". -/
def sampleOrder : Label :=
  .submit [("order_id", .str "o"), ("oms_order_id", .str "m"), ("broker_order_id", .str "b"), ("state", .str "acknowledged")]

/-- A fill of one unit. -/
def sampleFill : Fields := LiveOrders.sampleEvent "1" "partially_filled" 1

/-- A poll with one event of the stream. -/
def samplePoll : List Label := [.drain ["binance"], .select, .applyNext, .record "10:00:00"]

/-- What is asked of the steps of a sample, evaluated. -/
def sampleMeets (s : State) : Label → Bool
  | .deliver brokerId _ => (s.queues brokerId).length < 1000
  | .drain brokerIds => brokerIds.all fun brokerId => (drainRows .sample brokerId (s.queues brokerId)).all fun event =>
      eventIdOf .sample event ≠ "" && eventIdOf .sample event ∉ s.applied
  | .collect _ _ | .fail | .restart _ => false
  | .applyNext =>
    match s.poll with
    | some (.applying _ (event :: _) _) =>
      s.world.target .sample event = some 0 && Env.sample.text ((s.world.order 0).at "order_id") = "o" &&
        eventIdOf .sample event = "1" && (applyEvent .sample .sample s.world event).2.toBool
    | _ => true
  | _ => true

theorem meets_of_sampleMeets {label : Label} (h : sampleMeets s label = true) : Meets .sample s label := by
  cases label with
  | deliver brokerId row =>
    have hshort : (s.queues brokerId).length < 1000 := of_decide_eq_true h
    refine ⟨rfl, fun old hold => ?_⟩
    have hnone : (s.queues brokerId ++ [row]).length - 1000 = 0 := by
      rw [List.length_append, List.length_singleton]
      omega
    rw [hnone] at hold
    exact absurd hold List.not_mem_nil
  | drain brokerIds =>
    intro brokerId hbroker event hevent
    have hnew := List.all_eq_true.mp (List.all_eq_true.mp h brokerId hbroker) event hevent
    obtain ⟨hid, happlied⟩ := Bool.and_eq_true _ _ |>.mp hnew
    exact ⟨of_decide_eq_true hid, fun _ hagain => absurd hagain (of_decide_eq_true happlied)⟩
  | collect brokerId rows => exact absurd h Bool.false_ne_true
  | fail => exact absurd h Bool.false_ne_true
  | restart orders => exact absurd h Bool.false_ne_true
  | applyNext =>
    intro batch event rest known hpoll _
    simp only [sampleMeets, hpoll, Bool.and_eq_true, decide_eq_true_eq] at h
    obtain ⟨⟨⟨htarget, horder⟩, hid⟩, hok⟩ := h
    refine ⟨fun _ => ⟨0, htarget, ?_⟩, fun world e happly => ?_⟩
    · show Feed.sample.owner (eventIdOf .sample event) = some (Env.sample.text ((s.world.order 0).at "order_id"))
      rw [hid, horder]
      rfl
    · have happly : applyEvent .sample .sample s.world event = (world, .error e) := happly
      rw [happly] at hok
      exact absurd hok Bool.false_ne_true
  | _ => trivial

/-- A fill of an order on the list. -/
theorem applied_of_run_sample : ∃ s, Run (step .sample) (fun s label => sampleMeets s label = true) {}
      ([sampleOrder, .publish 0, .deliver "binance" sampleFill] ++ samplePoll) s ∧
    (s.log = [("1", "o")] ∧ s.eventIds = ["1"]) ∧ AppliedOnce .sample s := by
  obtain ⟨s, hs, happlied⟩ : ∃ s, runAll (fun s label => if sampleMeets s label then step .sample s label else none) {}
        ([sampleOrder, .publish 0, .deliver "binance" sampleFill] ++ samplePoll) = some s ∧
      s.log = [("1", "o")] ∧ s.eventIds = ["1"] := by
    decide
  have hrun := run_of_guarded hs
  exact ⟨s, hrun, happlied, applied_of_run .sample (hrun.weaken fun _ _ h => meets_of_sampleMeets h)⟩

/-- A queue that gets no row stays empty. -/
theorem queues_step {s' : State} {label : Label} {brokerId : String} (hother : ∀ row, label ≠ .deliver brokerId row)
    (hstep : step feed s label = some s') (h : s.queues brokerId = []) : s'.queues brokerId = [] := by
  cases label with
  | submit order =>
    obtain rfl := Option.some.inj hstep
    exact h
  | manage managed ambiguous =>
    obtain rfl := Option.some.inj hstep
    exact h
  | publish flight =>
    obtain ⟨order, -, rfl⟩ := Option.map_eq_some_iff.mp hstep
    exact h
  | deliver brokerId' row =>
    obtain rfl := Option.some.inj hstep
    have hne : brokerId ≠ brokerId' := fun heq => hother row (heq ▸ rfl)
    simp only [State.deliver, Function.update_of_ne hne]
    exact h
  | drain brokerIds =>
    obtain ⟨-, heq⟩ := Option.ite_none_right_eq_some.mp hstep
    obtain rfl := Option.some.inj heq
    simp only [State.drain]
    split
    · rfl
    · exact h
  | collect brokerId' rows =>
    simp only [step] at hstep
    split at hstep
    · obtain rfl := Option.some.inj hstep
      rw [State.collect]
      split <;> exact h
    · exact absurd hstep (by simp only [reduceCtorEq, not_false_eq_true])
  | select =>
    simp only [step] at hstep
    split at hstep
    · obtain rfl := Option.some.inj hstep
      exact h
    · exact absurd hstep (by simp only [reduceCtorEq, not_false_eq_true])
  | applyNext =>
    simp only [step] at hstep
    split at hstep
    · obtain rfl := Option.some.inj hstep
      rw [State.applyNext]
      split
      · exact h
      · split <;> exact h
    · exact absurd hstep (by simp only [reduceCtorEq, not_false_eq_true])
  | record now =>
    simp only [step] at hstep
    split at hstep
    · obtain rfl := Option.some.inj hstep
      exact h
    · exact absurd hstep (by simp only [reduceCtorEq, not_false_eq_true])
  | fail =>
    obtain ⟨-, heq⟩ := Option.ite_none_right_eq_some.mp hstep
    obtain rfl := Option.some.inj heq
    exact h
  | restart orders =>
    obtain rfl := Option.some.inj hstep
    rfl

/-- A poll whose snapshot has the fill. -/
def samplePollFill : List Label := [.drain ["binance"], .collect "binance" [sampleFill], .select]

/-- The snapshot has the fill before its order is on the list, and the next one has it again. -/
def sampleLost : List Label :=
  sampleOrder :: (samplePollFill ++ [.applyNext, .record "10:00:00", .publish 0] ++ samplePollFill ++ [.record "10:00:01"])

/-- **A fill that comes before its order is on the list.**  The poll records it, and the next one leaves
it out. -/
theorem sample_event_lost : ∃ s, Run (step .sample) Free {} sampleLost s ∧
    (s.received = ["1", "1"] ∧ s.log = [] ∧ s.eventIds = ["1"]) ∧ ¬ AppliedOnce .sample s := by
  obtain ⟨s, hs, hreceived, hlog, heventIds, hidle⟩ : ∃ s, runAll (step .sample) {} sampleLost = some s ∧
      s.received = ["1", "1"] ∧ s.log = [] ∧ s.eventIds = ["1"] ∧ s.poll.isNone = true := by
    decide
  have hrun := free_of_runAll hs
  have hempty : ∀ brokerId, s.queues brokerId = [] := by
    intro brokerId
    have hothers : Run (step .sample) (fun _ label => ∀ row, label ≠ .deliver brokerId row) {} sampleLost s := by
      refine run_weaken_mem hrun fun label hlabel s row heq => ?_
      subst heq
      simp only [sampleLost, samplePollFill, sampleOrder, List.cons_append, List.nil_append, List.mem_cons,
        List.not_mem_nil, reduceCtorEq, or_false] at hlabel
    exact hothers.invariant (P := fun s => s.queues brokerId = [])
      (fun hother hstep h => queues_step hother hstep h) rfl
  refine ⟨s, hrun, ⟨hreceived, hlog, heventIds⟩, fun happlied => ?_⟩
  have hmem := happlied.settled (Option.isNone_iff_eq_none.mp hidle) hempty "1" (hreceived ▸ List.mem_cons_self)
  rw [State.applied, hlog] at hmem
  exact absurd hmem List.not_mem_nil

end LiveTrader.ExecutionFeed
