import ResourceIndex.EventBus

/-!
# What waits for a subscriber

A subscription that keeps its handle starts with nothing, and receives every event that is put on the bus from then on,
once and in order, whatever else is subscribed.
-/

namespace ResourceIndex.EventBus

variable {ε : Type} {b : EventBus ε} {handle : Nat} {events : List ε}

/-- These events, and no others, wait for the handle, and those to come will be put behind them. -/
def Holds (b : EventBus ε) (handle : Nat) (events : List ε) : Prop :=
  ∃ queue, b.queueOf? handle = some queue ∧ b.queues[queue]? = some ⟨events, true⟩

theorem isHeard_of_queueOf? {queue : Nat} (h : b.queueOf? handle = some queue) : b.isHeard queue = true := by
  rw [queueOf?, Option.join_eq_some_iff] at h
  simpa [isHeard] using List.mem_of_getElem? h

theorem holds_subscribe (b : EventBus ε) : b.subscribe.2.Holds b.subscribe.1 [] :=
  ⟨b.queues.length, by simp [subscribe, queueOf?], by simp [subscribe]⟩

theorem Holds.emit (h : b.Holds handle events) (e : ε) : (b.emit e).2.Holds handle (events ++ [e]) := by
  obtain ⟨queue, hqueue, hevents⟩ := h
  refine ⟨queue, hqueue, ?_⟩
  simp [EventBus.emit, List.getElem?_mapIdx, hevents, isHeard_of_queueOf? hqueue]

theorem Holds.emitAll (h : b.Holds handle events) (more : List ε) :
    (b.emitAll more).Holds handle (events ++ more) := by
  rw [EventBus.emitAll]
  induction more generalizing b events with
  | nil => simpa using h
  | cons e more ih => simpa using ih (h.emit e)

theorem Holds.drain? (h : b.Holds handle events) : ∃ drained, b.drain? handle = some (events, drained) := by
  obtain ⟨queue, hqueue, hevents⟩ := h
  exact ⟨b.setPending queue [], by simp [EventBus.drain?, hqueue, pending, hevents]⟩

end ResourceIndex.EventBus
