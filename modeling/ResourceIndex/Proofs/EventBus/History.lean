import ResourceIndex.Proofs.EventBus.Run

/-!
# The history of a bus

The steps of a run and their answers, without the bus, tell which events were put on the bus since a subscription was
made, and which were taken through its handles. A bus loses nothing, repeats nothing and keeps the order: what was taken
and what still waits are together what was put on it, for every subscription that someone can still read, however the
steps of all subscribers are mixed.
-/

namespace ResourceIndex.EventBus

variable {ε : Type}

/-- The events put on the bus since a subscription was made, and the events taken through its handles, in order. -/
structure Subscription (ε : Type) where
  emitted : List ε := []
  taken : List ε := []

/-- What steps and answers tell: the subscriptions, for every handle the subscription that it reads until it is dropped,
and whether the bus is there. -/
structure History (ε : Type) where
  subscriptions : List (Subscription ε) := []
  readers : List (Option Nat) := []
  isOpen : Bool := true

namespace History

/-- The subscription that a handle reads; a dropped handle reads none. -/
def subscriptionOf? (h : History ε) (handle : Nat) : Option Nat :=
  h.readers[handle]?.join

/-- Some handle still reads the subscription. -/
def isLive (h : History ε) (k : Nat) : Bool :=
  h.readers.contains (some k)

/-- The number of subscriptions that someone can still read. -/
def liveCount (h : History ε) : Nat :=
  (List.range h.subscriptions.length).countP h.isLive

/-- Enters events that were taken through a handle. -/
def take (h : History ε) (handle : Nat) (events : List ε) : History ε :=
  match h.subscriptionOf? handle with
  | none => h
  | some k => { h with subscriptions := h.subscriptions.modify k fun s => { s with taken := s.taken ++ events } }

/-- Enters a step with its answer. -/
def record (h : History ε) : Step ε × Answer ε → History ε
  | (.subscribe, _) =>
    { h with subscriptions := h.subscriptions ++ [{}], readers := h.readers ++ [some h.subscriptions.length] }
  | (.copy handle, _) => { h with readers := h.readers ++ [h.subscriptionOf? handle] }
  | (.drop handle, _) => { h with readers := h.readers.set handle none }
  | (.emit e, _) => { h with subscriptions := h.subscriptions.map fun s => { s with emitted := s.emitted ++ [e] } }
  | (.tryReceive handle, .received e) | (.receive handle, .received e) => h.take handle [e]
  | (.drain handle, .drained events) => h.take handle events
  | (.close, _) => { h with isOpen := false }
  | _ => h

def ofTrace (trace : List (Step ε × Answer ε)) : History ε :=
  trace.foldl record {}

/-- The events of the handle's subscription that are still to be taken. -/
def Awaits (h : History ε) (handle : Nat) (events : List ε) : Prop :=
  ∃ k s, h.subscriptionOf? handle = some k ∧ h.subscriptions[k]? = some s ∧ s.emitted = s.taken ++ events

/-- The step can be taken: what it needs is there, and a step that waits has something to give. -/
def Permits (h : History ε) : Step ε → Prop
  | .subscribe | .emit _ | .close => h.isOpen
  | .copy handle | .drop handle | .tryReceive handle | .drain handle => (h.subscriptionOf? handle).isSome
  | .receive handle => ∃ events, h.Awaits handle events ∧ (events = [] → h.isOpen = false)

/-- What a handle may be given: the next event, or the reason why there is none. -/
def AllowsReceived (h : History ε) (handle : Nat) : Answer ε → Prop
  | .received e => ∃ rest, h.Awaits handle (e :: rest)
  | .refused .empty => h.Awaits handle [] ∧ h.isOpen
  | .refused .disconnected => h.Awaits handle [] ∧ h.isOpen = false
  | _ => False

/-- The answers to a step that lose, repeat and reorder nothing. -/
def Allows (h : History ε) : Step ε → Answer ε → Prop
  | .subscribe, .made handle | .copy _, .made handle => handle = h.readers.length
  | .emit _, .delivered count => count = h.liveCount
  | .tryReceive handle, answer => h.AllowsReceived handle answer
  | .receive handle, answer => h.AllowsReceived handle answer ∧ ∀ fault, answer = .refused fault → fault = .disconnected
  | .drain handle, .drained events => h.Awaits handle events
  | .drop _, .done | .close, .done => True
  | _, _ => False

/-- The step is about the subscription: it is taken with one of its handles, or it puts an event on the bus. -/
def Concerns (h : History ε) (k : Nat) : Step ε → Prop
  | .emit _ => True
  | .copy handle | .drop handle | .tryReceive handle | .receive handle | .drain handle =>
    h.subscriptionOf? handle = some k
  | .subscribe | .close => False

/-- A bus is as the history tells: every handle reads its subscription, and what waits for a subscription that someone
can read is what was not taken yet. -/
structure Describes (h : History ε) (b : EventBus ε) : Prop where
  isOpen : b.isOpen = h.isOpen
  queueOf? : ∀ handle, b.queueOf? handle = h.subscriptionOf? handle
  lossless : ∀ k s, h.subscriptions[k]? = some s → h.isLive k → s.taken ++ b.pending k = s.emitted

/-- A step is taken as the history allows: the answer is right, the number of subscriptions is the one told, and nothing
happens to a subscription that the step is not about. -/
structure Explains (h : History ε) (b : EventBus ε) (step : Step ε) (answer : Answer ε) (after : EventBus ε) :
    Prop where
  permits : h.Permits step
  allows : h.Allows step answer
  subscriberCount : ∀ count, answer = .delivered count → after.subscriberCount = count
  frame : ∀ k, ¬h.Concerns k step → after.pending k = b.pending k

end History

theorem History.Awaits.unique {h : History ε} {handle : Nat} {events others : List ε} (hevents : h.Awaits handle events)
    (hothers : h.Awaits handle others) : events = others := by
  obtain ⟨k, s, hk, hs, hall⟩ := hevents
  obtain ⟨l, t, hl, ht, hall'⟩ := hothers
  obtain rfl : k = l := Option.some.inj (hk.symm.trans hl)
  obtain rfl : s = t := Option.some.inj (hs.symm.trans ht)
  exact List.append_cancel_left (hall.symm.trans hall')

/-! ### What a run keeps -/

/-- The subscription is on the bus, and what waits for it is what was not taken yet. -/
def TracksAt (h : History ε) (b : EventBus ε) (k : Nat) : Prop :=
  ∃ s pending, h.subscriptions[k]? = some s ∧ b.queues[k]? = some ⟨pending, true⟩ ∧ s.taken ++ pending = s.emitted

/-- The bus is as the history tells, and so is every subscription that someone can read. -/
structure Tracks (h : History ε) (b : EventBus ε) : Prop where
  isOpen : b.isOpen = h.isOpen
  handles : b.handles = h.readers
  length : b.queues.length = h.subscriptions.length
  waiting : ∀ k, h.isLive k → TracksAt h b k

theorem tracks_empty : Tracks ({} : History ε) {} where
  isOpen := rfl
  handles := rfl
  length := rfl
  waiting k hk := by contradiction

namespace Tracks

variable {h : History ε} {b : EventBus ε} {handle k : Nat}

theorem queueOf? (hb : Tracks h b) (handle : Nat) : b.queueOf? handle = h.subscriptionOf? handle := by
  rw [EventBus.queueOf?, hb.handles, History.subscriptionOf?]

theorem isHeard (hb : Tracks h b) (k : Nat) : b.isHeard k = h.isLive k := by
  rw [EventBus.isHeard, hb.handles, History.isLive]

theorem isLive_of_subscriptionOf? (hk : h.subscriptionOf? handle = some k) : h.isLive k := by
  rw [History.subscriptionOf?, Option.join_eq_some_iff] at hk
  simpa [History.isLive] using List.mem_of_getElem? hk

theorem lt_length (hb : Tracks h b) (hk : h.isLive k) : k < b.queues.length := by
  obtain ⟨s, pending, -, hqueue, -⟩ := hb.waiting k hk
  exact (List.getElem?_eq_some_iff.mp hqueue).1

theorem describes (hb : Tracks h b) : h.Describes b where
  isOpen := hb.isOpen
  queueOf? := hb.queueOf?
  lossless k s hs hk := by
    obtain ⟨t, pending, ht, hqueue, hall⟩ := hb.waiting k hk
    obtain rfl : s = t := Option.some.inj (hs.symm.trans ht)
    simpa [EventBus.pending, hqueue] using hall

/-- What a handle finds waiting is what its subscription awaits. -/
theorem awaits (hb : Tracks h b) (hk : h.subscriptionOf? handle = some k) : h.Awaits handle (b.pending k) := by
  obtain ⟨s, pending, hs, hqueue, hall⟩ := hb.waiting k (isLive_of_subscriptionOf? hk)
  exact ⟨k, s, hk, hs, by simpa [EventBus.pending, hqueue] using hall.symm⟩

/-! ### One step more -/

theorem subscribe (hb : Tracks h b) (answer : Answer ε) : Tracks (h.record (.subscribe, answer)) b.subscribe.2 where
  isOpen := hb.isOpen
  handles := by simp [EventBus.subscribe, History.record, hb.handles, hb.length]
  length := by simp [EventBus.subscribe, History.record, hb.length]
  waiting k hk := by
    have hcases : h.isLive k ∨ k = h.subscriptions.length := by
      simpa [History.isLive, History.record] using hk
    rcases hcases with hold | rfl
    · obtain ⟨s, pending, hs, hqueue, hall⟩ := hb.waiting k hold
      have hlt := hb.lt_length hold
      exact ⟨s, pending, (List.getElem?_append_left (hb.length ▸ hlt)).trans hs,
        (List.getElem?_append_left hlt).trans hqueue, hall⟩
    · exact ⟨{}, [], by simp [History.record], by simp [EventBus.subscribe, ← hb.length], rfl⟩

/-- Whoever reads a copy could read the subscription before. -/
theorem copy (hb : Tracks h b) (hk : h.subscriptionOf? handle = some k) (answer : Answer ε) :
    Tracks (h.record (.copy handle, answer)) { b with handles := b.handles ++ [some k] } where
  isOpen := hb.isOpen
  handles := by simp [History.record, hk, hb.handles]
  length := hb.length
  waiting other hother := by
    have hcases : h.isLive other ∨ other = k := by
      simpa [History.isLive, History.record, hk] using hother
    rcases hcases with hold | rfl
    · exact hb.waiting other hold
    · exact hb.waiting other (isLive_of_subscriptionOf? hk)

theorem drop (hb : Tracks h b) (handle : Nat) (answer : Answer ε) :
    Tracks (h.record (.drop handle, answer)) (b.drop handle) where
  isOpen := hb.isOpen
  handles := by simp [EventBus.drop, History.record, hb.handles]
  length := hb.length
  waiting k hk := by
    have hmem : some k ∈ h.readers.set handle none := by
      simpa [History.isLive, History.record] using hk
    have hold : some k ∈ h.readers := (List.mem_or_eq_of_mem_set hmem).resolve_right (by simp)
    exact hb.waiting k (by simpa [History.isLive] using hold)

theorem emit (hb : Tracks h b) (e : ε) (answer : Answer ε) :
    Tracks (h.record (.emit e, answer)) (b.emit e).2 where
  isOpen := hb.isOpen
  handles := hb.handles
  length := by simp [EventBus.emit, History.record, hb.length]
  waiting k hk := by
    have hlive : h.isLive k := hk
    obtain ⟨s, pending, hs, hqueue, hall⟩ := hb.waiting k hlive
    refine ⟨{ s with emitted := s.emitted ++ [e] }, pending ++ [e], by simp [History.record, hs], ?_, ?_⟩
    · simp [EventBus.emit, List.getElem?_mapIdx, hqueue, hb.isHeard, hlive]
    · rw [← List.append_assoc, hall]

/-- The first events that wait for a handle are taken. -/
theorem take (hb : Tracks h b) (hk : h.subscriptionOf? handle = some k) {events rest : List ε}
    (hpending : b.pending k = events ++ rest) : Tracks (h.take handle events) (b.setPending k rest) := by
  rw [History.take, hk]
  refine ⟨hb.isOpen, hb.handles, by simp [setPending, hb.length], fun other hother => ?_⟩
  obtain ⟨s, pending, hs, hqueue, hall⟩ := hb.waiting other hother
  by_cases heq : k = other
  · subst heq
    obtain rfl : pending = events ++ rest := by simpa [EventBus.pending, hqueue] using hpending
    refine ⟨{ s with taken := s.taken ++ events }, rest, by simp [hs], by simp [setPending, hqueue], ?_⟩
    rw [List.append_assoc, hall]
  · exact ⟨s, pending, by simp [heq, hs], by simp [setPending, heq, hqueue], hall⟩

theorem close (hb : Tracks h b) (answer : Answer ε) : Tracks (h.record (.close, answer)) b.close where
  isOpen := rfl
  handles := hb.handles
  length := hb.length
  waiting := hb.waiting

/-- An event reaches exactly the subscriptions that someone can read. -/
theorem subscriberCount_emit (hb : Tracks h b) (e : ε) : (b.emit e).2.subscriberCount = h.liveCount := by
  have hattached : (b.emit e).2.queues.map (·.isAttached) = (List.range h.subscriptions.length).map h.isLive := by
    refine List.ext_getElem (by simp [EventBus.emit, hb.length]) fun k hk _ => ?_
    have hlt : k < b.queues.length := by simpa [EventBus.emit] using hk
    have hqueue : h.isLive k → b.queues[k].isAttached := by
      intro hlive
      obtain ⟨s, pending, -, hqueue, -⟩ := hb.waiting k hlive
      rw [(List.getElem?_eq_some_iff.mp hqueue).2]
    simp only [EventBus.emit, List.getElem_map, List.getElem_mapIdx, List.getElem_range, hb.isHeard]
    cases hlive : h.isLive k with
    | false => simp
    | true => simp [hqueue hlive]
  have hcount := congrArg (List.countP id) hattached
  rwa [List.countP_map, List.countP_map] at hcount

/-! ### Every step -/

section Receive

variable {received : Except ReceiveFault ε} {after : EventBus ε}

theorem exists_receive? (hb : Tracks h b) (hk : h.subscriptionOf? handle = some k) :
    ∃ received after, b.receive? handle = some (received, after) := by
  obtain ⟨-, hanswer⟩ | ⟨e, rest, -, hanswer⟩ := receive?_cases ((hb.queueOf? handle).trans hk)
  · exact ⟨_, _, hanswer⟩
  · exact ⟨_, _, hanswer⟩

theorem receive?_explained (hb : Tracks h b) (hreceive : b.receive? handle = some (received, after)) :
    ∃ k, h.subscriptionOf? handle = some k ∧ h.AllowsReceived handle (.ofReceived received) ∧
      (∀ other, k ≠ other → after.pending other = b.pending other) ∧
      Tracks (h.record (.tryReceive handle, .ofReceived received)) after := by
  cases hqueue : b.queueOf? handle with
  | none => rw [receive?_of_none hqueue] at hreceive; contradiction
  | some k =>
    have hk : h.subscriptionOf? handle = some k := (hb.queueOf? handle).symm.trans hqueue
    have hawaits := hb.awaits hk
    refine ⟨k, hk, ?_⟩
    obtain ⟨hnone, hanswer⟩ | ⟨e, rest, hsome, hanswer⟩ := receive?_cases hqueue
    · obtain ⟨rfl, rfl⟩ := Prod.mk.inj (Option.some.inj (hreceive.symm.trans hanswer))
      rw [hnone] at hawaits
      cases hopen : after.isOpen with
      | true => exact ⟨⟨hawaits, hb.isOpen ▸ hopen⟩, fun _ _ => rfl, hb⟩
      | false => exact ⟨⟨hawaits, hb.isOpen ▸ hopen⟩, fun _ _ => rfl, hb⟩
    · obtain ⟨rfl, rfl⟩ := Prod.mk.inj (Option.some.inj (hreceive.symm.trans hanswer))
      rw [hsome] at hawaits
      exact ⟨⟨rest, hawaits⟩, fun other hne => b.pending_setPending_of_ne hne rest, hb.take hk hsome⟩

theorem tryReceive_explained (hb : Tracks h b) (hreceive : b.receive? handle = some (received, after)) :
    h.Explains b (.tryReceive handle) (.ofReceived received) after ∧
      Tracks (h.record (.tryReceive handle, .ofReceived received)) after := by
  obtain ⟨k, hk, hallows, hframe, hafter⟩ := hb.receive?_explained hreceive
  refine ⟨⟨Option.isSome_of_eq_some hk, hallows, ?_, fun other hother => ?_⟩, hafter⟩
  · intro count hcount
    cases received <;> cases hcount
  · exact hframe other fun heq => hother (heq ▸ hk)

/-- A step that waits is taken as one that does not, if it has an answer. -/
theorem receive_explained (hb : Tracks h b) (hreceive : b.receive? handle = some (received, after))
    (hanswered : received ≠ .error .empty) :
    h.Explains b (.receive handle) (.ofReceived received) after ∧
      Tracks (h.record (.receive handle, .ofReceived received)) after := by
  obtain ⟨⟨-, hallows, hcount, hframe⟩, hafter⟩ := hb.tryReceive_explained hreceive
  have hafter' : Tracks (h.record (.receive handle, .ofReceived received)) after := by
    cases received <;> exact hafter
  refine ⟨⟨?_, ⟨hallows, ?_⟩, hcount, hframe⟩, hafter'⟩
  · match received, hallows with
    | .ok e, ⟨rest, hawaits⟩ => exact ⟨_, hawaits, by simp⟩
    | .error .disconnected, ⟨hawaits, hclosed⟩ => exact ⟨_, hawaits, fun _ => hclosed⟩
  · intro fault hfault
    match received, fault, hanswered with
    | .error .disconnected, .disconnected, _ => rfl

end Receive

theorem explains (hb : Tracks h b) {step : Step ε} {answer : Answer ε} {after : EventBus ε}
    (hstep : b.step? step = some (answer, after)) :
    h.Explains b step answer after ∧ Tracks (h.record (step, answer)) after := by
  cases step with
  | subscribe =>
    rw [step?, Option.ite_none_right_eq_some, Option.some.injEq, Prod.mk.injEq] at hstep
    obtain ⟨hopen, rfl, rfl⟩ := hstep
    refine ⟨⟨hb.isOpen.symm.trans hopen, congrArg List.length hb.handles, by simp, fun k _ => ?_⟩, hb.subscribe _⟩
    exact b.pending_subscribe k
  | copy handle =>
    rw [step?, copy?, Option.map_map, Option.map_eq_some_iff] at hstep
    obtain ⟨k, hqueue, heq⟩ := hstep
    obtain ⟨rfl, rfl⟩ := Prod.mk.inj heq
    have hk := (hb.queueOf? handle).symm.trans hqueue
    exact ⟨⟨Option.isSome_of_eq_some hk, congrArg List.length hb.handles, by simp, fun _ _ => rfl⟩, hb.copy hk _⟩
  | drop handle =>
    rw [step?, Option.map_eq_some_iff] at hstep
    obtain ⟨k, hqueue, heq⟩ := hstep
    obtain ⟨rfl, rfl⟩ := Prod.mk.inj heq
    have hk := (hb.queueOf? handle).symm.trans hqueue
    exact ⟨⟨Option.isSome_of_eq_some hk, trivial, by simp, fun _ _ => rfl⟩, hb.drop handle _⟩
  | emit e =>
    rw [step?, Option.ite_none_right_eq_some, Option.some.injEq, Prod.mk.injEq] at hstep
    obtain ⟨hopen, rfl, rfl⟩ := hstep
    refine ⟨⟨hb.isOpen.symm.trans hopen, hb.subscriberCount_emit e, ?_, fun k hk => absurd trivial hk⟩, hb.emit e _⟩
    intro count hcount
    cases hcount
    rfl
  | tryReceive handle =>
    rw [step?, Option.map_eq_some_iff] at hstep
    obtain ⟨⟨received, _⟩, hreceive, heq⟩ := hstep
    obtain ⟨rfl, rfl⟩ := Prod.mk.inj heq
    exact hb.tryReceive_explained hreceive
  | receive handle =>
    obtain ⟨received, hreceive, rfl, hanswered⟩ := receive?_of_step?_receive hstep
    exact hb.receive_explained hreceive hanswered
  | drain handle =>
    rw [step?, drain?, Option.map_map, Option.map_eq_some_iff] at hstep
    obtain ⟨k, hqueue, heq⟩ := hstep
    obtain ⟨rfl, rfl⟩ := Prod.mk.inj heq
    have hk := (hb.queueOf? handle).symm.trans hqueue
    refine ⟨⟨Option.isSome_of_eq_some hk, hb.awaits hk, by simp, fun other hother => ?_⟩, ?_⟩
    · exact b.pending_setPending_of_ne (fun heq : k = other => hother (heq ▸ hk)) []
    · exact hb.take hk (List.append_nil _).symm
  | close =>
    rw [step?, Option.ite_none_right_eq_some, Option.some.injEq, Prod.mk.injEq] at hstep
    obtain ⟨hopen, rfl, rfl⟩ := hstep
    exact ⟨⟨hb.isOpen.symm.trans hopen, trivial, by simp, fun _ _ => rfl⟩, hb.close _⟩

/-- What the history permits can be done. -/
theorem isSome_step? (hb : Tracks h b) {step : Step ε} (hpermits : h.Permits step) : (b.step? step).isSome := by
  cases step with
  | subscribe | emit e | close => simp [step?, hb.isOpen, show h.isOpen = true from hpermits]
  | copy handle | drop handle | drain handle =>
    have hk : (h.subscriptionOf? handle).isSome := hpermits
    simp [step?, copy?, drain?, hb.queueOf?, hk]
  | tryReceive handle =>
    obtain ⟨k, hk⟩ := Option.isSome_iff_exists.mp hpermits
    obtain ⟨received, after, hreceive⟩ := hb.exists_receive? hk
    simp [step?, hreceive]
  | receive handle =>
    obtain ⟨events, hawaits, hclosed⟩ := hpermits
    obtain ⟨k, s, hk, hs, hall⟩ := id hawaits
    obtain ⟨received, after, hreceive⟩ := hb.exists_receive? hk
    obtain ⟨-, -, hallows, -, -⟩ := hb.receive?_explained hreceive
    cases received with
    | ok e => simp [step?, hreceive]
    | error fault =>
      cases fault with
      | disconnected => simp [step?, hreceive]
      | empty =>
        obtain ⟨hnone, hopen⟩ := hallows
        have hclosed := hclosed (hawaits.unique hnone)
        rw [hopen] at hclosed
        contradiction

theorem run (hb : Tracks h b) (steps : List (Step ε)) :
    Tracks ((b.run steps).1.foldl History.record h) (b.run steps).2 :=
  run_preserves (fun _ _ _ _ _ hb hstep => (hb.explains hstep).2) steps hb

end Tracks

/-- Behind every mixture of steps, a subscription that someone can read has lost nothing, got nothing twice and nothing
out of order. A further step can be taken exactly if the history permits it, and does what the history allows. -/
theorem history_run (steps : List (Step ε)) :
    let b := (run {} steps).2
    let h := History.ofTrace (run {} steps).1
    h.Describes b ∧
      ∀ step,
        match b.step? step with
        | none => ¬h.Permits step
        | some (answer, after) => h.Explains b step answer after := by
  intro b h
  have hb : Tracks h b := tracks_empty.run steps
  refine ⟨hb.describes, fun step => ?_⟩
  cases hstep : b.step? step with
  | none =>
    intro hpermits
    have htaken := hb.isSome_step? hpermits
    rw [hstep] at htaken
    contradiction
  | some taken => exact (hb.explains hstep).1

end ResourceIndex.EventBus
