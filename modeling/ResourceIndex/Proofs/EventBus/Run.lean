import ResourceIndex.Proofs.EventBus.Waiting

/-!
# Runs of a bus

The steps that a bus and its subscribers can take, as data, so that statements can speak of every order of them. A step
that cannot be taken is passed over.
-/

namespace ResourceIndex.EventBus

/-- Something that is done with a bus or with one of its handles. -/
inductive Step (ε : Type) where
  | subscribe
  | copy (handle : Nat)
  | drop (handle : Nat)
  | emit (e : ε)
  | tryReceive (handle : Nat)
  /-- is taken only when there is an answer -/
  | receive (handle : Nat)
  | drain (handle : Nat)
  | close

/-- What a step gives. -/
inductive Answer (ε : Type) where
  | done
  | made (handle : Nat)
  | delivered (count : Nat)
  | received (e : ε)
  | refused (fault : ReceiveFault)
  | drained (events : List ε)

variable {ε : Type}

def Answer.ofReceived : Except ReceiveFault ε → Answer ε
  | .ok e => .received e
  | .error fault => .refused fault

/-- Takes a step. A dropped handle can do nothing any more, nor can a bus that was taken away, and a step that waits for
an event is not taken as long as there is none to come. -/
def step? (b : EventBus ε) : Step ε → Option (Answer ε × EventBus ε)
  | .subscribe => if b.isOpen then some (.made b.subscribe.1, b.subscribe.2) else none
  | .copy handle => (b.copy? handle).map fun (copy, after) => (.made copy, after)
  | .drop handle => (b.queueOf? handle).map fun _ => (.done, b.drop handle)
  | .emit e => if b.isOpen then some (.delivered (b.emit e).1, (b.emit e).2) else none
  | .tryReceive handle => (b.receive? handle).map fun (received, after) => (.ofReceived received, after)
  | .receive handle =>
    match b.receive? handle with
    | none | some (.error .empty, _) => none
    | some (received, after) => some (.ofReceived received, after)
  | .drain handle => (b.drain? handle).map fun (events, after) => (.drained events, after)
  | .close => if b.isOpen then some (.done, b.close) else none

/-- The steps of a list that can be taken, each with its answer, and the bus behind them. -/
def run (b : EventBus ε) : List (Step ε) → List (Step ε × Answer ε) × EventBus ε
  | [] => ([], b)
  | step :: steps =>
    match b.step? step with
    | none => b.run steps
    | some (answer, after) => ((step, answer) :: (after.run steps).1, (after.run steps).2)

theorem run_preserves {σ : Type} {record : σ → Step ε × Answer ε → σ} {P : σ → EventBus ε → Prop}
    (hstep : ∀ s b step answer after, P s b → b.step? step = some (answer, after) → P (record s (step, answer)) after)
    {s : σ} {b : EventBus ε} (steps : List (Step ε)) (h : P s b) :
    P ((b.run steps).1.foldl record s) (b.run steps).2 := by
  induction steps generalizing s b with
  | nil => exact h
  | cons step steps ih =>
    rw [run]
    cases htaken : b.step? step with
    | none => exact ih h
    | some taken => exact ih (hstep s b step taken.1 taken.2 h htaken)

/-! ### One step -/

section Receive

variable {b : EventBus ε} {handle queue : Nat}

/-- Nothing waits, and nothing changes, or the first event that waits is taken. -/
theorem receive?_cases (hqueue : b.queueOf? handle = some queue) :
    (b.pending queue = [] ∧ b.receive? handle = some (.error (if b.isOpen then .empty else .disconnected), b)) ∨
      ∃ e rest, b.pending queue = e :: rest ∧ b.receive? handle = some (.ok e, b.setPending queue rest) := by
  rw [receive?, hqueue]
  cases hpending : b.pending queue with
  | nil => exact .inl ⟨rfl, by simp [hpending]⟩
  | cons e rest => exact .inr ⟨e, rest, rfl, by simp [hpending]⟩

theorem receive?_of_none (hqueue : b.queueOf? handle = none) : b.receive? handle = none := by
  rw [receive?, hqueue, Option.map_none]

/-- A step that waits takes what it is given, unless it would be told that there is nothing yet. -/
theorem receive?_of_step?_receive {answer : Answer ε} {after : EventBus ε}
    (hstep : b.step? (.receive handle) = some (answer, after)) :
    ∃ received, b.receive? handle = some (received, after) ∧ answer = .ofReceived received ∧
      received ≠ .error .empty := by
  rw [step?] at hstep
  split at hstep
  next => contradiction
  next => contradiction
  next received next hnot hreceive =>
    obtain ⟨rfl, rfl⟩ := Prod.mk.inj (Option.some.inj hstep)
    exact ⟨received, hreceive, rfl, hnot⟩

/-- Nothing waits for a new subscription, and nothing changes for the others. -/
theorem pending_subscribe (b : EventBus ε) (queue : Nat) : b.subscribe.2.pending queue = b.pending queue := by
  rw [pending, pending, subscribe, List.getElem?_append, List.getElem?_singleton]
  split
  next => rfl
  next h =>
    rw [List.getElem?_eq_none (Nat.le_of_not_lt h)]
    split <;> rfl

theorem pending_setPending_of_ne (b : EventBus ε) {queue other : Nat} (h : queue ≠ other) (events : List ε) :
    (b.setPending queue events).pending other = b.pending other := by
  simp [pending, setPending, h]

end Receive

end ResourceIndex.EventBus
