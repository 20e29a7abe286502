/-!
# Event bus

Every subscription has a queue of its own, and every event goes to the queues that someone can still read. Handles are
numbered in the order in which they are made; a copy of a handle reads the same queue. A queue that has lost its last
handle leaves the bus at the next event.
-/

namespace ResourceIndex

/-- The events waiting for one subscription. -/
structure EventQueue (ε : Type) where
  pending : List ε := []
  isAttached : Bool := true
deriving Repr

/-- A bus: its queues in the order of their subscriptions, and for every handle the queue it reads, until it is
dropped. -/
structure EventBus (ε : Type) where
  queues : List (EventQueue ε) := []
  handles : List (Option Nat) := []
  isOpen : Bool := true
deriving Repr

inductive ReceiveFault where
  | empty
  | disconnected
deriving DecidableEq, Repr

def ReceiveFault.message : ReceiveFault → String
  | empty => "receiving on an empty channel"
  | disconnected => "receiving on an empty and disconnected channel"

namespace EventBus

variable {ε : Type}

/-- The queue that a handle reads; a dropped handle reads none. -/
def queueOf? (b : EventBus ε) (handle : Nat) : Option Nat :=
  b.handles[handle]?.join

/-- Some handle still reads the queue. -/
def isHeard (b : EventBus ε) (queue : Nat) : Bool :=
  b.handles.contains (some queue)

def pending (b : EventBus ε) (queue : Nat) : List ε :=
  (b.queues[queue]?.map (·.pending)).getD []

/-- Adds a subscription and gives its handle. -/
def subscribe (b : EventBus ε) : Nat × EventBus ε :=
  (b.handles.length,
    { b with queues := b.queues ++ [{}], handles := b.handles ++ [some b.queues.length] })

def copy? (b : EventBus ε) (handle : Nat) : Option (Nat × EventBus ε) :=
  (b.queueOf? handle).map fun queue =>
    (b.handles.length, { b with handles := b.handles ++ [some queue] })

def drop (b : EventBus ε) (handle : Nat) : EventBus ε :=
  { b with handles := b.handles.set handle none }

/-- The number of queues on the bus, including those that lost their last handle since the last event. -/
def subscriberCount (b : EventBus ε) : Nat :=
  b.queues.countP (·.isAttached)

/-- Puts an event into every queue that is still read, and gives their number. -/
def emit (b : EventBus ε) (e : ε) : Nat × EventBus ε :=
  let after := { b with
    queues := b.queues.mapIdx fun i q =>
      if q.isAttached && b.isHeard i then { q with pending := q.pending ++ [e] }
      else { q with isAttached := false } }
  (after.subscriberCount, after)

def emitAll (b : EventBus ε) (events : List ε) : EventBus ε :=
  events.foldl (fun b e => (b.emit e).2) b

/-- Takes the bus away. What is queued can still be read. -/
def close (b : EventBus ε) : EventBus ε :=
  { b with isOpen := false }

def setPending (b : EventBus ε) (queue : Nat) (events : List ε) : EventBus ε :=
  { b with queues := b.queues.modify queue fun q => { q with pending := events } }

/-- Takes the next event for a handle, unless the handle was dropped. -/
def receive? (b : EventBus ε) (handle : Nat) : Option (Except ReceiveFault ε × EventBus ε) :=
  (b.queueOf? handle).map fun queue =>
    match b.pending queue with
    | e :: rest => (.ok e, b.setPending queue rest)
    | [] => (.error (if b.isOpen then .empty else .disconnected), b)

/-- Takes every waiting event for a handle, unless the handle was dropped. -/
def drain? (b : EventBus ε) (handle : Nat) : Option (List ε × EventBus ε) :=
  (b.queueOf? handle).map fun queue => (b.pending queue, b.setPending queue [])

end EventBus

end ResourceIndex
