import ResourceIndex.Progress.Monitor

/-!
# Recorders

A recorder passes everything on to another monitor and keeps the calls in order. It can also ask the work to stop
after a number of questions.
-/

namespace ResourceIndex

inductive MonitorCall where
  | described (text : String)
  | concluded (text : String)
  | ranged (maximum : UInt32)
  /-- the value told, and the position it led to -/
  | advanced (value position : UInt32)
  | confirmed (title message : String) (answer : Bool)
deriving DecidableEq, Repr

/-- A monitor that keeps the calls, the latest first, and lets `patience?` more questions for a stop be answered with
no. Without it the monitor inside answers. -/
structure Recorder (μ : Type) where
  inner : μ
  calls : List MonitorCall := []
  patience? : Option Nat := none

namespace Recorder

variable {μ : Type} [Monitor μ]

/-- Keeps a call, and the monitor inside as it is after the call. -/
def keep (r : Recorder μ) (inner : μ) (call : MonitorCall) : Recorder μ :=
  { r with inner := inner, calls := call :: r.calls }

instance : Monitor (Recorder μ) where
  cancelled r :=
    match r.patience? with
    | some 0 => (true, r)
    | some (n + 1) => (false, { r with patience? := some n })
    | none =>
      let (answer, inner) := Monitor.cancelled r.inner
      (answer, { r with inner := inner })
  describe text r := r.keep (Monitor.describe text r.inner) (.described text)
  conclude text r := r.keep (Monitor.conclude text r.inner) (.concluded text)
  setMaximum n r := r.keep (Monitor.setMaximum n r.inner) (.ranged n)
  advance n r :=
    let inner := Monitor.advance n r.inner
    r.keep inner (.advanced n (Monitor.position inner))
  position r := Monitor.position r.inner
  confirm title message r :=
    let (answer, inner) := Monitor.confirm title message r.inner
    (answer, r.keep inner (.confirmed title message answer))

/-- The calls, the earliest first. -/
def history (r : Recorder μ) : List MonitorCall :=
  r.calls.reverse

end Recorder

end ResourceIndex
