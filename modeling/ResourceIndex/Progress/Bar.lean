import ResourceIndex.Progress.Monitor
import ResourceIndex.Text.Number

/-!
# Bar monitors

A bar monitor moves a bar of 64-bit length and answers every question in one way. A bar that is not drawn starts without
a length.
-/

namespace ResourceIndex

structure BarMonitor where
  answer : Bool
  length? : Option UInt64
  place : UInt64 := 0
  isCancelled : Bool := false
deriving DecidableEq, Repr

namespace BarMonitor

def new (answer isHidden : Bool) : BarMonitor :=
  { answer := answer, length? := if isHidden then none else some 0 }

def cancel (m : BarMonitor) : BarMonitor :=
  { m with isCancelled := true }

def finish (m : BarMonitor) : BarMonitor :=
  { m with place := m.length?.getD m.place }

/-- A position cut off below a length; a bar without a length, or an empty one, has position zero only. -/
def clamp (length? : Option UInt64) (value : UInt32) : UInt64 :=
  let length := length?.getD 0
  min value.toUInt64 (if length = 0 then 0 else length - 1)

instance : Monitor BarMonitor where
  cancelled m := (m.isCancelled, m)
  describe _ m := m
  conclude _ m := m
  setMaximum n m := { m with length? := some n.toUInt64, place := 0 }
  advance n m := { m with place := clamp m.length? n }
  position m := Text.saturated m.place.toNat
  confirm _ _ m := (m.answer, m)

end BarMonitor

end ResourceIndex
