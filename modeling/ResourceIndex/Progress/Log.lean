import ResourceIndex.Progress.Monitor

/-!
# Log monitors

A log monitor keeps the last texts and the position, and answers every question in one way.
-/

namespace ResourceIndex

structure LogMonitor where
  answer : Bool
  maximum : UInt32 := 0
  value : UInt32 := 0
  description : String := ""
  result? : Option String := none
  isCancelled : Bool := false
deriving DecidableEq, Repr

namespace LogMonitor

def cancel (m : LogMonitor) : LogMonitor :=
  { m with isCancelled := true }

/-- A position cut off below a maximum; an empty range has position zero only. -/
def clamp (maximum value : UInt32) : UInt32 :=
  if maximum = 0 then 0 else min value (maximum - 1)

instance : Monitor LogMonitor where
  cancelled m := (m.isCancelled, m)
  describe text m := { m with description := text }
  conclude text m := { m with result? := some text }
  setMaximum n m := { m with maximum := n, value := 0 }
  advance n m := { m with value := clamp m.maximum n }
  position m := m.value
  confirm _ _ m := (m.answer, m)

end LogMonitor

end ResourceIndex
