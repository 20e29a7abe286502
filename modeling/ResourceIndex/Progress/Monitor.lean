/-!
# Progress monitors

Long work reports to a monitor and asks it questions. A monitor keeps a position below the maximum of its range, answers
yes or no when it is asked to confirm something, and tells whether the work should stop.
-/

namespace ResourceIndex

/-- What work can tell and ask a monitor. -/
class Monitor (μ : Type) where
  /-- asks whether the work should stop -/
  cancelled : μ → Bool × μ
  /-- tells what is being done -/
  describe : String → μ → μ
  /-- tells the result of the work -/
  conclude : String → μ → μ
  /-- starts a range of positions -/
  setMaximum : UInt32 → μ → μ
  /-- moves the position, which stays below the maximum -/
  advance : UInt32 → μ → μ
  position : μ → UInt32
  /-- asks a question with a title -/
  confirm : String → String → μ → Bool × μ

end ResourceIndex
