import ResourceIndex.Progress.Log

/-!
# Transcripts

What work tells and asks a monitor, with the answers, is the only way in which the two affect each other. A transcript
passes every call on and keeps it, so that statements can speak of the calls that any work makes to any monitor.
-/

namespace ResourceIndex

/-- A call of a monitor; a question is kept with its answer. -/
inductive Call where
  | cancelled (answer : Bool)
  | described (text : String)
  | concluded (text : String)
  | ranged (maximum : UInt32)
  | advanced (value : UInt32)
  | confirmed (title message : String) (answer : Bool)
deriving DecidableEq, Repr

namespace Call

/-- The answer to the question whether the work should stop. -/
def stop? : Call → Option Bool
  | cancelled answer => some answer
  | _ => none

/-- The answer to a question with a title. -/
def confirmation? : Call → Option Bool
  | confirmed _ _ answer => some answer
  | _ => none

end Call

/-- A monitor with the calls that it has got, in their order. -/
structure Transcript (μ : Type) where
  inner : μ
  calls : List Call := []

namespace Transcript

variable {μ : Type} [Monitor μ]

/-- The transcript behind one more call. -/
def keep (t : Transcript μ) (inner : μ) (call : Call) : Transcript μ :=
  ⟨inner, t.calls ++ [call]⟩

instance : Monitor (Transcript μ) where
  cancelled t :=
    let (answer, inner) := Monitor.cancelled t.inner
    (answer, t.keep inner (.cancelled answer))
  describe text t := t.keep (Monitor.describe text t.inner) (.described text)
  conclude text t := t.keep (Monitor.conclude text t.inner) (.concluded text)
  setMaximum n t := t.keep (Monitor.setMaximum n t.inner) (.ranged n)
  advance n t := t.keep (Monitor.advance n t.inner) (.advanced n)
  position t := Monitor.position t.inner
  confirm title message t :=
    let (answer, inner) := Monitor.confirm title message t.inner
    (answer, t.keep inner (.confirmed title message answer))

end Transcript

/-! ### Monitors in step -/

/-- Two monitors give the same answers in related states, and any call leads to related states again. -/
structure Monitor.InStep {μ ν : Type} [Monitor μ] [Monitor ν] (R : μ → ν → Prop) : Prop where
  cancelled : ∀ m n, R m n → (cancelled m).1 = (cancelled n).1 ∧ R (cancelled m).2 (cancelled n).2
  describe : ∀ text m n, R m n → R (describe text m) (describe text n)
  conclude : ∀ text m n, R m n → R (conclude text m) (conclude text n)
  setMaximum : ∀ maximum m n, R m n → R (setMaximum maximum m) (setMaximum maximum n)
  advance : ∀ value m n, R m n → R (advance value m) (advance value n)
  confirm : ∀ title message m n, R m n → (confirm title message m).1 = (confirm title message n).1 ∧
    R (confirm title message m).2 (confirm title message n).2

/-- A transcript answers as the monitor inside. -/
theorem Transcript.inStep {μ : Type} [Monitor μ] :
    Monitor.InStep fun (t : Transcript μ) (m : μ) => t.inner = m := by
  constructor
  case cancelled => exact fun _ _ h => by subst h; exact ⟨rfl, rfl⟩
  case confirm => exact fun _ _ _ _ h => by subst h; exact ⟨rfl, rfl⟩
  all_goals exact fun _ _ _ h => by subst h; rfl

/-! ### Steady monitors -/

/-- In these states the monitor never stops the work and answers every question in the same way, and it does not leave
them. -/
structure Monitor.Keeps {μ : Type} [Monitor μ] (answer : Bool) (P : μ → Prop) : Prop where
  cancelled : ∀ m, P m → (cancelled m).1 = false ∧ P (cancelled m).2
  describe : ∀ text m, P m → P (describe text m)
  conclude : ∀ text m, P m → P (conclude text m)
  setMaximum : ∀ maximum m, P m → P (setMaximum maximum m)
  advance : ∀ value m, P m → P (advance value m)
  confirm : ∀ title message m, P m →
    (confirm title message m).1 = answer ∧ P (confirm title message m).2

/-- Whatever the monitor is told and asked from now on, it never stops the work and answers every question in the same
way. -/
def Monitor.Answers {μ : Type} [Monitor μ] (answer : Bool) (m : μ) : Prop :=
  ∃ P, Keeps answer P ∧ P m

/-- A log monitor is steady unless it is cancelled. -/
theorem LogMonitor.answers {m : LogMonitor} (h : m.isCancelled = false) : Monitor.Answers m.answer m := by
  refine ⟨fun n => n.answer = m.answer ∧ n.isCancelled = false, ?_, rfl, h⟩
  constructor
  case cancelled => exact fun n hn => ⟨hn.2, hn⟩
  case confirm => exact fun _ _ n hn => ⟨hn.1, hn⟩
  all_goals exact fun _ n hn => hn

/-- The call does not stop the work, and is answered in this way if it is a question. -/
def Call.IsAnswered (answer : Bool) (c : Call) : Prop :=
  c.stop? ≠ some true ∧ ∀ given ∈ c.confirmation?, given = answer

theorem Call.IsAnswered.of_silent {answer : Bool} {c : Call} (hstop : c.stop? = none)
    (hconfirm : c.confirmation? = none) : c.IsAnswered answer := by
  simp [IsAnswered, hstop, hconfirm]

/-- The transcript of a steady monitor has no other answers, and is in step with itself. -/
theorem Monitor.Keeps.inStep {μ : Type} [Monitor μ] {answer : Bool} {P : μ → Prop} (hP : Keeps answer P) :
    InStep fun (t : Transcript μ) (u : Transcript μ) => t = u ∧ P t.inner ∧ ∀ c ∈ t.calls, c.IsAnswered answer := by
  have hkeep (t : Transcript μ) (h : ∀ c ∈ t.calls, c.IsAnswered answer) (inner : μ) {c : Call}
      (hc : c.IsAnswered answer) : ∀ d ∈ (t.keep inner c).calls, d.IsAnswered answer := by
    intro d hd
    obtain hd | hd := List.mem_append.mp hd
    · exact h d hd
    · obtain rfl := List.mem_singleton.mp hd
      exact hc
  constructor
  case cancelled =>
    rintro t _ ⟨rfl, hinner, hcalls⟩
    obtain ⟨hanswer, hnext⟩ := hP.cancelled _ hinner
    exact ⟨rfl, rfl, hnext, hkeep t hcalls _ (by simp [Call.IsAnswered, Call.stop?, Call.confirmation?, hanswer])⟩
  case confirm =>
    rintro title message t _ ⟨rfl, hinner, hcalls⟩
    obtain ⟨hanswer, hnext⟩ := hP.confirm title message _ hinner
    exact ⟨rfl, rfl, hnext, hkeep t hcalls _ (by simp [Call.IsAnswered, Call.stop?, Call.confirmation?, hanswer])⟩
  case describe =>
    rintro text t _ ⟨rfl, hinner, hcalls⟩
    exact ⟨rfl, hP.describe text _ hinner, hkeep t hcalls _ (.of_silent rfl rfl)⟩
  case conclude =>
    rintro text t _ ⟨rfl, hinner, hcalls⟩
    exact ⟨rfl, hP.conclude text _ hinner, hkeep t hcalls _ (.of_silent rfl rfl)⟩
  case setMaximum =>
    rintro maximum t _ ⟨rfl, hinner, hcalls⟩
    exact ⟨rfl, hP.setMaximum maximum _ hinner, hkeep t hcalls _ (.of_silent rfl rfl)⟩
  case advance =>
    rintro value t _ ⟨rfl, hinner, hcalls⟩
    exact ⟨rfl, hP.advance value _ hinner, hkeep t hcalls _ (.of_silent rfl rfl)⟩

end ResourceIndex
