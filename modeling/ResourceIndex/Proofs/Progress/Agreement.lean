import ResourceIndex.Progress.Bar
import ResourceIndex.Proofs.Progress.Transcript

/-!
# Log and bar monitors agree

Work cannot tell a log monitor from a bar monitor. Whatever it tells and asks them, they give the same answers and show
the same position: the value told last, cut off below the maximum told last, and zero until a value is told in the range
of that maximum. Whether the bar is drawn does not show, nor that it counts in wider words and may have no length.
-/

namespace ResourceIndex

/-- A call of a monitor, except for the question whether the work should stop. -/
inductive Request where
  | describe (text : String)
  | conclude (text : String)
  | setMaximum (maximum : UInt32)
  | advance (value : UInt32)
  | confirm (title message : String)
deriving DecidableEq, Repr

namespace Monitor

section Replies

variable {μ ν : Type} [Monitor μ] [Monitor ν]

/-- The answer to a call, if it has one, and the monitor behind the call. -/
def reply (m : μ) : Request → Option Bool × μ
  | .describe text => (none, describe text m)
  | .conclude text => (none, conclude text m)
  | .setMaximum maximum => (none, setMaximum maximum m)
  | .advance value => (none, advance value m)
  | .confirm title message => (some (confirm title message m).1, (confirm title message m).2)

/-- The monitor behind a sequence of calls. -/
def after (m : μ) (requests : List Request) : μ :=
  requests.foldl (fun m request => (reply m request).2) m

/-- What is seen of a monitor behind each call of a sequence: the answer, if there is one, and the position. -/
def replies (m : μ) : List Request → List (Option Bool × UInt32)
  | [] => []
  | request :: requests =>
    ((reply m request).1, position (reply m request).2) :: replies (reply m request).2 requests

variable {R : μ → ν → Prop} {m : μ} {n : ν}

theorem InStep.reply (hR : InStep R) (h : R m n) (request : Request) :
    (reply m request).1 = (reply n request).1 ∧ R (reply m request).2 (reply n request).2 := by
  cases request with
  | describe text => exact ⟨rfl, hR.describe text m n h⟩
  | conclude text => exact ⟨rfl, hR.conclude text m n h⟩
  | setMaximum maximum => exact ⟨rfl, hR.setMaximum maximum m n h⟩
  | advance value => exact ⟨rfl, hR.advance value m n h⟩
  | confirm title message =>
    obtain ⟨hanswer, hnext⟩ := hR.confirm title message m n h
    exact ⟨congrArg some hanswer, hnext⟩

theorem InStep.after (hR : InStep R) (h : R m n) (requests : List Request) :
    R (after m requests) (after n requests) := by
  induction requests generalizing m n with
  | nil => exact h
  | cons request requests ih => exact ih (hR.reply h request).2

/-- Monitors in step that show the same position are seen alike for ever. -/
theorem InStep.replies_eq (hR : InStep R) (hposition : ∀ m n, R m n → position m = position n) (h : R m n)
    (requests : List Request) : replies m requests = replies n requests := by
  induction requests generalizing m n with
  | nil => rfl
  | cons request requests ih =>
    obtain ⟨hanswer, hnext⟩ := hR.reply h request
    rw [replies, replies, hanswer, hposition _ _ hnext, ih hnext]

end Replies

/-! ### Positions -/

/-- What calls have told of a range: its maximum, and the value that was told last since. -/
structure Range where
  maximum : Nat := 0
  value : Nat := 0

namespace Range

/-- What is told behind one more call. -/
def follow (range : Range) : Request → Range
  | .setMaximum maximum => ⟨maximum.toNat, 0⟩
  | .advance value => { range with value := value.toNat }
  | _ => range

/-- What is told by calls from the start. -/
def told (requests : List Request) : Range :=
  requests.foldl follow {}

/-- The value, cut off below the maximum. An empty range has position zero only. -/
def position (range : Range) : Nat :=
  min range.value (range.maximum - 1)

theorem position_eq_zero_or_lt (range : Range) : range.position = 0 ∨ range.position < range.maximum := by
  rw [position]
  omega

end Range

end Monitor

open Monitor

/-! ### Cutting off -/

theorem LogMonitor.toNat_clamp (maximum value : UInt32) :
    (clamp maximum value).toNat = min value.toNat (maximum.toNat - 1) := by
  rw [clamp]
  split
  next hzero => simp [hzero]
  next hpos =>
    have hne : maximum.toNat ≠ 0 := fun h => hpos (UInt32.toNat_inj.mp h)
    have hle : 1 ≤ maximum := UInt32.le_iff_toNat_le.mpr (Nat.one_le_iff_ne_zero.mpr hne)
    have hlast : (maximum - 1).toNat = maximum.toNat - 1 := UInt32.toNat_sub_of_le _ _ hle
    change (if value ≤ maximum - 1 then value else maximum - 1).toNat = _
    simp only [apply_ite UInt32.toNat, UInt32.le_iff_toNat_le, hlast, Nat.min_def]

/-- The wider words of a bar make no difference, as no difference goes below zero. -/
theorem BarMonitor.toNat_clamp (length? : Option UInt64) (value : UInt32) :
    (clamp length? value).toNat = min value.toNat ((length?.getD 0).toNat - 1) := by
  rw [clamp]
  generalize length?.getD 0 = length
  have hlast : (if length = 0 then 0 else length - 1).toNat = length.toNat - 1 := by
    split
    next hzero => simp [hzero]
    next hpos =>
      have hne : length.toNat ≠ 0 := fun h => hpos (UInt64.toNat_inj.mp h)
      exact UInt64.toNat_sub_of_le _ _ (UInt64.le_iff_toNat_le.mpr (Nat.one_le_iff_ne_zero.mpr hne))
  generalize (if length = 0 then 0 else length - 1) = last at hlast
  change (if value.toUInt64 ≤ last then value.toUInt64 else last).toNat = _
  simp only [apply_ite UInt64.toNat, UInt64.le_iff_toNat_le, UInt32.toNat_toUInt64, hlast, Nat.min_def]

theorem Text.saturated_toNat (n : UInt32) : saturated n.toNat = n := by
  rw [saturated, word32?, if_pos n.toNat_lt_size, Option.getD_some, UInt32.ofNat_toNat]

/-! ### The two monitors -/

/-- The two monitors are at the same position of the same range, and answer alike. -/
structure Monitor.Alike (log : LogMonitor) (bar : BarMonitor) : Prop where
  answer_eq : log.answer = bar.answer
  isCancelled_eq : log.isCancelled = bar.isCancelled
  maximum_eq : log.maximum.toNat = (bar.length?.getD 0).toNat
  value_eq : log.value.toNat = bar.place.toNat

namespace Monitor

theorem Alike.position_eq {log : LogMonitor} {bar : BarMonitor} (h : Alike log bar) : position log = position bar := by
  have hbar : position bar = Text.saturated bar.place.toNat := rfl
  rw [hbar, ← h.value_eq, Text.saturated_toNat]
  rfl

theorem alike_new (answer isHidden : Bool) : Alike { answer := answer } (BarMonitor.new answer isHidden) := by
  refine ⟨rfl, rfl, ?_, rfl⟩
  cases isHidden <;> rfl

theorem alike_inStep : InStep Alike := by
  constructor
  case cancelled => exact fun log bar h => ⟨h.isCancelled_eq, h⟩
  case describe => exact fun text log bar h => ⟨h.answer_eq, h.isCancelled_eq, h.maximum_eq, h.value_eq⟩
  case conclude => exact fun text log bar h => ⟨h.answer_eq, h.isCancelled_eq, h.maximum_eq, h.value_eq⟩
  case setMaximum =>
    exact fun maximum log bar h => ⟨h.answer_eq, h.isCancelled_eq, maximum.toNat_toUInt64.symm, rfl⟩
  case advance =>
    refine fun value log bar h => ⟨h.answer_eq, h.isCancelled_eq, h.maximum_eq, ?_⟩
    have hclamp : (LogMonitor.clamp log.maximum value).toNat = (BarMonitor.clamp bar.length? value).toNat := by
      rw [LogMonitor.toNat_clamp, BarMonitor.toNat_clamp, h.maximum_eq]
    exact hclamp
  case confirm => exact fun title message log bar h => ⟨h.answer_eq, h⟩

/-- The log monitor is where it was told to be. -/
structure Shows (log : LogMonitor) (range : Range) : Prop where
  maximum_eq : log.maximum.toNat = range.maximum
  value_eq : log.value.toNat = range.position

theorem Shows.reply {log : LogMonitor} {range : Range} (h : Shows log range) (request : Request) :
    Shows (Monitor.reply log request).2 (range.follow request) := by
  cases request with
  | setMaximum maximum => exact ⟨rfl, (Nat.zero_min _).symm⟩
  | advance value =>
    refine ⟨h.maximum_eq, ?_⟩
    rw [Range.position, Range.follow, ← h.maximum_eq]
    exact LogMonitor.toNat_clamp log.maximum value
  | describe text => exact ⟨h.maximum_eq, h.value_eq⟩
  | conclude text => exact ⟨h.maximum_eq, h.value_eq⟩
  | confirm title message => exact h

theorem Shows.after {log : LogMonitor} {range : Range} (h : Shows log range) (requests : List Request) :
    Shows (Monitor.after log requests) (requests.foldl Range.follow range) := by
  induction requests generalizing log range with
  | nil => exact h
  | cons request requests ih => exact ih (h.reply request)

theorem answer_after (log : LogMonitor) (requests : List Request) : (after log requests).answer = log.answer := by
  induction requests generalizing log with
  | nil => rfl
  | cons request requests ih =>
    have hfirst : (reply log request).2.answer = log.answer := by cases request <;> rfl
    exact (ih _).trans hfirst

/-- Behind any calls a log monitor and a bar monitor, drawn or not, have given the same replies, are at the position
that they were told, which is below the maximum told last unless it is zero, and answer as they were made to. -/
theorem log_bar_agree (answer isHidden : Bool) (requests : List Request) :
    let log : LogMonitor := { answer := answer }
    let bar := BarMonitor.new answer isHidden
    let range := Range.told requests
    replies log requests = replies bar requests ∧
      position (after log requests) = position (after bar requests) ∧
      (position (after log requests)).toNat = range.position ∧
      (position (after log requests) = 0 ∨ (position (after log requests)).toNat < range.maximum) ∧
      ∀ title message, (confirm title message (after log requests)).1 = answer ∧
        (confirm title message (after bar requests)).1 = answer := by
  intro log bar range
  have hstart : Alike log bar := alike_new answer isHidden
  have hbehind : Alike (after log requests) (after bar requests) := alike_inStep.after hstart requests
  have hstarted : Shows log {} := ⟨rfl, rfl⟩
  have hshown : (position (after log requests)).toNat = range.position := (hstarted.after requests).value_eq
  have hanswer : (after log requests).answer = answer := answer_after log requests
  refine ⟨alike_inStep.replies_eq (fun _ _ h => h.position_eq) hstart requests, hbehind.position_eq, hshown, ?_, ?_⟩
  · refine range.position_eq_zero_or_lt.imp (fun hzero => ?_) fun hlt => hshown ▸ hlt
    exact UInt32.toNat_inj.mp (hshown.trans hzero)
  · exact fun title message => ⟨hanswer, hbehind.answer_eq.symm.trans hanswer⟩

end Monitor

end ResourceIndex
