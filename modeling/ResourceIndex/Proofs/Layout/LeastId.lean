import Mathlib.Data.List.DropRight
import ResourceIndex.Proofs.Layout.FreshId

/-!
# The least free number

A fresh id is the stem of its base with the least number that is free. Counting up from one finds it, and no counter of
32 bits runs over while there are fewer taken ids than it has numbers to try. The digits at the end of a base do not
matter, so a fresh id, as long as it is free, is the fresh id of itself.
-/

namespace ResourceIndex.Layout

/-! ### Stems -/

theorem isDigit_of_mem_toString {n : Nat} {c : Char} (h : c ∈ (toString n).toList) : c.isDigit := by
  rw [Nat.toString_eq_ofList_toDigits, String.toList_ofList] at h
  exact Nat.isDigit_of_mem_toDigits (by decide) (by decide) h

/-- What is left of a base without the digits at its end is the stem, unless nothing is left. -/
theorem exists_stem_eq (base : String) :
    ∃ kept digits, base = kept ++ digits ∧ (∀ c ∈ digits.toList, c.isDigit) ∧
      (∀ c ∈ kept.toList.getLast?, c.isDigit = false) ∧ stem base = if kept = "" then "id" else kept := by
  refine ⟨String.ofList (base.toList.reverse.dropWhile Char.isDigit).reverse,
    String.ofList (base.toList.reverse.takeWhile Char.isDigit).reverse, ?_, ?_, ?_, ?_⟩
  · rw [← String.ofList_append, ← List.reverse_append, List.takeWhile_append_dropWhile, List.reverse_reverse,
      String.ofList_toList]
  · intro c hc
    rw [String.toList_ofList, List.mem_reverse] at hc
    exact List.mem_takeWhile_imp hc
  · intro c hc
    rw [String.toList_ofList, List.getLast?_reverse] at hc
    have hhead := List.head?_dropWhile_not Char.isDigit base.toList.reverse
    rw [Option.mem_def.mp hc] at hhead
    exact hhead
  · rw [stem]
    cases base.toList.reverse.dropWhile Char.isDigit with
    | nil => rfl
    | cons c cs => simp

theorem stem_append_digits {digits : String} (h : ∀ c ∈ digits.toList, c.isDigit) (base : String) :
    stem (base ++ digits) = stem base := by
  have hdropped : (base ++ digits).toList.reverse.dropWhile Char.isDigit =
      base.toList.reverse.dropWhile Char.isDigit := by
    rw [String.toList_append, List.reverse_append]
    exact List.dropWhile_append_of_pos fun c hc => h c (List.mem_reverse.mp hc)
  rw [stem, stem, hdropped]

theorem stem_stem (base : String) : stem (stem base) = stem base := by
  cases hrest : base.toList.reverse.dropWhile Char.isDigit with
  | nil =>
    have hbase : stem base = "id" := by rw [stem, hrest]
    rw [hbase]
    rfl
  | cons c cs =>
    have hbase : stem base = String.ofList (c :: cs).reverse := by rw [stem, hrest]
    have hkept : (c :: cs).dropWhile Char.isDigit = c :: cs := by
      rw [← hrest, List.dropWhile_idempotent]
    rw [hbase, stem, String.toList_ofList, List.reverse_reverse, hkept]

theorem stem_numbered (s : String) (n : Nat) : stem (numbered s n) = stem s :=
  stem_append_digits (fun _ => isDigit_of_mem_toString) s

/-! ### Counting -/

theorem toNat_add_one {n : UInt32} (h : n.toNat + 1 < UInt32.size) : (n + 1).toNat = n.toNat + 1 := by
  rw [UInt32.toNat_add]
  exact Nat.mod_eq_of_lt h

/-- Counts up from a number in 32 bits to one whose id is free. A number is counted on before its id is looked at, so
that there is no answer once the last number is reached. -/
def countUp? (s : String) (taken : Ids) (n : UInt32) : Option String :=
  if hnext : n.toNat + 1 < UInt32.size then
    if numbered s n.toNat ∈ taken then countUp? s taken (n + 1) else some (numbered s n.toNat)
  else none
termination_by UInt32.size - n.toNat
decreasing_by
  rw [toNat_add_one hnext]
  omega

/-- Counting up reaches the least number whose id is free, if the counter does. -/
theorem countUp?_eq_some {s : String} {taken : Ids} {n : Nat} (hn : n + 1 < UInt32.size) (hfree : numbered s n ∉ taken)
    {k : UInt32} (hk : k.toNat ≤ n) (hlower : ∀ m, k.toNat ≤ m → m < n → numbered s m ∈ taken) :
    countUp? s taken k = some (numbered s n) := by
  fun_induction countUp? s taken k with
  | case1 k hnext htaken ih =>
    have hlt : k.toNat < n := Nat.lt_of_le_of_ne hk fun heq => hfree (heq ▸ htaken)
    rw [toNat_add_one hnext] at ih
    exact ih hlt fun m hm => hlower m (Nat.le_of_succ_le hm)
  | case2 k hnext hnot =>
    have heq : k.toNat = n := by
      by_contra hne
      exact hnot (hlower k.toNat (Nat.le_refl _) (Nat.lt_of_le_of_ne hk hne))
    rw [heq]
  | case3 k hlast => omega

/-! ### The least free number -/

/-- The stem of a base is what is left without the digits at its end, or `id`. Let there be fewer taken ids than 32 bits
can count. Then counting up to the fresh id ends without running over, and the fresh id is free: it is the stem with the
least number from one on that gives a free id, and this number is at most one more than there are taken ids. More digits
behind the base change nothing, and a fresh id is its own fresh id. -/
theorem freshId_least (base : String) (taken : Ids) (hsize : taken.size < UInt32.size - 2) :
    (∃ kept digits, base = kept ++ digits ∧ (∀ c ∈ digits.toList, c.isDigit) ∧
      (∀ c ∈ kept.toList.getLast?, c.isDigit = false) ∧ stem base = if kept = "" then "id" else kept) ∧
    countUp? (stem base) taken 1 = some (freshId base taken) ∧
    freshId base taken ∉ taken ∧
    (∃ n, 1 ≤ n ∧ n ≤ taken.size + 1 ∧ freshId base taken = stem base ++ toString n ∧
      ∀ m, 1 ≤ m → m < n → stem base ++ toString m ∈ taken) ∧
    (∀ digits : String, (∀ c ∈ digits.toList, c.isDigit) → freshId (base ++ digits) taken = freshId base taken) ∧
    freshId (freshId base taken) taken = freshId base taken := by
  obtain ⟨n, hn, heq, hfree, hlower⟩ := exists_freshId_eq base taken
  obtain ⟨hone, hlt⟩ := List.mem_range'_1.mp hn
  have hstem {other : String} (h : stem other = stem base) : freshId other taken = freshId base taken := by
    rw [freshId, freshId, h]
  refine ⟨exists_stem_eq base, ?_, freshId_not_mem base taken, ⟨n, hone, by omega, heq, hlower⟩,
    fun digits hdigits => hstem (stem_append_digits hdigits base), hstem ?_⟩
  · have hcounted : n + 1 < UInt32.size := by omega
    rw [heq]
    exact countUp?_eq_some hcounted hfree hone hlower
  · rw [heq, stem_numbered, stem_stem]

/-- With `button1` and `button3` taken, the gap between them is filled. -/
theorem freshId_least_button :
    let taken : Ids := Std.TreeSet.ofList ["button1", "button3"]
    taken.size < UInt32.size - 2 ∧ countUp? (stem "button3") taken 1 = some "button2" ∧
      freshId ("button3" ++ "7") taken = "button2" := by
  intro taken
  have hsize : taken.size < UInt32.size - 2 := by decide +kernel
  have hfresh : freshId "button3" taken = "button2" := by decide +kernel
  obtain ⟨-, hcounted, -, -, hdigits, -⟩ := freshId_least "button3" taken hsize
  rw [hfresh] at hcounted hdigits
  exact ⟨hsize, hcounted, hdigits "7" (by simp)⟩

end ResourceIndex.Layout
