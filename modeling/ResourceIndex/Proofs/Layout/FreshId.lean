import Mathlib.Data.List.Nodup
import Mathlib.Data.List.Perm.Subperm
import ResourceIndex.Layout.Ids

/-!
# Fresh ids

Two numbers behind one stem never give one id, so of the first numbers, one more than there are taken ids, some give an
id that is free. The search for a fresh id therefore always ends with a numbered id, and with one that is not taken.
-/

namespace ResourceIndex.Layout

theorem numbered_injective (s : String) : Function.Injective (numbered s) := by
  intro m n h
  have htext : s.toList ++ (toString m).toList = s.toList ++ (toString n).toList := by
    rw [← String.toList_append, ← String.toList_append]
    exact congrArg String.toList h
  have hdigits : Nat.toDigits 10 m = Nat.toDigits 10 n := by
    have := List.append_cancel_left htext
    rwa [Nat.toString_eq_ofList_toDigits, Nat.toString_eq_ofList_toDigits, String.toList_ofList,
      String.toList_ofList] at this
  rw [← Nat.ofDigitChars_ten_toDigits (n := m), hdigits, Nat.ofDigitChars_ten_toDigits]

theorem exists_numbered_not_mem (s : String) (taken : Ids) :
    ∃ n ∈ List.range' 1 (taken.size + 1), numbered s n ∉ taken := by
  by_contra! hall
  -- Otherwise all these ids, which are distinct, would be among the fewer taken ones.
  have hsubset : (List.range' 1 (taken.size + 1)).map (numbered s) ⊆ taken.toList := by
    intro name hname
    obtain ⟨n, hn, rfl⟩ := List.mem_map.mp hname
    exact Std.TreeSet.mem_toList.mpr (hall n hn)
  have hnodup : ((List.range' 1 (taken.size + 1)).map (numbered s)).Nodup :=
    (List.nodup_range' 1).map (numbered_injective s)
  have hle := (hnodup.subperm hsubset).length_le
  rw [List.length_map, List.length_range', Std.TreeSet.length_toList] at hle
  exact Nat.not_succ_le_self _ hle

/-- A fresh id is numbered, free, and no lower number is. -/
theorem exists_freshId_eq (base : String) (taken : Ids) :
    ∃ n ∈ List.range' 1 (taken.size + 1), freshId base taken = numbered (stem base) n ∧
      numbered (stem base) n ∉ taken ∧ ∀ m, 1 ≤ m → m < n → numbered (stem base) m ∈ taken := by
  rw [freshId]
  cases hfound : (List.range' 1 (taken.size + 1)).find? fun n => numbered (stem base) n ∉ taken with
  | some n =>
    obtain ⟨hfree, hn, hlower⟩ := List.find?_range'_eq_some.mp hfound
    refine ⟨n, hn, rfl, by simpa using hfree, fun m hm hlt => ?_⟩
    simpa using hlower m hm hlt
  | none =>
    obtain ⟨n, hn, hfree⟩ := exists_numbered_not_mem (stem base) taken
    have htaken := List.find?_eq_none.mp hfound n hn
    exact absurd hfree (by simpa using htaken)

theorem freshId_not_mem (base : String) (taken : Ids) : freshId base taken ∉ taken := by
  obtain ⟨n, -, heq, hfree, -⟩ := exists_freshId_eq base taken
  rwa [heq]

end ResourceIndex.Layout
