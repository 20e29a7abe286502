import ResourceIndex.Proofs.Text.Numeral
import ResourceIndex.Proofs.Toml.Text
import ResourceIndex.Toml.Statement

/-!
# Scalars written and read

A number, a truth value or a string at the end of a line, or a string in a list, is read as it was written. Decimal
digits start neither a date nor a time: no dash and no colon comes behind them.
-/

namespace ResourceIndex

/-! ### Digits -/

theorem Text.isDigit_of_mem_digits {n : Nat} {c : Char} (h : c ∈ digits n) : c.isDigit :=
  Nat.isDigit_of_mem_toDigits (by decide) (by decide) h

theorem Text.digitsValue_digits (n : Nat) : digitsValue (digits n) = n := by
  rw [digitsValue_eq_decimal, digits_eq_paddedDigits, decimal_paddedDigits]

/-- Only zero is written with a zero in front. -/
theorem Text.eq_nil_of_digits_eq_zero_cons {n : Nat} {ds : List Char} (h : digits n = '0' :: ds) : ds = [] := by
  by_contra hne
  have hpos : 0 < ds.length := List.length_pos_iff.mpr hne
  have hvalue : n = decimal ds := by
    rw [← digitsValue_digits n, h, digitsValue_eq_decimal, decimal, decimal, Nat.ofDigitChars_cons]
    simp
  have hdigits : ∀ c ∈ ds, c.isDigit := fun c hc => isDigit_of_mem_digits (h ▸ List.mem_cons_of_mem _ hc)
  have hlength : (digits n).length ≤ ds.length :=
    (Nat.length_toDigits_le_iff (by decide) hpos).mpr (hvalue ▸ decimal_lt hdigits)
  rw [h, List.length_cons] at hlength
  omega

namespace Toml

variable {ds rest left : List Char}

theorem moreDigits_append (hds : ∀ c ∈ ds, c.isDigit) (rest : List Char) :
    moreDigits Char.isDigit (ds ++ '\n' :: rest) = some (ds, '\n' :: rest) := by
  induction ds with
  | nil => rfl
  | cons d ds ih =>
    obtain ⟨hd, hds⟩ := List.forall_mem_cons.mp hds
    have hne : d ≠ '_' := by
      rintro rfl
      contradiction
    have hmore := ih hds
    rw [List.cons_append, moreDigits, if_neg hne, if_pos hd, hmore, push_some]
    · rintro c cs rfl
      contradiction

/-- What comes behind the digits of a date or a time is a digit or the end of the line. -/
theorem head?_of_field? {count least most n : Nat} (hds : ∀ c ∈ ds, c.isDigit)
    (h : field? count least most (ds ++ '\n' :: rest) = some (n, left)) :
    ∃ d, left.head? = some d ∧ (d.isDigit ∨ d = '\n') := by
  rw [field?] at h
  split at h
  next hfield =>
    simp only [Bool.and_eq_true, decide_eq_true_iff, List.all_eq_true] at hfield
    obtain ⟨⟨⟨-, hall⟩, -⟩, -⟩ := hfield
    obtain ⟨-, rfl⟩ := Prod.mk.inj (Option.some.inj h)
    have hcount : count ≤ ds.length := by
      by_contra hlong
      obtain ⟨more, hmore⟩ : ∃ more, count - ds.length = more + 1 := ⟨count - ds.length - 1, by omega⟩
      have hline : '\n' ∈ (ds ++ '\n' :: rest).take count := by
        rw [List.take_append, hmore, List.take_succ_cons]
        simp
      exact absurd (hall _ hline) (by decide)
    rw [List.drop_append_of_le_length hcount]
    cases hdrop : ds.drop count with
    | nil => exact ⟨'\n', rfl, .inr rfl⟩
    | cons d more =>
      have hd : d ∈ ds := List.mem_of_mem_drop (hdrop ▸ List.mem_cons_self)
      exact ⟨d, rfl, .inl (hds d hd)⟩
  next => contradiction

theorem any_head?_field? {count least most : Nat} (hds : ∀ c ∈ ds, c.isDigit) {mark : Char}
    (hmark : ¬(mark.isDigit ∨ mark = '\n')) :
    ((field? count least most (ds ++ '\n' :: rest)).any fun (_, rest) => rest.head? = some mark) = false := by
  rw [Bool.eq_false_iff, ne_eq, Option.any_eq_true]
  rintro ⟨⟨n, left⟩, hfield, hhead⟩
  obtain ⟨d, hd, hdigit⟩ := head?_of_field? hds hfield
  simp only [hd, decide_eq_true_iff, Option.some.injEq] at hhead
  exact hmark (hhead ▸ hdigit)

theorem sign_cons {d : Char} (h : d.isDigit) (cs : List Char) : sign (d :: cs) = (false, d :: cs) := by
  unfold sign
  split
  case h_1 heq => rw [(List.cons.inj heq).1] at h; contradiction
  case h_2 heq => rw [(List.cons.inj heq).1] at h; contradiction
  case h_3 => rfl

theorem special?_cons {d : Char} (h : d.isDigit) (cs : List Char) : special? (d :: cs) = none := by
  unfold special?
  split
  case h_1 heq => rw [(List.cons.inj heq).1] at h; contradiction
  case h_2 heq => rw [(List.cons.inj heq).1] at h; contradiction
  case h_3 => rfl

theorem decimal?_cons {d : Char} (hd : d ≠ '0') (cs : List Char) :
    decimal? (d :: cs) = digits? Char.isDigit (d :: cs) := by
  unfold decimal?
  split
  case h_1 heq => exact absurd (List.cons.inj heq).1 hd
  case h_2 => rfl

/-- Digits without a zero in front are read as a decimal number. -/
theorem number?_cons {d : Char} (hd : d ≠ '0') (hds : ∀ c ∈ d :: ds, c.isDigit) (rest : List Char) :
    number? (d :: ds ++ '\n' :: rest) = afterInteger false (d :: ds) ('\n' :: rest) := by
  obtain ⟨hdigit, hmore⟩ := List.forall_mem_cons.mp hds
  unfold number?
  split
  case h_1 heq => exact absurd (List.cons.inj heq).1 hd
  case h_2 heq => exact absurd (List.cons.inj heq).1 hd
  case h_3 heq => exact absurd (List.cons.inj heq).1 hd
  case h_4 =>
    have hwhole : decimal? (d :: (ds ++ '\n' :: rest)) = some (d :: ds, '\n' :: rest) := by
      rw [decimal?_cons hd, digits?, if_pos hdigit, moreDigits_append hmore, push_some]
    rw [List.cons_append, sign_cons hdigit]
    simp only [special?_cons hdigit, hwhole]
    rfl

theorem number?_digits (rest : List Char) {n : Nat} (hn : n < 2 ^ 63) :
    number? (Text.digits n ++ '\n' :: rest) = some (.integer n, '\n' :: rest) := by
  have hinteger : integer? false n = some (.integer n) := if_pos hn
  have hread : afterInteger false (Text.digits n) ('\n' :: rest) = some (.integer n, '\n' :: rest) := by
    simp [afterInteger, isExponentMark, Text.digitsValue_digits, hinteger]
  cases hdigits : Text.digits n with
  | nil => exact absurd hdigits Nat.toDigits_ne_nil
  | cons d ds =>
    have hds : ∀ c ∈ d :: ds, c.isDigit := fun c hc => Text.isDigit_of_mem_digits (hdigits ▸ hc)
    rw [hdigits] at hread
    by_cases hd : d = '0'
    · subst hd
      obtain rfl := Text.eq_nil_of_digits_eq_zero_cons hdigits
      exact hread
    · rw [number?_cons hd hds, hread]

theorem scalar?_digits (rest : List Char) {n : Nat} (hn : n < 2 ^ 63) :
    scalar? (Text.digits n ++ '\n' :: rest) = some (.integer n, '\n' :: rest) := by
  have hds : ∀ c ∈ Text.digits n, c.isDigit := fun c hc => Text.isDigit_of_mem_digits hc
  have hnumber := number?_digits rest hn
  have hdate : startsDate (Text.digits n ++ '\n' :: rest) = false := any_head?_field? hds (by decide)
  have htime : startsTime (Text.digits n ++ '\n' :: rest) = false := any_head?_field? hds (by decide)
  cases hdigits : Text.digits n with
  | nil => exact absurd hdigits Nat.toDigits_ne_nil
  | cons d ds =>
    rw [hdigits] at hnumber hdate htime hds
    have hd : d.isDigit := hds d List.mem_cons_self
    have hne {c : Char} (hc : c.isDigit = false) : d ≠ c := by
      rintro rfl
      rw [hd] at hc
      contradiction
    rw [List.cons_append] at hnumber hdate htime ⊢
    rw [scalar?, if_neg (not_or.mpr ⟨hne rfl, hne rfl⟩), if_neg (hne rfl), if_neg (hne rfl), hdate, htime]
    exact hnumber

/-! ### Strings and truth values -/

/-- A written string starts with a quote or an apostrophe. -/
theorem exists_writtenText (s : String) :
    ∃ mark cs, writtenText s = mark :: cs ∧ (mark = '"' ∨ mark = '\'') := by
  simp only [writtenText]
  split
  case h_1 => exact ⟨'"', _, rfl, .inl rfl⟩
  case h_2 => exact ⟨'\'', _, rfl, .inr rfl⟩
  case h_3 => exact ⟨'"', _, rfl, .inl rfl⟩
  case h_4 => exact ⟨'\'', _, rfl, .inr rfl⟩

theorem scalar?_writtenText (s : String) (hrest : Ends rest) :
    scalar? (writtenText s ++ rest) = some (.text s, rest) := by
  have hread := text?_writtenText s hrest
  obtain ⟨mark, cs, hwritten, hmark⟩ := exists_writtenText s
  rw [hwritten, List.cons_append] at hread ⊢
  simp only [scalar?, if_pos hmark, hread, Option.map_some, String.ofList_toList]

end Toml

end ResourceIndex
