import Mathlib.Data.List.Nodup
import ResourceIndex.Proofs.Toml.Statement
import ResourceIndex.Toml.Document

/-!
# Documents of plain lines

A document with one name and one value to a line, and no name twice, is read as the table of its lines, in their order.
-/

namespace ResourceIndex.Toml

/-- The name is a key without quotes. -/
def IsKey (name : String) : Prop :=
  name.toList ≠ [] ∧ ∀ c ∈ name.toList, isKeyChar c

instance (name : String) : Decidable (IsKey name) :=
  decidable_of_iff (name.toList ≠ [] ∧ name.toList.all isKeyChar) (by rw [IsKey, List.all_eq_true])

/-- A line that gives a name a value, and how the value is written. -/
structure Line where
  name : String
  written : List Char
  value : Value

namespace Line

def text (line : Line) : List Char :=
  line.name.toList ++ ' ' :: '=' :: ' ' :: (line.written ++ ['\n'])

def statement (line : Line) : Statement :=
  .assignment [] line.name line.value

def entry (line : Line) : String × Value :=
  (line.name, line.value)

/-- The name is a key, and what is written is read as the value. -/
structure Reads (line : Line) : Prop where
  isKey : IsKey line.name
  head : ∃ c ∈ line.written.head?, isBlank c = false
  value? : ∀ rest, value? nestingLimit (line.written ++ '\n' :: rest) = some (line.value, '\n' :: rest)

variable {line : Line} {lines : List Line} {rest : List Char}

theorem text_append (line : Line) (rest : List Char) :
    line.text ++ rest = line.name.toList ++ ' ' :: '=' :: ' ' :: (line.written ++ '\n' :: rest) := by
  simp [text]

/-! ### Statements -/

theorem Reads.valueBehind? (h : line.Reads) (rest : List Char) :
    valueBehind? (Toml.value? nestingLimit) ('=' :: ' ' :: (line.written ++ '\n' :: rest)) =
      some (line.value, '\n' :: rest) := by
  have hread := h.value? rest
  obtain ⟨c, hc, hblank⟩ := h.head
  obtain ⟨more, hwritten⟩ := List.head?_eq_some_iff.mp hc
  have hskip : skipBlanks (' ' :: (line.written ++ '\n' :: rest)) = line.written ++ '\n' :: rest := by
    rw [hwritten]
    exact skipBlanks_cons hblank _
  rw [Toml.valueBehind?]
  simp only [expect?, if_true, Option.bind_eq_bind, Option.bind_some, hskip]
  exact hread

theorem Reads.statement? (h : line.Reads) (rest : List Char) :
    statement? (line.text ++ rest) = some (line.statement, rest) := by
  have hkey := key?_name h.isKey.1 h.isKey.2 (' ' :: (line.written ++ '\n' :: rest))
  obtain ⟨c, more, hname⟩ := List.exists_cons_of_ne_nil h.isKey.1
  have hc : c ≠ '[' := by
    rintro rfl
    have hbracket := h.isKey.2 '[' (hname ▸ List.mem_cons_self)
    contradiction
  rw [String.ofList_toList] at hkey
  rw [text_append]
  unfold Toml.statement?
  split
  next heq =>
    rw [hname] at heq
    exact absurd (List.cons.inj heq).1 hc
  next heq =>
    rw [hname] at heq
    exact absurd (List.cons.inj heq).1 hc
  next =>
    simp only [hkey, Option.bind_eq_bind, Option.bind_some, h.valueBehind? rest]
    rfl

/-- A line starts with a character of its name. -/
theorem Reads.exists_text_append (h : line.Reads) (rest : List Char) :
    ∃ c cs, line.text ++ rest = c :: cs ∧ isKeyChar c := by
  obtain ⟨c, more, hname⟩ := List.exists_cons_of_ne_nil h.isKey.1
  have hc := h.isKey.2 c (hname ▸ List.mem_cons_self)
  rw [text_append, hname]
  exact ⟨c, _, rfl, hc⟩

theorem Reads.lines? (h : line.Reads) (fuel : Nat) (rest : List Char) :
    lines? (fuel + 1) (line.text ++ rest) = (lines? fuel rest).map (line.statement :: ·) := by
  have hstatement := h.statement? rest
  obtain ⟨c, cs, htext, hc⟩ := h.exists_text_append rest
  have hplain : ¬(c = '#' ∨ c = '\n' ∨ c = '\r') := by
    rintro (rfl | rfl | rfl) <;> contradiction
  rw [htext] at hstatement ⊢
  rw [Toml.lines?, skipBlanks_cons (of_isKeyChar hc).1]
  simp only [if_neg hplain, hstatement, Option.bind_eq_bind, Option.bind_some]
  cases Toml.lines? fuel rest <;> rfl

/-! ### Documents -/

theorem lines?_flatMap (hlines : ∀ line ∈ lines, line.Reads) {fuel : Nat} (hfuel : lines.length < fuel) :
    Toml.lines? fuel (lines.flatMap text) = some (lines.map statement) := by
  induction lines generalizing fuel with
  | nil =>
    obtain ⟨fuel, rfl⟩ : ∃ n, fuel = n + 1 := ⟨fuel - 1, by omega⟩
    rfl
  | cons line lines ih =>
    obtain ⟨fuel, rfl⟩ : ∃ n, fuel = n + 1 := ⟨fuel - 1, by omega⟩
    obtain ⟨hline, hlines⟩ := List.forall_mem_cons.mp hlines
    rw [List.flatMap_cons, hline.lines?, ih hlines (Nat.lt_of_succ_lt_succ hfuel)]
    rfl

theorem length_le_length_flatMap (lines : List Line) : lines.length ≤ (lines.flatMap text).length := by
  induction lines with
  | nil => exact Nat.le_refl 0
  | cons line lines ih =>
    have hline : 0 < line.text.length := by
      simp [text]
    rw [List.flatMap_cons, List.length_append, List.length_cons]
    omega

theorem statements?_flatMap (hlines : ∀ line ∈ lines, line.Reads) :
    statements? (String.ofList (lines.flatMap text)) = some (lines.map statement) := by
  have hread : Toml.lines? ((lines.flatMap text).length + 1) (lines.flatMap text) = some (lines.map statement) :=
    lines?_flatMap hlines (Nat.lt_succ_of_le (length_le_length_flatMap lines))
  rw [statements?, String.toList_ofList]
  split
  next hmark =>
    cases lines with
    | nil => contradiction
    | cons line lines =>
      obtain ⟨c, cs, htext, hc⟩ := (hlines line List.mem_cons_self).exists_text_append (lines.flatMap text)
      rw [List.flatMap_cons, htext] at hmark
      rw [(List.cons.inj hmark).1] at hc
      contradiction
  next => exact hread

/-- A line with a name that is new adds its entry. -/
theorem follow_statement {before : Entries} (hnew : line.name ∉ before.map (·.1)) :
    Draft.follow ⟨before, []⟩ line.statement = some ⟨before ++ [line.entry], []⟩ := by
  have hlookup : before.lookup line.name = none := by
    rw [List.lookup_eq_none_iff]
    intro entry hentry
    rw [bne_iff_ne]
    rintro heq
    exact hnew (heq ▸ List.mem_map_of_mem hentry)
  simp [Draft.follow, statement, entry, Draft.change, Entries.edit, Entries.assign, Entries.add, hlookup]

theorem foldlM_follow {before : Entries} (hnew : ∀ line ∈ lines, line.name ∉ before.map (·.1))
    (hdistinct : (lines.map name).Nodup) :
    (lines.map statement).foldlM Draft.follow ⟨before, []⟩ = some ⟨before ++ lines.map entry, []⟩ := by
  induction lines generalizing before with
  | nil => simp
  | cons line lines ih =>
    obtain ⟨hfirst, hothers⟩ := List.forall_mem_cons.mp hnew
    rw [List.map_cons, List.nodup_cons] at hdistinct
    obtain ⟨hfresh, hdistinct⟩ := hdistinct
    have hafter : ∀ other ∈ lines, other.name ∉ (before ++ [line.entry]).map (·.1) := by
      intro other hother hmem
      rw [List.map_append, List.mem_append, List.map_singleton, List.mem_singleton] at hmem
      obtain hmem | hsame := hmem
      · exact hothers other hother hmem
      · have hname : other.name = line.name := hsame
        exact hfresh (hname ▸ List.mem_map_of_mem hother)
    have hmore := ih hafter hdistinct
    rw [List.map_cons, List.foldlM_cons, follow_statement hfirst, Option.bind_eq_bind, Option.bind_some, hmore,
      List.append_assoc]
    rfl

/-- A document of lines with distinct names is the table of its lines. -/
theorem entries?_flatMap (hlines : ∀ line ∈ lines, line.Reads) (hdistinct : (lines.map name).Nodup) :
    entries? (String.ofList (lines.flatMap text)) = some (lines.map entry) := by
  have hdone : (lines.map statement).foldlM Draft.follow {} = some ⟨lines.map entry, []⟩ :=
    foldlM_follow (fun _ _ => List.not_mem_nil) hdistinct
  rw [entries?, statements?_flatMap hlines]
  simp only [Option.bind_eq_bind, Option.bind_some, hdone]
  rfl

end Line

end ResourceIndex.Toml
