/-!
# Fixed beginnings of a text

Taking a fixed word off the start of a text succeeds exactly for the texts that the word can be put in front of.
-/

namespace ResourceIndex.Text

theorem isPrefixOf?_nil (text : List Char) : ([] : List Char).isPrefixOf? text = some text := by
  cases text <;> rfl

theorem isPrefixOf?_cons_nil (c : Char) (word : List Char) : (c :: word).isPrefixOf? [] = none := rfl

theorem isPrefixOf?_cons_cons (c d : Char) (word text : List Char) :
    (c :: word).isPrefixOf? (d :: text) = if c == d then word.isPrefixOf? text else none := rfl

theorem isPrefixOf?_eq_some_iff {word text rest : List Char} :
    word.isPrefixOf? text = some rest ↔ text = word ++ rest := by
  induction word generalizing text with
  | nil => simp [isPrefixOf?_nil]
  | cons c word ih =>
    cases text with
    | nil => simp [isPrefixOf?_cons_nil]
    | cons d text =>
      rw [isPrefixOf?_cons_cons]
      by_cases h : c = d
      · simp [h, ih]
      · simp [h, Ne.symm h]

end ResourceIndex.Text
