/-!
# Attributes of a tag

The attributes of a tag are read one after the other from the text behind its name. A malformed attribute is a fault
with a position, and reading goes on behind it as far as the fault allows. Positions count UTF-8 bytes from the start of
the tag's name. Values are raw: references such as `&amp;` stay as they are written.
-/

namespace ResourceIndex.Markup

/-- Space, tab and the two line ends separate names and attributes. -/
def isBlank (c : Char) : Bool :=
  c = ' ' || c = '\t' || c = '\n' || c = '\r'

/-- The number of UTF-8 bytes of a text. -/
def byteLength : List Char → Nat
  | [] => 0
  | c :: cs => c.utf8Size + byteLength cs

/-- An attribute as it is written, the value without its quotes. -/
structure RawAttribute where
  key : List Char
  value : List Char
deriving DecidableEq, Repr

inductive AttributeFault where
  | noEquals (position : Nat)
  | noValue (position : Nat)
  | unquoted (position : Nat)
  | unclosed (position : Nat) (quote : Char)
  | duplicate (position previous : Nat)
deriving DecidableEq, Repr

namespace AttributeFault

/-- The fault in words, after its position. -/
def message : AttributeFault → String
  | noEquals p => at_ p ++ "attribute key must be directly followed by `=` or space"
  | noValue p => at_ p ++ "`=` must be followed by an attribute value"
  | unquoted p => at_ p ++ "attribute value must be enclosed in `\"` or `'`"
  | unclosed p q => at_ p ++ "missing closing quote `" ++ q.toString ++ "` in attribute value"
  | duplicate p q => at_ p ++ "duplicated attribute, previous declaration at position " ++ toString q
where
  at_ (p : Nat) : String :=
    "position " ++ toString p ++ ": "

end AttributeFault

/-- The outcome of reading one attribute, and where to go on: the keys seen so far with their positions, and the rest of
the tag. -/
structure AttributeStep where
  outcome : Except AttributeFault RawAttribute
  seen : List (List Char × Nat)
  rest : List Char

/-- The character belongs to a key, unless it is the first one. -/
def isKeyChar (c : Char) : Bool :=
  !(c = '=' || isBlank c)

/-- Drops everything before the next blank. -/
def toBlank (cs : List Char) : List Char :=
  cs.dropWhile (!isBlank ·)

/-- Reads what follows the `=` behind a key, in a tag of `size` bytes. -/
def valueStep (size : Nat) (key : List Char) (seen : List (List Char × Nat)) (cs : List Char) : AttributeStep :=
  match cs.dropWhile isBlank with
  | [] => ⟨.error (.noValue size), seen, []⟩
  | q :: body =>
    if q = '"' ∨ q = '\'' then
      match body.dropWhile (· ≠ q) with
      | [] => ⟨.error (.unclosed size q), seen, []⟩
      | _ :: rest => ⟨.ok ⟨key, body.takeWhile (· ≠ q)⟩, seen, rest⟩
    else ⟨.error (.unquoted (size - byteLength (q :: body))), seen, toBlank body⟩

/-- Reads the first attribute of `cs`, the end of a tag of `size` bytes. A key starts with any character that is not
blank and reaches to the next blank or `=`. It counts as seen even if its value cannot be read. -/
def attributeStep? (size : Nat) (seen : List (List Char × Nat)) (cs : List Char) : Option AttributeStep :=
  match cs.dropWhile isBlank with
  | [] => none
  | first :: more =>
    let key := first :: more.takeWhile isKeyChar
    let position := size - byteLength (first :: more)
    match (more.dropWhile isKeyChar).dropWhile isBlank with
    | [] => some ⟨.error (.noEquals size), seen, []⟩
    | c :: after =>
      if c = '=' then
        match seen.find? (·.1 = key) with
        | some (_, previous) => some ⟨.error (.duplicate position previous), seen, toBlank after⟩
        | none => some (valueStep size key ((key, position) :: seen) after)
      else some ⟨.error (.noEquals (size - byteLength (c :: after))), seen, c :: after⟩

theorem length_rest_valueStep (size : Nat) (key : List Char) (seen : List (List Char × Nat)) (cs : List Char) :
    (valueStep size key seen cs).rest.length ≤ cs.length := by
  have blanks := (List.dropWhile_suffix isBlank (l := cs)).length_le
  unfold valueStep
  split
  · simp
  · rename_i q body hq
    rw [hq, List.length_cons] at blanks
    split
    · split
      · simp
      · rename_i rest hr
        have value := (List.dropWhile_suffix (· ≠ q) (l := body)).length_le
        rw [hr, List.length_cons] at value
        simp only
        omega
    · have value := (List.dropWhile_suffix (!isBlank ·) (l := body)).length_le
      simp only [toBlank]
      omega

theorem length_rest_attributeStep? {size : Nat} {seen : List (List Char × Nat)} {cs : List Char} {s : AttributeStep}
    (h : attributeStep? size seen cs = some s) : s.rest.length < cs.length := by
  have blanks := (List.dropWhile_suffix isBlank (l := cs)).length_le
  unfold attributeStep? at h
  split at h
  · simp at h
  · rename_i first more hm
    rw [hm, List.length_cons] at blanks
    have key := (List.dropWhile_suffix isKeyChar (l := more)).length_le
    have gap := (List.dropWhile_suffix isBlank (l := more.dropWhile isKeyChar)).length_le
    simp only at h
    split at h
    · obtain rfl := Option.some.inj h
      simp only [List.length_nil]
      omega
    · rename_i c after ha
      rw [ha, List.length_cons] at gap
      split at h
      · split at h
        · obtain rfl := Option.some.inj h
          have := (List.dropWhile_suffix (!isBlank ·) (l := after)).length_le
          simp only [toBlank]
          omega
        · obtain rfl := Option.some.inj h
          have := length_rest_valueStep size (first :: more.takeWhile isKeyChar)
            ((first :: more.takeWhile isKeyChar, size - byteLength (first :: more)) :: seen) after
          omega
      · obtain rfl := Option.some.inj h
        simp only [List.length_cons]
        omega

def attributesFrom (size : Nat) (seen : List (List Char × Nat)) (cs : List Char) :
    List (Except AttributeFault RawAttribute) :=
  match _h : attributeStep? size seen cs with
  | none => []
  | some s => s.outcome :: attributesFrom size s.seen s.rest
termination_by cs.length
decreasing_by exact length_rest_attributeStep? _h

/-- A start tag or an empty-element tag: its name, and the text behind the name. -/
structure Tag where
  name : List Char
  rest : List Char
deriving DecidableEq, Repr

namespace Tag

/-- Splits the text of a tag at the first blank. -/
def ofContent (content : List Char) : Tag :=
  ⟨content.takeWhile (!isBlank ·), content.dropWhile (!isBlank ·)⟩

/-- The attributes and faults of a tag, in the order in which they are written. -/
def attributes (t : Tag) : List (Except AttributeFault RawAttribute) :=
  attributesFrom (byteLength (t.name ++ t.rest)) [] t.rest

def readable (t : Tag) : List RawAttribute :=
  t.attributes.filterMap Except.toOption

/-- The value of the first readable attribute with this key. -/
def value? (t : Tag) (key : List Char) : Option (List Char) :=
  (t.readable.find? (·.key = key)).map (·.value)

end Tag

end ResourceIndex.Markup
