import ResourceIndex.Markup.Attribute
import ResourceIndex.Text.Affix

/-!
# Markup as a sequence of tags

A markup text is read from its start as a sequence of tags. Text, comments, character data, declarations and processing
instructions are passed over; reading ends at the end of the text or at the first fault, and elements that are still
open at the end are no fault. Every end tag must name the element opened last.
-/

namespace ResourceIndex.Markup

inductive Event where
  | opened (tag : Tag)
  | empty (tag : Tag)
  | closed (name : List Char)
deriving DecidableEq, Repr

/-- The tag of an event that carries attributes. -/
def Event.tag? : Event → Option Tag
  | opened tag | empty tag => some tag
  | closed _ => none

inductive Construct where
  | declaration | comment | characterData | documentType | instruction | element
deriving DecidableEq, Repr

def Construct.name : Construct → String
  | declaration => "Bang"
  | comment => "Comment"
  | characterData => "CData"
  | documentType => "DOCTYPE"
  | instruction => "XmlDecl"
  | element => "Element"

inductive Fault where
  | unfinished (construct : Construct)
  | strayDeclaration (symbol : Char)
  | emptyDocumentType
  | mismatch (expected found : List Char)
deriving DecidableEq, Repr

def Fault.message : Fault → String
  | unfinished c => "Unexpected EOF during reading " ++ c.name
  | strayDeclaration c =>
    "Only Comment (`--`), CDATA (`[CDATA[`) and DOCTYPE (`DOCTYPE`) nodes can start with a '!', but symbol `" ++
      c.toString ++ "` found"
  | emptyDocumentType => "DOCTYPE declaration must not be empty"
  | mismatch expected found => "Expecting </" ++ String.ofList expected ++ "> found </" ++ String.ofList found ++ ">"

/-! ### Pieces of markup

Each function here takes the text behind the mark that starts a piece and gives the text behind the piece. -/

/-- The text behind the first occurrence of `mark`. -/
def behind? (mark : List Char) : List Char → Option (List Char)
  | [] => none
  | c :: cs =>
    match mark.isPrefixOf? (c :: cs) with
    | some rest => some rest
    | none => behind? mark cs

/-- Splits a document type at the `>` that closes it; inner angle brackets are balanced. -/
def documentType? : Nat → List Char → Option (List Char × List Char)
  | _, [] => none
  | 0, '>' :: cs => some ([], cs)
  | depth + 1, '>' :: cs => (documentType? depth cs).map fun (inner, rest) => ('>' :: inner, rest)
  | depth, '<' :: cs => (documentType? (depth + 1) cs).map fun (inner, rest) => ('<' :: inner, rest)
  | depth, c :: cs => (documentType? depth cs).map fun (inner, rest) => (c :: inner, rest)

/-- Takes a word off a text, in any ASCII case. -/
def dropWord? (word : List Char) (cs : List Char) : Option (List Char) :=
  if (cs.take word.length).map Char.toLower = word then some (cs.drop word.length) else none

/-- The character whose code is the first UTF-8 byte of `c`. -/
def firstByte (c : Char) : Char :=
  Char.ofNat ((String.utf8EncodeChar c).head?.getD 0).toNat

/-- Passes over a declaration, after `<!`. -/
def declaration : List Char → Except Fault (List Char)
  | [] => .error (.unfinished .declaration)
  | '-' :: cs =>
    match cs with
    | '-' :: body => orUnfinished .comment (behind? ['-', '-', '>'] body)
    | _ => .error (.unfinished .comment)
  | '[' :: cs =>
    orUnfinished .characterData (dropWord? ['c', 'd', 'a', 't', 'a', '['] cs >>= behind? [']', ']', '>'])
  | c :: cs =>
    if c.toLower = 'd' then
      match dropWord? ['o', 'c', 't', 'y', 'p', 'e'] cs >>= documentType? 0 with
      | none => .error (.unfinished .documentType)
      | some (inner, rest) => if inner.all isBlank then .error .emptyDocumentType else .ok rest
    else .error (.strayDeclaration (firstByte c))
where
  orUnfinished (construct : Construct) : Option (List Char) → Except Fault (List Char)
    | some rest => .ok rest
    | none => .error (.unfinished construct)

/-- Splits a text at the first `>`; without one it is taken whole. -/
def toBracket (cs : List Char) : List Char × List Char :=
  (cs.takeWhile (· ≠ '>'), (cs.dropWhile (· ≠ '>')).drop 1)

/-- Splits a tag at the first `>` outside quotes. The quote that is open, if any, is `quote`. -/
def tag? (quote : Option Char) : List Char → Option (List Char × List Char)
  | [] => none
  | c :: cs =>
    match quote with
    | some q => (tag? (if c = q then none else some q) cs).map fun (inner, rest) => (c :: inner, rest)
    | none =>
      if c = '>' then some ([], cs)
      else
        (tag? (if c = '"' ∨ c = '\'' then some c else none) cs).map fun (inner, rest) => (c :: inner, rest)

/-- The name in an end tag: blanks at its end do not count, unless there is nothing else. -/
def closingName (cs : List Char) : List Char :=
  match cs.reverse.dropWhile isBlank with
  | [] => cs
  | trimmed => trimmed.reverse

/-! ### The next piece -/

/-- The tags of a text up to its end or to a fault. -/
structure Reading where
  events : List Event
  fault? : Option Fault
deriving DecidableEq, Repr

/-- What comes next in a text: its end, a fault, or a piece and the text behind it. A tag is an event, and the elements
open behind it are `names`, the innermost first. -/
inductive Step where
  | finished
  | fault (fault : Fault)
  | passed (rest : List Char)
  | event (event : Event) (names : List (List Char)) (rest : List Char)

/-- Reads an end tag, after `</`. -/
def closingStep (names : List (List Char)) (cs : List Char) : Step :=
  let (inner, rest) := toBracket cs
  match names with
  | [] => .fault (.mismatch [] inner)
  | name :: outer =>
    if closingName inner = name then .event (.closed name) outer rest
    else .fault (.mismatch name (closingName inner))

/-- Passes over a processing instruction, after `<?`. -/
def instructionStep (cs : List Char) : Step :=
  let (inner, rest) := toBracket cs
  if 1 < inner.length ∧ inner.getLast? = some '?' then .passed rest else .fault (.unfinished .instruction)

/-- Reads a start tag or an empty-element tag, after `<`. -/
def tagStep (names : List (List Char)) (cs : List Char) : Step :=
  match tag? none cs with
  | none => .fault (.unfinished .element)
  | some (inner, rest) =>
    if inner.getLast? = some '/' then .event (.empty (Tag.ofContent inner.dropLast)) names rest
    else
      let tag := Tag.ofContent inner
      .event (.opened tag) (tag.name :: names) rest

/-- Reads a piece of markup, after `<`. -/
def markupStep (names : List (List Char)) : List Char → Step
  | [] => .finished
  | '!' :: cs =>
    match declaration cs with
    | .error f => .fault f
    | .ok rest => .passed rest
  | '/' :: cs => closingStep names cs
  | '?' :: cs => instructionStep cs
  | cs => tagStep names cs

/-! ### No piece grows the text -/

theorem length_behind? {mark cs rest : List Char} (h : behind? mark cs = some rest) : rest.length ≤ cs.length := by
  induction cs with
  | nil => simp [behind?] at h
  | cons c cs ih =>
    rw [behind?] at h
    split at h
    · rename_i r hr
      obtain rfl := Option.some.inj h
      have := congrArg List.length (Text.isPrefixOf?_eq_some_iff.1 hr)
      simp only [List.length_append] at this
      omega
    · exact Nat.le_succ_of_le (ih h)

theorem length_documentType? {depth : Nat} {cs inner rest : List Char}
    (h : documentType? depth cs = some (inner, rest)) : rest.length ≤ cs.length := by
  fun_induction documentType? depth cs generalizing inner rest <;>
    simp only [Option.map_eq_some_iff, reduceCtorEq, Option.some.injEq, Prod.mk.injEq, Prod.exists] at h
  · simp [← h.2]
  all_goals
    rename_i ih
    obtain ⟨i, r, hr, _, rfl⟩ := h
    exact Nat.le_succ_of_le (ih hr)

theorem length_dropWord? {word cs rest : List Char} (h : dropWord? word cs = some rest) :
    rest.length ≤ cs.length := by
  simp only [dropWord?, Option.ite_none_right_eq_some, Option.some.injEq] at h
  simp [← h.2]

theorem length_declaration {cs rest : List Char} (h : declaration cs = .ok rest) : rest.length ≤ cs.length := by
  have finished {construct : Construct} {o : Option (List Char)}
      (h : declaration.orUnfinished construct o = .ok rest) : o = some rest := by
    cases o <;> simp_all [declaration.orUnfinished]
  unfold declaration at h
  split at h
  · simp at h
  · split at h
    · have := length_behind? (finished h)
      simp only [List.length_cons]
      omega
    · simp at h
  · obtain ⟨body, hb, hr⟩ := Option.bind_eq_some_iff.1 (finished h)
    have := length_dropWord? hb
    have := length_behind? hr
    simp only [List.length_cons]
    omega
  · split at h
    · split at h
      · simp at h
      · rename_i hd
        obtain ⟨body, hb, hr⟩ := Option.bind_eq_some_iff.1 hd
        have := length_dropWord? hb
        have := length_documentType? hr
        split at h
        · simp at h
        · simp only [Except.ok.injEq] at h
          subst h
          simp only [List.length_cons]
          omega
    · simp at h

theorem length_toBracket (cs : List Char) : (toBracket cs).2.length ≤ cs.length := by
  have := (List.dropWhile_suffix (· ≠ '>') (l := cs)).length_le
  simp only [toBracket, List.length_drop]
  omega

theorem length_tag? {quote : Option Char} {cs inner rest : List Char} (h : tag? quote cs = some (inner, rest)) :
    rest.length ≤ cs.length := by
  fun_induction tag? quote cs generalizing inner rest <;>
    simp only [Option.map_eq_some_iff, reduceCtorEq, Option.some.injEq, Prod.mk.injEq, Prod.exists] at h
  case case3 => simp [← h.2]
  all_goals
    rename_i ih
    obtain ⟨i, r, hr, _, rfl⟩ := h
    exact Nat.le_succ_of_le (ih hr)

def Step.rest : Step → List Char
  | .finished | .fault _ => []
  | .passed rest | .event _ _ rest => rest

theorem length_rest_markupStep (names : List (List Char)) (cs : List Char) :
    (markupStep names cs).rest.length ≤ cs.length := by
  unfold markupStep
  split
  · simp [Step.rest]
  · split
    · simp [Step.rest]
    · rename_i h
      exact Nat.le_succ_of_le (length_declaration h)
  · rename_i body
    have := length_toBracket body
    unfold closingStep
    grind [Step.rest, List.length_cons]
  · rename_i body
    have := length_toBracket body
    unfold instructionStep
    grind [Step.rest, List.length_cons]
  · unfold tagStep
    split
    · simp [Step.rest]
    · rename_i h
      have := length_tag? h
      split <;> exact this

/-! ### The whole text -/

/-- Reads on with the elements `names` open, the innermost first. -/
def readFrom (names : List (List Char)) (cs : List Char) : Reading :=
  match _h : cs.dropWhile (· ≠ '<') with
  | [] => ⟨[], none⟩
  | _ :: markup =>
    match _hs : markupStep names markup with
    | .finished => ⟨[], none⟩
    | .fault f => ⟨[], some f⟩
    | .passed rest => readFrom names rest
    | .event e inside rest =>
      let reading := readFrom inside rest
      { reading with events := e :: reading.events }
termination_by cs.length
decreasing_by
  all_goals
    have l := (List.dropWhile_suffix (· ≠ '<') (l := cs)).length_le
    rw [_h, List.length_cons] at l
    have r := length_rest_markupStep names markup
    rw [_hs] at r
    exact Nat.lt_of_le_of_lt r l

def read (text : String) : Reading :=
  readFrom [] text.toList

end ResourceIndex.Markup
