import Mathlib.Data.List.Nodup
import Mathlib.Data.List.TakeWhile
import ResourceIndex.Markup.Event

/-!
# Spelled tags

A tag can be spelled in many ways: with blanks between and inside its attributes, and with quotes of either kind. All of
them are read alike. The reader finds the end of the tag, which no quoted text hides or feigns, and the attributes that
are written in it, with their keys and raw values, in their order.
-/

namespace ResourceIndex.Markup

/-- The name of an element and its attributes, however they are spelled. -/
structure Head where
  name : List Char
  attributes : List RawAttribute
deriving DecidableEq, Repr

/-- The value of the attribute with this key. -/
def Head.value? (h : Head) (key : List Char) : Option (List Char) :=
  (h.attributes.find? (·.key = key)).map (·.value)

/-- What can be read in a tag. -/
def Tag.head (t : Tag) : Head :=
  ⟨t.name, t.readable⟩

/-- The character may stand in a name: it is no blank, and none of the marks that tags are made of. -/
def isNameChar (c : Char) : Bool :=
  !isBlank c && c ∉ ['<', '>', '/', '=', '"', '\'', '!', '?']

def IsName (cs : List Char) : Prop :=
  cs ≠ [] ∧ ∀ c ∈ cs, isNameChar c

instance (cs : List Char) : Decidable (IsName cs) :=
  @instDecidableAnd _ _ inferInstance (List.decidableBAll _ cs)

/-- The ways to spell attributes behind the name of a tag: each behind blanks, with or without blanks around its `=`,
and in quotes that its value does not contain. Blanks may follow the last one. -/
inductive Spelled : List RawAttribute → List Char → Prop
  | nil {blanks : List Char} (hblanks : ∀ c ∈ blanks, isBlank c) : Spelled [] blanks
  | cons {a : RawAttribute} {attributes : List RawAttribute} {gap before after rest : List Char} {quote : Char}
    (hkey : IsName a.key) (hgap : gap ≠ []) (hblanks : ∀ c ∈ gap ++ before ++ after, isBlank c)
    (hquote : quote = '"' ∨ quote = '\'') (hvalue : quote ∉ a.value) (hrest : Spelled attributes rest) :
    Spelled (a :: attributes) (gap ++ (a.key ++ (before ++ '=' :: (after ++ quote :: (a.value ++ quote :: rest)))))

/-- A text behind the name of a tag that spells the attributes of an element; no two of them have one key. -/
structure Head.SpelledAs (h : Head) (rest : List Char) : Prop where
  name : IsName h.name
  nodup : (h.attributes.map (·.key)).Nodup
  attributes : Spelled h.attributes rest

variable {a : RawAttribute} {attributes : List RawAttribute} {cs rest name : List Char}

/-- The plain way: one space, and none around the `=`. -/
theorem Spelled.cons_plain {quote : Char} (hquote : quote = '"' ∨ quote = '\'') (hkey : IsName a.key)
    (hvalue : quote ∉ a.value) (hrest : Spelled attributes rest) :
    Spelled (a :: attributes) (' ' :: (a.key ++ '=' :: quote :: (a.value ++ quote :: rest))) :=
  @Spelled.cons a attributes [' '] [] [] rest quote hkey (by simp) (by simp [isBlank]) hquote hvalue hrest

/-- Attributes can be spelled if their keys are names and some quote is missing in each value. -/
theorem exists_spelled_iff :
    (∃ cs, Spelled attributes cs) ↔ ∀ a ∈ attributes, IsName a.key ∧ ('"' ∉ a.value ∨ '\'' ∉ a.value) := by
  constructor
  · rintro ⟨cs, h⟩
    induction h with
    | nil => exact List.forall_mem_nil _
    | cons hkey _ _ hquote hvalue _ ih =>
      refine List.forall_mem_cons.mpr ⟨⟨hkey, ?_⟩, ih⟩
      rcases hquote with rfl | rfl
      · exact .inl hvalue
      · exact .inr hvalue
  · intro h
    induction attributes with
    | nil => exact ⟨[], .nil (List.forall_mem_nil _)⟩
    | cons a attributes ih =>
      obtain ⟨⟨hkey, hvalue⟩, hrest⟩ := List.forall_mem_cons.mp h
      obtain ⟨cs, hcs⟩ := ih hrest
      rcases hvalue with hvalue | hvalue
      · exact ⟨_, .cons_plain (.inl rfl) hkey hvalue hcs⟩
      · exact ⟨_, .cons_plain (.inr rfl) hkey hvalue hcs⟩

/-! ### Blanks and names -/

theorem isBlank_eq_false_of_isNameChar {c : Char} (h : isNameChar c) : isBlank c = false := by
  simp only [isNameChar, Bool.and_eq_true, Bool.not_eq_true'] at h
  exact h.1

theorem not_mem_marks_of_isNameChar {c : Char} (h : isNameChar c) :
    c ∉ ['<', '>', '/', '=', '"', '\'', '!', '?'] := by
  simp only [isNameChar, Bool.and_eq_true, decide_eq_true_eq] at h
  exact h.2

theorem isKeyChar_of_isNameChar {c : Char} (h : isNameChar c) : isKeyChar c := by
  have hne : c ≠ '=' := fun heq => not_mem_marks_of_isNameChar h (by simp [heq])
  simp [isKeyChar, hne, isBlank_eq_false_of_isNameChar h]

/-- A name and what follows it start with a character that is not blank. -/
theorem IsName.dropWhile_isBlank (h : IsName name) (rest : List Char) :
    (name ++ rest).dropWhile isBlank = name ++ rest := by
  obtain ⟨hne, hchars⟩ := h
  cases name with
  | nil => exact absurd rfl hne
  | cons c cs =>
    have hc : isBlank c = false := isBlank_eq_false_of_isNameChar (hchars c List.mem_cons_self)
    rw [List.cons_append, List.dropWhile_cons_of_neg (by simp [hc])]

/-! ### The attributes of a tag -/

/-- What follows a key up to its `=` belongs to no key. -/
theorem isKeyChar_getElem_zero {before : List Char} (hbefore : ∀ c ∈ before, isBlank c) (more : List Char) :
    ∀ h : 0 < (before ++ '=' :: more).length, ¬isKeyChar (before ++ '=' :: more)[0] := by
  intro h
  cases before with
  | nil => simp [isKeyChar]
  | cons b before => simp [isKeyChar, hbefore b List.mem_cons_self]

theorem valueStep_quoted {size : Nat} {key after : List Char} {seen : List (List Char × Nat)} {quote : Char}
    {value : List Char} (hafter : ∀ c ∈ after, isBlank c) (hquote : quote = '"' ∨ quote = '\'')
    (hvalue : quote ∉ value) :
    valueStep size key seen (after ++ quote :: (value ++ quote :: rest)) = ⟨.ok ⟨key, value⟩, seen, rest⟩ := by
  have hblank : isBlank quote = false := by rcases hquote with rfl | rfl <;> rfl
  have hdrop : (after ++ quote :: (value ++ quote :: rest)).dropWhile isBlank = quote :: (value ++ quote :: rest) := by
    rw [List.dropWhile_append_of_pos hafter, List.dropWhile_cons_of_neg (by simp [hblank])]
  have hinside : ∀ c ∈ value, decide (c ≠ quote) = true :=
    fun c hc => decide_eq_true fun heq => hvalue (heq ▸ hc)
  have hbody : (value ++ quote :: rest).dropWhile (· ≠ quote) = quote :: rest := by
    rw [List.dropWhile_append_of_pos hinside, List.dropWhile_cons_of_neg (by simp)]
  have htaken : (value ++ quote :: rest).takeWhile (· ≠ quote) = value := by
    rw [List.takeWhile_append_of_pos hinside, List.takeWhile_cons_of_neg (by simp), List.append_nil]
  simp only [valueStep, hdrop, if_pos hquote, hbody, htaken]

theorem attributeStep?_spelled {seen : List (List Char × Nat)} {gap before after : List Char} {quote : Char}
    (size : Nat) (behind : List Char) (hkey : IsName a.key) (hblanks : ∀ c ∈ gap ++ before ++ after, isBlank c)
    (hquote : quote = '"' ∨ quote = '\'') (hvalue : quote ∉ a.value) (hseen : a.key ∉ seen.map (·.1)) :
    ∃ position, attributeStep? size seen
      (gap ++ (a.key ++ (before ++ '=' :: (after ++ quote :: (a.value ++ quote :: behind))))) =
        some ⟨.ok a, (a.key, position) :: seen, behind⟩ := by
  simp only [List.mem_append, or_imp, forall_and] at hblanks
  obtain ⟨⟨hgap, hbefore⟩, hafter⟩ := hblanks
  have hfresh : seen.find? (·.1 = a.key) = none :=
    List.find?_eq_none.mpr fun entry hentry heq => hseen (List.mem_map.mpr ⟨entry, hentry, by simpa using heq⟩)
  obtain ⟨key, value⟩ := a
  cases key with
  | nil => exact absurd rfl hkey.1
  | cons first more =>
    have hmore : ∀ c ∈ more, isKeyChar c :=
      fun c hc => isKeyChar_of_isNameChar (hkey.2 c (List.mem_cons_of_mem _ hc))
    have hdrop := hkey.dropWhile_isBlank (before ++ '=' :: (after ++ quote :: (value ++ quote :: behind)))
    have hhead := isKeyChar_getElem_zero hbefore (after ++ quote :: (value ++ quote :: behind))
    rw [attributeStep?, List.dropWhile_append_of_pos hgap, hdrop]
    simp only [List.cons_append, List.takeWhile_append_of_pos hmore, List.dropWhile_append_of_pos hmore,
      List.takeWhile_eq_nil_iff.mpr hhead, List.dropWhile_eq_self_iff.mpr hhead, List.append_nil,
      List.dropWhile_append_of_pos hbefore]
    rw [List.dropWhile_cons_of_neg (by decide)]
    simp only [if_pos, hfresh, valueStep_quoted hafter hquote hvalue]
    exact ⟨_, rfl⟩

/-- Spelled attributes are read as they are written, whatever the size of the tag. -/
theorem Spelled.attributesFrom (h : Spelled attributes cs) (size : Nat) {seen : List (List Char × Nat)}
    (hnodup : (seen.map (·.1) ++ attributes.map (·.key)).Nodup) :
    attributesFrom size seen cs = attributes.map .ok := by
  induction h generalizing seen with
  | nil hblanks =>
    have hdrop : _ = [] := List.dropWhile_eq_nil_iff.mpr hblanks
    rw [Markup.attributesFrom, attributeStep?, hdrop]
    rfl
  | @cons a attributes gap before after rest quote hkey _ hblanks hquote hvalue _ ih =>
    rw [List.map_cons, List.nodup_middle] at hnodup
    have hfresh : a.key ∉ seen.map (·.1) := fun hmem => (List.nodup_cons.mp hnodup).1 (List.mem_append_left _ hmem)
    obtain ⟨position, hstep⟩ := attributeStep?_spelled size rest hkey hblanks hquote hvalue hfresh
    rw [Markup.attributesFrom, hstep]
    simp only [List.map_cons]
    rw [ih (by simpa using hnodup)]

theorem Head.SpelledAs.attributes_eq {h : Head} (hs : h.SpelledAs rest) :
    (⟨h.name, rest⟩ : Tag).attributes = h.attributes.map .ok :=
  hs.attributes.attributesFrom _ hs.nodup

theorem Head.SpelledAs.head_eq {h : Head} (hs : h.SpelledAs rest) : (⟨h.name, rest⟩ : Tag).head = h := by
  have hread : (⟨h.name, rest⟩ : Tag).readable = h.attributes := by
    rw [Tag.readable, hs.attributes_eq, List.filterMap_map]
    exact List.filterMap_some
  rw [Tag.head, hread]

/-! ### The end of a tag -/

/-- Every quote in the text is closed in it, and no bracket stands outside of quotes: a tag goes on behind it. -/
def Continues (cs : List Char) : Prop :=
  ∀ rest, tag? none (cs ++ rest) = (tag? none rest).map fun (inner, behind) => (cs ++ inner, behind)

theorem Continues.append {left right : List Char} (hleft : Continues left) (hright : Continues right) :
    Continues (left ++ right) := by
  intro rest
  rw [List.append_assoc, hleft, hright, Option.map_map]
  simp only [Function.comp_def, List.append_assoc]

theorem continues_of_plain (h : ∀ c ∈ cs, c ∉ ['>', '"', '\'']) : Continues cs := by
  induction cs with
  | nil => exact fun rest => by simp
  | cons c cs ih =>
    intro rest
    have hc : c ≠ '>' ∧ ¬(c = '"' ∨ c = '\'') := by simpa using h c List.mem_cons_self
    rw [List.cons_append, tag?]
    simp only [if_neg hc.1, if_neg hc.2]
    rw [ih (fun d hd => h d (List.mem_cons_of_mem _ hd)), Option.map_map]
    rfl

theorem tag?_inside_quotes {quote : Char} {value : List Char} (h : quote ∉ value) (rest : List Char) :
    tag? (some quote) (value ++ quote :: rest) =
      (tag? none rest).map fun (inner, behind) => (value ++ quote :: inner, behind) := by
  induction value with
  | nil => simp [tag?]
  | cons c value ih =>
    obtain ⟨hne, hvalue⟩ := List.ne_and_not_mem_of_not_mem_cons h
    rw [List.cons_append, tag?]
    simp only [if_neg hne.symm]
    rw [ih hvalue, Option.map_map]
    rfl

theorem continues_quoted {quote : Char} {value : List Char} (hquote : quote = '"' ∨ quote = '\'')
    (hvalue : quote ∉ value) : Continues (quote :: (value ++ [quote])) := by
  intro rest
  have hne : quote ≠ '>' := by rcases hquote with rfl | rfl <;> decide
  rw [List.cons_append, tag?]
  simp only [if_neg hne, if_pos hquote]
  rw [List.append_assoc, List.singleton_append, tag?_inside_quotes hvalue, Option.map_map]
  simp [Function.comp_def]

theorem continues_of_blank (h : ∀ c ∈ cs, isBlank c) : Continues cs := by
  refine continues_of_plain fun c hc hmark => ?_
  have hblank := h c hc
  simp only [List.mem_cons, List.not_mem_nil, or_false] at hmark
  rcases hmark with rfl | rfl | rfl <;> exact absurd hblank (by decide)

theorem IsName.continues (h : IsName name) : Continues name := by
  refine continues_of_plain fun c hc hmark => not_mem_marks_of_isNameChar (h.2 c hc) ?_
  simp only [List.mem_cons, List.not_mem_nil, or_false] at hmark ⊢
  tauto

theorem Spelled.continues (h : Spelled attributes cs) : Continues cs := by
  induction h with
  | nil hblanks => exact continues_of_blank hblanks
  | @cons a attributes gap before after rest quote hkey _ hblanks hquote hvalue _ ih =>
    simp only [List.mem_append, or_imp, forall_and] at hblanks
    obtain ⟨⟨hgap, hbefore⟩, hafter⟩ := hblanks
    have hequals : Continues ['='] := continues_of_plain (by simp)
    have hall := (continues_of_blank hgap).append <| hkey.continues.append <| (continues_of_blank hbefore).append <|
      hequals.append <| (continues_of_blank hafter).append <| (continues_quoted hquote hvalue).append ih
    simpa using hall

/-- What is spelled behind a name starts with a blank, if it is not empty. -/
theorem Spelled.isBlank_getElem_zero (h : Spelled attributes cs) : ∀ hl : 0 < cs.length, isBlank cs[0] := by
  intro hl
  cases h with
  | nil hblanks => exact hblanks _ (List.getElem_mem hl)
  | @cons a attributes gap before after rest quote _ hgap hblanks =>
    cases gap with
    | nil => exact absurd rfl hgap
    | cons c gap => exact hblanks c (by simp)

theorem Spelled.getLast?_ne (h : Spelled attributes cs) : cs.getLast? ≠ some '/' := by
  induction h with
  | nil hblanks => exact fun hlast => absurd (hblanks '/' (List.mem_of_getLast? hlast)) (by decide)
  | @cons a attributes gap before after rest quote _ _ _ hquote _ _ ih =>
    have hne : quote ≠ '/' := by rcases hquote with rfl | rfl <;> decide
    have hlast : (a.value ++ quote :: rest).getLast? ≠ some '/' := by
      rw [List.getLast?_append, List.getLast?_cons]
      cases hrest : rest.getLast? with
      | none => simpa using hne
      | some c =>
        rw [hrest] at ih
        simpa using ih
    simpa [List.getLast?_append, List.getLast?_cons] using hlast

theorem IsName.getLast?_ne (h : IsName name) : name.getLast? ≠ some '/' :=
  fun hlast => not_mem_marks_of_isNameChar (h.2 '/' (List.mem_of_getLast? hlast)) (by simp)

/-- A name ends where the attributes behind it begin. -/
theorem Head.SpelledAs.ofContent {h : Head} (hs : h.SpelledAs rest) :
    Tag.ofContent (h.name ++ rest) = ⟨h.name, rest⟩ := by
  have hname : ∀ c ∈ h.name, (!isBlank c) = true :=
    fun c hc => by simp [isBlank_eq_false_of_isNameChar (hs.name.2 c hc)]
  have hrest : ∀ hl : 0 < rest.length, ¬(!isBlank rest[0]) = true :=
    fun hl => by simp [hs.attributes.isBlank_getElem_zero hl]
  rw [Tag.ofContent, List.takeWhile_append_of_pos hname, List.dropWhile_append_of_pos hname,
    List.takeWhile_eq_nil_iff.mpr hrest, List.dropWhile_eq_self_iff.mpr hrest, List.append_nil]

/-- A name behind `<` starts a tag and no other piece. -/
theorem IsName.markupStep_eq (h : IsName name) (names : List (List Char)) (cs : List Char) :
    markupStep names (name ++ cs) = tagStep names (name ++ cs) := by
  cases name with
  | nil => exact absurd rfl h.1
  | cons c name =>
    have hc := not_mem_marks_of_isNameChar (h.2 c List.mem_cons_self)
    simp only [List.mem_cons, List.not_mem_nil, or_false, not_or] at hc
    rw [List.cons_append, markupStep] <;> simp [hc]

theorem Head.SpelledAs.markupStep_opened {h : Head} (hs : h.SpelledAs rest) (names : List (List Char))
    (behind : List Char) :
    markupStep names (h.name ++ (rest ++ '>' :: behind)) =
      .event (.opened ⟨h.name, rest⟩) (h.name :: names) behind := by
  have htag : tag? none (h.name ++ (rest ++ '>' :: behind)) = some (h.name ++ rest, behind) := by
    rw [← List.append_assoc, hs.name.continues.append hs.attributes.continues]
    simp [tag?]
  have hlast : (h.name ++ rest).getLast? ≠ some '/' := by
    rw [List.getLast?_append]
    cases hrest : rest.getLast? with
    | none => exact hs.name.getLast?_ne
    | some c => exact fun heq => hs.attributes.getLast?_ne (hrest.trans heq)
  rw [hs.name.markupStep_eq, tagStep, htag]
  simp only [if_neg hlast, hs.ofContent]

theorem Head.SpelledAs.markupStep_empty {h : Head} (hs : h.SpelledAs rest) (names : List (List Char))
    (behind : List Char) :
    markupStep names (h.name ++ (rest ++ '/' :: '>' :: behind)) = .event (.empty ⟨h.name, rest⟩) names behind := by
  have hslash : Continues ['/'] := continues_of_plain (by simp)
  have htag : tag? none (h.name ++ (rest ++ '/' :: '>' :: behind)) = some (h.name ++ rest ++ ['/'], behind) := by
    have hall := (hs.name.continues.append hs.attributes.continues).append hslash ('>' :: behind)
    simpa [tag?] using hall
  rw [hs.name.markupStep_eq, tagStep, htag]
  simp [hs.ofContent]

end ResourceIndex.Markup
