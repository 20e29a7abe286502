import ResourceIndex.Proofs.Fallible.Steps
import ResourceIndex.Proofs.Layout.Keys
import ResourceIndex.Proofs.Markup.Forest
import ResourceIndex.Proofs.Table

/-!
# Written elements

An element with plain names, and prefixes that suit its namespaces, is always written. Reading the text gives the
element back, except that values and namespaces are read as they are written: with every mark that markup is made of in
its escaped form.
-/

namespace ResourceIndex.Layout

open Markup (IsName RawAttribute Head Spelled)

/-! ### Escaped values -/

/-- The character has a written form of its own. -/
def isMark (c : Char) : Prop :=
  c ∈ ['<', '>', '&', '\'', '"']

namespace Element

theorem escapeChar_of_not_isMark {c : Char} (h : ¬isMark c) : escapeChar c = [c] := by
  simp only [isMark, List.mem_cons, List.not_mem_nil, or_false, not_or] at h
  unfold escapeChar
  split <;> simp at h ⊢

/-- The written form of a mark has a `;`, so it is never the mark alone. -/
theorem escapeChar_of_isMark {c : Char} (h : isMark c) : 1 < (escapeChar c).length ∧ '"' ∉ escapeChar c := by
  simp only [isMark, List.mem_cons, List.not_mem_nil, or_false] at h
  obtain rfl | rfl | rfl | rfl | rfl := h <;> decide

theorem quote_not_mem_escape (value : String) : '"' ∉ escape value := by
  rw [escape, List.mem_flatMap]
  rintro ⟨c, -, hquote⟩
  by_cases h : isMark c
  · exact (escapeChar_of_isMark h).2 hquote
  · rw [escapeChar_of_not_isMark h, List.mem_singleton] at hquote
    exact h (by simp [isMark, ← hquote])

theorem length_le_flatMap_escapeChar (cs : List Char) : cs.length ≤ (cs.flatMap escapeChar).length := by
  induction cs with
  | nil => exact Nat.le_refl 0
  | cons c cs ih =>
    have hc : 1 ≤ (escapeChar c).length := by
      by_cases h : isMark c
      · exact (escapeChar_of_isMark h).1.le
      · rw [escapeChar_of_not_isMark h, List.length_singleton]
    rw [List.flatMap_cons, List.length_append, List.length_cons]
    omega

/-- A value is written as it is only if it has no mark. -/
theorem escape_eq_iff (value : String) : escape value = value.toList ↔ ∀ c ∈ value.toList, ¬isMark c := by
  rw [escape]
  induction value.toList with
  | nil => simp
  | cons c cs ih =>
    rw [List.flatMap_cons, List.forall_mem_cons]
    by_cases h : isMark c
    · have hlong := (escapeChar_of_isMark h).1
      have hrest := length_le_flatMap_escapeChar cs
      refine ⟨fun heq => ?_, fun hand => absurd h hand.1⟩
      have hlength := congrArg List.length heq
      rw [List.length_append, List.length_cons] at hlength
      omega
    · rw [escapeChar_of_not_isMark h, List.singleton_append, List.cons.injEq, ih]
      simp [h]

end Element

/-- The text of a value as it is written. -/
def escaped (value : String) : String :=
  String.ofList (Element.escape value)

/-- A text without marks is written as it is. -/
def IsUnmarked (value : String) : Prop :=
  ∀ c ∈ value.toList, ¬isMark c

theorem escaped_eq_iff (value : String) : escaped value = value ↔ IsUnmarked value := by
  rw [escaped, IsUnmarked, ← Element.escape_eq_iff, ← String.toList_inj, String.toList_ofList]

/-- The attribute with its namespace and its value as they are written. -/
def Attribute.escaped (a : Attribute) : Attribute :=
  ⟨⟨a.name.uri.map Layout.escaped, a.name.name⟩, Layout.escaped a.value⟩

def Element.escaped (e : Element) : Element :=
  ⟨e.tag, e.attributes.map Attribute.escaped⟩

/-! ### Spelled elements -/

variable {e : Element} {prefixes : List (String × String)}

/-- What a tag says, however it is spelled. -/
def Element.ofHead (h : Head) : Except ElementFault Element := do
  return ⟨String.ofList h.name, ← (proper h.attributes).mapM (resolve (bindings h.attributes))⟩

/-- An element is read from its tag alone. Nothing depends on the spelling of the tag, nor on what stands around it. -/
theorem Element.ofText_eq_ofHead {h : Head} {spelling gap close : List Char} (hs : h.SpelledAs spelling)
    (hgap : Markup.IsGap gap) (hclose : close = ['>'] ∨ close = ['/', '>']) (behind : List Char) :
    ofText (String.ofList (gap ++ '<' :: (h.name ++ (spelling ++ (close ++ behind))))) = ofHead h := by
  have hraw : ((⟨h.name, spelling⟩ : Markup.Tag).attributes.mapM id).mapError ElementFault.malformed =
      .ok h.attributes := by
    rw [hs.attributes_eq, mapM_id_map_ok]
    rfl
  have htag : ofTag ⟨h.name, spelling⟩ = ofHead h := by
    rw [ofTag, hraw]
    rfl
  rw [ofText, Markup.read, String.toList_ofList, hgap, ← htag]
  obtain rfl | rfl := hclose
  · rw [List.singleton_append, hs.readFrom_opened]
    rfl
  · rw [List.cons_append, List.singleton_append, hs.readFrom_empty]
    rfl

theorem Element.ofText_of_spelledAs {h : Head} {spelling : List Char} (hs : h.SpelledAs spelling)
    {attributes : List Attribute}
    (hresolve : (proper h.attributes).mapM (resolve (bindings h.attributes)) = .ok attributes) (behind : List Char) :
    ofText (String.ofList ('<' :: (h.name ++ (spelling ++ '/' :: '>' :: behind)))) =
      .ok ⟨String.ofList h.name, attributes⟩ := by
  have hread : ofHead h = .ok ⟨String.ofList h.name, attributes⟩ := by
    rw [ofHead, hresolve]
    rfl
  exact (ofText_eq_ofHead hs Markup.isGap_nil (.inr rfl) behind).trans hread

/-! ### Written tags -/

namespace Element

/-- The keys of a written tag with their values: first its declarations, then its attributes. -/
def entries (prefixes : List (String × String)) (e : Element) : List (List Char × String) :=
  (declarations prefixes e.attributes).map (fun (p, uri) => (declarationKey ++ ':' :: p.toList, uri)) ++
    e.attributes.map fun a => (keyOf prefixes a.name, a.value)

/-- The head of a written tag. -/
def writtenHead (prefixes : List (String × String)) (e : Element) : Head :=
  ⟨e.tag.toList, (e.entries prefixes).map fun (key, value) => ⟨key, escape value⟩⟩

def spelling (entries : List (List Char × String)) : List Char :=
  entries.flatMap fun (key, value) => written key value

theorem spelled_spelling {entries : List (List Char × String)} (h : ∀ entry ∈ entries, IsName entry.1) :
    Spelled (entries.map fun (key, value) => ⟨key, escape value⟩) (spelling entries) := by
  induction entries with
  | nil => exact .nil (by simp [spelling])
  | cons entry entries ih =>
    have hrest := ih fun other hother => h other (List.mem_cons_of_mem _ hother)
    have hall := Spelled.cons_plain (a := ⟨entry.1, escape entry.2⟩) (.inl rfl) (h entry List.mem_cons_self)
      (quote_not_mem_escape entry.2) hrest
    simpa [spelling, written] using hall

theorem render_eq (hs : Suits prefixes e.attributes) :
    e.render prefixes =
      .ok (String.ofList ('<' :: (e.tag.toList ++ (spelling (e.entries prefixes) ++ ['/', '>'])))) := by
  have hkeys : e.attributes.mapM (fun a => writtenKey prefixes a.name) =
      .ok (e.attributes.map fun a => keyOf prefixes a.name) :=
    mapM_eq_ok fun a ha => hs.writtenKey_eq ha
  have hzip : (e.attributes.map fun a => keyOf prefixes a.name).zip e.attributes =
      e.attributes.map fun a => (keyOf prefixes a.name, a) := by
    simpa using @List.zip_map' _ _ _ (fun a : Attribute => keyOf prefixes a.name) id e.attributes
  rw [render, hkeys]
  simp only [bind, Except.bind, pure, Except.pure, hzip, spelling, entries, List.flatMap_map, List.flatMap_append,
    List.append_assoc, List.cons_append]

/-! ### Reading back -/

theorem mem_entries {entry : List Char × String} (h : entry ∈ e.entries prefixes) :
    (∃ p uri, (p, uri) ∈ declarations prefixes e.attributes ∧ entry = (declarationKey ++ ':' :: p.toList, uri)) ∨
      ∃ a ∈ e.attributes, entry = (keyOf prefixes a.name, a.value) := by
  obtain h | h := List.mem_append.mp h
  · obtain ⟨⟨p, uri⟩, hdeclared, rfl⟩ := List.mem_map.mp h
    exact .inl ⟨p, uri, hdeclared, rfl⟩
  · obtain ⟨a, ha, rfl⟩ := List.mem_map.mp h
    exact .inr ⟨a, ha, rfl⟩

theorem IsPlain.isName_entries (he : e.IsPlain) (hs : Suits prefixes e.attributes) :
    ∀ entry ∈ e.entries prefixes, IsName entry.1 := by
  intro entry h
  obtain ⟨p, uri, hdeclared, rfl⟩ | ⟨a, ha, rfl⟩ := mem_entries h
  · obtain ⟨huri, hlookup⟩ := mem_declarations hdeclared
    obtain ⟨q, hq, hplain⟩ := hs.exists_prefix uri huri
    obtain rfl := Option.some.inj (hlookup.symm.trans hq)
    exact isName_append_colon isName_declarationKey hplain.name
  · exact he.isName_keyOf hs ha

theorem IsPlain.nodup_entries (he : e.IsPlain) (hs : Suits prefixes e.attributes) :
    ((e.entries prefixes).map (·.1)).Nodup := by
  have hdeclared : ((declarations prefixes e.attributes).map fun d => declarationKey ++ ':' :: d.1.toList).Nodup := by
    have hinj : Function.Injective fun p : String => declarationKey ++ ':' :: p.toList := fun p q heq =>
      String.toList_inj.mp (append_colon_inj (by decide) (by decide) heq).2
    have hnodup := (nodup_declarations prefixes e.attributes).map hinj
    rwa [List.map_map] at hnodup
  have hkeys : (e.attributes.map fun a => keyOf prefixes a.name).Nodup := by
    refine List.Nodup.map_on (fun a ha b hb heq => ?_) (List.Nodup.of_map _ he.nodup)
    exact List.inj_on_of_nodup_map he.nodup ha hb (he.keyOf_inj hs ha hb heq)
  rw [entries, List.map_append, List.map_map, List.map_map]
  refine hdeclared.append hkeys fun key hleft hright => ?_
  obtain ⟨d, -, rfl⟩ := List.mem_map.mp hleft
  obtain ⟨a, ha, hkey⟩ := List.mem_map.mp hright
  have hnone : declaredPrefix? (keyOf prefixes a.name) = none := (he.declaredPrefix?_keyOf hs ha).1
  have hsome : declaredPrefix? (keyOf prefixes a.name) = some d.1.toList := declaredPrefix?_eq_some_iff.mpr hkey
  exact absurd (hnone.symm.trans hsome) (by simp)

theorem IsPlain.spelledAs (he : e.IsPlain) (hs : Suits prefixes e.attributes) :
    (e.writtenHead prefixes).SpelledAs (spelling (e.entries prefixes)) where
  name := he.tag
  nodup := by
    rw [writtenHead, List.map_map]
    exact he.nodup_entries hs
  attributes := spelled_spelling (he.isName_entries hs)

theorem attributes_writtenHead (prefixes : List (String × String)) (e : Element) :
    (e.writtenHead prefixes).attributes =
      (declarations prefixes e.attributes).map (fun d => ⟨declarationKey ++ ':' :: d.1.toList, escape d.2⟩) ++
        e.attributes.map fun a => ⟨keyOf prefixes a.name, escape a.value⟩ := by
  rw [writtenHead, entries, List.map_append, List.map_map, List.map_map]
  rfl

theorem IsPlain.bindings_writtenHead (he : e.IsPlain) (hs : Suits prefixes e.attributes) :
    bindings (e.writtenHead prefixes).attributes =
      (declarations prefixes e.attributes).map fun d => (d.1.toList, escape d.2) := by
  have hattributes : bindings (e.attributes.map fun a => ⟨keyOf prefixes a.name, escape a.value⟩) = [] := by
    rw [bindings, List.filterMap_map, List.filterMap_eq_nil_iff]
    exact fun a ha => by simp [(he.declaredPrefix?_keyOf hs ha).1]
  have hdeclared (d : String × String) : declaredPrefix? (declarationKey ++ ':' :: d.1.toList) = some d.1.toList :=
    declaredPrefix?_eq_some_iff.mpr rfl
  rw [attributes_writtenHead, bindings, List.filterMap_append, ← bindings, ← bindings, hattributes, List.append_nil,
    bindings, List.filterMap_map, ← List.filterMap_eq_map]
  exact List.filterMap_congr fun d _ => by simp [hdeclared d]

theorem IsPlain.proper_writtenHead (he : e.IsPlain) (hs : Suits prefixes e.attributes) :
    proper (e.writtenHead prefixes).attributes =
      e.attributes.map fun a => ⟨keyOf prefixes a.name, escape a.value⟩ := by
  have hdeclared : proper ((declarations prefixes e.attributes).map fun d =>
      ⟨declarationKey ++ ':' :: d.1.toList, escape d.2⟩) = [] := by
    rw [proper, List.filter_eq_nil_iff]
    intro raw hraw
    obtain ⟨d, -, rfl⟩ := List.mem_map.mp hraw
    simp [declaredPrefix?_eq_some_iff.mpr rfl]
  rw [attributes_writtenHead, proper, List.filter_append, ← proper, ← proper, hdeclared, List.nil_append, proper,
    List.filter_eq_self]
  intro raw hraw
  obtain ⟨a, ha, rfl⟩ := List.mem_map.mp hraw
  simp [he.declaredPrefix?_keyOf hs ha]

theorem lookup_declarations (hs : Suits prefixes e.attributes) {uri p : String} (huri : uri ∈ namespaces e.attributes)
    (hp : prefixes.lookup uri = some p) :
    ((declarations prefixes e.attributes).map fun d => (d.1.toList, escape d.2)).lookup p.toList =
      some (escape uri) := by
  have hinj : Function.Injective String.toList := fun _ _ => String.toList_inj.mp
  have hnodup := (nodup_declarations prefixes e.attributes).map hinj
  rw [List.map_map] at hnodup
  rw [lookup_eq_some_iff_mem (by rwa [List.map_map])]
  exact List.mem_map.mpr ⟨(p, uri), mem_declarations_of_suits hs huri hp, rfl⟩

/-- A key that was written for an attribute is resolved to its name, with the namespace as it was written. -/
theorem IsPlain.resolve_eq (he : e.IsPlain) (hs : Suits prefixes e.attributes) {a : Attribute} (ha : a ∈ e.attributes) :
    resolve (bindings (e.writtenHead prefixes).attributes) ⟨keyOf prefixes a.name, escape a.value⟩ =
      .ok a.escaped := by
  have hkey : resolveKey (bindings (e.writtenHead prefixes).attributes) (keyOf prefixes a.name) =
      .ok ⟨a.name.uri.map Layout.escaped, a.name.name⟩ := by
    rw [he.bindings_writtenHead hs]
    obtain ⟨huri, hkey⟩ | ⟨uri, p, huri, hlookup, hplain, hkey⟩ := hs.keyOf_cases ha
    · rw [hkey, resolveKey_of_not_mem (he.unqualified a ha huri).1, huri, String.ofList_toList, Option.map_none]
    · rw [hkey, resolveKey_qualified hplain.colon, huri]
      simp only [lookup_declarations hs (mem_namespaces ha huri) hlookup, String.ofList_toList]
      rfl
  rw [resolve, hkey]
  rfl

/-- A plain element is written with prefixes that suit it, and the text is read as the element with its values
escaped. -/
theorem IsPlain.exists_render (he : e.IsPlain) (hs : Suits prefixes e.attributes) :
    ∃ text, e.render prefixes = .ok text ∧ ofText text = .ok e.escaped := by
  refine ⟨_, render_eq hs, ?_⟩
  have hread : (proper (e.writtenHead prefixes).attributes).mapM
      (resolve (bindings (e.writtenHead prefixes).attributes)) = .ok (e.attributes.map Attribute.escaped) := by
    rw [he.proper_writtenHead hs, List.mapM_map]
    exact mapM_eq_ok fun a ha => he.resolve_eq hs ha
  have htext := ofText_of_spelledAs (he.spelledAs hs) hread []
  rw [writtenHead, String.ofList_toList] at htext
  exact htext

end Element

end ResourceIndex.Layout
