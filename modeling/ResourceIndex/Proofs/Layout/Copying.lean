import ResourceIndex.Proofs.Layout.Renaming
import ResourceIndex.Proofs.Layout.Writing

/-!
# Copies of elements

Values are read as they are written and written with their marks escaped, also those that an escaped form in the text
has brought in: a copy of `&amp;` is `&amp;amp;`. So a copy with all attributes and no id renamed is the element itself
exactly if no value, and no namespace in use, has a mark.
-/

namespace ResourceIndex.Layout

open Markup (IsName)

/-! ### Elements that were read -/

namespace Element

variable {text : String} {tag : Markup.Tag} {e : Element} {a : Attribute}

theorem exists_tag_of_ofText (h : ofText text = .ok e) : ∃ tag, ofTag tag = .ok e := by
  simp only [ofText] at h
  split at h
  next tag _ => exact ⟨tag, h⟩
  next => split at h <;> exact absurd h (by simp)

/-- Each attribute of an element that was read stands in its tag, and is no declaration there. -/
theorem exists_raw_of_ofTag (h : ofTag tag = .ok e) (ha : a ∈ e.attributes) :
    ∃ (bound : List (List Char × List Char)) (key : List Char),
      declaredPrefix? key = none ∧ key ≠ declarationKey ∧ resolveKey bound key = .ok a.name := by
  obtain ⟨raw, -, h⟩ := bind_eq_ok h
  obtain ⟨attributes, hattributes, h⟩ := bind_eq_ok h
  obtain rfl : ⟨String.ofList tag.name, attributes⟩ = e := Except.ok.inj h
  obtain ⟨found, hfound, hresolve⟩ := exists_of_mem_mapM hattributes ha
  obtain ⟨name, hname, h⟩ := bind_eq_ok hresolve
  obtain rfl : ⟨name, String.ofList found.value⟩ = a := Except.ok.inj h
  obtain ⟨-, hproper⟩ := List.mem_filter.mp hfound
  simp only [Bool.and_eq_true, Option.isNone_iff_eq_none, decide_eq_true_eq] at hproper
  exact ⟨bindings raw, found.key, hproper.1, hproper.2, hname⟩

/-- A name that was resolved without a namespace is the whole key, which has no colon. -/
theorem resolveKey_none {bound : List (List Char × List Char)} {key : List Char} {n : AttributeName}
    (h : resolveKey bound key = .ok n) (huri : n.uri = none) : key = n.name.toList ∧ ':' ∉ key := by
  simp only [resolveKey] at h
  split at h
  next hwhole =>
    obtain rfl := Except.ok.inj h
    exact ⟨String.toList_ofList.symm, fun hcolon => absurd (List.dropWhile_eq_nil_iff.mp hwhole _ hcolon) (by simp)⟩
  next =>
    split at h
    next =>
      obtain rfl := Except.ok.inj h
      exact absurd huri (by simp)
    next => exact absurd h (by simp)

theorem unqualified_of_ofText (h : ofText text = .ok e) (ha : a ∈ e.attributes) (huri : a.name.uri = none) :
    ':' ∉ a.name.name.toList ∧ a.name.name.toList ≠ declarationKey := by
  obtain ⟨tag, htag⟩ := exists_tag_of_ofText h
  obtain ⟨bound, key, -, hkey, hname⟩ := exists_raw_of_ofTag htag ha
  obtain ⟨rfl, hcolon⟩ := resolveKey_none hname huri
  exact ⟨hcolon, hkey⟩

end Element

/-! ### Elements without marks -/

theorem Attribute.escaped_eq_iff (a : Attribute) :
    a.escaped = a ↔ (∀ uri ∈ a.name.uri, IsUnmarked uri) ∧ IsUnmarked a.value := by
  obtain ⟨⟨uri, name⟩, value⟩ := a
  rw [escaped, Attribute.mk.injEq, AttributeName.mk.injEq, Layout.escaped_eq_iff]
  cases uri with
  | none => simp
  | some uri => simp [Layout.escaped_eq_iff]

theorem Element.escaped_eq_iff (e : Element) :
    e.escaped = e ↔ (∀ a ∈ e.attributes, IsUnmarked a.value) ∧ ∀ uri ∈ namespaces e.attributes, IsUnmarked uri := by
  obtain ⟨tag, attributes⟩ := e
  have hnamespaces : (∀ uri ∈ namespaces attributes, IsUnmarked uri) ↔
      ∀ a ∈ attributes, ∀ uri ∈ a.name.uri, IsUnmarked uri := by
    simp only [namespaces, List.mem_filterMap, forall_exists_index, and_imp, Option.mem_def]
    exact ⟨fun h a ha uri huri => h uri a ha huri, fun h uri a ha huri => h a ha uri huri⟩
  have hattributes : attributes.map Attribute.escaped = attributes ↔ ∀ a ∈ attributes, a.escaped = a := by
    have hinj := @List.map_inj_left _ _ attributes Attribute.escaped id
    rwa [List.map_id] at hinj
  rw [escaped, Element.mk.injEq, hattributes, hnamespaces, ← forall₂_and]
  simp only [true_and, Attribute.escaped_eq_iff, and_comm]

/-! ### Copies -/

/-- An element that was read, with plain names and no attribute there twice, is always copied, and its copy is read as
the element with its values escaped. This is the element itself exactly if nothing in it had to be escaped. -/
theorem render_copy {text : String} {e : Element} {prefixes : List (String × String)}
    (htext : Element.ofText text = .ok e) (htag : IsName e.tag.toList)
    (hnames : ∀ a ∈ e.attributes, IsName a.name.name.toList) (hnodup : (e.attributes.map (·.name)).Nodup)
    (hs : Suits prefixes e.attributes) :
    ∃ copy, Element.render prefixes { e with attributes := copyAttributes [] [] e.attributes } = .ok copy ∧
      Element.ofText copy = .ok e.escaped ∧
      (Element.ofText copy = .ok e ↔
        (∀ a ∈ e.attributes, IsUnmarked a.value) ∧ ∀ uri ∈ namespaces e.attributes, IsUnmarked uri) := by
  have hplain : e.IsPlain := ⟨htag, hnames, fun a ha => Element.unqualified_of_ofText htext ha, hnodup⟩
  obtain ⟨copy, hrender, hread⟩ := hplain.exists_render hs
  refine ⟨copy, by rwa [copyAttributes_nil_nil], hread, ?_⟩
  rw [hread, Except.ok.injEq, Element.escaped_eq_iff]

/-- A caption without marks is copied as it is, also behind another prefix. -/
theorem render_copy_caption :
    let e : Element := ⟨"Button", [⟨⟨some "u", "text"⟩, "OK"⟩]⟩
    Element.ofText "<Button xmlns:a=\"u\" a:text=\"OK\"/>" = .ok e ∧
      ∃ copy, Element.render [("u", "b")] { e with attributes := copyAttributes [] [] e.attributes } = .ok copy ∧
        Element.ofText copy = .ok e := by
  intro e
  let head : Markup.Head :=
    ⟨"Button".toList, [⟨"xmlns:a".toList, "u".toList⟩, ⟨"a:text".toList, "OK".toList⟩]⟩
  have hhead : head.SpelledAs " xmlns:a=\"u\" a:text=\"OK\"".toList := {
    name := by decide
    nodup := by decide
    attributes :=
      .cons_plain (.inl rfl) (by decide) (by decide) <|
      .cons_plain (.inl rfl) (by decide) (by decide) <| .nil (List.forall_mem_nil _) }
  have hresolve : (proper head.attributes).mapM (resolve (bindings head.attributes)) =
      .ok [⟨⟨some (String.ofList "u".toList), String.ofList "text".toList⟩, String.ofList "OK".toList⟩] := rfl
  have htext : Element.ofText "<Button xmlns:a=\"u\" a:text=\"OK\"/>" = .ok e := by
    simpa [head] using Element.ofText_of_spelledAs hhead hresolve []
  have hplain : IsPrefix "b" := ⟨by decide, by decide, by decide⟩
  have hsuits : Suits [("u", "b")] e.attributes := by
    constructor
    · simpa [e, namespaces] using hplain
    · simp [e, namespaces]
  have hvalues : (∀ a ∈ e.attributes, IsUnmarked a.value) ∧ ∀ uri ∈ namespaces e.attributes, IsUnmarked uri := by
    simp [e, namespaces, IsUnmarked, isMark]
  have htag : IsName e.tag.toList := by decide
  have hnames : ∀ a ∈ e.attributes, IsName a.name.name.toList := by
    intro a ha
    obtain rfl := List.mem_singleton.mp ha
    decide
  obtain ⟨copy, hrender, -, hiff⟩ := render_copy htext htag hnames (by decide) hsuits
  exact ⟨htext, copy, hrender, hiff.mpr hvalues⟩

/-- A tag into which any caption without quotes can be written. -/
theorem ofText_button {text caption : String} (hcaption : '"' ∉ caption.toList)
    (htext : text.toList = "<Button text=\"".toList ++ (caption.toList ++ "\"/>".toList)) :
    Element.ofText text = .ok ⟨"Button", [⟨⟨none, "text"⟩, caption⟩]⟩ := by
  let raw : Markup.RawAttribute := ⟨"text".toList, caption.toList⟩
  let spelling := ' ' :: (raw.key ++ '=' :: '"' :: (raw.value ++ ['"']))
  have htag : IsName "Button".toList := by decide
  have hkey : IsName "text".toList := by decide
  have hhead : (⟨"Button".toList, [raw]⟩ : Markup.Head).SpelledAs spelling :=
    ⟨htag, List.nodup_singleton _, .cons_plain (.inl rfl) hkey hcaption (.nil (List.forall_mem_nil _))⟩
  have hresolve : (proper [raw]).mapM (resolve (bindings [raw])) =
      .ok [⟨⟨none, "text"⟩, String.ofList caption.toList⟩] := rfl
  have hspelled : text = String.ofList ('<' :: ("Button".toList ++ (spelling ++ ['/', '>']))) := by
    rw [← String.toList_inj, htext, String.toList_ofList]
    simp [spelling, raw]
  rw [hspelled, Element.ofText_of_spelledAs hhead hresolve [], String.ofList_toList, String.ofList_toList]

/-- The copy of an escaped mark is not what it was copied from. -/
theorem ofText_copy_ne :
    let e : Element := ⟨"Button", [⟨⟨none, "text"⟩, "&amp;"⟩]⟩
    let copy := "<Button text=\"&amp;amp;\"/>"
    Element.ofText "<Button text=\"&amp;\"/>" = .ok e ∧ Suits [] e.attributes ∧
      Element.render [] { e with attributes := copyAttributes [] [] e.attributes } = .ok copy ∧
      Element.ofText copy = .ok ⟨"Button", [⟨⟨none, "text"⟩, "&amp;amp;"⟩]⟩ ∧ Element.ofText copy ≠ .ok e := by
  intro e copy
  have hsuits : Suits [] e.attributes := ⟨by simp [e, namespaces], by simp [e, namespaces]⟩
  have hrender : Element.render [] e = .ok copy := by
    rw [Element.render_eq hsuits]
    exact congrArg Except.ok (String.toList_inj.mp (by decide))
  have hcopy : Element.ofText copy = .ok ⟨"Button", [⟨⟨none, "text"⟩, "&amp;amp;"⟩]⟩ :=
    ofText_button (by decide) (by decide)
  refine ⟨ofText_button (by decide) (by decide), hsuits, ?_, hcopy, ?_⟩
  · rw [copyAttributes_nil_nil]
    exact hrender
  · rw [hcopy, Ne, Except.ok.injEq]
    decide

end ResourceIndex.Layout
