import ResourceIndex.Proofs.Layout.Writing

/-!
# Values stay in their attributes

Whatever stands in the values of an element, the text that is written for it is read as an element with the same tag and
with attributes of the same names, in the same order: no value adds an attribute, drops, renames or merges one. The only
fault in writing is a namespace without a prefix, and the first one is told.
-/

namespace ResourceIndex.Layout

namespace Element

variable {prefixes : List (String × String)} {e : Element}

/-- The first namespace of the attributes that has no prefix. -/
def unknownNamespace? (prefixes : List (String × String)) (attributes : List Attribute) : Option String :=
  (namespaces attributes).find? fun uri => (prefixes.lookup uri).isNone

theorem unknownNamespace?_cons (a : Attribute) (attributes : List Attribute) :
    unknownNamespace? prefixes (a :: attributes) =
      (a.name.uri.filter fun uri => (prefixes.lookup uri).isNone).or (unknownNamespace? prefixes attributes) := by
  rw [unknownNamespace?, unknownNamespace?, namespaces, namespaces, List.filterMap_cons]
  cases a.name.uri with
  | none => rfl
  | some uri =>
    rw [List.find?_cons, Option.filter_some]
    cases (prefixes.lookup uri).isNone <;> rfl

theorem writtenKey_eq (prefixes : List (String × String)) (n : AttributeName) :
    writtenKey prefixes n =
      match n.uri.filter fun uri => (prefixes.lookup uri).isNone with
      | some uri => .error (.unknownNamespace uri)
      | none => .ok (keyOf prefixes n) := by
  rw [writtenKey, keyOf]
  cases n.uri with
  | none => rfl
  | some uri => cases hlookup : prefixes.lookup uri <;> simp [Option.filter_some, hlookup]

/-- Keys are written until a namespace has no prefix. -/
theorem mapM_writtenKey (prefixes : List (String × String)) (attributes : List Attribute) :
    attributes.mapM (fun a => writtenKey prefixes a.name) =
      match unknownNamespace? prefixes attributes with
      | some uri => .error (.unknownNamespace uri)
      | none => .ok (attributes.map fun a => keyOf prefixes a.name) := by
  induction attributes with
  | nil => rfl
  | cons a attributes ih =>
    rw [List.mapM_cons, ih, writtenKey_eq, unknownNamespace?_cons]
    cases a.name.uri.filter fun uri => (prefixes.lookup uri).isNone with
    | some uri => rfl
    | none => cases unknownNamespace? prefixes attributes <;> rfl

theorem render_eq_error_iff {fault : ElementFault} :
    e.render prefixes = .error fault ↔
      ∃ uri, unknownNamespace? prefixes e.attributes = some uri ∧ fault = .unknownNamespace uri := by
  rw [render, mapM_writtenKey]
  cases unknownNamespace? prefixes e.attributes with
  | none => simp [bind, Except.bind, pure, Except.pure]
  | some uri => simp [bind, Except.bind, eq_comm]

end Element

theorem Attribute.name_escaped {a : Attribute} (h : ∀ uri ∈ a.name.uri, IsUnmarked uri) : a.escaped.name = a.name := by
  obtain ⟨⟨uri, name⟩, value⟩ := a
  cases uri with
  | none => rfl
  | some uri => rw [escaped, Option.map_some, (escaped_eq_iff uri).mpr (h uri rfl)]

/-- A plain element is always written, if its namespaces have no marks and each has a prefix of its own. What is read
from the text has the same tag and, one by one, the same attribute names, each with its value as it was written. For all
elements, the only fault is a namespace without a prefix, namely the first one. -/
theorem render_contained (prefixes : List (String × String)) (e : Element) :
    (e.IsPlain → Suits prefixes e.attributes → (∀ uri ∈ namespaces e.attributes, IsUnmarked uri) →
      ∃ text read, e.render prefixes = .ok text ∧ Element.ofText text = .ok read ∧ read.tag = e.tag ∧
        read.attributes.map (·.name) = e.attributes.map (·.name) ∧
        read.attributes.map (·.value) = e.attributes.map fun a => escaped a.value) ∧
    ∀ fault, e.render prefixes = .error fault ↔
      ∃ uri, Element.unknownNamespace? prefixes e.attributes = some uri ∧ fault = .unknownNamespace uri := by
  refine ⟨fun he hs hunmarked => ?_, fun _ => Element.render_eq_error_iff⟩
  obtain ⟨text, hrender, hread⟩ := he.exists_render hs
  refine ⟨text, e.escaped, hrender, hread, rfl, ?_, ?_⟩
  · rw [Element.escaped, List.map_map]
    refine List.map_congr_left fun a ha => Attribute.name_escaped fun uri huri => ?_
    exact hunmarked uri (mem_namespaces ha huri)
  · rw [Element.escaped, List.map_map]
    rfl

/-- Values that look like the end of the tag, like further attributes and like a declaration. -/
theorem render_contained_fakes :
    let e : Element := ⟨"Button", [⟨⟨some "u", "text"⟩, "\"/><Evil a='1' \n"⟩, ⟨⟨none, "text"⟩, "' xmlns:a=\"v\" a:text=\"&"⟩]⟩
    e.IsPlain ∧ Suits [("u", "a")] e.attributes ∧ (∀ uri ∈ namespaces e.attributes, IsUnmarked uri) ∧
      (∃ text read, e.render [("u", "a")] = .ok text ∧ Element.ofText text = .ok read ∧
        read.attributes.map (·.name) = [⟨some "u", "text"⟩, ⟨none, "text"⟩]) ∧
      e.render [("v", "a")] = .error (.unknownNamespace "u") := by
  intro e
  have hplain : e.IsPlain := {
    tag := by decide
    names := by decide
    unqualified := by decide
    nodup := by decide }
  have hprefix : IsPrefix "a" := ⟨by decide, by decide, by decide⟩
  have hsuits : Suits [("u", "a")] e.attributes := by
    constructor
    · simpa [e, namespaces] using hprefix
    · simp [e, namespaces]
  have hunmarked : ∀ uri ∈ namespaces e.attributes, IsUnmarked uri := by
    simp [e, namespaces, IsUnmarked, isMark]
  obtain ⟨text, read, hrender, hread, -, hnames, -⟩ := (render_contained [("u", "a")] e).1 hplain hsuits hunmarked
  have hfault := (render_contained [("v", "a")] e).2 (.unknownNamespace "u")
  exact ⟨hplain, hsuits, hunmarked, ⟨text, read, hrender, hread, hnames⟩, hfault.mpr ⟨"u", by decide, rfl⟩⟩

end ResourceIndex.Layout
