import Mathlib.Data.List.TakeWhile
import ResourceIndex.Layout.Element
import ResourceIndex.Proofs.Markup.Spelling
import Std.Data.TreeMap.Lemmas

/-!
# Keys of written attributes

The key of an attribute is its name, behind the prefix of its namespace if it has one. When each namespace in use has a
prefix of its own, and all names are plain, attributes with different names have different keys, no key passes for a
declaration, and the tag declares exactly the prefixes that are used.
-/

namespace ResourceIndex.Layout

open Markup (IsName)

/-- An element with plain names. None of its attributes is there twice, and the name of one without a namespace would
not be read as a declaration or as one with a prefix. -/
structure Element.IsPlain (e : Element) : Prop where
  tag : IsName e.tag.toList
  names : ∀ a ∈ e.attributes, IsName a.name.name.toList
  unqualified : ∀ a ∈ e.attributes, a.name.uri = none →
    ':' ∉ a.name.name.toList ∧ a.name.name.toList ≠ declarationKey
  nodup : (e.attributes.map (·.name)).Nodup

/-- A plain name that can be declared as a prefix. -/
structure IsPrefix (p : String) : Prop where
  name : IsName p.toList
  colon : ':' ∉ p.toList
  reserved : p.toList ≠ declarationKey

/-- The namespaces of attributes, in their order. -/
def namespaces (attributes : List Attribute) : List String :=
  attributes.filterMap (·.name.uri)

/-- Every namespace of the attributes has a prefix of its own. -/
structure Suits (prefixes : List (String × String)) (attributes : List Attribute) : Prop where
  exists_prefix : ∀ uri ∈ namespaces attributes, ∃ p, prefixes.lookup uri = some p ∧ IsPrefix p
  injective : ∀ uri ∈ namespaces attributes, ∀ other ∈ namespaces attributes,
    prefixes.lookup uri = prefixes.lookup other → uri = other

variable {prefixes : List (String × String)} {attributes : List Attribute} {a : Attribute} {uri p : String}

theorem mem_namespaces (ha : a ∈ attributes) (huri : a.name.uri = some uri) : uri ∈ namespaces attributes :=
  List.mem_filterMap.mpr ⟨a, ha, huri⟩

/-! ### Declarations -/

theorem mem_of_getElem?_insertMany {entries : List (String × String)} {map : Std.TreeMap String String}
    {key value : String} (h : (map.insertMany entries)[key]? = some value) : (key, value) ∈ entries ∨ map[key]? = some value := by
  induction entries generalizing map with
  | nil =>
    rw [Std.TreeMap.insertMany_nil] at h
    exact .inr h
  | cons entry entries ih =>
    obtain ⟨first, stored⟩ := entry
    rw [Std.TreeMap.insertMany_cons] at h
    obtain hlater | hbefore := ih h
    · exact .inl (List.mem_cons_of_mem _ hlater)
    · rw [Std.TreeMap.getElem?_insert] at hbefore
      split at hbefore
      next hkey =>
        obtain rfl := Std.LawfulEqCmp.compare_eq_iff_eq.mp hkey
        obtain rfl := Option.some.inj hbefore
        exact .inl List.mem_cons_self
      next => exact .inr hbefore

theorem mem_of_mem_ofList {entries : List (String × String)} {entry : String × String}
    (h : entry ∈ (Std.TreeMap.ofList entries).toList) : entry ∈ entries := by
  rw [Std.TreeMap.mem_toList_iff_getElem?_eq_some, Std.TreeMap.ofList_eq_insertMany_empty] at h
  exact (mem_of_getElem?_insertMany h).resolve_right (by simp)

namespace Element

/-- Only prefixes of namespaces that are used are declared. -/
theorem mem_declarations (h : (p, uri) ∈ declarations prefixes attributes) :
    uri ∈ namespaces attributes ∧ prefixes.lookup uri = some p := by
  obtain ⟨a, ha, hpair⟩ := List.mem_filterMap.mp (mem_of_mem_ofList h)
  obtain ⟨used, huri, hlookup⟩ := Option.bind_eq_some_iff.mp hpair
  obtain ⟨q, hq, heq⟩ := Option.map_eq_some_iff.mp hlookup
  obtain ⟨rfl, rfl⟩ := Prod.mk.inj heq
  exact ⟨mem_namespaces ha huri, hq⟩

/-- Every prefix that is used is declared with its namespace. -/
theorem mem_declarations_of_suits (hs : Suits prefixes attributes) (huri : uri ∈ namespaces attributes)
    (hp : prefixes.lookup uri = some p) : (p, uri) ∈ declarations prefixes attributes := by
  have hused : p ∈ Std.TreeMap.ofList (attributes.filterMap fun a =>
      a.name.uri.bind fun uri => (prefixes.lookup uri).map fun p => (p, uri)) := by
    obtain ⟨a, ha, hname⟩ := List.mem_filterMap.mp huri
    rw [Std.TreeMap.mem_ofList, List.contains_iff_mem]
    exact List.mem_map.mpr ⟨(p, uri), List.mem_filterMap.mpr ⟨a, ha, by simp [hname, hp]⟩, rfl⟩
  have hentry : ∃ other, (p, other) ∈ declarations prefixes attributes := by
    refine ⟨_, Std.TreeMap.mem_toList_iff_getElem?_eq_some.mpr (Std.TreeMap.getElem?_eq_some_getElem hused)⟩
  obtain ⟨other, hother⟩ := hentry
  obtain ⟨hmem, hlookup⟩ := mem_declarations hother
  rwa [hs.injective uri huri other hmem (hp.trans hlookup.symm)]

theorem nodup_declarations (prefixes : List (String × String)) (attributes : List Attribute) :
    ((declarations prefixes attributes).map (·.1)).Nodup := by
  refine List.pairwise_map.mpr (Std.TreeMap.distinct_keys_toList.imp fun hne heq => hne ?_)
  exact Std.LawfulEqCmp.compare_eq_iff_eq.mpr heq

end Element

/-! ### Keys -/

section Keys

variable {left right key : List Char}

theorem takeWhile_append_colon (h : ':' ∉ left) (right : List Char) :
    (left ++ ':' :: right).takeWhile (· ≠ ':') = left := by
  have hleft : ∀ c ∈ left, decide (c ≠ ':') = true := fun c hc => decide_eq_true fun heq => h (heq ▸ hc)
  rw [List.takeWhile_append_of_pos hleft, List.takeWhile_cons_of_neg (by simp), List.append_nil]

theorem dropWhile_append_colon (h : ':' ∉ left) (right : List Char) :
    (left ++ ':' :: right).dropWhile (· ≠ ':') = ':' :: right := by
  have hleft : ∀ c ∈ left, decide (c ≠ ':') = true := fun c hc => decide_eq_true fun heq => h (heq ▸ hc)
  rw [List.dropWhile_append_of_pos hleft, List.dropWhile_cons_of_neg (by simp)]

theorem dropWhile_of_not_mem (h : ':' ∉ key) : key.dropWhile (· ≠ ':') = [] :=
  List.dropWhile_eq_nil_iff.mpr fun _ hc => decide_eq_true fun heq => h (heq ▸ hc)

/-- A key splits in one way at its first colon. -/
theorem append_colon_inj {left' right' : List Char} (h : ':' ∉ left) (h' : ':' ∉ left')
    (heq : left ++ ':' :: right = left' ++ ':' :: right') : left = left' ∧ right = right' := by
  have hleft := takeWhile_append_colon h right
  have hright := dropWhile_append_colon h right
  rw [heq, takeWhile_append_colon h'] at hleft
  rw [heq, dropWhile_append_colon h'] at hright
  exact ⟨hleft.symm, (List.cons.inj hright).2.symm⟩

theorem declaredPrefix?_eq_some_iff : declaredPrefix? key = some left ↔ key = declarationKey ++ ':' :: left := by
  rw [declaredPrefix?, Text.isPrefixOf?_eq_some_iff, List.append_assoc, List.singleton_append]

theorem declaredPrefix?_append_colon (h : ':' ∉ left) (hne : left ≠ declarationKey) (right : List Char) :
    declaredPrefix? (left ++ ':' :: right) = none := by
  refine Option.eq_none_iff_forall_ne_some.mpr fun p hp => hne ?_
  exact (append_colon_inj h (by decide) (declaredPrefix?_eq_some_iff.mp hp)).1

theorem declaredPrefix?_of_not_mem (h : ':' ∉ key) : declaredPrefix? key = none := by
  refine Option.eq_none_iff_forall_ne_some.mpr fun p hp => h ?_
  rw [declaredPrefix?_eq_some_iff.mp hp]
  exact List.mem_append_right _ List.mem_cons_self

theorem resolveKey_qualified (h : ':' ∉ left) (bound : List (List Char × List Char)) (right : List Char) :
    resolveKey bound (left ++ ':' :: right) =
      match bound.lookup left with
      | some uri => .ok ⟨some (String.ofList uri), String.ofList right⟩
      | none => .error (.unboundPrefix (String.ofList left)) := by
  cases hbound : bound.lookup left <;>
    simp only [resolveKey, dropWhile_append_colon h, takeWhile_append_colon h, hbound]

theorem resolveKey_of_not_mem (h : ':' ∉ key) (bound : List (List Char × List Char)) :
    resolveKey bound key = .ok ⟨none, String.ofList key⟩ := by
  simp only [resolveKey, dropWhile_of_not_mem h]

end Keys

/-- The key of an attribute, if its namespace has a prefix. -/
def keyOf (prefixes : List (String × String)) (n : AttributeName) : List Char :=
  match n.uri with
  | none => n.name.toList
  | some uri => ((prefixes.lookup uri).getD "").toList ++ ':' :: n.name.toList

theorem keyOf_none {n : AttributeName} (h : n.uri = none) : keyOf prefixes n = n.name.toList := by
  rw [keyOf, h]

theorem keyOf_some {n : AttributeName} (h : n.uri = some uri) (hp : prefixes.lookup uri = some p) :
    keyOf prefixes n = p.toList ++ ':' :: n.name.toList := by
  simp only [keyOf, h, hp, Option.getD_some]

theorem Suits.writtenKey_eq (hs : Suits prefixes attributes) (ha : a ∈ attributes) :
    Element.writtenKey prefixes a.name = .ok (keyOf prefixes a.name) := by
  rw [Element.writtenKey]
  cases huri : a.name.uri with
  | none => rw [keyOf_none huri]
  | some uri =>
    obtain ⟨p, hp, -⟩ := hs.exists_prefix uri (mem_namespaces ha huri)
    simp only [hp, keyOf_some huri hp]

/-- What a key looks like: a name that is not split, or the prefix of a namespace before a name. -/
theorem Suits.keyOf_cases (hs : Suits prefixes attributes) (ha : a ∈ attributes) :
    (a.name.uri = none ∧ keyOf prefixes a.name = a.name.name.toList) ∨
    ∃ uri p, a.name.uri = some uri ∧ prefixes.lookup uri = some p ∧ IsPrefix p ∧
      keyOf prefixes a.name = p.toList ++ ':' :: a.name.name.toList := by
  cases huri : a.name.uri with
  | none => exact .inl ⟨rfl, keyOf_none huri⟩
  | some uri =>
    obtain ⟨p, hp, hplain⟩ := hs.exists_prefix uri (mem_namespaces ha huri)
    exact .inr ⟨uri, p, rfl, hp, hplain, keyOf_some huri hp⟩

theorem isName_append_colon_iff {left right : List Char} :
    IsName (left ++ ':' :: right) ↔ ∀ c ∈ left ++ right, Markup.isNameChar c := by
  have hcolon : Markup.isNameChar ':' := by decide
  simp [IsName, List.mem_append, or_imp, forall_and, hcolon]

theorem isName_append_colon {left right : List Char} (hleft : IsName left) (hright : IsName right) :
    IsName (left ++ ':' :: right) :=
  isName_append_colon_iff.mpr (List.forall_mem_append.mpr ⟨hleft.2, hright.2⟩)

theorem isName_declarationKey : IsName declarationKey := by
  decide

section Plain

variable {e : Element}

theorem Element.IsPlain.isName_keyOf (he : e.IsPlain) (hs : Suits prefixes e.attributes) (ha : a ∈ e.attributes) :
    IsName (keyOf prefixes a.name) := by
  obtain ⟨-, hkey⟩ | ⟨uri, p, -, -, hp, hkey⟩ := hs.keyOf_cases ha
  · rw [hkey]
    exact he.names a ha
  · rw [hkey]
    exact isName_append_colon hp.name (he.names a ha)

/-- No key of an attribute is read as a declaration. -/
theorem Element.IsPlain.declaredPrefix?_keyOf (he : e.IsPlain) (hs : Suits prefixes e.attributes)
    (ha : a ∈ e.attributes) :
    declaredPrefix? (keyOf prefixes a.name) = none ∧ keyOf prefixes a.name ≠ declarationKey := by
  obtain ⟨huri, hkey⟩ | ⟨uri, p, -, -, hp, hkey⟩ := hs.keyOf_cases ha
  · obtain ⟨hcolon, hne⟩ := he.unqualified a ha huri
    rw [hkey]
    exact ⟨declaredPrefix?_of_not_mem hcolon, hne⟩
  · rw [hkey]
    refine ⟨declaredPrefix?_append_colon hp.colon hp.reserved _, fun heq => ?_⟩
    have hcolon : ':' ∈ declarationKey := heq ▸ List.mem_append_right _ List.mem_cons_self
    exact absurd hcolon (by decide)

/-- Attributes with one key have one name. -/
theorem Element.IsPlain.keyOf_inj (he : e.IsPlain) (hs : Suits prefixes e.attributes) {b : Attribute}
    (ha : a ∈ e.attributes) (hb : b ∈ e.attributes) (heq : keyOf prefixes a.name = keyOf prefixes b.name) :
    a.name = b.name := by
  obtain ⟨huri, hkey⟩ | ⟨uri, p, huri, hlookup, hp, hkey⟩ := hs.keyOf_cases ha <;>
    obtain ⟨huri', hkey'⟩ | ⟨uri', p', huri', hlookup', hp', hkey'⟩ := hs.keyOf_cases hb <;>
      rw [hkey, hkey'] at heq
  · rw [AttributeName.mk.injEq]
    exact ⟨huri.trans huri'.symm, String.toList_inj.mp heq⟩
  · exact absurd (heq ▸ List.mem_append_right _ List.mem_cons_self) (he.unqualified a ha huri).1
  · exact absurd (heq ▸ List.mem_append_right _ List.mem_cons_self) (he.unqualified b hb huri').1
  · obtain ⟨hpp, hname⟩ := append_colon_inj hp.colon hp'.colon heq
    obtain rfl := String.toList_inj.mp hpp
    have hsame := hs.injective uri (mem_namespaces ha huri) uri' (mem_namespaces hb huri')
      (hlookup.trans hlookup'.symm)
    rw [AttributeName.mk.injEq, huri, huri', hsame]
    exact ⟨rfl, String.toList_inj.mp hname⟩

end Plain

end ResourceIndex.Layout
