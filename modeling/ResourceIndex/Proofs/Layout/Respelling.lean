import ResourceIndex.Proofs.Layout.Writing

/-!
# Other spellings of namespaces

A prefix stands for a namespace on one tag only, wherever on the tag it is declared. So declarations can move, and a
declared prefix can be called otherwise in its declaration and in all keys, as long as the new prefix is not in use. An
element is read alike from all tags that come from each other in this way: each attribute keeps its namespace, its name,
its value and its place, and of the prefixes that are not declared the same one is told.
-/

namespace ResourceIndex.Layout

open Markup (IsName RawAttribute Head Spelled)

/-! ### Prefixes of keys -/

section Keys

variable {p q key left right : List Char}

/-- The prefix that a key declares, or else uses. -/
def prefix? (key : List Char) : Option (List Char) :=
  (declaredPrefix? key).or (if ':' ∈ key then some (key.takeWhile (· ≠ ':')) else none)

/-- The new name of a prefix, if `p` is to be called `q`. -/
def renamed (p q x : List Char) : List Char :=
  if x = p then q else x

/-- The key with the prefix `p`, declared or used, called `q`. -/
def renameKey (p q key : List Char) : List Char :=
  match declaredPrefix? key with
  | some x => declarationKey ++ ':' :: renamed p q x
  | none => if ':' ∈ key then renamed p q (key.takeWhile (· ≠ ':')) ++ key.dropWhile (· ≠ ':') else key

/-- A key is a declaration, a name behind a prefix, or a name without prefix. -/
theorem key_cases (key : List Char) :
    (∃ x, key = declarationKey ++ ':' :: x) ∨
      (∃ x name, ':' ∉ x ∧ x ≠ declarationKey ∧ key = x ++ ':' :: name) ∨ ':' ∉ key := by
  by_cases hcolon : ':' ∈ key
  · obtain ⟨x, name, rfl, hx⟩ := List.eq_append_cons_of_mem hcolon
    by_cases hreserved : x = declarationKey
    · exact .inl ⟨name, by rw [hreserved]⟩
    · exact .inr (.inl ⟨x, name, hx, hreserved, rfl⟩)
  · exact .inr (.inr hcolon)

@[simp] theorem declaredPrefix?_declaration (x : List Char) : declaredPrefix? (declarationKey ++ ':' :: x) = some x :=
  declaredPrefix?_eq_some_iff.mpr rfl

theorem mem_colon_append (left right : List Char) : ':' ∈ left ++ ':' :: right :=
  List.mem_append_right _ List.mem_cons_self

theorem prefix?_declaration (x : List Char) : prefix? (declarationKey ++ ':' :: x) = some x := by
  rw [prefix?, declaredPrefix?_declaration, Option.some_or]

theorem prefix?_qualified (h : ':' ∉ left) (hne : left ≠ declarationKey) (right : List Char) :
    prefix? (left ++ ':' :: right) = some left := by
  rw [prefix?, declaredPrefix?_append_colon h hne, if_pos (mem_colon_append left right), takeWhile_append_colon h,
    Option.none_or]

theorem renameKey_declaration (p q x : List Char) :
    renameKey p q (declarationKey ++ ':' :: x) = declarationKey ++ ':' :: renamed p q x := by
  rw [renameKey, declaredPrefix?_declaration]

theorem renameKey_qualified (h : ':' ∉ left) (hne : left ≠ declarationKey) (p q right : List Char) :
    renameKey p q (left ++ ':' :: right) = renamed p q left ++ ':' :: right := by
  simp only [renameKey, declaredPrefix?_append_colon h hne, if_pos (mem_colon_append left right),
    takeWhile_append_colon h, dropWhile_append_colon h]

theorem renameKey_of_not_mem (h : ':' ∉ key) (p q : List Char) : renameKey p q key = key := by
  simp only [renameKey, declaredPrefix?_of_not_mem h, if_neg h]

/-- Renaming there and back keeps every prefix but the new one. -/
theorem renamed_renamed {x : List Char} (h : x ≠ q) (p : List Char) : renamed q p (renamed p q x) = x := by
  by_cases hx : x = p
  · simp [renamed, hx]
  · simp [renamed, hx, h]

theorem renamed_inj {x y : List Char} (hx : x ≠ q) (hy : y ≠ q) (h : renamed p q x = renamed p q y) : x = y := by
  rw [← renamed_renamed hx p, h, renamed_renamed hy p]

/-- What holds of the old and of the new name of a prefix holds of the one that it gets. -/
theorem renamed_preserves {P : List Char → Prop} {x : List Char} (hq : P q) (hx : P x) : P (renamed p q x) := by
  rw [renamed]
  split
  · exact hq
  · exact hx

/-! ### Keys with another prefix -/

theorem mem_colon_renameKey_iff : ':' ∈ renameKey p q key ↔ ':' ∈ key := by
  obtain ⟨x, rfl⟩ | ⟨x, name, hx, hne, rfl⟩ | hkey := key_cases key
  · rw [renameKey_declaration]
    exact iff_of_true (mem_colon_append _ _) (mem_colon_append _ _)
  · rw [renameKey_qualified hx hne]
    exact iff_of_true (mem_colon_append _ _) (mem_colon_append _ _)
  · rw [renameKey_of_not_mem hkey]

theorem renameKey_eq_declarationKey_iff : renameKey p q key = declarationKey ↔ key = declarationKey := by
  have hnone : ':' ∉ declarationKey := by decide
  by_cases hcolon : ':' ∈ key
  · refine iff_of_false (fun heq => hnone ?_) (fun heq => hnone (heq ▸ hcolon))
    exact heq ▸ mem_colon_renameKey_iff.mpr hcolon
  · rw [renameKey_of_not_mem hcolon]

section Renamed

variable {q : String} (hq : IsPrefix q)
include hq

theorem declaredPrefix?_renameKey (p key : List Char) :
    declaredPrefix? (renameKey p q.toList key) = (declaredPrefix? key).map (renamed p q.toList) := by
  obtain ⟨x, rfl⟩ | ⟨x, name, hx, hne, rfl⟩ | hkey := key_cases key
  · rw [renameKey_declaration, declaredPrefix?_declaration, declaredPrefix?_declaration, Option.map_some]
  · have hcolon : ':' ∉ renamed p q.toList x := renamed_preserves (P := (':' ∉ ·)) hq.colon hx
    have hreserved : renamed p q.toList x ≠ declarationKey := renamed_preserves (P := (· ≠ _)) hq.reserved hne
    rw [renameKey_qualified hx hne, declaredPrefix?_append_colon hx hne, declaredPrefix?_append_colon hcolon hreserved,
      Option.map_none]
  · rw [renameKey_of_not_mem hkey, declaredPrefix?_of_not_mem hkey, Option.map_none]

theorem renameKey_renameKey {key : List Char} (h : prefix? key ≠ some q.toList) (p : List Char) :
    renameKey q.toList p (renameKey p q.toList key) = key := by
  obtain ⟨x, rfl⟩ | ⟨x, name, hx, hne, rfl⟩ | hkey := key_cases key
  · rw [prefix?_declaration, Ne, Option.some.injEq] at h
    rw [renameKey_declaration, renameKey_declaration, renamed_renamed h]
  · rw [prefix?_qualified hx hne, Ne, Option.some.injEq] at h
    have hcolon : ':' ∉ renamed p q.toList x := renamed_preserves (P := (':' ∉ ·)) hq.colon hx
    have hreserved : renamed p q.toList x ≠ declarationKey := renamed_preserves (P := (· ≠ _)) hq.reserved hne
    rw [renameKey_qualified hx hne, renameKey_qualified hcolon hreserved, renamed_renamed h]
  · rw [renameKey_of_not_mem hkey, renameKey_of_not_mem hkey]

theorem isName_renameKey {key : List Char} (h : IsName key) (p : List Char) : IsName (renameKey p q.toList key) := by
  have hnames {x : List Char} (hx : ∀ c ∈ x, Markup.isNameChar c) : ∀ c ∈ renamed p q.toList x, Markup.isNameChar c :=
    renamed_preserves (P := fun cs => ∀ c ∈ cs, Markup.isNameChar c) hq.name.2 hx
  obtain ⟨x, rfl⟩ | ⟨x, name, hx, hne, rfl⟩ | hkey := key_cases key
  · rw [isName_append_colon_iff, List.forall_mem_append] at h
    rw [renameKey_declaration, isName_append_colon_iff, List.forall_mem_append]
    exact ⟨h.1, hnames h.2⟩
  · rw [isName_append_colon_iff, List.forall_mem_append] at h
    rw [renameKey_qualified hx hne, isName_append_colon_iff, List.forall_mem_append]
    exact ⟨hnames h.1, h.2⟩
  · rwa [renameKey_of_not_mem hkey]

end Renamed

end Keys

/-! ### Tags that say the same -/

/-- The attribute with the prefix `p` of its key called `q`. -/
def renameAttribute (p q : List Char) (a : RawAttribute) : RawAttribute :=
  { a with key := renameKey p q a.key }

/-- The attribute is no declaration of a prefix. -/
def isKept (a : RawAttribute) : Bool :=
  (declaredPrefix? a.key).isNone

/-- Attributes that come from others when declarations of prefixes move, or when a declared prefix is called otherwise
in all keys, step by step. -/
inductive Respelled : List RawAttribute → List RawAttribute → Prop
  | moved {raw moved : List RawAttribute} (hperm : moved.Perm raw) (hkept : moved.filter isKept = raw.filter isKept) :
    Respelled raw moved
  | renamed {raw : List RawAttribute} {p : List Char} {q : String} (hdeclared : ∃ a ∈ raw, declaredPrefix? a.key = some p)
    (hq : IsPrefix q) (hfresh : ∀ a ∈ raw, prefix? a.key ≠ some q.toList) :
    Respelled raw (raw.map (renameAttribute p q.toList))
  | trans {raw middle last : List RawAttribute} (first : Respelled raw middle) (second : Respelled middle last) :
    Respelled raw last

variable {raw other : List RawAttribute} {p : List Char} {q : String}

/-! ### Declarations that move -/

theorem proper_eq (raw : List RawAttribute) :
    proper raw = (raw.filter isKept).filter fun a => a.key ≠ declarationKey := by
  rw [proper, List.filter_filter]
  refine List.filter_congr fun a _ => ?_
  rw [isKept, Bool.and_comm]

theorem map_bindings (raw : List RawAttribute) :
    (bindings raw).map (·.1) = (raw.map (·.key)).filterMap declaredPrefix? := by
  rw [bindings, List.map_filterMap, List.filterMap_map]
  refine List.filterMap_congr fun a _ => ?_
  rw [Option.map_map]
  exact Option.map_id'

theorem nodup_bindings (h : (raw.map (·.key)).Nodup) : ((bindings raw).map (·.1)).Nodup := by
  rw [map_bindings]
  refine h.filterMap fun key key' x hkey hkey' => ?_
  rw [declaredPrefix?_eq_some_iff.mp hkey, declaredPrefix?_eq_some_iff.mp hkey']

theorem resolve_congr {bound bound' : List (List Char × List Char)} (h : ∀ x, bound.lookup x = bound'.lookup x) :
    resolve bound = resolve bound' := by
  funext a
  simp only [resolve, resolveKey, h]

theorem resolved_of_moved (hperm : other.Perm raw) (hkept : other.filter isKept = raw.filter isKept)
    (hnodup : (raw.map (·.key)).Nodup) :
    (proper other).mapM (resolve (bindings other)) = (proper raw).mapM (resolve (bindings raw)) := by
  have hbindings : (bindings raw).Perm (bindings other) := hperm.symm.filterMap _
  rw [proper_eq, proper_eq, hkept, resolve_congr (lookup_eq_of_perm hbindings (nodup_bindings hnodup))]

/-! ### Prefixes that are renamed -/

theorem bindings_map_renameAttribute (hq : IsPrefix q) (p : List Char) (raw : List RawAttribute) :
    bindings (raw.map (renameAttribute p q.toList)) =
      (bindings raw).map fun d => (renamed p q.toList d.1, d.2) := by
  rw [bindings, bindings, List.filterMap_map, List.map_filterMap]
  refine List.filterMap_congr fun a _ => ?_
  simp only [Function.comp_def, renameAttribute, declaredPrefix?_renameKey hq, Option.map_map]

theorem proper_map_renameAttribute (hq : IsPrefix q) (p : List Char) (raw : List RawAttribute) :
    proper (raw.map (renameAttribute p q.toList)) = (proper raw).map (renameAttribute p q.toList) := by
  rw [proper, proper, List.filter_map]
  refine congrArg _ (List.filter_congr fun a _ => ?_)
  simp only [Function.comp_apply, renameAttribute, declaredPrefix?_renameKey hq, Option.isNone_map, ne_eq,
    renameKey_eq_declarationKey_iff]

/-- A prefix that is used is found behind its new name. -/
theorem lookup_bindings_map_renameAttribute (hq : IsPrefix q) (hfresh : ∀ a ∈ raw, prefix? a.key ≠ some q.toList)
    (p : List Char) {x : List Char} (hx : x ≠ q.toList) :
    (bindings (raw.map (renameAttribute p q.toList))).lookup (renamed p q.toList x) = (bindings raw).lookup x := by
  rw [bindings_map_renameAttribute hq]
  refine lookup_map_keys fun d hd => renamed_inj hx fun heq => ?_
  obtain ⟨a, ha, hbound⟩ := List.mem_filterMap.mp hd
  obtain ⟨y, hy, rfl⟩ := Option.map_eq_some_iff.mp hbound
  obtain rfl : y = q.toList := heq
  exact hfresh a ha (by rw [prefix?, hy, Option.some_or])

theorem resolve_renameAttribute (hq : IsPrefix q) (hfresh : ∀ a ∈ raw, prefix? a.key ≠ some q.toList)
    (hdeclared : ∃ a ∈ raw, declaredPrefix? a.key = some p) {a : RawAttribute} (ha : a ∈ proper raw) :
    resolve (bindings (raw.map (renameAttribute p q.toList))) (renameAttribute p q.toList a) =
      resolve (bindings raw) a := by
  obtain ⟨hraw, hproper⟩ := List.mem_filter.mp ha
  simp only [Bool.and_eq_true, Option.isNone_iff_eq_none] at hproper
  have hkey : resolveKey (bindings (raw.map (renameAttribute p q.toList))) (renameKey p q.toList a.key) =
      resolveKey (bindings raw) a.key := by
    obtain ⟨x, hkey⟩ | ⟨x, name, hx, hne, hkey⟩ | hkey := key_cases a.key
    · rw [hkey, declaredPrefix?_declaration] at hproper
      exact absurd hproper.1 (by simp)
    · have hused := hfresh a hraw
      rw [hkey, prefix?_qualified hx hne, Ne, Option.some.injEq] at hused
      have hcolon : ':' ∉ renamed p q.toList x := renamed_preserves (P := (':' ∉ ·)) hq.colon hx
      rw [hkey, renameKey_qualified hx hne, resolveKey_qualified hcolon, resolveKey_qualified hx,
        lookup_bindings_map_renameAttribute hq hfresh p hused]
      cases hlookup : (bindings raw).lookup x with
      | some uri => rfl
      | none =>
        -- the prefix is told in the fault, but it is not `p`, which is declared
        have hxp : x ≠ p := by
          rintro rfl
          obtain ⟨d, hd, hdx⟩ := hdeclared
          have hmem : x ∈ (bindings raw).map (·.1) := by
            rw [map_bindings]
            exact List.mem_filterMap.mpr ⟨d.key, List.mem_map_of_mem hd, hdx⟩
          obtain ⟨uri, huri⟩ := exists_lookup_eq_some hmem
          exact absurd (hlookup.symm.trans huri) (by simp)
        rw [renamed, if_neg hxp]
    · rw [renameKey_of_not_mem hkey, resolveKey_of_not_mem hkey, resolveKey_of_not_mem hkey]
  rw [resolve, resolve, renameAttribute, hkey]

theorem resolved_of_renamed (hdeclared : ∃ a ∈ raw, declaredPrefix? a.key = some p) (hq : IsPrefix q)
    (hfresh : ∀ a ∈ raw, prefix? a.key ≠ some q.toList) :
    (proper (raw.map (renameAttribute p q.toList))).mapM
        (resolve (bindings (raw.map (renameAttribute p q.toList)))) =
      (proper raw).mapM (resolve (bindings raw)) := by
  rw [proper_map_renameAttribute hq, List.mapM_map]
  exact mapM_congr fun a ha => resolve_renameAttribute hq hfresh hdeclared ha

theorem nodup_map_renameAttribute (hq : IsPrefix q) (hfresh : ∀ a ∈ raw, prefix? a.key ≠ some q.toList)
    (p : List Char) (hnodup : (raw.map (·.key)).Nodup) :
    ((raw.map (renameAttribute p q.toList)).map (·.key)).Nodup := by
  have hkeys : (raw.map (renameAttribute p q.toList)).map (·.key) = (raw.map (·.key)).map (renameKey p q.toList) := by
    rw [List.map_map, List.map_map]
    rfl
  rw [hkeys]
  refine hnodup.map_on fun key hkey other hother heq => ?_
  obtain ⟨a, ha, rfl⟩ := List.mem_map.mp hkey
  obtain ⟨b, hb, rfl⟩ := List.mem_map.mp hother
  rw [← renameKey_renameKey hq (hfresh a ha) p, heq, renameKey_renameKey hq (hfresh b hb)]

/-! ### Any number of steps -/

namespace Respelled

theorem nodup (h : Respelled raw other) (hnodup : (raw.map (·.key)).Nodup) : (other.map (·.key)).Nodup := by
  induction h with
  | moved hperm _ => exact (hperm.symm.map _).nodup hnodup
  | renamed _ hq hfresh => exact nodup_map_renameAttribute hq hfresh _ hnodup
  | trans _ _ ihfirst ihsecond => exact ihsecond (ihfirst hnodup)

/-- Keys stay names, and values stay as they are. -/
theorem forall_spellable (h : Respelled raw other)
    (hraw : ∀ a ∈ raw, IsName a.key ∧ ('"' ∉ a.value ∨ '\'' ∉ a.value)) :
    ∀ a ∈ other, IsName a.key ∧ ('"' ∉ a.value ∨ '\'' ∉ a.value) := by
  induction h with
  | moved hperm _ => exact fun a ha => hraw a (hperm.mem_iff.mp ha)
  | renamed _ hq _ =>
    intro a ha
    obtain ⟨b, hb, rfl⟩ := List.mem_map.mp ha
    exact ⟨isName_renameKey hq (hraw b hb).1 _, (hraw b hb).2⟩
  | trans _ _ ihfirst ihsecond => exact ihsecond (ihfirst hraw)

theorem resolved (h : Respelled raw other) (hnodup : (raw.map (·.key)).Nodup) :
    (proper other).mapM (resolve (bindings other)) = (proper raw).mapM (resolve (bindings raw)) := by
  induction h with
  | moved hperm hkept => exact resolved_of_moved hperm hkept hnodup
  | renamed hdeclared hq hfresh => exact resolved_of_renamed hdeclared hq hfresh
  | trans first _ ihfirst ihsecond => exact (ihsecond (first.nodup hnodup)).trans (ihfirst hnodup)

end Respelled

/-- Let the attributes of a tag be respelled, the tag standing in any text that it is the first one of. The tag can be
written so, and however it is written, the same element is read from it, or the same fault is found. -/
theorem ofText_respelled {name spelling gap close : List Char} (h : Respelled raw other)
    (hs : (⟨name, raw⟩ : Head).SpelledAs spelling) (hgap : Markup.IsGap gap)
    (hclose : close = ['>'] ∨ close = ['/', '>']) (behind : List Char) :
    (∃ respelling, Spelled other respelling) ∧
      ∀ respelling, Spelled other respelling →
        Element.ofText (String.ofList (gap ++ '<' :: (name ++ (respelling ++ (close ++ behind))))) =
          Element.ofText (String.ofList (gap ++ '<' :: (name ++ (spelling ++ (close ++ behind))))) := by
  have hspellable := Markup.exists_spelled_iff.mp ⟨spelling, hs.attributes⟩
  refine ⟨Markup.exists_spelled_iff.mpr (h.forall_spellable hspellable), fun respelling hrespelling => ?_⟩
  have hother : (⟨name, other⟩ : Head).SpelledAs respelling := ⟨hs.name, h.nodup hs.nodup, hrespelling⟩
  rw [Element.ofText_eq_ofHead hs hgap hclose, Element.ofText_eq_ofHead hother hgap hclose, Element.ofHead,
    Element.ofHead, h.resolved hs.nodup]

/-- Two prefixes of one namespace, declared behind their uses: the first one is called otherwise, and both declarations
move to the front. -/
theorem ofText_respelled_front :
    let raw : List RawAttribute := [⟨"a:text".toList, "1".toList⟩, ⟨"b:x:y".toList, "2".toList⟩,
      ⟨"xmlns:a".toList, "u".toList⟩, ⟨"xmlns:b".toList, "u".toList⟩]
    let other : List RawAttribute := [⟨"xmlns:b".toList, "u".toList⟩, ⟨"xmlns:c".toList, "u".toList⟩,
      ⟨"c:text".toList, "1".toList⟩, ⟨"b:x:y".toList, "2".toList⟩]
    Respelled raw other ∧
      (⟨"E".toList, raw⟩ : Head).SpelledAs " a:text=\"1\" b:x:y=\"2\" xmlns:a=\"u\" xmlns:b=\"u\"".toList ∧
      Element.ofText "<E xmlns:b=\"u\" xmlns:c=\"u\" c:text=\"1\" b:x:y=\"2\"/>" =
        Element.ofText "<E a:text=\"1\" b:x:y=\"2\" xmlns:a=\"u\" xmlns:b=\"u\"/>" := by
  intro raw other
  have hq : IsPrefix "c" := ⟨by decide, by decide, by decide⟩
  have hrenamed : Respelled raw (raw.map (renameAttribute "a".toList "c".toList)) :=
    .renamed ⟨⟨"xmlns:a".toList, "u".toList⟩, by decide, by decide⟩ hq (by decide)
  have hrespelled : Respelled raw other := hrenamed.trans (.moved (by decide) (by decide))
  have hs : (⟨"E".toList, raw⟩ : Head).SpelledAs
      " a:text=\"1\" b:x:y=\"2\" xmlns:a=\"u\" xmlns:b=\"u\"".toList := {
    name := by decide
    nodup := by decide
    attributes :=
      .cons_plain (.inl rfl) (by decide) (by decide) <|
      .cons_plain (.inl rfl) (by decide) (by decide) <|
      .cons_plain (.inl rfl) (by decide) (by decide) <|
      .cons_plain (.inl rfl) (by decide) (by decide) <| .nil (List.forall_mem_nil _) }
  have hother : Spelled other " xmlns:b=\"u\" xmlns:c=\"u\" c:text=\"1\" b:x:y=\"2\"".toList :=
    .cons_plain (.inl rfl) (by decide) (by decide) <|
    .cons_plain (.inl rfl) (by decide) (by decide) <|
    .cons_plain (.inl rfl) (by decide) (by decide) <|
    .cons_plain (.inl rfl) (by decide) (by decide) <| .nil (List.forall_mem_nil _)
  obtain ⟨-, hread⟩ := ofText_respelled hrespelled hs Markup.isGap_nil (.inr rfl) []
  have hsame := hread _ hother
  exact ⟨hrespelled, hs, by simpa using hsame⟩

end ResourceIndex.Layout
