import Mathlib.Data.List.Forall2
import ResourceIndex.Declaration.InlineIds
import ResourceIndex.Proofs.Declaration.Values
import ResourceIndex.Proofs.Markup.Reached

/-!
# Two readers of declarations

Inline ids and the declarations of a values file are read from the same markup, each in one pass. The reader of inline
ids collects an id for every attribute value that names one, on every tag on its way, and it fails exactly where the
markup does. The reader of values files fails there as well, with the same fault, unless it has come before to an `item`
whose type is unknown.
-/

namespace ResourceIndex

open Markup

/-! ### Elements at all depths -/

/-- The elements whose tags are among the events, as far as they can be read. -/
def Markup.headsOf (es : List Markup.Event) : List Head :=
  (es.filterMap Event.tag?).map Tag.head

namespace Markup.Forest

/-- The elements at all depths, each before those inside it. -/
def heads {α : Type} : Forest α → List α
  | nil => []
  | empty head rest => head :: rest.heads
  | element head children rest => head :: (children.heads ++ rest.heads)

theorem heads_map {α β : Type} (f : α → β) (forest : Forest α) : (forest.map f).heads = forest.heads.map f := by
  induction forest with
  | nil => rfl
  | empty head rest ih => rw [map, heads, ih, heads, List.map_cons]
  | element head children rest ihchildren ihrest =>
    rw [map, heads, ihchildren, ihrest, heads, List.map_cons, List.map_append]

theorem filterMap_tag?_events (forest : Forest Tag) : forest.events.filterMap Event.tag? = forest.heads := by
  induction forest with
  | nil => rfl
  | empty tag rest ih => simp [events, heads, Event.tag?, ih]
  | element tag children rest ihchildren ihrest =>
    simp [events, heads, Event.tag?, List.filterMap_cons, ihchildren, ihrest]

end Markup.Forest

/-! ### Collected ids -/

namespace InlineIds

/-- The values of the attributes of an element, in their order. -/
def values (h : Head) : List (List Char) :=
  h.attributes.map (·.value)

/-- The value is the mark of an id, and a name behind it. -/
def NamesId (value : List Char) : Prop :=
  mark <+: value ∧ value ≠ mark

instance (value : List Char) : Decidable (NamesId value) :=
  inferInstanceAs (Decidable (_ ∧ _))

/-- The declaration is, in passing, one of the id that the value names. -/
def Declares (value : List Char) (d : Declaration) : Prop :=
  value = mark ++ d.name.toList ∧ d.type = .id ∧ d.isInline = true

/-- The declarations are those of the ids that the elements name: one for each mention, in the order of the text. -/
def Collects (heads : List Head) (ids : List Declaration) : Prop :=
  List.Forall₂ Declares ((heads.flatMap values).filter NamesId) ids

theorem namesId_iff {value : List Char} : NamesId value ↔ ∃ name, name ≠ [] ∧ value = mark ++ name := by
  constructor
  · rintro ⟨⟨name, rfl⟩, hne⟩
    exact ⟨name, fun hnil => hne (by rw [hnil, List.append_nil]), rfl⟩
  · rintro ⟨name, hne, rfl⟩
    exact ⟨List.prefix_append mark name, fun heq => hne (by simpa using heq)⟩

theorem declared?_mark_append {name : List Char} (h : name ≠ []) :
    declared? (mark ++ name) = some (.inlineId (String.ofList name)) := by
  have hprefix : mark.isPrefixOf? (mark ++ name) = some name := Text.isPrefixOf?_eq_some_iff.mpr rfl
  rw [declared?, hprefix]
  cases name with
  | nil => exact absurd rfl h
  | cons c cs => rfl

theorem declared?_of_not_namesId {value : List Char} (h : ¬NamesId value) : declared? value = none := by
  rw [declared?]
  split
  next => rfl
  next => rfl
  next name hne hprefix => exact absurd (namesId_iff.mpr ⟨name, hne, Text.isPrefixOf?_eq_some_iff.mp hprefix⟩) h

theorem declares_mark_append_iff {name : List Char} {d : Declaration} :
    Declares (mark ++ name) d ↔ d = .inlineId (String.ofList name) := by
  constructor
  · rintro ⟨hname, htype, hinline⟩
    obtain ⟨type, text, isInline⟩ := d
    obtain rfl : name = text.toList := List.append_cancel_left hname
    simp_all [Declaration.inlineId]
  · rintro rfl
    simp [Declares, Declaration.inlineId]

theorem declared?_eq_some_iff {value : List Char} {d : Declaration} :
    declared? value = some d ↔ NamesId value ∧ Declares value d := by
  by_cases hvalue : NamesId value
  · obtain ⟨name, hne, rfl⟩ := namesId_iff.mp hvalue
    rw [declared?_mark_append hne, declares_mark_append_iff, and_iff_right hvalue, Option.some_inj, eq_comm]
  · simp [declared?_of_not_namesId hvalue, hvalue]

theorem forall₂_declares_iff {vs : List (List Char)} {ids : List Declaration} :
    List.Forall₂ Declares (vs.filter NamesId) ids ↔ vs.filterMap declared? = ids := by
  induction vs generalizing ids with
  | nil => simp [eq_comm]
  | cons v vs ih =>
    by_cases hv : NamesId v
    · obtain ⟨name, hne, rfl⟩ := namesId_iff.mp hv
      rw [List.filter_cons_of_pos (by simpa using hv), List.filterMap_cons_some (declared?_mark_append hne),
        List.forall₂_cons_left_iff]
      simp only [declares_mark_append_iff, ih]
      constructor
      · rintro ⟨d, rest, rfl, rfl, rfl⟩
        rfl
      · rintro rfl
        exact ⟨_, _, rfl, rfl, rfl⟩
    · rw [List.filter_cons_of_neg (by simpa using hv), List.filterMap_cons_none (declared?_of_not_namesId hv), ih]

theorem ofTag_eq (tag : Tag) : ofTag tag = (values tag.head).filterMap declared? := by
  rw [values, List.filterMap_map]
  rfl

theorem collects_iff {tags : List Tag} {ids : List Declaration} :
    Collects (tags.map Tag.head) ids ↔ tags.flatMap ofTag = ids := by
  rw [Collects, forall₂_declares_iff, List.filterMap_flatMap, List.flatMap_map, funext ofTag_eq]

theorem declarations_eq_ok_iff {text : String} {ids : List Declaration} :
    declarations text = .ok ids ↔ ∃ es, Ends text es none ∧ Collects (headsOf es) ids := by
  simp only [ends_iff, headsOf, collects_iff, declarations]
  rcases read text with ⟨es, - | f⟩
  · simp
  · simp

theorem declarations_eq_error_iff {text : String} {fault : DeclarationFault} :
    declarations text = .error fault ↔ ∃ es f, Ends text es (some f) ∧ fault = .markup f := by
  simp only [ends_iff, declarations]
  rcases read text with ⟨es, - | f⟩
  · simp
  · simp [eq_comm]

/-- From elements as they are written, however deep they stand, all ids are collected. -/
theorem declarations_of_truncated {roots : Forest Head} {text : String} (h : roots.Truncated text.toList) :
    ∃ ids, declarations text = .ok ids ∧ Collects roots.heads ids := by
  obtain ⟨tags, found, missing, rfl, hevents, hread⟩ := h.exists_readFrom
  have hmissing : (missing.map Markup.Event.closed).filterMap Markup.Event.tag? = [] := by
    simp [List.filterMap_map, Markup.Event.tag?]
  have hfound : found.filterMap Markup.Event.tag? = tags.heads := by
    rw [← Forest.filterMap_tag?_events, ← hevents, List.filterMap_append, hmissing, List.append_nil]
  refine ⟨tags.heads.flatMap ofTag, ?_, ?_⟩
  · rw [declarations, Markup.read, hread, hfound]
  · rw [Forest.heads_map, collects_iff]

end InlineIds

/-! ### Items of unknown type -/

namespace Values

variable {names inside : List (List Char)} {cs rest : List Char} {p q : Place} {e : Markup.Event}
  {before : List Markup.Event} {type : String} {fault : DeclarationFault}

/-- An `item` whose type is no resource type. -/
def IsUnknownItem (tag : Tag) (type : String) : Prop :=
  tag.name = "item".toList ∧ tag.value? "type".toList = some type.toList ∧ ResourceType.ofName? type = none

/-- With these elements open, the event is an `item` of this unknown type among the children of `resources`. -/
def IsUnknownChild (names : List (List Char)) (e : Markup.Event) (type : String) : Prop :=
  names = [rootTag] ∧ ∃ tag, e.tag? = some tag ∧ IsUnknownItem tag type

/-- Behind these events the reader comes to an item of this unknown type. -/
def Meets (names : List (List Char)) (cs : List Char) (before : List Markup.Event) (type : String) : Prop :=
  ∃ last rest e inside behind, Reaches names cs before last rest ∧ next last rest = .event e inside behind ∧
    IsUnknownChild last e type

/-- It comes to no other one before. -/
def MeetsFirst (names : List (List Char)) (cs : List Char) (before : List Markup.Event) (type : String) : Prop :=
  Meets names cs before type ∧ ∀ earlier other, Meets names cs earlier other → before <+: earlier

theorem not_meets_of_ending {fault? : Option Fault} (h : next names cs = .ending fault?) :
    ¬Meets names cs before type := by
  rintro ⟨last, rest, e, inside, behind, hreaches, hevent, -⟩
  cases hreaches with
  | refl => cases fault? <;> simp [h, Step.ending] at hevent
  | passed hnext => cases fault? <;> simp [h, Step.ending] at hnext
  | event hnext => cases fault? <;> simp [h, Step.ending] at hnext

theorem meets_of_passed_iff (h : next names cs = .passed rest) :
    Meets names cs before type ↔ Meets names rest before type := by
  constructor
  · rintro ⟨last, far, e, inside, behind, hreaches, hevent, hchild⟩
    cases hreaches with
    | refl => simp [h] at hevent
    | passed hnext hrest =>
      obtain rfl := Step.passed.inj (h.symm.trans hnext)
      exact ⟨last, far, e, inside, behind, hrest, hevent, hchild⟩
    | event hnext => simp [h] at hnext
  · rintro ⟨last, far, e, inside, behind, hreaches, hevent⟩
    exact ⟨last, far, e, inside, behind, .passed h hreaches, hevent⟩

theorem meets_of_event_iff (h : next names cs = .event e inside rest) :
    Meets names cs before type ↔
      (before = [] ∧ IsUnknownChild names e type) ∨ ∃ later, before = e :: later ∧ Meets inside rest later type := by
  constructor
  · rintro ⟨last, far, other, outer, behind, hreaches, hevent, hchild⟩
    cases hreaches with
    | refl =>
      obtain ⟨rfl, -, -⟩ := Step.event.inj (h.symm.trans hevent)
      exact .inl ⟨rfl, hchild⟩
    | passed hnext => simp [h] at hnext
    | @event _ _ _ _ _ _ _ later hnext hrest =>
      obtain ⟨rfl, rfl, rfl⟩ := Step.event.inj (h.symm.trans hnext)
      exact .inr ⟨later, rfl, last, far, other, outer, behind, hrest, hevent, hchild⟩
  · rintro (⟨rfl, hchild⟩ | ⟨later, rfl, last, far, other, outer, behind, hreaches, hevent⟩)
    · exact ⟨names, cs, e, inside, rest, .refl names cs, h, hchild⟩
    · exact ⟨last, far, other, outer, behind, .event h hreaches, hevent⟩

/-- What is met at once is met first. -/
theorem meetsFirst_of_isUnknownChild {other : String} (h : next names cs = .event e inside rest)
    (hchild : IsUnknownChild names e type) :
    MeetsFirst names cs before other ↔ before = [] ∧ IsUnknownChild names e other := by
  constructor
  · rintro ⟨hmeets, hfirst⟩
    obtain rfl := List.prefix_nil.mp (hfirst [] type ((meets_of_event_iff h).mpr (.inl ⟨rfl, hchild⟩)))
    obtain hhere | ⟨later, hlater, -⟩ := (meets_of_event_iff h).mp hmeets
    · exact hhere
    · contradiction
  · rintro ⟨rfl, hother⟩
    exact ⟨(meets_of_event_iff h).mpr (.inl ⟨rfl, hother⟩), fun earlier _ _ => List.nil_prefix⟩

/-- If nothing is met at once, what is met first is met behind the event. -/
theorem meetsFirst_of_not_isUnknownChild (h : next names cs = .event e inside rest)
    (hnot : ∀ type, ¬IsUnknownChild names e type) :
    MeetsFirst names cs before type ↔ ∃ later, before = e :: later ∧ MeetsFirst inside rest later type := by
  have hmeets (before : List Markup.Event) (type : String) :
      Meets names cs before type ↔ ∃ later, before = e :: later ∧ Meets inside rest later type :=
    (meets_of_event_iff h).trans (or_iff_right fun hhere => hnot type hhere.2)
  constructor
  · rintro ⟨hbefore, hfirst⟩
    obtain ⟨later, rfl, hlater⟩ := (hmeets _ _).mp hbefore
    refine ⟨later, rfl, hlater, fun late other hlate => ?_⟩
    exact (List.prefix_cons_inj e).mp (hfirst _ other ((hmeets _ _).mpr ⟨late, rfl, hlate⟩))
  · rintro ⟨later, rfl, hlater, hfirst⟩
    refine ⟨(hmeets _ _).mpr ⟨later, rfl, hlater⟩, fun earlier other hearlier => ?_⟩
    obtain ⟨late, rfl, hlate⟩ := (hmeets _ _).mp hearlier
    exact (List.prefix_cons_inj e).mpr (hfirst late other hlate)

/-! ### Faults of one tag -/

theorem declaredType?_eq_error_iff {tag : Tag} {depth : Nat} {inStyleable : Bool} :
    declaredType? tag depth inStyleable = .error fault ↔
      depth = 2 ∧ ∃ type, IsUnknownItem tag type ∧ fault = .unknownType type := by
  rw [declaredType?]
  split
  next hdepth =>
    split
    next hitem =>
      cases hvalue : tag.value? "type".toList with
      | none =>
        have hnot (other : String) : ¬IsUnknownItem tag other := by
          rintro ⟨-, hname, -⟩
          rw [hvalue] at hname
          contradiction
        simp [hnot]
      | some name =>
        obtain ⟨type, rfl⟩ : ∃ type : String, name = type.toList := ⟨String.ofList name, String.toList_ofList.symm⟩
        have hunknown (other : String) :
            IsUnknownItem tag other ↔ type = other ∧ ResourceType.ofName? type = none := by
          rw [IsUnknownItem, hvalue, Option.some_inj, String.toList_inj, and_iff_right hitem]
          exact and_congr_right fun heq => heq ▸ Iff.rfl
        simp only [hunknown, String.ofList_toList]
        cases ResourceType.ofName? type with
        | none => simp [hdepth, eq_comm]
        | some known => simp
    next hitem =>
      have hnot (other : String) : ¬IsUnknownItem tag other := fun hother => hitem hother.1
      simp [hnot]
  next hdepth => split <;> simp [hdepth]

theorem declaration?_eq_error_iff {tag : Tag} {depth : Nat} {inStyleable : Bool} :
    declaration? tag depth inStyleable = .error fault ↔
      depth = 2 ∧ ∃ type, IsUnknownItem tag type ∧ fault = .unknownType type := by
  rw [declaration?_eq, ← declaredType?_eq_error_iff]
  cases declaredType? tag depth inStyleable <;> simp [Except.map]

theorem step_eq_error_iff :
    step p e = .error fault ↔ (p.depth = 1 ∧ p.inResources) ∧
      ∃ tag type, e.tag? = some tag ∧ IsUnknownItem tag type ∧ fault = .unknownType type := by
  obtain ⟨hsilent, hnone⟩ | ⟨tag, inStyleable, htag, hresources, htold⟩ := step_cases p e
  · refine iff_of_false (by simp [hnone]) ?_
    rintro ⟨⟨hdepth, hresources⟩, tag, -, htag, -⟩
    simp [hdepth, hresources, htag] at hsilent
  · have hmap : step p e = .error fault ↔ declaration? tag (p.depth + 1) inStyleable = .error fault := by
      rw [htold]
      cases declaration? tag (p.depth + 1) inStyleable <;> simp [Except.map]
    rw [hmap, declaration?_eq_error_iff]
    simp [hresources, htag]

/-! ### Places and open elements -/

/-- The place is the one that a reader with these elements open is at. -/
structure Place.At (p : Place) (names : List (List Char)) : Prop where
  depth_eq : p.depth = names.length
  inResources_iff : ∀ root ∈ names.getLast?, p.inResources ↔ root = rootTag

namespace Place.At

theorem among_children_iff (h : p.At names) : p.depth = 1 ∧ p.inResources ↔ names = [rootTag] := by
  rw [h.depth_eq]
  constructor
  · rintro ⟨hlength, hresources⟩
    obtain ⟨root, rfl⟩ := List.length_eq_one_iff.mp hlength
    rw [(h.inResources_iff root (by simp)).mp hresources]
  · rintro rfl
    exact ⟨rfl, (h.inResources_iff rootTag (by simp)).mpr rfl⟩

theorem nil_iff (h : p.At names) : p.depth = 0 ↔ names = [] := by
  rw [h.depth_eq, List.length_eq_zero_iff]

/-- A root that is opened is the outermost element. -/
theorem root (p : Place) (tag : Tag) :
    Place.At { p with depth := 1, inResources := tag.name = rootTag } [tag.name] where
  depth_eq := rfl
  inResources_iff root hroot := by
    obtain rfl : tag.name = root := by simpa using hroot
    simp

/-- An element inside another one leaves the outermost one as it is. -/
theorem inner (h : p.At names) (hne : names ≠ []) (name : List Char) (inStyleable : Bool) :
    Place.At { p with depth := p.depth + 1, inStyleable := inStyleable } (name :: names) where
  depth_eq := congrArg (· + 1) h.depth_eq
  inResources_iff root hroot := by
    rw [List.getLast?_cons_of_ne_nil hne] at hroot
    exact h.inResources_iff root hroot

theorem outer {name : List Char} (h : p.At (name :: names)) (inStyleable : Bool) :
    Place.At { p with depth := p.depth - 1, inStyleable := inStyleable } names where
  depth_eq := by simp [h.depth_eq]
  inResources_iff root hroot := by
    refine h.inResources_iff root ?_
    have hne : names ≠ [] := by
      rintro rfl
      exact absurd hroot (by simp)
    rwa [List.getLast?_cons_of_ne_nil hne]

theorem step_eq_error_iff (h : p.At names) :
    step p e = .error fault ↔ ∃ type, IsUnknownChild names e type ∧ fault = .unknownType type := by
  rw [Values.step_eq_error_iff, h.among_children_iff]
  constructor
  · rintro ⟨hnames, tag, type, htag, hitem, rfl⟩
    exact ⟨type, ⟨hnames, tag, htag, hitem⟩, rfl⟩
  · rintro ⟨type, ⟨hnames, tag, htag, hitem⟩, rfl⟩
    exact ⟨hnames, tag, type, htag, hitem, rfl⟩

/-- The place behind an event is the one that the reader is at behind it. -/
theorem behind (h : p.At names) (hleads : e.Leads names inside) : (p.behind e).At inside := by
  cases e with
  | opened tag =>
    obtain rfl : inside = tag.name :: names := hleads
    by_cases hdepth : p.depth = 0
    · obtain rfl := h.nil_iff.mp hdepth
      rw [Place.behind, if_pos hdepth]
      exact root p tag
    · have hne : names ≠ [] := mt h.nil_iff.mpr hdepth
      rw [Place.behind, if_neg hdepth]
      split
      next => exact h.inner hne tag.name _
      next => exact h.inner hne tag.name _
  | empty tag =>
    obtain rfl : inside = names := hleads
    exact h
  | closed name =>
    obtain rfl : names = name :: inside := hleads
    exact h.outer _

end Place.At

/-! ### Whole texts -/

/-- The declarations of events cannot be read exactly if the reader meets an item of unknown type, and the first one
counts. -/
theorem declarationsFrom_eq_error_iff (h : p.At names) :
    declarationsFrom p (readFrom names cs).events = .error fault ↔
      ∃ before type, fault = .unknownType type ∧ MeetsFirst names cs before type := by
  induction names, cs using next_induction generalizing p with
  | ends names cs fault? hnext =>
    rw [readFrom_of_ending hnext]
    refine iff_of_false (by simp [declarationsFrom]) ?_
    rintro ⟨before, type, -, hmeets, -⟩
    exact not_meets_of_ending hnext hmeets
  | passed names cs rest hnext ih =>
    rw [readFrom_of_next_passed hnext, ih h]
    simp only [MeetsFirst, meets_of_passed_iff hnext]
  | event names cs e inside rest hnext ih =>
    rw [readFrom_of_next_event hnext, declarationsFrom]
    cases hstep : step p e with
    | error found =>
      obtain ⟨type, hchild, -⟩ := h.step_eq_error_iff.mp hstep
      have hhere : found = fault ↔ ∃ type, IsUnknownChild names e type ∧ fault = .unknownType type := by
        rw [← h.step_eq_error_iff, hstep, Except.error.injEq]
      simp only [bind, Except.bind, Except.error.injEq, hhere, meetsFirst_of_isUnknownChild hnext hchild]
      constructor
      · rintro ⟨other, hother, hfault⟩
        exact ⟨[], other, hfault, rfl, hother⟩
      · rintro ⟨before, other, hfault, -, hother⟩
        exact ⟨other, hother, hfault⟩
    | ok found =>
      have hnot (type : String) : ¬IsUnknownChild names e type := fun hchild => by
        have herror := h.step_eq_error_iff.mpr ⟨type, hchild, rfl⟩
        simp [hstep] at herror
      have hbehind : found.2.At inside := (step_eq_ok hstep).1 ▸ h.behind (leads_of_next_event hnext)
      have hrest : (do return found.1.toList ++ (← declarationsFrom found.2 (readFrom inside rest).events)) =
          .error fault ↔ declarationsFrom found.2 (readFrom inside rest).events = .error fault := by
        cases declarationsFrom found.2 (readFrom inside rest).events <;> simp [bind, Except.bind, pure, Except.pure]
      refine hrest.trans ((ih hbehind).trans ?_)
      simp only [meetsFirst_of_not_isUnknownChild hnext hnot]
      constructor
      · rintro ⟨later, type, hfault, hlater⟩
        exact ⟨e :: later, type, hfault, later, rfl, hlater⟩
      · rintro ⟨before, type, hfault, later, rfl, hlater⟩
        exact ⟨later, type, hfault, hlater⟩

theorem Place.At.start : ({} : Place).At [] where
  depth_eq := rfl
  inResources_iff root hroot := absurd hroot (by simp)

theorem Meets.prefix_events (h : Meets names cs before type) : before <+: (readFrom names cs).events := by
  obtain ⟨last, rest, e, inside, behind, hreaches, -⟩ := h
  rw [hreaches.readFrom_eq]
  exact List.prefix_append before _

/-- All that is met is met on one way, so that something is met first. -/
theorem Meets.exists_meetsFirst (h : Meets names cs before type) : ∃ first other, MeetsFirst names cs first other := by
  induction hn : before.length using Nat.strongRecOn generalizing before type with
  | ind n ih =>
    subst hn
    by_cases hfirst : ∀ earlier other, Meets names cs earlier other → before <+: earlier
    · exact ⟨before, type, h, hfirst⟩
    · push Not at hfirst
      obtain ⟨earlier, other, hearlier, hnot⟩ := hfirst
      have hshorter : earlier.length < before.length := by
        by_contra hle
        exact hnot (List.prefix_of_prefix_length_le h.prefix_events hearlier.prefix_events (Nat.le_of_not_lt hle))
      exact ih _ hshorter hearlier rfl

/-- The reader of a values file fails at the first item of unknown type, or else as the reader of inline ids does. -/
theorem declarations_eq_error_iff {text : String} :
    declarations text = .error fault ↔
      (∃ before type, fault = .unknownType type ∧ MeetsFirst [] text.toList before type) ∨
        (¬∃ before type, Meets [] text.toList before type) ∧ InlineIds.declarations text = .error fault := by
  have hfrom (other : DeclarationFault) : declarationsFrom {} (Markup.read text).events = .error other ↔
      ∃ before type, other = .unknownType type ∧ MeetsFirst [] text.toList before type :=
    declarationsFrom_eq_error_iff Place.At.start
  have hmet : (∃ other, declarationsFrom {} (Markup.read text).events = .error other) ↔
      ∃ before type, Meets [] text.toList before type := by
    simp only [hfrom]
    constructor
    · rintro ⟨other, before, type, -, hmeets, -⟩
      exact ⟨before, type, hmeets⟩
    · rintro ⟨before, type, hmeets⟩
      obtain ⟨first, other, hfirst⟩ := hmeets.exists_meetsFirst
      exact ⟨_, first, other, rfl, hfirst⟩
  rw [← hfrom, ← hmet, declarations, InlineIds.declarations]
  cases declarationsFrom {} (Markup.read text).events with
  | error other => simp [bind, Except.bind]
  | ok found =>
    cases (Markup.read text).fault? <;>
      simp [bind, Except.bind, pure, Except.pure, throw, throwThe, MonadExceptOf.throw]

theorem declarations_eq_markup_iff {text : String} {f : Fault} :
    declarations text = .error (.markup f) ↔
      InlineIds.declarations text = .error (.markup f) ∧ ¬∃ before type, Meets [] text.toList before type := by
  rw [declarations_eq_error_iff, and_comm]
  refine or_iff_right ?_
  rintro ⟨before, type, hfault, -⟩
  contradiction

theorem declarations_eq_unknownType_iff {text name : String} :
    declarations text = .error (.unknownType name) ↔ ∃ before, MeetsFirst [] text.toList before name := by
  rw [declarations_eq_error_iff]
  constructor
  · rintro (⟨before, type, hname, hfirst⟩ | ⟨-, herror⟩)
    · obtain rfl := DeclarationFault.unknownType.inj hname
      exact ⟨before, hfirst⟩
    · obtain ⟨es, f, -, hfault⟩ := InlineIds.declarations_eq_error_iff.mp herror
      contradiction
  · rintro ⟨before, hfirst⟩
    exact .inl ⟨before, name, rfl, hfirst⟩

end Values

/-- The reader of inline ids succeeds exactly if the markup can be read to its end, and then it has all ids that are
named anywhere; the reader of values files finds the same faults in the markup, unless an item of unknown type stops it
before. -/
theorem readers_agree (text : String) :
    ((∃ ids, InlineIds.declarations text = .ok ids) ↔ ∃ es, Ends text es none) ∧
      (∀ ids, InlineIds.declarations text = .ok ids ↔ ∃ es, Ends text es none ∧ InlineIds.Collects (headsOf es) ids) ∧
      (∀ fault, InlineIds.declarations text = .error fault ↔ ∃ es f, Ends text es (some f) ∧ fault = .markup f) ∧
      (∀ f, Values.declarations text = .error (.markup f) ↔
        InlineIds.declarations text = .error (.markup f) ∧ ¬∃ before type, Values.Meets [] text.toList before type) ∧
      (∀ type, Values.declarations text = .error (.unknownType type) ↔
        ∃ before, Values.MeetsFirst [] text.toList before type) := by
  refine ⟨⟨?_, ?_⟩, fun ids => InlineIds.declarations_eq_ok_iff, fun fault => InlineIds.declarations_eq_error_iff,
    fun f => Values.declarations_eq_markup_iff, fun type => Values.declarations_eq_unknownType_iff⟩
  · rintro ⟨ids, hids⟩
    obtain ⟨es, hends, -⟩ := InlineIds.declarations_eq_ok_iff.mp hids
    exact ⟨es, hends⟩
  · rintro ⟨es, hends⟩
    exact ⟨_, InlineIds.declarations_eq_ok_iff.mpr ⟨es, hends, InlineIds.collects_iff.mpr rfl⟩⟩

/-- The end tag does not fit, and only the one reader gets there. -/
example :
    let text := "<resources><item type='menu-item' id='@+id/top'/></menu>"
    InlineIds.declarations text = .error (.markup (.mismatch "resources".toList "menu".toList)) ∧
      Values.declarations text = .error (.unknownType "menu-item") := by
  decide +kernel

end ResourceIndex
