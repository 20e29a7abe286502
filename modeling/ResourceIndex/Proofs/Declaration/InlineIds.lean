import ResourceIndex.Declaration.InlineIds
import ResourceIndex.Proofs.Declaration.Merged
import ResourceIndex.Proofs.Declaration.Values
import ResourceIndex.Proofs.Fallible.Steps

/-!
# Without inline ids

A file declares ids in passing or it declares resources of its own, and the declarations tell which. Leaving out the ids
declared in passing and merging can be done in either order: an id that is also declared as a resource of its own stays
either way.
-/

namespace ResourceIndex

namespace Declaration

/-- The declaration is one of an id in passing. -/
def isInlineId (d : Declaration) : Bool :=
  d.type = .id && d.isInline

def withoutInlineIds (ds : List Declaration) : List Declaration :=
  ds.filter (!·.isInlineId)

theorem withoutInlineIds_cons (d : Declaration) (ds : List Declaration) :
    withoutInlineIds (d :: ds) = if d.isInlineId then withoutInlineIds ds else d :: withoutInlineIds ds := by
  rw [withoutInlineIds, List.filter_cons]
  cases d.isInlineId <;> rfl

/-- An id that is declared in passing only is not declared any more, and no other answer changes. -/
theorem flag?_withoutInlineIds (ds : List Declaration) (type : ResourceType) (name : String) :
    flag? (withoutInlineIds ds) type name =
      if type = .id then (flag? ds type name).filter (!·) else flag? ds type name := by
  induction ds with
  | nil => simp [withoutInlineIds]
  | cons d ds ih =>
    rw [withoutInlineIds_cons, flag?_cons]
    cases hof : d.isOf type name with
    | false => cases d.isInlineId <;> simp [flag?_cons, hof, ih]
    | true =>
      have htype := (isOf_iff.mp hof).1
      cases hpassing : d.isInlineId with
      | true =>
        obtain ⟨hid, hinline⟩ : d.type = .id ∧ d.isInline := by simpa [isInlineId] using hpassing
        rw [if_pos rfl, ih, if_pos (htype ▸ hid), if_pos (htype ▸ hid), if_pos rfl, hinline]
        rcases flag? ds type name with - | - | - <;> rfl
      | false =>
        rw [if_neg (by decide), flag?_cons, hof, if_pos rfl, if_pos rfl, ih]
        by_cases hid : type = .id
        · have hinline : d.isInline = false := by simpa [isInlineId, htype, hid] using hpassing
          rw [if_pos hid, if_pos hid, hinline]
          rfl
        · rw [if_neg hid, if_neg hid]

theorem merged_withoutInlineIds (ds : List Declaration) :
    merged (withoutInlineIds ds) = withoutInlineIds (merged ds) := by
  have hfiltered : Ascending (withoutInlineIds (merged ds)) := (merged_ascending ds).filter _
  refine (merged_ascending _).eq_of_flag?_eq hfiltered fun type name => ?_
  rw [flag?_merged, flag?_withoutInlineIds, flag?_withoutInlineIds, flag?_merged]

end Declaration

/-! ### What a file declares -/

namespace InlineIds

variable {text : String} {ds : List Declaration} {d : Declaration}

theorem exists_declared?_of_mem (h : declarations text = .ok ds) (hd : d ∈ ds) :
    ∃ value, declared? value = some d := by
  rw [declarations] at h
  split at h
  next =>
    obtain rfl := Except.ok.inj h
    obtain ⟨tag, -, htag⟩ := List.mem_flatMap.mp hd
    obtain ⟨a, -, hdeclared⟩ := List.mem_filterMap.mp htag
    exact ⟨a.value, hdeclared⟩
  next => contradiction

/-- A layout or menu declares in passing nothing but ids. -/
theorem isInlineId_of_mem (h : declarations text = .ok ds) : ∀ d ∈ ds, d.isInlineId := by
  intro d hd
  obtain ⟨value, hdeclared⟩ := exists_declared?_of_mem h hd
  rw [declared?] at hdeclared
  split at hdeclared
  next => contradiction
  next => contradiction
  next => obtain rfl := Option.some.inj hdeclared; rfl

end InlineIds

namespace Values

variable {tag : Markup.Tag} {type : ResourceType} {d : Declaration} {ds : List Declaration}

theorem named?_eq_some_iff {h : Markup.Head} :
    named? type h = some d ↔
      ∃ name, h.value? "name".toList = some name ∧ ':' ∉ name ∧ d = { type := type, name := String.ofList name } := by
  rw [named?]
  cases h.value? "name".toList with
  | none => simp
  | some name => by_cases hcolon : ':' ∈ name <;> simp [hcolon, eq_comm]

theorem exists_named?_of_declaration? {depth : Nat} {inStyleable : Bool}
    (h : declaration? tag depth inStyleable = .ok (some d)) : ∃ type, named? type tag.head = some d := by
  rw [declaration?_eq] at h
  cases htype : declaredType? tag depth inStyleable with
  | error e => rw [htype] at h; contradiction
  | ok type? =>
    rw [htype] at h
    obtain ⟨type, -, hnamed⟩ := Option.bind_eq_some_iff.mp (Except.ok.inj h)
    exact ⟨type, hnamed⟩

theorem exists_named?_of_mem_declarationsFrom {p : Place} {es : List Markup.Event}
    (h : declarationsFrom p es = .ok ds) (hd : d ∈ ds) :
    ∃ tag ∈ es.filterMap Markup.Event.tag?, ∃ type, named? type tag.head = some d := by
  induction es generalizing p ds with
  | nil =>
    obtain rfl := Except.ok.inj h
    contradiction
  | cons e es ih =>
    rw [declarationsFrom] at h
    obtain ⟨⟨found, next⟩, hstep, h⟩ := bind_eq_ok h
    obtain ⟨rest, hrest, h⟩ := bind_eq_ok h
    obtain rfl := Except.ok.inj h
    obtain hfirst | hlater := List.mem_append.mp hd
    · obtain ⟨tag, inStyleable, htag, hdeclared⟩ := (step_eq_ok hstep).2 d (Option.mem_toList.mp hfirst)
      exact ⟨tag, List.mem_filterMap.mpr ⟨e, List.mem_cons_self, htag⟩, exists_named?_of_declaration? hdeclared⟩
    · obtain ⟨tag, htag, type, hnamed⟩ := ih hrest hlater
      obtain ⟨other, hother, heq⟩ := List.mem_filterMap.mp htag
      exact ⟨tag, List.mem_filterMap.mpr ⟨other, List.mem_cons_of_mem e hother, heq⟩, type, hnamed⟩

/-- Every declaration of a values file is made by a tag that names it. -/
theorem exists_named?_of_mem {text : String} (h : declarations text = .ok ds) (hd : d ∈ ds) :
    ∃ tag ∈ (Markup.read text).events.filterMap Markup.Event.tag?, ∃ type, named? type tag.head = some d := by
  rw [declarations] at h
  obtain ⟨found, hfound, h⟩ := bind_eq_ok h
  split at h
  next =>
    obtain rfl := Except.ok.inj h
    exact exists_named?_of_mem_declarationsFrom hfound hd
  next => contradiction

/-- A values file declares nothing in passing. -/
theorem isInline_of_mem {text : String} (h : declarations text = .ok ds) : ∀ d ∈ ds, d.isInline = false := by
  intro d hd
  obtain ⟨tag, -, type, hnamed⟩ := exists_named?_of_mem h hd
  obtain ⟨name, -, -, rfl⟩ := named?_eq_some_iff.mp hnamed
  rfl

end Values

end ResourceIndex
