import ResourceIndex.Declaration.Values
import ResourceIndex.Proofs.Markup.Forest

/-!
# The declarations of a tree

What a values file declares is a matter of its tree: each `resources` root declares by its children, and each
`declare-styleable` child by its `attr` children as well. The reader sees tags, not trees, and keeps no more than a
depth and two flags. That is enough: at every place they tell which of the three levels the elements to come belong to,
or that nothing can be declared there.
-/

namespace ResourceIndex.Values

open Markup

/-! ### What a tree declares -/

/-- The declaration of an element's name as a resource of a type. No name and the name of another package declare
nothing. -/
def named? (type : ResourceType) (h : Head) : Option Declaration :=
  match h.value? "name".toList with
  | some name => if ':' ∈ name then none else some { type := type, name := String.ofList name }
  | none => none

/-- The type that a child of `resources` declares: an `item` with a `type` attribute declares that type, and any other
element the type that its tag stands for. -/
def childType? (h : Head) : Except DeclarationFault (Option ResourceType) :=
  match if h.name = "item".toList then h.value? "type".toList else none with
  | some name =>
    match ResourceType.ofName? (String.ofList name) with
    | some type => .ok (some type)
    | none => .error (.unknownType (String.ofList name))
  | none => .ok (ResourceType.ofValueTag? (String.ofList h.name))

/-- What is declared first and what is declared then; the first fault counts. -/
def andThen (first rest : Except DeclarationFault (List Declaration)) : Except DeclarationFault (List Declaration) := do
  return (← first) ++ (← rest)

def ofChild (h : Head) : Except DeclarationFault (List Declaration) :=
  (childType? h).map fun type? => (type?.bind (named? · h)).toList

/-- What a child of a `declare-styleable` declares. -/
def ofAttr (h : Head) : List Declaration :=
  if h.name = "attr".toList then (named? .attr h).toList else []

def ofAttrs : Forest Head → List Declaration
  | .nil => []
  | .empty h rest => ofAttr h ++ ofAttrs rest
  | .element h _ rest => ofAttr h ++ ofAttrs rest

/-- What the children of `resources` declare. -/
def ofChildren : Forest Head → Except DeclarationFault (List Declaration)
  | .nil => .ok []
  | .empty h rest => andThen (ofChild h) (ofChildren rest)
  | .element h children rest =>
    andThen (andThen (ofChild h) (.ok (if h.name = styleableTag then ofAttrs children else []))) (ofChildren rest)

/-- What the elements of a text declare. -/
def ofRoots : Forest Head → Except DeclarationFault (List Declaration)
  | .nil => .ok []
  | .empty _ rest => ofRoots rest
  | .element h children rest => andThen (if h.name = rootTag then ofChildren children else .ok []) (ofRoots rest)

variable {p : Place} {tag : Tag} {f : Forest Tag} {more : List Markup.Event}

@[simp] theorem ok_nil_andThen (rest : Except DeclarationFault (List Declaration)) : andThen (.ok []) rest = rest := by
  cases rest <;> rfl

theorem andThen_assoc (a b c : Except DeclarationFault (List Declaration)) :
    andThen (andThen a b) c = andThen a (andThen b c) := by
  cases a with
  | error e => rfl
  | ok found =>
    cases b with
    | error e => rfl
    | ok inside =>
      cases c with
      | error e => rfl
      | ok rest => exact congrArg Except.ok (List.append_assoc found inside rest)

theorem ok_andThen_ok (found rest : List Declaration) : andThen (.ok found) (.ok rest) = .ok (found ++ rest) := by
  rfl

/-! ### What a tag declares -/

theorem declaration?_eq (tag : Tag) (depth : Nat) (inStyleable : Bool) :
    declaration? tag depth inStyleable =
      (declaredType? tag depth inStyleable).map fun type? => type?.bind (named? · tag.head) := by
  rw [declaration?]
  cases declaredType? tag depth inStyleable with
  | error e => rfl
  | ok type? =>
    cases type? with
    | none => rfl
    | some type =>
      have hvalue : tag.value? "name".toList = tag.head.value? "name".toList := rfl
      simp only [Except.map, Option.bind_some, named?, hvalue]
      cases tag.head.value? "name".toList <;> rfl

theorem map_toList_declaration?_child (tag : Tag) (inStyleable : Bool) :
    (declaration? tag 2 inStyleable).map Option.toList = ofChild tag.head := by
  have htype : declaredType? tag 2 inStyleable = childType? tag.head := by
    have hvalue : tag.value? "type".toList = tag.head.value? "type".toList := rfl
    have hname : tag.head.name = tag.name := rfl
    simp only [declaredType?, if_true, childType?, hvalue, hname]
    split
    next hitem =>
      cases tag.head.value? "type".toList with
      | none => rw [hitem]; rfl
      | some name => rfl
    next => rfl
  rw [declaration?_eq, htype, ofChild]
  cases childType? tag.head <;> rfl

theorem map_toList_declaration?_attr (tag : Tag) :
    (declaration? tag 3 true).map Option.toList = .ok (ofAttr tag.head) := by
  have hname : tag.head.name = tag.name := rfl
  rw [declaration?_eq, declaredType?, ofAttr, hname, if_neg (by decide)]
  by_cases hattr : tag.name = "attr".toList
  · rw [if_pos ⟨rfl, rfl, hattr⟩, if_pos hattr]
    rfl
  · rw [if_neg fun h => hattr h.2.2, if_neg hattr]
    rfl

theorem declaration?_eq_none {depth : Nat} {inStyleable : Bool} (hdepth : depth ≠ 2)
    (hinside : ¬(depth = 3 ∧ inStyleable)) : declaration? tag depth inStyleable = .ok none := by
  have htype : declaredType? tag depth inStyleable = .ok none := by
    rw [declaredType?, if_neg hdepth, if_neg fun h => hinside ⟨h.1, h.2.1⟩]
  rw [declaration?_eq, htype]
  rfl

/-! ### Reading on behind a tag -/

theorem declarationsFrom_of_step {e : Markup.Event} {found : Except DeclarationFault (Option Declaration)}
    {next : Place} (h : step p e = found.map (·, next)) (es : List Markup.Event) :
    declarationsFrom p (e :: es) = andThen (found.map Option.toList) (declarationsFrom next es) := by
  rw [declarationsFrom, h]
  cases found <;> rfl

theorem declarationsFrom_of_silent_step {e : Markup.Event} {next : Place} (h : step p e = .ok (none, next))
    (es : List Markup.Event) : declarationsFrom p (e :: es) = declarationsFrom next es := by
  have hfound : step p e = (Except.ok none).map (·, next) := h
  rw [declarationsFrom_of_step hfound]
  exact ok_nil_andThen _

theorem step_empty (h : p.inResources = true) (tag : Tag) :
    step p (.empty tag) = (declaration? tag (p.depth + 1) p.inStyleable).map (·, p) := by
  rw [step, if_pos h]
  cases declaration? tag (p.depth + 1) p.inStyleable <;> rfl

/-- The place inside a child of `resources`, or deeper. -/
def Place.below (p : Place) (tag : Tag) : Place :=
  { p with depth := p.depth + 1, inStyleable := p.inStyleable || (p.depth + 1 = 2 && tag.name = styleableTag) }

theorem step_opened (hdepth : p.depth ≠ 0) (h : p.inResources = true) (tag : Tag) :
    step p (.opened tag) = (declaration? tag (p.depth + 1) (p.below tag).inStyleable).map (·, p.below tag) := by
  have hroot : p.depth + 1 ≠ 1 := by simpa using hdepth
  simp only [step, if_neg hroot, if_pos h]
  rw [Place.below]
  generalize (p.inStyleable || (decide (p.depth + 1 = 2) && decide (tag.name = styleableTag))) = inStyleable
  cases declaration? tag (p.depth + 1) inStyleable <;> rfl

theorem step_closed (p : Place) (name : List Char) :
    step p (.closed name) = .ok (none, { p with
      depth := p.depth - 1
      inStyleable := p.inStyleable && !(p.depth = 2 && name = styleableTag) }) := by
  rfl

/-- The place behind an event. -/
def Place.behind (p : Place) : Markup.Event → Place
  | .opened tag =>
    if p.depth = 0 then { p with depth := 1, inResources := tag.name = rootTag }
    else if p.inResources then p.below tag
    else { p with depth := p.depth + 1 }
  | .empty _ => p
  | .closed name => { p with
      depth := p.depth - 1
      inStyleable := p.inStyleable && !(p.depth = 2 && name = styleableTag) }

/-- An event declares nothing, or it has a tag, inside a `resources` element, that declares something at its depth. -/
theorem step_cases (p : Place) (e : Markup.Event) :
    ((e.tag? = none ∨ p.depth = 0 ∨ p.inResources = false) ∧ step p e = .ok (none, p.behind e)) ∨
      ∃ tag inStyleable, e.tag? = some tag ∧ p.inResources = true ∧
        step p e = (declaration? tag (p.depth + 1) inStyleable).map (·, p.behind e) := by
  cases e with
  | opened tag =>
    by_cases hdepth : p.depth = 0
    · exact .inl ⟨.inr (.inl hdepth), by simp [step, Place.behind, hdepth, pure, Except.pure]⟩
    cases hresources : p.inResources with
    | true =>
      refine .inr ⟨tag, (p.below tag).inStyleable, rfl, rfl, ?_⟩
      simp [step_opened hdepth hresources, Place.behind, hdepth, hresources]
    | false => exact .inl ⟨.inr (.inr rfl), by simp [step, Place.behind, hdepth, hresources, pure, Except.pure]⟩
  | empty tag =>
    cases hresources : p.inResources with
    | true => exact .inr ⟨tag, _, rfl, rfl, step_empty hresources tag⟩
    | false => exact .inl ⟨.inr (.inr rfl), by simp [step, Place.behind, hresources, pure, Except.pure]⟩
  | closed name => exact .inl ⟨.inl rfl, step_closed p name⟩

theorem step_eq_ok {e : Markup.Event} {found : Option Declaration} {next : Place} (h : step p e = .ok (found, next)) :
    next = p.behind e ∧ ∀ d ∈ found, ∃ tag inStyleable,
      e.tag? = some tag ∧ declaration? tag (p.depth + 1) inStyleable = .ok (some d) := by
  obtain ⟨-, hnone⟩ | ⟨tag, inStyleable, htag, -, htold⟩ := step_cases p e
  · obtain ⟨rfl, rfl⟩ := Prod.mk.inj (Except.ok.inj (hnone.symm.trans h))
    exact ⟨rfl, fun d hd => by contradiction⟩
  · rw [htold] at h
    cases hdeclared : declaration? tag (p.depth + 1) inStyleable with
    | error fault => rw [hdeclared] at h; contradiction
    | ok other =>
      rw [hdeclared] at h
      obtain ⟨rfl, rfl⟩ := Prod.mk.inj (Except.ok.inj h)
      exact ⟨rfl, fun d hd => ⟨tag, inStyleable, htag, hd ▸ hdeclared⟩⟩

/-- End tags declare nothing, so that missing ones are not missed. -/
theorem declarationsFrom_append_closed (p : Place) (es : List Markup.Event) (missing : List (List Char)) :
    declarationsFrom p (es ++ missing.map .closed) = declarationsFrom p es := by
  induction es generalizing p with
  | nil =>
    induction missing generalizing p with
    | nil => rfl
    | cons name missing ih => exact (declarationsFrom_of_silent_step (step_closed p name) _).trans (ih _)
  | cons e es ih =>
    rw [List.cons_append, declarationsFrom, declarationsFrom]
    cases step p e with
    | error f => rfl
    | ok found => exact congrArg (andThen (.ok found.1.toList)) (ih found.2)

/-! ### Places where nothing is declared -/

/-- No element declares anything from here on until the element around the place ends: it is inside another root than
`resources`, deeper than any declaration, or in a child of `resources` that groups no attributes. -/
def Place.IsSilent (p : Place) : Prop :=
  p.depth ≠ 0 ∧ (p.inResources = false ∧ p.inStyleable = false ∨
    p.inResources = true ∧ (3 ≤ p.depth ∨ p.depth = 2 ∧ p.inStyleable = false))

/-- The place inside the element that starts here. -/
def Place.inside (p : Place) : Place :=
  { p with depth := p.depth + 1 }

namespace Place.IsSilent

theorem inside (h : p.IsSilent) : p.inside.IsSilent := by
  obtain ⟨hdepth, hother | ⟨hresources, hdeep⟩⟩ := h
  · exact ⟨Nat.succ_ne_zero _, .inl hother⟩
  · refine ⟨Nat.succ_ne_zero _, .inr ⟨hresources, .inl ?_⟩⟩
    simp only [Place.inside]
    omega

theorem declaration?_eq_none (h : p.IsSilent) (hresources : p.inResources = true) (tag : Tag) :
    declaration? tag (p.depth + 1) p.inStyleable = .ok none := by
  obtain ⟨hdepth, ⟨hother, -⟩ | ⟨-, hdeep | ⟨hchild, hstyleable⟩⟩⟩ := h
  · exact absurd (hother.symm.trans hresources) Bool.false_ne_true
  · exact Values.declaration?_eq_none (by omega) (by omega)
  · exact Values.declaration?_eq_none (by omega) (by simp [hstyleable])

theorem step_empty (h : p.IsSilent) (tag : Tag) : step p (.empty tag) = .ok (none, p) := by
  cases hresources : p.inResources with
  | true => rw [Values.step_empty hresources, h.declaration?_eq_none hresources]; rfl
  | false => rw [step, hresources]; rfl

theorem step_opened (h : p.IsSilent) (tag : Tag) : step p (.opened tag) = .ok (none, p.inside) := by
  cases hresources : p.inResources with
  | true =>
    have hbelow : p.below tag = p.inside := by
      obtain ⟨-, ⟨hother, -⟩ | ⟨-, hdeep⟩⟩ := h
      · exact absurd (hother.symm.trans hresources) Bool.false_ne_true
      · have hchild : p.depth + 1 ≠ 2 := by omega
        simp [Place.below, Place.inside, hchild]
    rw [Values.step_opened h.1 hresources, hbelow, Place.inside, h.declaration?_eq_none hresources]
    rfl
  | false =>
    have hroot : p.depth + 1 ≠ 1 := by simpa using h.1
    simp only [step, if_neg hroot, hresources, Place.inside]
    rfl

theorem step_closed (h : p.IsSilent) (name : List Char) : step p.inside (.closed name) = .ok (none, p) := by
  rw [Values.step_closed]
  obtain ⟨depth, inResources, inStyleable⟩ := p
  obtain ⟨hdepth, ⟨-, hstyleable⟩ | ⟨-, hdeep⟩⟩ := h
  · simp only at hstyleable
    simp [Place.inside, hstyleable]
  · have hbelow : depth ≠ 1 := by
      simp only at hdeep
      omega
    simp [Place.inside, hbelow]

theorem declarationsFrom (h : p.IsSilent) (f : Forest Tag) (more : List Markup.Event) :
    declarationsFrom p (f.events ++ more) = declarationsFrom p more := by
  induction f generalizing p more with
  | nil => rfl
  | empty tag rest ih => exact (declarationsFrom_of_silent_step (h.step_empty tag) _).trans (ih h more)
  | element tag children rest ihchildren ihrest =>
    rw [Forest.events, List.cons_append, declarationsFrom_of_silent_step (h.step_opened tag), List.append_assoc,
      ihchildren h.inside, List.cons_append, declarationsFrom_of_silent_step (h.step_closed tag.name), ihrest h]

end Place.IsSilent

/-! ### The three levels -/

/-- Among the children of a `declare-styleable`. -/
theorem declarationsFrom_attrs (f : Forest Tag) (more : List Markup.Event) :
    declarationsFrom ⟨2, true, true⟩ (f.events ++ more) =
      andThen (.ok (ofAttrs (f.map Tag.head))) (declarationsFrom ⟨2, true, true⟩ more) := by
  induction f generalizing more with
  | nil => exact (ok_nil_andThen _).symm
  | empty tag rest ih =>
    rw [Forest.events, List.cons_append, declarationsFrom_of_step (step_empty rfl tag), map_toList_declaration?_attr,
      ih, ← andThen_assoc, ok_andThen_ok]
    rfl
  | element tag children rest _ ih =>
    have hstep : step ⟨2, true, true⟩ (.opened tag) = (declaration? tag 3 true).map (·, ⟨3, true, true⟩) :=
      step_opened (by decide) rfl tag
    have hinside : Place.IsSilent ⟨3, true, true⟩ := ⟨by decide, .inr ⟨rfl, .inl le_rfl⟩⟩
    have hclosed : step ⟨3, true, true⟩ (.closed tag.name) = .ok (none, ⟨2, true, true⟩) := step_closed _ _
    rw [Forest.events, List.cons_append, declarationsFrom_of_step hstep, map_toList_declaration?_attr,
      List.append_assoc, hinside.declarationsFrom, List.cons_append, declarationsFrom_of_silent_step hclosed, ih,
      ← andThen_assoc, ok_andThen_ok]
    rfl

/-- Inside a child of `resources`, and behind it. -/
theorem declarationsFrom_inside_child (tag : Tag) (children : Forest Tag) (more : List Markup.Event) :
    declarationsFrom ⟨2, true, tag.name = styleableTag⟩ (children.events ++ .closed tag.name :: more) =
      andThen (.ok (if tag.name = styleableTag then ofAttrs (children.map Tag.head) else []))
        (declarationsFrom ⟨1, true, false⟩ more) := by
  by_cases hname : tag.name = styleableTag
  · have hclosed : step ⟨2, true, true⟩ (.closed styleableTag) = .ok (none, ⟨1, true, false⟩) := step_closed _ _
    simp only [hname, decide_true, if_true]
    rw [declarationsFrom_attrs, declarationsFrom_of_silent_step hclosed]
  · have hsilent : Place.IsSilent ⟨2, true, false⟩ := ⟨by decide, .inr ⟨rfl, .inr ⟨rfl, rfl⟩⟩⟩
    have hclosed : step ⟨2, true, false⟩ (.closed tag.name) = .ok (none, ⟨1, true, false⟩) := step_closed _ _
    simp only [hname, decide_false, if_false]
    rw [hsilent.declarationsFrom, declarationsFrom_of_silent_step hclosed, ok_nil_andThen]

/-- Among the children of `resources`. -/
theorem declarationsFrom_children (f : Forest Tag) (more : List Markup.Event) :
    declarationsFrom ⟨1, true, false⟩ (f.events ++ more) =
      andThen (ofChildren (f.map Tag.head)) (declarationsFrom ⟨1, true, false⟩ more) := by
  induction f generalizing more with
  | nil => exact (ok_nil_andThen _).symm
  | empty tag rest ih =>
    rw [Forest.events, List.cons_append, declarationsFrom_of_step (step_empty rfl tag), map_toList_declaration?_child,
      ih, ← andThen_assoc]
    rfl
  | element tag children rest _ ih =>
    have hbelow : Place.below ⟨1, true, false⟩ tag = ⟨2, true, tag.name = styleableTag⟩ := by simp [Place.below]
    have hstep : step ⟨1, true, false⟩ (.opened tag) = _ := step_opened (by decide) rfl tag
    rw [Forest.events, List.cons_append, declarationsFrom_of_step hstep, map_toList_declaration?_child, hbelow,
      List.append_assoc, List.cons_append, declarationsFrom_inside_child, ih, ← andThen_assoc, ← andThen_assoc]
    rfl

/-- Inside a root, and behind it. -/
theorem declarationsFrom_inside_root (tag : Tag) (children : Forest Tag) (more : List Markup.Event) :
    declarationsFrom ⟨1, tag.name = rootTag, false⟩ (children.events ++ .closed tag.name :: more) =
      andThen (if tag.name = rootTag then ofChildren (children.map Tag.head) else .ok [])
        (declarationsFrom ⟨0, tag.name = rootTag, false⟩ more) := by
  have hclosed : step ⟨1, tag.name = rootTag, false⟩ (.closed tag.name) = .ok (none, ⟨0, tag.name = rootTag, false⟩) :=
    step_closed _ _
  by_cases hname : tag.name = rootTag
  · simp only [hname, decide_true, if_true] at hclosed ⊢
    rw [declarationsFrom_children, declarationsFrom_of_silent_step hclosed]
  · have hsilent : Place.IsSilent ⟨1, false, false⟩ := ⟨by decide, .inl ⟨rfl, rfl⟩⟩
    simp only [hname, decide_false, if_false] at hclosed ⊢
    rw [hsilent.declarationsFrom, declarationsFrom_of_silent_step hclosed, ok_nil_andThen]

/-- Among the roots of a text, where it does not matter what the root before was. -/
theorem declarationsFrom_roots (f : Forest Tag) (inResources : Bool) :
    declarationsFrom ⟨0, inResources, false⟩ f.events = ofRoots (f.map Tag.head) := by
  induction f generalizing inResources with
  | nil => rfl
  | empty tag rest ih =>
    have hstep : step ⟨0, inResources, false⟩ (.empty tag) = .ok (none, ⟨0, inResources, false⟩) := by
      have hnone : declaration? tag 1 false = .ok none := declaration?_eq_none (by decide) (by decide)
      cases inResources with
      | true => rw [step_empty rfl, hnone]; rfl
      | false => rfl
    exact (declarationsFrom_of_silent_step hstep _).trans (ih inResources)
  | element tag children rest _ ih =>
    have hstep : step ⟨0, inResources, false⟩ (.opened tag) = .ok (none, ⟨1, tag.name = rootTag, false⟩) := rfl
    rw [Forest.events, declarationsFrom_of_silent_step hstep, declarationsFrom_inside_root, ih]
    rfl

/-! ### Texts -/

theorem declarations_of_truncated {roots : Forest Head} {text : String} (h : roots.Truncated text.toList) :
    declarations text = ofRoots roots := by
  obtain ⟨tags, found, missing, rfl, hevents, hread⟩ := h.exists_readFrom
  have hfound : declarationsFrom {} found = ofRoots (tags.map Tag.head) := by
    rw [← declarationsFrom_append_closed {} found missing, hevents]
    exact declarationsFrom_roots tags false
  rw [declarations, Markup.read, hread, hfound]
  cases ofRoots (tags.map Tag.head) <;> rfl

/-- A values file declares what its tree declares, however its tags are spelled and whatever stands between them, and
also when end tags are missing at its end. -/
theorem declarations_eq_ofRoots {roots : Forest Head} {text cut : String} (htext : roots.Written text.toList)
    (hcut : roots.Truncated cut.toList) :
    declarations text = ofRoots roots ∧ declarations cut = declarations text := by
  have hwhole := declarations_of_truncated (.whole htext)
  exact ⟨hwhole, (declarations_of_truncated hcut).trans hwhole.symm⟩

/-- A line break between the tags, quotes of both kinds, and a text that ends before its last tag. -/
theorem declarations_eq_ofRoots_item :
    let item : Head := ⟨"item".toList, [⟨"type".toList, "id".toList⟩, ⟨"name".toList, "top".toList⟩]⟩
    let roots : Forest Head := .element ⟨"resources".toList, []⟩ (.empty item .nil) .nil
    let text := "<resources>\n<item type='id' name=\"top\" /></resources>"
    let cut := "<resources>\n<item type='id' name=\"top\" />"
    roots.Written text.toList ∧ roots.Truncated cut.toList ∧ ofRoots roots = .ok [⟨.id, "top", false⟩] ∧
      declarations text = ofRoots roots ∧ declarations cut = declarations text := by
  intro item roots text cut
  have hitem : item.SpelledAs " type='id' name=\"top\" ".toList := {
    name := by decide
    nodup := by decide
    attributes :=
      .cons_plain (.inr rfl) (by decide) (by decide) <|
      .cons_plain (.inl rfl) (by decide) (by decide) <| .nil (List.forall_mem_singleton.mpr rfl) }
  have hroot : (⟨"resources".toList, []⟩ : Head).SpelledAs [] :=
    ⟨by decide, by decide, .nil (List.forall_mem_nil _)⟩
  have hline : IsGap ['\n'] := isGap_text (by simp)
  have hinner : Forest.Written (.empty item .nil) "\n<item type='id' name=\"top\" />".toList :=
    .empty hline hitem (.nil isGap_nil)
  have hwritten : roots.Written text.toList := by
    refine Eq.subst (motive := roots.Written) ?_
      (Forest.Written.element isGap_nil hroot hinner (List.forall_mem_nil _) (.nil isGap_nil))
    decide
  have hcut : roots.Truncated cut.toList := by
    refine Eq.subst (motive := roots.Truncated) ?_ (Forest.Truncated.unclosed isGap_nil hroot (.whole hinner))
    decide
  exact ⟨hwritten, hcut, by decide, declarations_eq_ofRoots hwritten hcut⟩

end ResourceIndex.Values
