import Mathlib.Data.Multiset.AddSub
import ResourceIndex.Proofs.EventBus.Waiting
import ResourceIndex.Proofs.Repository.Announcement
import ResourceIndex.Proofs.Repository.Ledger

/-!
# Replaying events

A listener who has heard every event since the index was new knows its outline: which resources there are, in the order
of their creation, and which paths are indexed, how often each. Whatever is done to the index, replaying the events that
waited for the listener gives the outline of the index as it is.
-/

namespace ResourceIndex

/-- What a listener can know of an index: each resource by the name of its type and its own name, and the paths of the
files. -/
structure Outline where
  items : List (String × String) := []
  paths : Multiset Path := 0

/-- A resource as events name it. -/
def entryOf (p : ResourceType × String) : String × String :=
  (p.1.name, p.2)

/-- Some live file declares the resource of this name. -/
def Ledger.declaresEntry (l : Ledger) (entry : String × String) : Bool :=
  l.files.any fun f => f.declarations.any fun d => entryOf d.resource = entry

namespace Outline

/-- Follows an event. A file can be dropped only where a file is known. -/
def step (o : Outline) : Event → Option Outline
  | .itemCreated typeName name => some { o with items := o.items ++ [(typeName, name)] }
  | .fileAdded path _ => some { o with paths := path ::ₘ o.paths }
  | .fileRemoved path => if path ∈ o.paths then some { o with paths := o.paths.erase path } else none
  | .rescanStarted => some { o with paths := 0 }
  | .rescanFinished _ _ => some o

/-- Follows events in order. -/
def replay (o : Outline) (events : List Event) : Option Outline :=
  events.foldlM step o

/-- The outline tells every item by its handle, none twice, and the path of every live file. -/
structure Describes (o : Outline) (r : Repository) (l : Ledger) : Prop where
  item : ∀ h : Handle, o.items[h.index]? = (r.type? h).bind fun type => (r.item? h).map fun i => (type.name, i.name)
  items_nodup : o.items.Nodup
  paths : o.paths = (l.files.map (·.path) : Multiset Path)

/-- These are, each once, the declared resources that the outline does not know. -/
def Lacks (o : Outline) (declarations : List Declaration) (created : List (ResourceType × String)) : Prop :=
  created.Nodup ∧ ∀ p, p ∈ created ↔ p ∈ declarations.map Declaration.resource ∧ entryOf p ∉ o.items

/-- The events that an operation has to cause, given the outline and the live files before it. -/
def Announces (o : Outline) (l : Ledger) : Operation → List Event → Prop
  | .addFile path _ _ declarations, events =>
    ∃ created, o.Lacks declarations created ∧
      events = created.map Repository.announcement ++
        [.fileAdded path (declarations.map Declaration.resource).toFinset.card]
  | .updateFile id declarations, events =>
    match l.file? id with
    | none => events = []
    | some _ => ∃ created, o.Lacks declarations created ∧ events = created.map Repository.announcement
  | .removeFile id, events => events = (l.file? id).toList.map fun f => .fileRemoved f.path
  | .beginRescan, events => events = [.rescanStarted]
  | .endRescan, events => events = [.rescanFinished o.items.length (o.items.countP (!l.declaresEntry ·))]

end Outline

/-- A repository and the bus on which it publishes its events. -/
structure Publisher where
  repository : Repository
  bus : EventBus Event

namespace Publisher

/-- Does what is asked for, and publishes the events. -/
def apply (p : Publisher) (op : Operation) : Publisher :=
  let c := p.repository.apply op
  ⟨c.repository, p.bus.emitAll c.events⟩

/-- The publisher behind a sequence of operations. -/
def run (p : Publisher) (ops : List Operation) : Publisher :=
  ops.foldl apply p

end Publisher

/-! ### Names -/

theorem ResourceType.name_injective : Function.Injective ResourceType.name := by
  have hname : ∀ t : ResourceType, ofName? t.name = some t := by
    intro t
    cases t <;> rfl
  intro t u h
  exact Option.some.inj ((hname t).symm.trans (h ▸ hname u))

theorem entryOf_injective : Function.Injective entryOf :=
  ResourceType.name_injective.prodMap Function.injective_id

theorem Ledger.declaresEntry_entryOf (l : Ledger) (p : ResourceType × String) :
    l.declaresEntry (entryOf p) = l.files.any (·.declares p.1 p.2) := by
  have hof : ∀ d : Declaration, decide (entryOf d.resource = entryOf p) = d.isOf p.1 p.2 := by
    intro d
    rw [Bool.eq_iff_iff, decide_eq_true_iff, entryOf_injective.eq_iff, Declaration.isOf_iff, Declaration.resource,
      Prod.ext_iff]
  simp only [declaresEntry, LiveFile.declares, hof]

/-! ### Replayed events -/

namespace Outline

theorem replay_append (o : Outline) (events more : List Event) :
    o.replay (events ++ more) = (o.replay events).bind fun o' => o'.replay more :=
  List.foldlM_append

theorem replay_singleton (o : Outline) (e : Event) : o.replay [e] = o.step e := by
  simp [replay]

theorem replay_announcements (o : Outline) (created : List (ResourceType × String)) :
    o.replay (created.map Repository.announcement) = some { o with items := o.items ++ created.map entryOf } := by
  induction created generalizing o with
  | nil => simp [replay]
  | cons p created ih =>
    rw [List.map_cons, replay, List.foldlM_cons, Repository.announcement]
    refine (ih _).trans ?_
    simp [entryOf]

end Outline

namespace LiveFile

theorem paths_append (live : List LiveFile) (f : LiveFile) :
    ((live ++ [f]).map (·.path) : Multiset Path) = f.path ::ₘ (live.map (·.path) : Multiset Path) := by
  rw [List.map_append, List.map_singleton, ← Multiset.coe_add, Multiset.coe_singleton, Multiset.add_comm,
    Multiset.singleton_add]

/-- The paths of the live files are the path of one of them and the paths of the others. -/
theorem paths_eq_cons {live : List LiveFile} (hids : (live.map (·.id)).Nodup) {f : LiveFile} (hf : f ∈ live) :
    (live.map (·.path) : Multiset Path) = f.path ::ₘ ((live.filter (·.id ≠ f.id)).map (·.path) : Multiset Path) :=
  Multiset.coe_eq_coe.mpr ((perm_cons_filter_id_ne hids hf).map LiveFile.path)

end LiveFile

/-! ### Publishing -/

namespace Publisher

/-- A listener has heard these events since the publisher was new, and they give this outline of it, while the ledger
holds the live files. -/
structure Followed (p : Publisher) (handle : Nat) (l : Ledger) (received : List Event) (o : Outline) : Prop where
  keeps : p.repository.Keeps l
  holds : p.bus.Holds handle received
  replay : Outline.replay {} received = some o
  items : o.items = p.repository.resources.map entryOf
  paths : o.paths = (l.files.map (·.path) : Multiset Path)

variable {p : Publisher} {handle : Nat} {l : Ledger} {received : List Event} {o : Outline}

theorem followed_subscribe (b : EventBus Event) : Followed ⟨{}, b.subscribe.2⟩ b.subscribe.1 {} [] {} where
  keeps := Repository.keeps_empty
  holds := b.holds_subscribe
  replay := rfl
  items := rfl
  paths := rfl

theorem Followed.describes (h : p.Followed handle l received o) : o.Describes p.repository l where
  item k := by
    simp only [h.items, Repository.resources, Repository.type?, Repository.item?, List.map_map, List.getElem?_map]
    cases p.repository.entries[k.index]? <;> rfl
  items_nodup := h.items ▸ h.keeps.indexes.coherent.nodup.map entryOf_injective
  paths := h.paths

theorem Followed.lacks (h : p.Followed handle l received o) {declarations : List Declaration}
    {created : List (ResourceType × String)} (hnodup : created.Nodup)
    (hmem : ∀ q, q ∈ created ↔ q ∈ declarations.map Declaration.resource ∧ q ∉ p.repository.resources) :
    o.Lacks declarations created := by
  refine ⟨hnodup, fun q => ?_⟩
  rw [hmem, h.items, List.mem_map_of_injective entryOf_injective]

theorem Followed.announces (h : p.Followed handle l received o) (op : Operation) :
    o.Announces l op (p.repository.apply op).events := by
  have hindexes := h.keeps.indexes
  cases op with
  | addFile path folder configuration declarations =>
    obtain ⟨created, -, hevents, hnodup, hmem⟩ :=
      hindexes.coherent.events_addFile path folder configuration declarations
    exact ⟨created, h.lacks hnodup hmem, hevents⟩
  | updateFile id declarations =>
    rw [Repository.apply, Change.map, Outline.Announces]
    obtain ⟨hfile, hlive⟩ | ⟨f, -, -, hfile, hlive⟩ := h.keeps.file?_cases id
    · rw [hlive, Repository.updateFile_of_file?_eq_none hfile]
    · obtain ⟨created, -, hevents, hnodup, hmem⟩ := hindexes.coherent.events_updateFile hfile declarations
      rw [hlive]
      exact ⟨created, h.lacks hnodup hmem, hevents⟩
  | removeFile id =>
    rw [Repository.apply, Change.map, Outline.Announces]
    obtain ⟨hfile, hlive⟩ | ⟨f, -, -, hfile, hlive⟩ := h.keeps.file?_cases id
    · rw [hlive, Repository.removeFile_of_file?_eq_none hfile]
      rfl
    · rw [hlive, Repository.removeFile_of_file?_eq_some hfile]
      rfl
  | beginRescan => rfl
  | endRescan =>
    have hevents := hindexes.events_endRescan
    have hempty : (o.items.countP (!l.declaresEntry ·)) =
        p.repository.resources.countP fun q => l.files.all (!·.declares q.1 q.2) := by
      rw [h.items, List.countP_map]
      refine List.countP_congr fun q _ => ?_
      rw [Function.comp_apply, l.declaresEntry_entryOf, List.not_any_eq_all_not]
    rw [Outline.Announces, hempty, h.items, List.length_map]
    exact hevents

theorem Followed.exists_replay (h : p.Followed handle l received o) (op : Operation) :
    ∃ next : Outline, o.replay (p.repository.apply op).events = some next ∧
      next.items = (p.repository.apply op).repository.resources.map entryOf ∧
      next.paths = ((l.record op (p.repository.apply op).result).files.map (·.path) : Multiset Path) := by
  have hindexes := h.keeps.indexes
  cases op with
  | addFile path folder configuration declarations =>
    obtain ⟨created, hcreated, hevents, -⟩ :=
      hindexes.coherent.events_addFile path folder configuration declarations
    refine ⟨⟨o.items ++ created.map entryOf, path ::ₘ o.paths⟩, ?_, ?_, ?_⟩
    · rw [Repository.apply, Change.map, hevents, Outline.replay_append, Outline.replay_announcements,
        Option.bind_some, Outline.replay_singleton, Outline.step]
    · rw [Repository.apply, Change.map, hcreated, List.map_append, h.items]
    · rw [h.paths]
      exact (LiveFile.paths_append l.files ⟨⟨p.repository.nextId⟩, path, folder, configuration, declarations⟩).symm
  | updateFile id declarations =>
    rw [Repository.apply, Change.map, Ledger.record, Ledger.update]
    obtain ⟨hfile, hlive⟩ | ⟨f, hf, rfl, hfile, hlive⟩ := h.keeps.file?_cases id
    · rw [hlive, Repository.updateFile_of_file?_eq_none hfile]
      exact ⟨o, rfl, h.items, h.paths⟩
    · obtain ⟨created, hcreated, hevents, -⟩ := hindexes.coherent.events_updateFile hfile declarations
      refine ⟨⟨o.items ++ created.map entryOf, o.paths⟩, ?_, ?_, ?_⟩
      · rw [hevents, Outline.replay_announcements]
      · rw [hcreated, List.map_append, h.items]
      · rw [hlive, LiveFile.paths_append, h.paths, LiveFile.paths_eq_cons hindexes.ids_nodup hf]
  | removeFile id =>
    rw [Repository.apply, Change.map, Ledger.record]
    obtain ⟨hfile, hlive⟩ | ⟨f, hf, rfl, hfile, hlive⟩ := h.keeps.file?_cases id
    · rw [Ledger.filter_id_ne hlive, Repository.removeFile_of_file?_eq_none hfile]
      exact ⟨o, rfl, h.items, h.paths⟩
    · have hpaths : o.paths = f.path ::ₘ ((l.files.filter (·.id ≠ f.id)).map (·.path) : Multiset Path) := by
        rw [h.paths, LiveFile.paths_eq_cons hindexes.ids_nodup hf]
      have hknown : f.path ∈ o.paths := hpaths ▸ Multiset.mem_cons_self ..
      rw [Repository.removeFile_of_file?_eq_some hfile]
      refine ⟨⟨o.items, o.paths.erase f.path⟩, ?_, ?_, ?_⟩
      · exact (Outline.replay_singleton ..).trans (if_pos hknown)
      · rw [Repository.resources_eraseFile, h.items]
      · rw [hpaths, Multiset.erase_cons_head]
  | beginRescan =>
    refine ⟨⟨o.items, 0⟩, rfl, ?_, rfl⟩
    rw [Repository.apply, Change.map, Repository.resources_beginRescan, h.items]
  | endRescan => exact ⟨o, rfl, h.items, h.paths⟩

theorem Followed.apply (h : p.Followed handle l received o) (op : Operation) :
    ∃ next, (p.apply op).Followed handle (l.record op (p.repository.apply op).result)
      (received ++ (p.repository.apply op).events) next := by
  obtain ⟨next, hreplay, hitems, hpaths⟩ := h.exists_replay op
  refine ⟨next, h.keeps.apply op, h.holds.emitAll _, ?_, hitems, hpaths⟩
  rw [Outline.replay_append, h.replay, Option.bind_some, hreplay]

theorem Followed.run (h : p.Followed handle l received o) (ops : List Operation) :
    ∃ events next, (p.run ops).Followed handle (l.follow p.repository ops) events next := by
  induction ops generalizing p l received o with
  | nil => exact ⟨received, o, h⟩
  | cons op ops ih =>
    obtain ⟨next, hnext⟩ := h.apply op
    exact ih hnext

/-- A listener who has been on the bus since the repository was new has, behind every sequence of operations, received
events that can be replayed and give the outline of the repository. Any next operation adds the events that the outline
and the live files call for. -/
theorem replay_run (b : EventBus Event) (ops : List Operation) :
    let p := run ⟨{}, b.subscribe.2⟩ ops
    let l := Ledger.follow {} {} ops
    ∃ received o,
      (∃ drained, p.bus.drain? b.subscribe.1 = some (received, drained)) ∧
      Outline.replay {} received = some o ∧
      o.Describes p.repository l ∧
      ∀ op, ∃ events,
        (∃ drained, (p.apply op).bus.drain? b.subscribe.1 = some (received ++ events, drained)) ∧
        o.Announces l op events := by
  intro p l
  obtain ⟨received, o, h⟩ := (followed_subscribe b).run ops
  refine ⟨received, o, h.holds.drain?, h.replay, h.describes, fun op => ?_⟩
  obtain ⟨next, hnext⟩ := h.apply op
  exact ⟨_, hnext.holds.drain?, h.announces op⟩

end Publisher

end ResourceIndex
