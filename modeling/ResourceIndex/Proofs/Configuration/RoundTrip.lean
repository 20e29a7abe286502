import ResourceIndex.Folder
import ResourceIndex.Proofs.Configuration.Settings
import ResourceIndex.Proofs.Qualifier.Range

/-!
# Reading back what is written

Reading yields well-formed configurations only, those whose values are all in range, and the well-formed configurations
are also the ones that are read back from their text. So a canonical folder name stands for its folder alone.
-/

namespace ResourceIndex

namespace Configuration

/-- Every value that is set is in the range of its dimension. -/
def WellFormed (c : Configuration) : Prop :=
  ∀ d v, c.get d = some v → d.Valid v

variable {c : Configuration} {segs : List (List Char)} {text : String}

theorem WellFormed.valid {s : Setting} (h : c.WellFormed) (hs : s ∈ c.settings) : s.1.Valid s.2 :=
  h s.1 s.2 (mem_settings.mp hs)

/-! ### Segments -/

theorem Spelled.wellFormed (h : Spelled c.settings segs) : c.WellFormed := by
  have hvalid : List.Forall₂ (fun s seg => s.1.Valid s.2 ∧ s.1.Denotes seg s.2) c.settings segs :=
    h.imp fun s seg hs => ⟨hs.valid, hs⟩
  intro d v hv
  exact ((List.forall₂_and_left _ _).mp hvalid).1 ⟨d, v⟩ (mem_settings.mpr hv)

theorem wellFormed_of_ofSegments? (h : ofSegments? segs = some c) : c.WellFormed :=
  Spelled.wellFormed (ofSegments?_eq_some_iff.mp h)

namespace WellFormed

theorem spelled_segments (h : c.WellFormed) : Spelled c.settings c.segments := by
  rw [segments_eq, Spelled, List.forall₂_map_right_iff, List.forall₂_same]
  intro s hs
  exact (h.valid hs).denotes_write

theorem ofSegments?_segments (h : c.WellFormed) : ofSegments? c.segments = some c :=
  ofSegments?_eq_some_iff.mpr h.spelled_segments

theorem exists_fits (h : c.WellFormed) {seg : List Char} (hseg : seg ∈ c.segments) : ∃ d : Dimension, d.Fits seg := by
  rw [segments_eq, List.mem_map] at hseg
  obtain ⟨s, hs, rfl⟩ := hseg
  exact ⟨s.1, (h.valid hs).denotes_write.fits⟩

theorem dash_not_mem (h : c.WellFormed) : ∀ seg ∈ c.segments, '-' ∉ seg := by
  intro seg hseg
  obtain ⟨d, hd⟩ := h.exists_fits hseg
  exact hd.dash_not_mem

end WellFormed

/-! ### Texts -/

theorem segments_eq_nil_iff : c.segments = [] ↔ c = empty := by
  constructor
  · intro h
    rw [segments_eq, List.map_eq_nil_iff] at h
    exact settings_injective h
  · rintro rfl
    rfl

theorem WellFormed.ofText?_toText (h : c.WellFormed) : ofText? c.toText = some c := by
  by_cases hempty : c.segments = []
  · obtain rfl := segments_eq_nil_iff.mp hempty
    rfl
  · have hsplit : c.toText.toList.splitOn '-' = c.segments := by
      rw [toText, String.toList_ofList]
      exact List.splitOn_intercalate '-' h.dash_not_mem hempty
    have hne : c.toText ≠ "" := by
      -- The empty text would be a single segment without characters, and no class has one.
      intro hnil
      have hsingle : c.segments = [[]] := by
        rw [← hsplit, hnil]
        rfl
      obtain ⟨d, hd⟩ := h.exists_fits (hsingle ▸ List.mem_singleton_self [])
      exact hd.ne_nil rfl
    rw [ofText?, String.isEmpty_eq_false_iff.mpr hne, hsplit]
    exact h.ofSegments?_segments

theorem WellFormed.toText_inj {a b : Configuration} (ha : a.WellFormed) (hb : b.WellFormed) :
    a.toText = b.toText ↔ a = b := by
  constructor
  · intro htext
    have hread := ha.ofText?_toText
    rw [htext, hb.ofText?_toText] at hread
    exact (Option.some.inj hread).symm
  · exact congrArg toText

theorem wellFormed_of_ofText? (h : ofText? text = some c) : c.WellFormed := by
  rw [ofText?] at h
  split at h
  · obtain rfl := Option.some.inj h
    intro d v hv
    rw [get_empty] at hv
    exact nomatch hv
  · exact wellFormed_of_ofSegments? h

theorem ofText?_toText_iff : ofText? c.toText = some c ↔ c.WellFormed :=
  ⟨wellFormed_of_ofText?, WellFormed.ofText?_toText⟩

end Configuration

/-! ### Folder names -/

theorem FolderType.ofName?_name (t : FolderType) : ofName? t.name = some t := by
  cases t <;> decide

theorem FolderType.dash_not_mem_name (t : FolderType) : '-' ∉ t.name.toList := by
  cases t <;> decide

namespace Folder

theorem toList_name (f : Folder) :
    f.name.toList = ['-'].intercalate (f.type.name.toList :: f.configuration.segments) := by
  rw [name]
  split
  next h =>
    have hnil : f.configuration.segments = [] := by
      simpa [Configuration.isDefault, Configuration.qualifierCount] using h
    rw [hnil, List.intercalate_singleton]
  next h =>
    have hne : f.configuration.segments ≠ [] := by
      simpa [Configuration.isDefault, Configuration.qualifierCount] using h
    rw [List.intercalate_cons_of_ne_nil hne]
    simp only [String.toList_append, Configuration.toText, String.toList_ofList]
    rfl

theorem ofName?_name {f : Folder} (h : f.configuration.WellFormed) : ofName? f.name = some f := by
  have hdash : ∀ seg ∈ f.type.name.toList :: f.configuration.segments, '-' ∉ seg :=
    List.forall_mem_cons.mpr ⟨f.type.dash_not_mem_name, h.dash_not_mem⟩
  have hsplit := List.splitOn_intercalate '-' hdash (List.cons_ne_nil _ _)
  rw [ofName?, toList_name, hsplit]
  simp only [String.ofList_toList, FolderType.ofName?_name, h.ofSegments?_segments, Option.bind_eq_bind,
    Option.bind_some]
  rfl

theorem wellFormed_of_ofName? {f : Folder} {n : String} (h : ofName? n = some f) : f.configuration.WellFormed := by
  rw [ofName?] at h
  split at h
  next => exact nomatch h
  next word qualifiers _ =>
    obtain ⟨type, -, h⟩ := Option.bind_eq_some_iff.mp h
    obtain ⟨configuration, hread, h⟩ := Option.bind_eq_some_iff.mp h
    obtain rfl := Option.some.inj h
    exact Configuration.wellFormed_of_ofSegments? hread

end Folder

/-- Reading and writing are inverse to each other exactly on the well-formed configurations. -/
theorem reading_inverts_writing :
    (∀ segs c, Configuration.ofSegments? segs = some c → c.WellFormed) ∧
    (∀ text c, Configuration.ofText? text = some c → c.WellFormed) ∧
    (∀ name f, Folder.ofName? name = some f → f.configuration.WellFormed) ∧
    (∀ c : Configuration, Configuration.ofText? c.toText = some c ↔ c.WellFormed) ∧
    (∀ a b : Configuration, a.WellFormed → b.WellFormed → a.toText = b.toText → a = b) ∧
    (∀ text text', (Configuration.ofText? text).map Configuration.toText = some text' →
      (Configuration.ofText? text').map Configuration.toText = some text') ∧
    ∀ name f, Folder.ofName? name = some f → Folder.ofName? f.name = some f := by
  refine ⟨fun _ _ => Configuration.wellFormed_of_ofSegments?, fun _ _ => Configuration.wellFormed_of_ofText?,
    fun _ _ => Folder.wellFormed_of_ofName?, fun _ => Configuration.ofText?_toText_iff, ?_, ?_, ?_⟩
  · intro a b ha hb htext
    have hread := ha.ofText?_toText
    rw [htext, hb.ofText?_toText] at hread
    exact (Option.some.inj hread).symm
  · intro text text' h
    obtain ⟨c, hc, rfl⟩ := Option.map_eq_some_iff.mp h
    rw [(Configuration.wellFormed_of_ofText? hc).ofText?_toText, Option.map_some]
  · intro name f h
    exact Folder.ofName?_name (Folder.wellFormed_of_ofName? h)

/-- Values at the ends of their ranges, in a name that is not canonical. -/
theorem reading_inverts_writing_drawable :
    let f : Folder := ⟨.drawable,
      { networkCode := some 999, language := some "de", smallestWidth := some 99999,
        textInput := some .twelveKey, screenDimension := some ⟨99999, 0⟩, version := some 9999 }⟩
    Folder.ofName? "drawable-mnc999-DE-sw99999dp-12key-0x99999-v9999" = some f ∧
      f.configuration.WellFormed ∧ Folder.ofName? f.name = some f := by
  intro f
  have hread : Folder.ofName? "drawable-mnc999-DE-sw99999dp-12key-0x99999-v9999" = some f := by decide +kernel
  obtain ⟨-, -, hfolder, -, -, -, hcanonical⟩ := reading_inverts_writing
  exact ⟨hread, hfolder _ f hread, hcanonical _ f hread⟩

end ResourceIndex
