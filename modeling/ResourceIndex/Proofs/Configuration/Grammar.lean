import ResourceIndex.Proofs.Configuration.Settings

/-!
# The grammar of qualifier lists

A list of segments is accepted exactly if increasing dimensions can be assigned to the segments so that each segment is
in the lexical class of its dimension. The assignment is then unique and the configuration sets the assigned dimensions
to the denoted values and nothing else.
-/

namespace ResourceIndex

namespace Dimension

/-- One dimension comes before another in qualifier order. -/
def Before (d e : Dimension) : Prop :=
  all.idxOf d < all.idxOf e

instance : DecidableRel Before := fun d e =>
  inferInstanceAs (Decidable (all.idxOf d < all.idxOf e))

instance : Std.Antisymm Before where
  antisymm _ _ hde hed := absurd hde (Nat.lt_asymm hed)

theorem all_increasing : all.Pairwise Before := by
  decide

theorem nodup_of_increasing {dims : List Dimension} (h : dims.Pairwise Before) : dims.Nodup := by
  apply h.imp
  rintro d e hlt rfl
  exact Nat.lt_irrefl _ hlt

theorem increasing_iff_sublist {dims : List Dimension} : dims.Pairwise Before ↔ dims.Sublist all := by
  constructor
  · intro h
    have hsubperm : dims.Subperm all := (nodup_of_increasing h).subperm fun d _ => d.mem_all
    exact List.sublist_of_subperm_of_pairwise hsubperm h all_increasing
  · intro h
    exact all_increasing.sublist h

theorem eq_of_increasing {dims dims' : List Dimension} (h : dims.Pairwise Before) (h' : dims'.Pairwise Before)
    (hmem : ∀ d, d ∈ dims ↔ d ∈ dims') : dims = dims' := by
  have hperm : dims.Perm dims' :=
    (List.perm_ext_iff_of_nodup (nodup_of_increasing h) (nodup_of_increasing h')).mpr hmem
  exact hperm.eq_of_pairwise (fun _ _ _ _ => Std.Antisymm.antisymm _ _) h h'

end Dimension

/-- Increasing dimensions, each with a segment of its lexical class. -/
structure Assigns (dims : List Dimension) (segs : List (List Char)) : Prop where
  increasing : dims.Pairwise Dimension.Before
  fits : List.Forall₂ Dimension.Fits dims segs

theorem Assigns.unique {dims dims' : List Dimension} {segs : List (List Char)} (h : Assigns dims segs)
    (h' : Assigns dims' segs) : dims = dims' :=
  List.left_unique_forall₂' (fun _ _ _ hd he => hd.unique he) h.fits h'.fits

namespace Configuration

/-- The configuration sets exactly the given dimensions, each to the value that the segment at its place denotes. -/
structure Sets (c : Configuration) (dims : List Dimension) (segs : List (List Char)) : Prop where
  isSome_iff : ∀ d, (c.get d).isSome = true ↔ d ∈ dims
  denotes : List.Forall₂ (fun d seg => ∃ v, c.get d = some v ∧ d.Denotes seg v) dims segs

variable {c : Configuration} {dims : List Dimension} {segs : List (List Char)}

theorem mem_map_fst_settings {d : Dimension} : d ∈ c.settings.map Sigma.fst ↔ (c.get d).isSome = true := by
  rw [settings, map_fst_settingsIn, List.mem_filter]
  exact and_iff_right d.mem_all

theorem settingsIn_map_fst_settings (c : Configuration) : c.settingsIn (c.settings.map Sigma.fst) = c.settings := by
  rw [settings, map_fst_settingsIn, settingsIn, settingsIn, List.filterMap_filter]
  refine List.filterMap_congr fun d _ => ?_
  cases c.get d <;> rfl

theorem assigns_of_spelled (h : Spelled c.settings segs) : Assigns (c.settings.map Sigma.fst) segs where
  increasing := Dimension.increasing_iff_sublist.mpr c.map_fst_settings_sublist
  fits := h.fits

theorem sets_of_spelled (h : Spelled c.settings segs) : c.Sets (c.settings.map Sigma.fst) segs where
  isSome_iff d := mem_map_fst_settings.symm
  denotes := by
    have hget : ∀ s ∈ c.settings, c.get s.1 = some s.2 := fun s => mem_settings.mp
    rw [List.forall₂_map_left_iff]
    exact ((List.forall₂_and_left _ _).mpr ⟨hget, h⟩).imp fun s seg hs => ⟨s.2, hs⟩

theorem spelled_settingsIn (h : List.Forall₂ (fun d seg => ∃ v, c.get d = some v ∧ d.Denotes seg v) dims segs) :
    Spelled (c.settingsIn dims) segs := by
  induction h with
  | nil => exact .nil
  | cons hd _ ih =>
    obtain ⟨v, hv, hdenotes⟩ := hd
    rw [settingsIn_cons_of_some hv]
    exact .cons hdenotes ih

theorem Sets.spelled (hsets : c.Sets dims segs) (hassigns : Assigns dims segs) : Spelled c.settings segs := by
  have hincreasing := Dimension.increasing_iff_sublist.mpr c.map_fst_settings_sublist
  have hmem : ∀ d, d ∈ dims ↔ d ∈ c.settings.map Sigma.fst := by
    intro d
    rw [mem_map_fst_settings, hsets.isSome_iff]
  obtain rfl := Dimension.eq_of_increasing hassigns.increasing hincreasing hmem
  have hspelled := spelled_settingsIn hsets.denotes
  rwa [settingsIn_map_fst_settings] at hspelled

/-- Reading accepts the lists of segments of the grammar, with the one configuration that each denotes. -/
theorem ofSegments?_grammar (segs : List (List Char)) :
    (∀ c, ofSegments? segs = some c ↔ ∃ dims, Assigns dims segs ∧ c.Sets dims segs) ∧
    ((∃ c, ofSegments? segs = some c) ↔ ∃ dims, Assigns dims segs) ∧
    (∀ dims dims', Assigns dims segs → Assigns dims' segs → dims = dims') ∧
    ∀ c, ofSegments? segs = some c → c.qualifierCount = segs.length := by
  refine ⟨fun c => ?_, ?_, fun _ _ h h' => h.unique h', fun c h => ?_⟩
  · rw [ofSegments?_eq_some_iff]
    constructor
    · intro h
      exact ⟨_, assigns_of_spelled h, sets_of_spelled h⟩
    · rintro ⟨dims, hassigns, hsets⟩
      exact hsets.spelled hassigns
  · constructor
    · rintro ⟨c, h⟩
      exact ⟨_, assigns_of_spelled (ofSegments?_eq_some_iff.mp h)⟩
    · rintro ⟨dims, h⟩
      exact readSegments_complete (Dimension.increasing_iff_sublist.mp h.increasing) h.fits
  · have hspelled := ofSegments?_eq_some_iff.mp h
    rw [qualifierCount, segments_eq, List.length_map]
    exact hspelled.length_eq

/-- A list in mixed case with a short network code, a keyboard word that starts with digits and the smaller side first. -/
theorem ofSegments?_grammar_mixed :
    let segs := ["MNC4", "Fr", "rCA", "12Key", "00480X800", "v9999"].map String.toList
    let c : Configuration :=
      { networkCode := some 4, language := some "fr", region := some "CA",
        textInput := some .twelveKey, screenDimension := some ⟨800, 480⟩, version := some 9999 }
    ofSegments? segs = some c ∧ (∃ dims, Assigns dims segs ∧ c.Sets dims segs) ∧ c.qualifierCount = segs.length := by
  intro segs c
  have hread : ofSegments? segs = some c := by decide +kernel
  exact ⟨hread, ((ofSegments?_grammar segs).1 c).mp hread, (ofSegments?_grammar segs).2.2.2 c hread⟩

-- Segments that stand against the order of their dimensions are refused.
example : ofSegments? (["rCA", "fr"].map String.toList) = none := by
  decide +kernel

end Configuration

end ResourceIndex
