import ResourceIndex.Configuration.Text
import ResourceIndex.Proofs.Qualifier.Letters

/-!
# Settings of a configuration

The settings of a configuration are the dimensions that it sets, in order, each with its value. Reading and writing are
described through them: the segments of a configuration are its settings written down, and reading a list of segments
yields the one configuration whose settings are denoted by the segments, place by place.
-/

namespace ResourceIndex

namespace Dimension

theorem mem_all (d : Dimension) : d ∈ all := by
  cases d <;> decide

theorem nodup_all : all.Nodup := by
  decide

end Dimension

/-- A dimension with one of its values. -/
abbrev Setting := (d : Dimension) × d.Value

/-- The segments denote the settings, place by place. -/
def Spelled (settings : List Setting) (segs : List (List Char)) : Prop :=
  List.Forall₂ (fun s seg => s.1.Denotes seg s.2) settings segs

/-- A segment denotes at most one setting. -/
theorem leftUnique_denotes : Relator.LeftUnique fun (s : Setting) seg => s.1.Denotes seg s.2 := by
  rintro ⟨d, v⟩ ⟨e, w⟩ seg hv hw
  obtain rfl : d = e := hv.fits.unique hw.fits
  have hread : some v = some w := (Dimension.read?_eq_some_iff.mpr hv).symm.trans (Dimension.read?_eq_some_iff.mpr hw)
  rw [Option.some.inj hread]

theorem Spelled.unique {settings settings' : List Setting} {segs : List (List Char)} (h : Spelled settings segs)
    (h' : Spelled settings' segs) : settings = settings' :=
  List.left_unique_forall₂' leftUnique_denotes h h'

theorem Spelled.fits {settings : List Setting} {segs : List (List Char)} (h : Spelled settings segs) :
    List.Forall₂ Dimension.Fits (settings.map Sigma.fst) segs := by
  rw [List.forall₂_map_left_iff]
  exact h.imp fun s seg hs => hs.fits

namespace Configuration

/-- What the configuration sets among the given dimensions. -/
def settingsIn (c : Configuration) (dims : List Dimension) : List Setting :=
  dims.filterMap fun d => (c.get d).map (Sigma.mk d)

def settings (c : Configuration) : List Setting :=
  c.settingsIn Dimension.all

section

variable {c c' : Configuration} {d : Dimension} {v : d.Value} {dims chosen : List Dimension} {segs : List (List Char)}

theorem settingsIn_cons_of_some (h : c.get d = some v) : c.settingsIn (d :: dims) = ⟨d, v⟩ :: c.settingsIn dims := by
  rw [settingsIn, List.filterMap_cons_some (b := ⟨d, v⟩)]
  · rfl
  · rw [h, Option.map_some]

theorem settingsIn_cons_of_none (h : c.get d = none) : c.settingsIn (d :: dims) = c.settingsIn dims := by
  rw [settingsIn, List.filterMap_cons_none]
  · rfl
  · rw [h, Option.map_none]

theorem mem_settings {s : Setting} : s ∈ c.settings ↔ c.get s.1 = some s.2 := by
  rw [settings, settingsIn, List.mem_filterMap]
  constructor
  · rintro ⟨d, -, h⟩
    obtain ⟨v, hv, rfl⟩ := Option.map_eq_some_iff.mp h
    exact hv
  · intro hv
    exact ⟨s.1, s.1.mem_all, by rw [hv, Option.map_some]⟩

theorem settings_injective : Function.Injective settings := by
  intro a b h
  refine ext_get fun d => Option.ext fun v => ?_
  have ha : ⟨d, v⟩ ∈ a.settings ↔ a.get d = some v := mem_settings
  have hb : ⟨d, v⟩ ∈ b.settings ↔ b.get d = some v := mem_settings
  rw [← ha, ← hb, h]

theorem map_fst_settingsIn : (c.settingsIn dims).map Sigma.fst = dims.filter fun d => (c.get d).isSome := by
  induction dims with
  | nil => rfl
  | cons d dims ih =>
    cases h : c.get d with
    | none => rw [settingsIn_cons_of_none h, ih, List.filter_cons_of_neg (by simp [h])]
    | some v => rw [settingsIn_cons_of_some h, List.map_cons, ih, List.filter_cons_of_pos (by simp [h])]

theorem map_fst_settings_sublist (c : Configuration) : (c.settings.map Sigma.fst).Sublist Dimension.all := by
  rw [settings, map_fst_settingsIn]
  exact List.filter_sublist

theorem segments_eq (c : Configuration) : c.segments = c.settings.map fun s => s.1.write s.2 := by
  rw [segments, settings, settingsIn, List.map_filterMap]
  simp only [Option.map_map]
  rfl

/-! ### Reading -/

/-- What is read on top of a configuration that leaves the dimensions open. -/
theorem readSegments_sound (hdims : dims.Nodup) (hopen : ∀ d ∈ dims, c.get d = none)
    (h : readSegments c dims segs = some c') :
    Spelled (c'.settingsIn dims) segs ∧ ∀ e ∉ dims, c'.get e = c.get e := by
  fun_induction readSegments c dims segs with
  | case1 dims c =>
    obtain rfl := Option.some.inj h
    have hnil : c.settingsIn dims = [] := by
      simpa only [settingsIn, List.filterMap_eq_nil_iff, Option.map_eq_none_iff] using hopen
    rw [hnil]
    exact ⟨.nil, fun _ _ => rfl⟩
  | case2 c seg segs => exact nomatch h
  | case3 c d dims seg segs v hv ih =>
    obtain ⟨hd, hdims⟩ := List.nodup_cons.mp hdims
    have hopen' : ∀ e ∈ dims, (c.set d v).get e = none := by
      intro e he
      rw [get_set_of_ne c v (ne_of_mem_of_not_mem he hd)]
      exact hopen e (List.mem_cons_of_mem d he)
    obtain ⟨hspelled, hframe⟩ := ih hdims hopen' h
    have hget : c'.get d = some v := by rw [hframe d hd, get_set_self]
    rw [settingsIn_cons_of_some hget]
    refine ⟨.cons (Dimension.read?_eq_some_iff.mp hv) hspelled, fun e he => ?_⟩
    rw [List.mem_cons, not_or] at he
    rw [hframe e he.2, get_set_of_ne c v he.1]
  | case4 c d dims seg segs hread ih =>
    obtain ⟨hd, hdims⟩ := List.nodup_cons.mp hdims
    obtain ⟨hspelled, hframe⟩ := ih hdims (fun e he => hopen e (List.mem_cons_of_mem d he)) h
    have hget : c'.get d = none := by rw [hframe d hd, hopen d List.mem_cons_self]
    rw [settingsIn_cons_of_none hget]
    exact ⟨hspelled, fun e he => hframe e fun hmem => he (List.mem_cons_of_mem d hmem)⟩

/-- Taking the first dimension that accepts a segment never loses a list that some choice of dimensions accepts. -/
theorem readSegments_complete (hchosen : chosen.Sublist dims) (hfits : List.Forall₂ Dimension.Fits chosen segs) :
    ∃ c', readSegments c dims segs = some c' := by
  fun_induction readSegments c dims segs generalizing chosen with
  | case1 dims c => exact ⟨c, rfl⟩
  | case2 c seg segs =>
    obtain rfl := List.sublist_nil.mp hchosen
    exact nomatch hfits
  | case3 c d dims seg segs v hv ih =>
    obtain ⟨e, rest, hfirst, hrest, rfl⟩ := List.forall₂_cons_right_iff.mp hfits
    -- The classes are disjoint, so the first dimension that accepts the segment is the chosen one.
    obtain rfl : d = e := (Dimension.read?_eq_some_iff.mp hv).fits.unique hfirst
    exact ih (List.Sublist.of_cons_cons hchosen) hrest
  | case4 c d dims seg segs hread ih =>
    obtain ⟨e, rest, hfirst, hrest, rfl⟩ := List.forall₂_cons_right_iff.mp hfits
    have hne : e ≠ d := by
      rintro rfl
      obtain ⟨v, hv⟩ := Dimension.exists_denotes_iff.mpr hfirst
      rw [Dimension.read?_eq_some_iff.mpr hv] at hread
      exact nomatch hread
    exact ih (List.Sublist.of_cons_of_ne hne hchosen) hfits

/-- A list of segments is read as the configuration whose settings it spells. -/
theorem ofSegments?_eq_some_iff : ofSegments? segs = some c ↔ Spelled c.settings segs := by
  constructor
  · intro h
    exact (readSegments_sound Dimension.nodup_all (fun d _ => get_empty d) h).1
  · intro h
    obtain ⟨c', hc'⟩ := readSegments_complete c.map_fst_settings_sublist h.fits
    have hspelled := (readSegments_sound Dimension.nodup_all (fun d _ => get_empty d) hc').1
    obtain rfl : c = c' := settings_injective (h.unique hspelled)
    exact hc'

end

end Configuration

end ResourceIndex
