import ResourceIndex.Proofs.Configuration.Grammar
import ResourceIndex.Proofs.Configuration.Order

/-!
# Dropping qualifiers

Any segments of an accepted list can be left out: the others keep their dimensions, and the list that is left is
accepted for a configuration that sets less and comes before. What decides is the first dimension in which the two
configurations differ, as between any two configurations, and there the smaller one is open.
-/

namespace ResourceIndex

/-- A part of the segments denotes a part of the settings. -/
theorem Spelled.exists_sublist {settings : List Setting} {segs kept : List (List Char)} (h : Spelled settings segs)
    (hkept : kept.Sublist segs) : ∃ chosen, chosen.Sublist settings ∧ Spelled chosen kept := by
  induction hkept generalizing settings with
  | slnil => exact ⟨[], List.nil_sublist _, .nil⟩
  | cons seg _ ih =>
    obtain ⟨s, rest, -, hrest, rfl⟩ := List.forall₂_cons_right_iff.mp h
    obtain ⟨chosen, hchosen, hspelled⟩ := ih hrest
    exact ⟨chosen, hchosen.cons s, hspelled⟩
  | cons_cons seg _ ih =>
    obtain ⟨s, rest, hdenotes, hrest, rfl⟩ := List.forall₂_cons_right_iff.mp h
    obtain ⟨chosen, hchosen, hspelled⟩ := ih hrest
    exact ⟨s :: chosen, hchosen.cons_cons s, .cons hdenotes hspelled⟩

/-- The dimensions in front of a dimension are the ones that stand before it in the list. -/
theorem Dimension.mem_of_before {before after : List Dimension} {d e : Dimension} (hall : all = before ++ d :: after)
    (he : e.Before d) : e ∈ before := by
  have hincreasing : (before ++ d :: after).Pairwise Before := hall ▸ all_increasing
  have hmem : e ∈ before ++ d :: after := hall ▸ e.mem_all
  obtain hbefore | hrest := List.mem_append.mp hmem
  · exact hbefore
  · obtain rfl | hafter := List.mem_cons.mp hrest
    · exact absurd he (Nat.lt_irrefl _)
    · have hlater := List.rel_of_pairwise_cons (List.pairwise_append.mp hincreasing).2.1 hafter
      exact absurd he (Nat.lt_asymm hlater)

namespace Configuration

variable {a b c : Configuration} {segs kept : List (List Char)}

/-! ### The first difference -/

/-- The dimension is the first one in which the configurations differ, and what they set there decides how they compare.
An open dimension makes the smaller configuration. -/
structure DecidedAt (a b : Configuration) (d : Dimension) : Prop where
  agree : ∀ e : Dimension, e.Before d → a.get e = b.get e
  differ : a.get d ≠ b.get d
  of_open_left : a.get d = none → compare a b = .lt
  of_open_right : b.get d = none → compare a b = .gt
  of_set : ∀ v w, a.get d = some v → b.get d = some w → compare a b = d.compareValues v w

/-- Where two configurations do not compare equal, the first dimension in which they differ decides. -/
theorem exists_decidedAt (h : compare a b ≠ .eq) : ∃ d, DecidedAt a b d := by
  obtain ⟨before, d, after, hall, hagree, hdiffer, hcompare⟩ := exists_first_difference h
  have hdecided : compare a b = compareAt d a b := hcompare
  refine ⟨d, fun e he => hagree e (Dimension.mem_of_before hall he), hdiffer, ?_, ?_, ?_⟩
  · intro hopen
    obtain ⟨w, hw⟩ := Option.ne_none_iff_exists'.mp (hopen ▸ hdiffer).symm
    rw [hdecided, compareAt, hopen, hw]
  · intro hopen
    obtain ⟨v, hv⟩ := Option.ne_none_iff_exists'.mp (hopen ▸ hdiffer)
    rw [hdecided, compareAt, hopen, hv]
  · intro v w hv hw
    rw [hdecided, compareAt, hv, hw]

/-- A configuration that sets only what another one sets, and not all of it, comes before it. -/
theorem compare_eq_lt_of_extends (h : ∀ d v, a.get d = some v → b.get d = some v) (hne : a ≠ b) :
    compare a b = .lt := by
  obtain ⟨d, hd⟩ := exists_decidedAt (mt Std.LawfulEqOrd.eq_of_compare hne)
  apply hd.of_open_left
  cases hv : a.get d with
  | none => rfl
  | some v => exact absurd (hv.trans (h d v hv).symm) hd.differ

/-! ### Lists of segments -/

/-- What is left of an accepted list is accepted for some of its settings. -/
theorem exists_ofSegments?_of_sublist (h : ofSegments? segs = some c) (hkept : kept.Sublist segs) :
    ∃ less, ofSegments? kept = some less ∧ less.settings.Sublist c.settings := by
  obtain ⟨chosen, hchosen, hspelled⟩ := (ofSegments?_eq_some_iff.mp h).exists_sublist hkept
  have hdims := (hchosen.map Sigma.fst).trans c.map_fst_settings_sublist
  obtain ⟨less, hless⟩ := readSegments_complete (c := empty) hdims hspelled.fits
  obtain rfl := (ofSegments?_eq_some_iff.mp hless).unique hspelled
  exact ⟨less, hless, hchosen⟩

/-- A shorter list is read as another configuration. -/
theorem ne_of_sublist (ha : ofSegments? kept = some a) (hb : ofSegments? segs = some b) (hkept : kept.Sublist segs)
    (hne : kept ≠ segs) : a ≠ b := by
  intro heq
  have hlength : kept.length = segs.length := by
    rw [← (ofSegments?_eq_some_iff.mp ha).length_eq, heq, (ofSegments?_eq_some_iff.mp hb).length_eq]
  exact hne (hkept.eq_of_length hlength)

/-- Segments left out of an accepted list leave an accepted list, for a configuration that comes before. Configurations
that are read compare equal where they have the same text, and else by the first dimension in which they differ. -/
theorem ofSegments?_sublist_lt :
    (∀ segs c, ofSegments? segs = some c → ∀ kept, kept.Sublist segs → kept ≠ segs →
      ∃ less, ofSegments? kept = some less ∧ compare less c = .lt) ∧
    ∀ segs segs' c c', ofSegments? segs = some c → ofSegments? segs' = some c' →
      (compare c c' = .eq ↔ c.toText = c'.toText) ∧ (compare c c' ≠ .eq → ∃ d, DecidedAt c c' d) := by
  constructor
  · intro segs c h kept hkept hne
    obtain ⟨less, hless, hsettings⟩ := exists_ofSegments?_of_sublist h hkept
    refine ⟨less, hless, compare_eq_lt_of_extends (fun d v hv => ?_) (ne_of_sublist hless h hkept hne)⟩
    exact mem_settings.mp (hsettings.subset (mem_settings (s := ⟨d, v⟩).mpr hv))
  · intro segs segs' c c' h h'
    refine ⟨?_, exists_decidedAt⟩
    rw [(wellFormed_of_ofSegments? h).toText_inj (wellFormed_of_ofSegments? h')]
    exact Std.LawfulEqOrd.compare_eq_iff_eq

/-- A list with its region left out, the same list in other spelling, and one with another region. -/
theorem ofSegments?_sublist_lt_region :
    let segs := ["mnc4", "fr", "rCA", "hdpi"].map String.toList
    let kept := ["mnc4", "fr", "hdpi"].map String.toList
    let respelled := ["MNC004", "FR", "rCA", "HDPI"].map String.toList
    let swiss := ["mnc4", "fr", "rCH"].map String.toList
    let c : Configuration :=
      { networkCode := some 4, language := some "fr", region := some "CA", density := some .hdpi }
    let c' : Configuration := { networkCode := some 4, language := some "fr", region := some "CH" }
    ofSegments? segs = some c ∧ ofSegments? respelled = some c ∧ ofSegments? swiss = some c' ∧
      (∃ less, ofSegments? kept = some less ∧ compare less c = .lt) ∧ compare c c = .eq ∧ ∃ d, DecidedAt c c' d := by
  intro segs kept respelled swiss c c'
  have hsegs : ofSegments? segs = some c := by decide +kernel
  have hrespelled : ofSegments? respelled = some c := by decide +kernel
  have hswiss : ofSegments? swiss = some c' := by decide +kernel
  obtain ⟨hdropped, hcompared⟩ := ofSegments?_sublist_lt
  have hless := hdropped segs c hsegs kept (by decide +kernel) (by decide +kernel)
  obtain ⟨heq, -⟩ := hcompared segs respelled c c hsegs hrespelled
  obtain ⟨-, hdecided⟩ := hcompared segs swiss c c' hsegs hswiss
  exact ⟨hsegs, hrespelled, hswiss, hless, heq.mpr rfl, hdecided (by decide +kernel)⟩

end Configuration

end ResourceIndex
