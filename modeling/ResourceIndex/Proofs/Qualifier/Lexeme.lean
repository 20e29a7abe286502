import ResourceIndex.Proofs.Qualifier.Vocabulary
import ResourceIndex.Qualifier.Dimension
import ResourceIndex.Text.Affix

/-!
# Lexical classes of qualifiers

Each dimension has a class of segments, described by their letters and digits alone, and a segment of the class denotes
a value. Reading a segment succeeds exactly for the segments of the class, and it yields the denoted value: the numerals
of a class are so short that every one of them fits the machine word that keeps it.
-/

namespace ResourceIndex

/-! ### Kinds of segments -/

/-- A word and then the numeral `ds`, in upper or lower case. -/
def IsCode (word : String) (least most : Nat) (seg ds : List Char) : Prop :=
  seg.map Char.toLower = word.toList ++ ds ∧ Text.IsNumeral least most ds

/-- A word, the numeral `ds` and `dp`, in upper or lower case. -/
def IsExtent (word : String) (seg ds : List Char) : Prop :=
  seg.map Char.toLower = word.toList ++ ds ++ ['d', 'p'] ∧ Text.IsNumeral 1 5 ds

/-- The numerals `as` and `bs` around an `x` of either case. -/
def IsSides (seg as bs : List Char) : Prop :=
  seg.map Char.toLower = as ++ 'x' :: bs ∧ Text.IsNumeral 1 5 as ∧ Text.IsNumeral 1 5 bs

def IsLetterPair (seg : List Char) : Prop :=
  ∃ a b, seg = [a, b] ∧ a.isAlpha = true ∧ b.isAlpha = true

def IsCapitalPair (cs : List Char) : Prop :=
  ∃ a b, cs = [a, b] ∧ a.isUpper = true ∧ b.isUpper = true

/-- The word of a vocabulary's value, in upper or lower case. -/
def IsWord {α : Type} [Vocabulary α] (seg : List Char) (v : α) : Prop :=
  seg.map Char.toLower = (Vocabulary.word v).toList

namespace Dimension

/-- The segment is in the lexical class of the dimension. -/
def Fits (d : Dimension) (seg : List Char) : Prop :=
  match d with
  | .countryCode => ∃ ds, IsCode "mcc" 3 3 seg ds
  | .networkCode => ∃ ds, IsCode "mnc" 1 3 seg ds
  | .language => IsLetterPair seg
  | .region => ∃ cs, seg = 'r' :: cs ∧ IsCapitalPair cs
  | .layoutDirection => ∃ v : LayoutDirection, IsWord seg v
  | .smallestWidth => ∃ ds, IsExtent "sw" seg ds
  | .screenWidth => ∃ ds, IsExtent "w" seg ds
  | .screenHeight => ∃ ds, IsExtent "h" seg ds
  | .screenSize => ∃ v : ScreenSize, IsWord seg v
  | .screenRatio => ∃ v : ScreenRatio, IsWord seg v
  | .orientation => ∃ v : Orientation, IsWord seg v
  | .uiMode => ∃ v : UiMode, IsWord seg v
  | .nightMode => ∃ v : NightMode, IsWord seg v
  | .density => ∃ v : Density, IsWord seg v
  | .touchscreen => ∃ v : Touchscreen, IsWord seg v
  | .keyboardState => ∃ v : KeyboardState, IsWord seg v
  | .textInput => ∃ v : TextInput, IsWord seg v
  | .navigationState => ∃ v : NavigationState, IsWord seg v
  | .navigation => ∃ v : Navigation, IsWord seg v
  | .screenDimension => ∃ as bs, IsSides seg as bs
  | .version => ∃ ds, IsCode "v" 1 4 seg ds

/-- The segment is in the lexical class of the dimension and denotes the value. -/
def Denotes (d : Dimension) (seg : List Char) (v : d.Value) : Prop :=
  match d, v with
  | .countryCode, v => ∃ ds, IsCode "mcc" 3 3 seg ds ∧ v.toNat = Text.decimal ds
  | .networkCode, v => ∃ ds, IsCode "mnc" 1 3 seg ds ∧ v.toNat = Text.decimal ds
  | .language, v => IsLetterPair seg ∧ v.toList = seg.map Char.toLower
  | .region, v => seg = 'r' :: v.toList ∧ IsCapitalPair v.toList
  | .layoutDirection, v => IsWord seg v
  | .smallestWidth, v => ∃ ds, IsExtent "sw" seg ds ∧ v.toNat = Text.decimal ds
  | .screenWidth, v => ∃ ds, IsExtent "w" seg ds ∧ v.toNat = Text.decimal ds
  | .screenHeight, v => ∃ ds, IsExtent "h" seg ds ∧ v.toNat = Text.decimal ds
  | .screenSize, v => IsWord seg v
  | .screenRatio, v => IsWord seg v
  | .orientation, v => IsWord seg v
  | .uiMode, v => IsWord seg v
  | .nightMode, v => IsWord seg v
  | .density, v => IsWord seg v
  | .touchscreen, v => IsWord seg v
  | .keyboardState, v => IsWord seg v
  | .textInput, v => IsWord seg v
  | .navigationState, v => IsWord seg v
  | .navigation, v => IsWord seg v
  | .screenDimension, v => ∃ as bs, IsSides seg as bs ∧
      v.large.toNat = max (Text.decimal as) (Text.decimal bs) ∧
      v.small.toNat = min (Text.decimal as) (Text.decimal bs)
  | .version, v => ∃ ds, IsCode "v" 1 4 seg ds ∧ v.toNat = Text.decimal ds

/-! ### Nothing is lost in a conversion -/

theorem exists_word16 {most n : Nat} (hn : n < 10 ^ most) (hmost : most ≤ 4) : ∃ w : UInt16, w.toNat = n := by
  have hbound : 10 ^ most ≤ 10 ^ 4 := Nat.pow_le_pow_right (by decide) hmost
  have hsize : n < UInt16.size := Nat.lt_of_lt_of_le hn (Nat.le_trans hbound (by decide))
  exact ⟨UInt16.ofNat n, UInt16.toNat_ofNat_of_lt' hsize⟩

theorem exists_word32 {most n : Nat} (hn : n < 10 ^ most) (hmost : most ≤ 9) : ∃ w : UInt32, w.toNat = n := by
  have hbound : 10 ^ most ≤ 10 ^ 9 := Nat.pow_le_pow_right (by decide) hmost
  have hsize : n < UInt32.size := Nat.lt_of_lt_of_le hn (Nat.le_trans hbound (by decide))
  exact ⟨UInt32.ofNat n, UInt32.toNat_ofNat_of_lt' hsize⟩

theorem exists_word_iff {α : Type} {toNat : α → Nat} {P : List Char → Prop}
    (hkept : ∀ ds, P ds → ∃ w, toNat w = Text.decimal ds) :
    (∃ w ds, P ds ∧ toNat w = Text.decimal ds) ↔ ∃ ds, P ds := by
  constructor
  · rintro ⟨-, ds, hds, -⟩
    exact ⟨ds, hds⟩
  · rintro ⟨ds, hds⟩
    obtain ⟨w, hw⟩ := hkept ds hds
    exact ⟨w, ds, hds, hw⟩

/-- Every segment of a lexical class denotes a value. -/
theorem exists_denotes_iff {d : Dimension} {seg : List Char} : (∃ v, d.Denotes seg v) ↔ d.Fits seg := by
  cases d with
  | countryCode | networkCode => exact exists_word_iff fun ds hcode => exists_word16 hcode.2.decimal_lt (by decide)
  | version => exact exists_word_iff fun ds hcode => exists_word32 hcode.2.decimal_lt (by decide)
  | smallestWidth | screenWidth | screenHeight =>
    exact exists_word_iff fun ds hextent => exists_word32 hextent.2.decimal_lt (by decide)
  | language =>
    constructor
    · rintro ⟨-, hpair, -⟩
      exact hpair
    · intro hpair
      exact ⟨String.ofList (seg.map Char.toLower), hpair, String.toList_ofList⟩
  | region =>
    constructor
    · rintro ⟨v, hseg, hpair⟩
      exact ⟨v.toList, hseg, hpair⟩
    · rintro ⟨cs, hseg, hpair⟩
      refine ⟨String.ofList cs, ?_⟩
      rw [Denotes, String.toList_ofList]
      exact ⟨hseg, hpair⟩
  | screenDimension =>
    constructor
    · rintro ⟨-, as, bs, hsides, -⟩
      exact ⟨as, bs, hsides⟩
    · rintro ⟨as, bs, hsides⟩
      have has := hsides.2.1.decimal_lt
      have hbs := hsides.2.2.decimal_lt
      obtain ⟨large, hlarge⟩ := exists_word32 (max_lt has hbs) (by decide)
      obtain ⟨small, hsmall⟩ := exists_word32 (min_lt_iff.mpr (.inl has)) (by decide)
      exact ⟨⟨large, small⟩, as, bs, hsides, hlarge, hsmall⟩
  | _ => exact Iff.rfl

theorem Denotes.fits {d : Dimension} {seg : List Char} {v : d.Value} (h : d.Denotes seg v) : d.Fits seg :=
  exists_denotes_iff.mp ⟨v, h⟩

/-! ### Reading -/

theorem codeNumber?_eq_some_iff {word : String} {least most n : Nat} {seg : List Char} :
    codeNumber? word least most (seg.map Char.toLower) = some n ↔
      ∃ ds, IsCode word least most seg ds ∧ n = Text.decimal ds := by
  rw [codeNumber?, Option.bind_eq_some_iff]
  refine exists_congr fun ds => ?_
  rw [Text.isPrefixOf?_eq_some_iff, Text.number?_eq_some_iff, IsCode, and_assoc]

theorem bind_word?_eq_some_iff {α : Type} {toNat : α → Nat} {word? : Nat → Option α} {read : Option Nat}
    {P : List Char → Prop} (hword : ∀ n w, word? n = some w ↔ toNat w = n)
    (hread : ∀ n, read = some n ↔ ∃ ds, P ds ∧ n = Text.decimal ds) {w : α} :
    read >>= word? = some w ↔ ∃ ds, P ds ∧ toNat w = Text.decimal ds := by
  simp only [Option.bind_eq_bind, Option.bind_eq_some_iff, hread, hword]
  constructor
  · rintro ⟨-, ⟨ds, hds, rfl⟩, hw⟩
    exact ⟨ds, hds, hw⟩
  · rintro ⟨ds, hds, hw⟩
    exact ⟨_, ⟨ds, hds, rfl⟩, hw⟩

theorem number?_word32?_eq_some_iff {cs : List Char} {w : UInt32} :
    Text.number? 1 5 cs >>= Text.word32? = some w ↔ Text.IsNumeral 1 5 cs ∧ w.toNat = Text.decimal cs := by
  simp only [Option.bind_eq_bind, Option.bind_eq_some_iff, Text.number?_eq_some_iff, Text.word32?_eq_some_iff]
  constructor
  · rintro ⟨-, ⟨hcs, rfl⟩, hw⟩
    exact ⟨hcs, hw⟩
  · rintro ⟨hcs, hw⟩
    exact ⟨_, ⟨hcs, rfl⟩, hw⟩

theorem extent?_eq_some_iff {word : String} {seg : List Char} {w : UInt32} :
    extent? word (seg.map Char.toLower) = some w ↔ ∃ ds, IsExtent word seg ds ∧ w.toNat = Text.decimal ds := by
  constructor
  · intro h
    obtain ⟨rest, hrest, h⟩ := Option.bind_eq_some_iff.mp h
    obtain ⟨ds, hds, h⟩ := Option.bind_eq_some_iff.mp h
    obtain ⟨hnumeral, hw⟩ := number?_word32?_eq_some_iff.mp h
    rw [Text.isPrefixOf?_eq_some_iff, ← List.isSuffixOf?_eq_some_iff_append_eq.mp hds, ← List.append_assoc] at hrest
    exact ⟨ds, ⟨hrest, hnumeral⟩, hw⟩
  · rintro ⟨ds, ⟨hseg, hnumeral⟩, hw⟩
    rw [List.append_assoc] at hseg
    refine Option.bind_eq_some_iff.mpr ⟨_, Text.isPrefixOf?_eq_some_iff.mpr hseg, ?_⟩
    refine Option.bind_eq_some_iff.mpr ⟨_, List.isSuffixOf?_eq_some_iff_append_eq.mpr rfl, ?_⟩
    exact number?_word32?_eq_some_iff.mpr ⟨hnumeral, hw⟩

theorem language?_eq_some_iff {seg : List Char} {v : String} :
    language? (seg.map Char.toLower) = some v ↔ IsLetterPair seg ∧ v.toList = seg.map Char.toLower := by
  constructor
  · intro h
    match seg, h with
    | [a, b], h =>
      simp only [List.map_cons, List.map_nil, language?, Char.isLower_toLower_eq_isAlpha, Option.ite_none_right_eq_some,
        Bool.and_eq_true, Option.some_inj] at h
      obtain ⟨⟨ha, hb⟩, rfl⟩ := h
      exact ⟨⟨a, b, rfl, ha, hb⟩, String.toList_ofList⟩
  · rintro ⟨⟨a, b, rfl, ha, hb⟩, hv⟩
    rw [List.map_cons, List.map_cons, List.map_nil] at hv ⊢
    rw [language?, Char.isLower_toLower_eq_isAlpha, Char.isLower_toLower_eq_isAlpha, ha, hb, Bool.and_self, if_pos rfl,
      ← hv, String.ofList_toList]

theorem region?_eq_some_iff {seg : List Char} {v : String} :
    region? seg = some v ↔ seg = 'r' :: v.toList ∧ IsCapitalPair v.toList := by
  constructor
  · rw [region?.eq_def]
    split
    next a b =>
      intro h
      simp only [Option.ite_none_right_eq_some, Bool.and_eq_true, Option.some_inj] at h
      obtain ⟨⟨ha, hb⟩, rfl⟩ := h
      rw [String.toList_ofList]
      exact ⟨rfl, a, b, rfl, ha, hb⟩
    next => nofun
  · rintro ⟨rfl, a, b, hv, ha, hb⟩
    rw [hv, region?, ha, hb, Bool.and_self, if_pos rfl, ← hv, String.ofList_toList]

theorem screenDimension?_eq_some_iff {seg : List Char} {v : ScreenDimension} :
    screenDimension? (seg.map Char.toLower) = some v ↔ ∃ as bs, IsSides seg as bs ∧
      v.large.toNat = max (Text.decimal as) (Text.decimal bs) ∧
      v.small.toNat = min (Text.decimal as) (Text.decimal bs) := by
  constructor
  · intro h
    obtain ⟨bs, hbs, h⟩ := Option.bind_eq_some_iff.mp h
    obtain ⟨a, ha, h⟩ := Option.bind_eq_some_iff.mp h
    obtain ⟨b, hb, h⟩ := Option.bind_eq_some_iff.mp h
    obtain ⟨hfirst, ha⟩ := number?_word32?_eq_some_iff.mp ha
    obtain ⟨hsecond, hb⟩ := number?_word32?_eq_some_iff.mp hb
    obtain rfl := Option.some.inj h
    have hseg := List.takeWhile_append_dropWhile (p := (· ≠ 'x')) (l := seg.map Char.toLower)
    rw [Text.isPrefixOf?_eq_some_iff.mp hbs] at hseg
    exact ⟨_, bs, ⟨hseg.symm, hfirst, hsecond⟩, by rw [UInt32.toNat_max, ha, hb], by rw [UInt32.toNat_min, ha, hb]⟩
  · rintro ⟨as, bs, ⟨hseg, hfirst, hsecond⟩, hlarge, hsmall⟩
    -- A numeral holds no `x`, so the first `x` of the segment is the one between the sides.
    have hdigits : ∀ c ∈ as, decide (c ≠ 'x') = true := by
      rintro c hc
      rw [decide_eq_true_iff]
      rintro rfl
      exact absurd (hfirst.isDigit 'x' hc) (by decide)
    have htake : (seg.map Char.toLower).takeWhile (· ≠ 'x') = as := by
      rw [hseg, List.takeWhile_append_of_pos hdigits, List.takeWhile_cons_of_neg (by decide), List.append_nil]
    have hdrop : (seg.map Char.toLower).dropWhile (· ≠ 'x') = ['x'] ++ bs := by
      rw [hseg, List.dropWhile_append_of_pos hdigits, List.dropWhile_cons_of_neg (by decide)]
      rfl
    obtain ⟨a, ha⟩ := exists_word32 hfirst.decimal_lt (by decide)
    obtain ⟨b, hb⟩ := exists_word32 hsecond.decimal_lt (by decide)
    have hv : v = ⟨max a b, min a b⟩ := by
      cases v
      rw [ScreenDimension.mk.injEq, ← UInt32.toNat_inj, ← UInt32.toNat_inj, UInt32.toNat_max, UInt32.toNat_min, ha, hb]
      exact ⟨hlarge, hsmall⟩
    refine Option.bind_eq_some_iff.mpr ⟨bs, Text.isPrefixOf?_eq_some_iff.mpr hdrop, ?_⟩
    refine Option.bind_eq_some_iff.mpr ⟨a, number?_word32?_eq_some_iff.mpr ⟨htake.symm ▸ hfirst, htake.symm ▸ ha⟩, ?_⟩
    exact Option.bind_eq_some_iff.mpr ⟨b, number?_word32?_eq_some_iff.mpr ⟨hsecond, hb⟩, hv ▸ rfl⟩

/-- A segment is read as the value that it denotes, if it denotes one. -/
theorem read?_eq_some_iff {d : Dimension} {seg : List Char} {v : d.Value} :
    d.read? seg = some v ↔ d.Denotes seg v := by
  cases d with
  | countryCode | networkCode =>
    exact bind_word?_eq_some_iff (fun _ _ => Text.word16?_eq_some_iff) fun _ => codeNumber?_eq_some_iff
  | version => exact bind_word?_eq_some_iff (fun _ _ => Text.word32?_eq_some_iff) fun _ => codeNumber?_eq_some_iff
  | smallestWidth | screenWidth | screenHeight => exact extent?_eq_some_iff
  | language => exact language?_eq_some_iff
  | region => exact region?_eq_some_iff
  | screenDimension => exact screenDimension?_eq_some_iff
  | _ => exact Vocabulary.ofWord?_eq_some_iff.trans eq_comm

end Dimension

end ResourceIndex
