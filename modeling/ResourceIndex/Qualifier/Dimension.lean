import ResourceIndex.Text.Number
import ResourceIndex.Qualifier.Vocabulary

/-!
# Qualifier dimensions

A folder configuration has twenty-one dimensions, and a folder name lists its qualifiers in their order. Each dimension
has a type of values, a reader from one folder-name segment and a writer back to it. Readers ignore ASCII case, except
that a region is a lowercase `r` and two capitals. Writers are canonical: a network code has at least two digits, and of
a screen dimension the larger side comes first.
-/

namespace ResourceIndex

/-- The dimensions in qualifier order. -/
inductive Dimension where
  | countryCode | networkCode | language | region | layoutDirection
  | smallestWidth | screenWidth | screenHeight | screenSize | screenRatio
  | orientation | uiMode | nightMode | density | touchscreen
  | keyboardState | textInput | navigationState | navigation | screenDimension | version
deriving DecidableEq, Repr

/-- The two sides of a screen in pixels, the larger one first in every parsed configuration. -/
structure ScreenDimension where
  large : UInt32
  small : UInt32
deriving DecidableEq, Ord, Repr

namespace Dimension

def all : List Dimension :=
  [.countryCode, .networkCode, .language, .region, .layoutDirection,
   .smallestWidth, .screenWidth, .screenHeight, .screenSize, .screenRatio,
   .orientation, .uiMode, .nightMode, .density, .touchscreen,
   .keyboardState, .textInput, .navigationState, .navigation, .screenDimension, .version]

/-- The values a qualifier of this dimension can have. -/
abbrev Value : Dimension → Type
  | countryCode | networkCode => UInt16
  | language | region => String
  | layoutDirection => LayoutDirection
  | smallestWidth | screenWidth | screenHeight | version => UInt32
  | screenSize => ScreenSize
  | screenRatio => ScreenRatio
  | orientation => Orientation
  | uiMode => UiMode
  | nightMode => NightMode
  | density => Density
  | touchscreen => Touchscreen
  | keyboardState => KeyboardState
  | textInput => TextInput
  | navigationState => NavigationState
  | navigation => Navigation
  | screenDimension => ScreenDimension

/-! ### Reading one segment -/

/-- A word, then a number of `least` to `most` digits. -/
def codeNumber? (word : String) (least most : Nat) (seg : List Char) : Option Nat :=
  (word.toList.isPrefixOf? seg).bind (Text.number? least most)

/-- A width or height: a word, one to five digits, then `dp`. -/
def extent? (word : String) (seg : List Char) : Option UInt32 := do
  let rest ← word.toList.isPrefixOf? seg
  let number ← ['d', 'p'].isSuffixOf? rest
  Text.number? 1 5 number >>= Text.word32?

/-- Exactly two lowercase ASCII letters. -/
def language? : List Char → Option String
  | [a, b] => if a.isLower && b.isLower then some (String.ofList [a, b]) else none
  | _ => none

/-- A lowercase `r` and exactly two uppercase ASCII letters. -/
def region? : List Char → Option String
  | ['r', a, b] => if a.isUpper && b.isUpper then some (String.ofList [a, b]) else none
  | _ => none

/-- Two sides of one to five digits around the first `x`; the larger side is put first. -/
def screenDimension? (seg : List Char) : Option ScreenDimension := do
  let first := seg.takeWhile (· ≠ 'x')
  let second ← ['x'].isPrefixOf? (seg.dropWhile (· ≠ 'x'))
  let a ← Text.number? 1 5 first >>= Text.word32?
  let b ← Text.number? 1 5 second >>= Text.word32?
  return ⟨max a b, min a b⟩

/-- Reads a folder-name segment as a qualifier of this dimension. -/
def read? (d : Dimension) (seg : List Char) : Option d.Value :=
  let lower := seg.map Char.toLower
  match d with
  | .countryCode => codeNumber? "mcc" 3 3 lower >>= Text.word16?
  | .networkCode => codeNumber? "mnc" 1 3 lower >>= Text.word16?
  | .language => language? lower
  | .region => region? seg
  | .layoutDirection => Vocabulary.ofWord? lower
  | .smallestWidth => extent? "sw" lower
  | .screenWidth => extent? "w" lower
  | .screenHeight => extent? "h" lower
  | .screenSize => Vocabulary.ofWord? lower
  | .screenRatio => Vocabulary.ofWord? lower
  | .orientation => Vocabulary.ofWord? lower
  | .uiMode => Vocabulary.ofWord? lower
  | .nightMode => Vocabulary.ofWord? lower
  | .density => Vocabulary.ofWord? lower
  | .touchscreen => Vocabulary.ofWord? lower
  | .keyboardState => Vocabulary.ofWord? lower
  | .textInput => Vocabulary.ofWord? lower
  | .navigationState => Vocabulary.ofWord? lower
  | .navigation => Vocabulary.ofWord? lower
  | .screenDimension => screenDimension? lower
  | .version => codeNumber? "v" 1 4 lower >>= Text.word32?

/-! ### Writing one segment -/

/-- A word followed by a number of at least `width` digits. -/
def codeSegment (word : String) (width n : Nat) : List Char :=
  word.toList ++ Text.paddedDigits width n

/-- A word, a number and `dp`. -/
def extentSegment (word : String) (n : UInt32) : List Char :=
  word.toList ++ Text.digits n.toNat ++ ['d', 'p']

/-- The canonical folder-name segment of a value. -/
def write (d : Dimension) (v : d.Value) : List Char :=
  match d, v with
  | .countryCode, v => codeSegment "mcc" 3 v.toNat
  | .networkCode, v => codeSegment "mnc" 2 v.toNat
  | .language, v => v.toList
  | .region, v => 'r' :: v.toList
  | .layoutDirection, v => (Vocabulary.word v).toList
  | .smallestWidth, v => extentSegment "sw" v
  | .screenWidth, v => extentSegment "w" v
  | .screenHeight, v => extentSegment "h" v
  | .screenSize, v => (Vocabulary.word v).toList
  | .screenRatio, v => (Vocabulary.word v).toList
  | .orientation, v => (Vocabulary.word v).toList
  | .uiMode, v => (Vocabulary.word v).toList
  | .nightMode, v => (Vocabulary.word v).toList
  | .density, v => (Vocabulary.word v).toList
  | .touchscreen, v => (Vocabulary.word v).toList
  | .keyboardState, v => (Vocabulary.word v).toList
  | .textInput, v => (Vocabulary.word v).toList
  | .navigationState, v => (Vocabulary.word v).toList
  | .navigation, v => (Vocabulary.word v).toList
  | .screenDimension, v => Text.digits v.large.toNat ++ 'x' :: Text.digits v.small.toNat
  | .version, v => codeSegment "v" 1 v.toNat

/-! ### Comparing values -/

/-- Compares two values of one dimension: numbers by size, texts by their characters, words by their list. -/
def compareValues (d : Dimension) (a b : d.Value) : Ordering :=
  match d, a, b with
  | .countryCode, a, b => compare a b
  | .networkCode, a, b => compare a b
  | .language, a, b => compare a b
  | .region, a, b => compare a b
  | .layoutDirection, a, b => compare a b
  | .smallestWidth, a, b => compare a b
  | .screenWidth, a, b => compare a b
  | .screenHeight, a, b => compare a b
  | .screenSize, a, b => compare a b
  | .screenRatio, a, b => compare a b
  | .orientation, a, b => compare a b
  | .uiMode, a, b => compare a b
  | .nightMode, a, b => compare a b
  | .density, a, b => compare a b
  | .touchscreen, a, b => compare a b
  | .keyboardState, a, b => compare a b
  | .textInput, a, b => compare a b
  | .navigationState, a, b => compare a b
  | .navigation, a, b => compare a b
  | .screenDimension, a, b => compare a b
  | .version, a, b => compare a b

end Dimension

end ResourceIndex
