import ResourceIndex.Configuration.Basic

/-!
# Configurations as records

A configuration can be stored as a record with one field per dimension. A stored value is a number, a name or text, a
pair of numbers, or the tag of an empty record, which is another way to give a name. Reading checks that a number fits
its dimension and that a name belongs to its vocabulary, but takes texts and pairs as they are, so a record can hold
configurations that no folder name denotes.
-/

namespace ResourceIndex

inductive Stored where
  | number (n : Nat)
  | text (s : String)
  | pair (a b : Nat)
  | tag (name : String)
deriving DecidableEq, Repr

namespace Dimension

/-- The name of the field that stores this dimension. -/
def fieldName : Dimension → String
  | countryCode => "country_code"
  | networkCode => "network_code"
  | language => "language"
  | region => "region"
  | layoutDirection => "layout_direction"
  | smallestWidth => "smallest_width_dp"
  | screenWidth => "screen_width_dp"
  | screenHeight => "screen_height_dp"
  | screenSize => "screen_size"
  | screenRatio => "screen_ratio"
  | orientation => "orientation"
  | uiMode => "ui_mode"
  | nightMode => "night_mode"
  | density => "density"
  | touchscreen => "touchscreen"
  | keyboardState => "keyboard_state"
  | textInput => "text_input"
  | navigationState => "navigation_state"
  | navigation => "navigation"
  | screenDimension => "screen_dimension"
  | version => "version"

def store (d : Dimension) (v : d.Value) : Stored :=
  match d, v with
  | .countryCode, v => .number v.toNat
  | .networkCode, v => .number v.toNat
  | .language, v => .text v
  | .region, v => .text v
  | .layoutDirection, v => .text (Vocabulary.name v)
  | .smallestWidth, v => .number v.toNat
  | .screenWidth, v => .number v.toNat
  | .screenHeight, v => .number v.toNat
  | .screenSize, v => .text (Vocabulary.name v)
  | .screenRatio, v => .text (Vocabulary.name v)
  | .orientation, v => .text (Vocabulary.name v)
  | .uiMode, v => .text (Vocabulary.name v)
  | .nightMode, v => .text (Vocabulary.name v)
  | .density, v => .text (Vocabulary.name v)
  | .touchscreen, v => .text (Vocabulary.name v)
  | .keyboardState, v => .text (Vocabulary.name v)
  | .textInput, v => .text (Vocabulary.name v)
  | .navigationState, v => .text (Vocabulary.name v)
  | .navigation, v => .text (Vocabulary.name v)
  | .screenDimension, v => .pair v.large.toNat v.small.toNat
  | .version, v => .number v.toNat

def storedWord16? : Stored → Option UInt16
  | .number n => Text.word16? n
  | _ => none

def storedWord32? : Stored → Option UInt32
  | .number n => Text.word32? n
  | _ => none

def storedText? : Stored → Option String
  | .text s => some s
  | _ => none

/-- A stored name of a vocabulary, by itself or as a tag. -/
def storedName? {α : Type} [Vocabulary α] : Stored → Option α
  | .text s | .tag s => Vocabulary.ofName? s
  | _ => none

/-- A stored pair of numbers that fit thirty-two bits, in the order given. -/
def storedPair? : Stored → Option ScreenDimension
  | .pair a b => do return ⟨← Text.word32? a, ← Text.word32? b⟩
  | _ => none

def ofStored? (d : Dimension) (s : Stored) : Option d.Value :=
  match d with
  | .countryCode => storedWord16? s
  | .networkCode => storedWord16? s
  | .language => storedText? s
  | .region => storedText? s
  | .layoutDirection => storedName? s
  | .smallestWidth => storedWord32? s
  | .screenWidth => storedWord32? s
  | .screenHeight => storedWord32? s
  | .screenSize => storedName? s
  | .screenRatio => storedName? s
  | .orientation => storedName? s
  | .uiMode => storedName? s
  | .nightMode => storedName? s
  | .density => storedName? s
  | .touchscreen => storedName? s
  | .keyboardState => storedName? s
  | .textInput => storedName? s
  | .navigationState => storedName? s
  | .navigation => storedName? s
  | .screenDimension => storedPair? s
  | .version => storedWord32? s

end Dimension

namespace Configuration

/-- The record of a configuration: every field, with its stored value if the dimension is set. -/
def toRecord (c : Configuration) : List (String × Option Stored) :=
  Dimension.all.map fun d => (d.fieldName, (c.get d).map d.store)

/-- Reads a record given by its look-up function; an absent field leaves its dimension open, and a value that does not
fit its dimension refuses the record. -/
def ofRecord? (field : String → Option Stored) : Option Configuration :=
  Dimension.all.foldlM (fun c d =>
    match field d.fieldName with
    | none => some c
    | some s => (d.ofStored? s).map (c.set d)) empty

end Configuration

end ResourceIndex
