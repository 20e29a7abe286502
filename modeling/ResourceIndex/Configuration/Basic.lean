import ResourceIndex.Qualifier.Dimension

/-!
# Folder configurations

A configuration sets some of the twenty-one dimensions and leaves the others open. Configurations are compared dimension
by dimension, an open one before any set one, so the configuration that sets nothing is the least.
-/

namespace ResourceIndex

/-- The qualifiers of a resource folder. -/
structure Configuration where
  countryCode : Option UInt16 := none
  networkCode : Option UInt16 := none
  language : Option String := none
  region : Option String := none
  layoutDirection : Option LayoutDirection := none
  smallestWidth : Option UInt32 := none
  screenWidth : Option UInt32 := none
  screenHeight : Option UInt32 := none
  screenSize : Option ScreenSize := none
  screenRatio : Option ScreenRatio := none
  orientation : Option Orientation := none
  uiMode : Option UiMode := none
  nightMode : Option NightMode := none
  density : Option Density := none
  touchscreen : Option Touchscreen := none
  keyboardState : Option KeyboardState := none
  textInput : Option TextInput := none
  navigationState : Option NavigationState := none
  navigation : Option Navigation := none
  screenDimension : Option ScreenDimension := none
  version : Option UInt32 := none
deriving DecidableEq, Repr

namespace Configuration

def empty : Configuration := {}

instance : Inhabited Configuration := ⟨empty⟩

def get (c : Configuration) (d : Dimension) : Option d.Value :=
  match d with
  | .countryCode => c.countryCode
  | .networkCode => c.networkCode
  | .language => c.language
  | .region => c.region
  | .layoutDirection => c.layoutDirection
  | .smallestWidth => c.smallestWidth
  | .screenWidth => c.screenWidth
  | .screenHeight => c.screenHeight
  | .screenSize => c.screenSize
  | .screenRatio => c.screenRatio
  | .orientation => c.orientation
  | .uiMode => c.uiMode
  | .nightMode => c.nightMode
  | .density => c.density
  | .touchscreen => c.touchscreen
  | .keyboardState => c.keyboardState
  | .textInput => c.textInput
  | .navigationState => c.navigationState
  | .navigation => c.navigation
  | .screenDimension => c.screenDimension
  | .version => c.version

def set (c : Configuration) (d : Dimension) (v : d.Value) : Configuration :=
  match d, v with
  | .countryCode, v => { c with countryCode := some v }
  | .networkCode, v => { c with networkCode := some v }
  | .language, v => { c with language := some v }
  | .region, v => { c with region := some v }
  | .layoutDirection, v => { c with layoutDirection := some v }
  | .smallestWidth, v => { c with smallestWidth := some v }
  | .screenWidth, v => { c with screenWidth := some v }
  | .screenHeight, v => { c with screenHeight := some v }
  | .screenSize, v => { c with screenSize := some v }
  | .screenRatio, v => { c with screenRatio := some v }
  | .orientation, v => { c with orientation := some v }
  | .uiMode, v => { c with uiMode := some v }
  | .nightMode, v => { c with nightMode := some v }
  | .density, v => { c with density := some v }
  | .touchscreen, v => { c with touchscreen := some v }
  | .keyboardState, v => { c with keyboardState := some v }
  | .textInput, v => { c with textInput := some v }
  | .navigationState, v => { c with navigationState := some v }
  | .navigation, v => { c with navigation := some v }
  | .screenDimension, v => { c with screenDimension := some v }
  | .version, v => { c with version := some v }

theorem get_empty (d : Dimension) : empty.get d = none := by
  cases d <;> rfl

theorem get_set_self (c : Configuration) (d : Dimension) (v : d.Value) : (c.set d v).get d = some v := by
  cases d <;> rfl

theorem get_set_of_ne (c : Configuration) {d e : Dimension} (v : d.Value) (h : e ≠ d) :
    (c.set d v).get e = c.get e := by
  cases d <;> cases e <;> first | rfl | exact absurd rfl h

/-- Configurations that agree in every dimension are equal. -/
theorem ext_get {a b : Configuration} (h : ∀ d, a.get d = b.get d) : a = b := by
  cases a
  cases b
  simp only [mk.injEq]
  exact ⟨h .countryCode, h .networkCode, h .language, h .region, h .layoutDirection, h .smallestWidth,
    h .screenWidth, h .screenHeight, h .screenSize, h .screenRatio, h .orientation, h .uiMode, h .nightMode,
    h .density, h .touchscreen, h .keyboardState, h .textInput, h .navigationState, h .navigation,
    h .screenDimension, h .version⟩

/-! ### Order -/

/-- Compares what two configurations set in one dimension, nothing before anything. -/
def compareAt (d : Dimension) (a b : Configuration) : Ordering :=
  match a.get d, b.get d with
  | none, none => .eq
  | none, some _ => .lt
  | some _, none => .gt
  | some v, some w => d.compareValues v w

/-- The first dimension in which two configurations differ decides. -/
instance : Ord Configuration where
  compare a b := Dimension.all.foldr (fun d rest => (compareAt d a b).then rest) .eq

end Configuration

end ResourceIndex
