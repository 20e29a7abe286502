/-!
# Qualifier vocabularies

A qualifier such as the orientation or the density has a closed list of values. Each value has the word that stands for
it in a folder name and the name under which a configuration record stores it. The order of the values in their list is
their order in a comparison of configurations.
-/

namespace ResourceIndex

/-- A closed list of qualifier values with their spellings. -/
class Vocabulary (α : Type) where
  /-- Every value, in ascending order. -/
  all : List α
  /-- The word in a folder name. -/
  word : α → String
  /-- The name in a configuration record. -/
  name : α → String

namespace Vocabulary

variable {α : Type} [Vocabulary α]

/-- The value that a folder-name word stands for; words are compared exactly. -/
def ofWord? (w : List Char) : Option α :=
  (all : List α).find? fun a => (word a).toList = w

/-- The value stored under a name. -/
def ofName? (n : String) : Option α :=
  (all : List α).find? fun a => name a = n

end Vocabulary

/-! ### The vocabularies, in the order of their dimensions -/

inductive LayoutDirection where
  | ltr | rtl
deriving DecidableEq, Ord, Repr

instance : Vocabulary LayoutDirection where
  all := [.ltr, .rtl]
  word
    | .ltr => "ldltr"
    | .rtl => "ldrtl"
  name
    | .ltr => "Ltr"
    | .rtl => "Rtl"

/-- Generalized screen size. -/
inductive ScreenSize where
  | small | normal | large | xlarge
deriving DecidableEq, Ord, Repr

instance : Vocabulary ScreenSize where
  all := [.small, .normal, .large, .xlarge]
  word
    | .small => "small"
    | .normal => "normal"
    | .large => "large"
    | .xlarge => "xlarge"
  name
    | .small => "Small"
    | .normal => "Normal"
    | .large => "Large"
    | .xlarge => "XLarge"

/-- Long or regular aspect ratio. -/
inductive ScreenRatio where
  | long | notLong
deriving DecidableEq, Ord, Repr

instance : Vocabulary ScreenRatio where
  all := [.long, .notLong]
  word
    | .long => "long"
    | .notLong => "notlong"
  name
    | .long => "Long"
    | .notLong => "NotLong"

inductive Orientation where
  | portrait | landscape | square
deriving DecidableEq, Ord, Repr

instance : Vocabulary Orientation where
  all := [.portrait, .landscape, .square]
  word
    | .portrait => "port"
    | .landscape => "land"
    | .square => "square"
  name
    | .portrait => "Portrait"
    | .landscape => "Landscape"
    | .square => "Square"

/-- Kind of device or dock the interface runs on. -/
inductive UiMode where
  | car | desk | television | appliance | watch
deriving DecidableEq, Ord, Repr

instance : Vocabulary UiMode where
  all := [.car, .desk, .television, .appliance, .watch]
  word
    | .car => "car"
    | .desk => "desk"
    | .television => "television"
    | .appliance => "appliance"
    | .watch => "watch"
  name
    | .car => "Car"
    | .desk => "Desk"
    | .television => "Television"
    | .appliance => "Appliance"
    | .watch => "Watch"

inductive NightMode where
  | notNight | night
deriving DecidableEq, Ord, Repr

instance : Vocabulary NightMode where
  all := [.notNight, .night]
  word
    | .notNight => "notnight"
    | .night => "night"
  name
    | .notNight => "NotNight"
    | .night => "Night"

inductive Density where
  | ldpi | mdpi | tvdpi | hdpi | xhdpi | xxhdpi | xxxhdpi | nodpi | anydpi
deriving DecidableEq, Ord, Repr

instance : Vocabulary Density where
  all := [.ldpi, .mdpi, .tvdpi, .hdpi, .xhdpi, .xxhdpi, .xxxhdpi, .nodpi, .anydpi]
  word
    | .ldpi => "ldpi"
    | .mdpi => "mdpi"
    | .tvdpi => "tvdpi"
    | .hdpi => "hdpi"
    | .xhdpi => "xhdpi"
    | .xxhdpi => "xxhdpi"
    | .xxxhdpi => "xxxhdpi"
    | .nodpi => "nodpi"
    | .anydpi => "anydpi"
  name
    | .ldpi => "Ldpi"
    | .mdpi => "Mdpi"
    | .tvdpi => "Tvdpi"
    | .hdpi => "Hdpi"
    | .xhdpi => "Xhdpi"
    | .xxhdpi => "Xxhdpi"
    | .xxxhdpi => "Xxxhdpi"
    | .nodpi => "Nodpi"
    | .anydpi => "Anydpi"

inductive Touchscreen where
  | noTouch | stylus | finger
deriving DecidableEq, Ord, Repr

instance : Vocabulary Touchscreen where
  all := [.noTouch, .stylus, .finger]
  word
    | .noTouch => "notouch"
    | .stylus => "stylus"
    | .finger => "finger"
  name
    | .noTouch => "NoTouch"
    | .stylus => "Stylus"
    | .finger => "Finger"

inductive KeyboardState where
  | exposed | hidden | soft
deriving DecidableEq, Ord, Repr

instance : Vocabulary KeyboardState where
  all := [.exposed, .hidden, .soft]
  word
    | .exposed => "keysexposed"
    | .hidden => "keyshidden"
    | .soft => "keyssoft"
  name
    | .exposed => "Exposed"
    | .hidden => "Hidden"
    | .soft => "Soft"

inductive TextInput where
  | noKeys | qwerty | twelveKey
deriving DecidableEq, Ord, Repr

instance : Vocabulary TextInput where
  all := [.noKeys, .qwerty, .twelveKey]
  word
    | .noKeys => "nokeys"
    | .qwerty => "qwerty"
    | .twelveKey => "12key"
  name
    | .noKeys => "NoKeys"
    | .qwerty => "Qwerty"
    | .twelveKey => "TwelveKey"

inductive NavigationState where
  | exposed | hidden
deriving DecidableEq, Ord, Repr

instance : Vocabulary NavigationState where
  all := [.exposed, .hidden]
  word
    | .exposed => "navexposed"
    | .hidden => "navhidden"
  name
    | .exposed => "Exposed"
    | .hidden => "Hidden"

/-- Primary way to navigate without touch. -/
inductive Navigation where
  | noNav | dpad | trackball | wheel
deriving DecidableEq, Ord, Repr

instance : Vocabulary Navigation where
  all := [.noNav, .dpad, .trackball, .wheel]
  word
    | .noNav => "nonav"
    | .dpad => "dpad"
    | .trackball => "trackball"
    | .wheel => "wheel"
  name
    | .noNav => "NoNav"
    | .dpad => "Dpad"
    | .trackball => "Trackball"
    | .wheel => "Wheel"

end ResourceIndex
