/-!
# Resource types

The type of a resource as it is referenced, such as `string` in `@string/title`. Types are ordered by name, and a
listing of resources follows that order.
-/

namespace ResourceIndex

inductive ResourceType where
  | anim | animator | array | attr | bool | color | declareStyleable | dimen
  | drawable | font | fraction | id | integer | interpolator | layout | menu
  | mipmap | navigation | plurals | raw | string | style | transition | xml
deriving DecidableEq, Ord, Repr

namespace ResourceType

instance : Std.TransOrd ResourceType where
  eq_swap {a b} := Std.OrientedOrd.eq_swap (a := a.ctorIdx) (b := b.ctorIdx)
  isLE_trans {a b c} := Std.TransOrd.isLE_trans (a := a.ctorIdx) (b := b.ctorIdx) (c := c.ctorIdx)

instance : Std.LawfulEqOrd ResourceType where
  compare_self {a} := Std.ReflOrd.compare_self (a := a.ctorIdx)
  eq_of_compare {a b} h := by
    have hidx : a.ctorIdx = b.ctorIdx := Std.LawfulEqOrd.eq_of_compare (α := Nat) h
    rw [← ofNat_ctorIdx a, ← ofNat_ctorIdx b, hidx]

def all : List ResourceType :=
  [.anim, .animator, .array, .attr, .bool, .color, .declareStyleable, .dimen,
   .drawable, .font, .fraction, .id, .integer, .interpolator, .layout, .menu,
   .mipmap, .navigation, .plurals, .raw, .string, .style, .transition, .xml]

/-- The name used in references. -/
def name : ResourceType → String
  | anim => "anim"
  | animator => "animator"
  | array => "array"
  | attr => "attr"
  | bool => "bool"
  | color => "color"
  | declareStyleable => "declare-styleable"
  | dimen => "dimen"
  | drawable => "drawable"
  | font => "font"
  | fraction => "fraction"
  | id => "id"
  | integer => "integer"
  | interpolator => "interpolator"
  | layout => "layout"
  | menu => "menu"
  | mipmap => "mipmap"
  | navigation => "navigation"
  | plurals => "plurals"
  | raw => "raw"
  | string => "string"
  | style => "style"
  | transition => "transition"
  | xml => "xml"

def ofName? (n : String) : Option ResourceType :=
  all.find? fun t => t.name = n

/-- The type that an element of a values file declares by its tag. An `item` names its type in an attribute instead. -/
def ofValueTag? : String → Option ResourceType
  | "string" => some string
  | "color" => some color
  | "dimen" => some dimen
  | "bool" => some bool
  | "integer" => some integer
  | "fraction" => some fraction
  | "style" => some style
  | "plurals" => some plurals
  | "attr" => some attr
  | "declare-styleable" => some declareStyleable
  | "array" => some array
  | "string-array" => some array
  | "integer-array" => some array
  | "drawable" => some drawable
  | _ => none

end ResourceType

end ResourceIndex
