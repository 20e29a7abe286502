import ResourceIndex.Configuration.Text
import ResourceIndex.Path

/-!
# Resource items

An item stands for one logical resource and keeps, in the order of their arrival, the variants that provide it. A
variant may provide the resource inline, from inside a file that declares something else; an item that has inline
variants only cannot be edited directly. Questions on the default and the alternates look at the configurations alone.
-/

namespace ResourceIndex

/-- The identity of an indexed source file. -/
structure SourceId where
  number : Nat
deriving DecidableEq, Repr, Inhabited

instance : Ord SourceId where
  compare a b := compare a.number b.number

instance : Std.TransOrd SourceId where
  eq_swap {a b} := Std.OrientedOrd.eq_swap (a := a.number) (b := b.number)
  isLE_trans {a b c} := Std.TransOrd.isLE_trans (a := a.number) (b := b.number) (c := c.number)

instance : Std.LawfulEqOrd SourceId where
  compare_self {a} := Std.ReflOrd.compare_self (a := a.number)
  eq_of_compare {a b} h := congrArg SourceId.mk (Std.LawfulEqOrd.eq_of_compare (a := a.number) (b := b.number) h)

def SourceId.toText (id : SourceId) : String :=
  "#" ++ toString id.number

/-- One source of a resource. -/
structure Variant where
  source : SourceId
  path : Path
  configuration : Configuration
deriving DecidableEq, Repr

namespace Variant

/-- The variant has no qualifier. -/
def isDefault (v : Variant) : Bool :=
  v.configuration.isDefault

/-- The path, and the qualifiers in parentheses if there are any. -/
def toText (v : Variant) : String :=
  if v.configuration.toText.isEmpty then v.path.text
  else v.path.text ++ " (" ++ v.configuration.toText ++ ")"

end Variant

/-- A logical resource and everything that provides it. Beside each variant stands whether its file declares the
resource inline. -/
@[ext] structure Item where
  name : String
  variants : List Variant := []
  inlineFlags : List Bool := []
  length_inlineFlags : inlineFlags.length = variants.length := by rfl
deriving DecidableEq, Repr

/-- A variant together with the way in which its file declares the resource. -/
structure Contribution where
  variant : Variant
  isInline : Bool
deriving DecidableEq, Repr

namespace Item

/-! ### Changes -/

/-- An item of this name that nothing provides. -/
def named (name : String) : Item :=
  { name := name }

/-- Appends a variant; equal variants are kept apart. -/
def add (i : Item) (v : Variant) (isInline : Bool) : Item :=
  { i with
    variants := i.variants ++ [v]
    inlineFlags := i.inlineFlags ++ [isInline]
    length_inlineFlags := by simp [i.length_inlineFlags] }

/-- Removes the oldest variant of a source, if there is one. -/
def remove? (i : Item) (source : SourceId) : Option Item :=
  (i.variants.findIdx? (·.source = source)).map fun n =>
    { i with
      variants := i.variants.eraseIdx n
      inlineFlags := i.inlineFlags.eraseIdx n
      length_inlineFlags := by simp [List.length_eraseIdx, i.length_inlineFlags] }

/-- Removes the oldest variant of a source, or changes nothing. -/
def remove (i : Item) (source : SourceId) : Item :=
  (i.remove? source).getD i

/-- Drops every variant and keeps the name. -/
def reset (i : Item) : Item :=
  named i.name

/-! ### Questions -/

/-- The variants in the order of their arrival, each with its flag. -/
def contributions (i : Item) : List Contribution :=
  (i.variants.zip i.inlineFlags).map fun (v, isInline) => ⟨v, isInline⟩

def variantCount (i : Item) : Nat :=
  i.variants.length

def hasNoVariants (i : Item) : Bool :=
  i.variants.isEmpty

/-- Every variant declares the resource inline, and there is at least one. -/
def isDeclaredInline (i : Item) : Bool :=
  !i.inlineFlags.isEmpty && i.inlineFlags.all id

/-- Some variant is qualified. -/
def hasAlternates (i : Item) : Bool :=
  i.variants.any (!·.isDefault)

/-- Some variant is unqualified, or there is no variant at all. -/
def hasDefault (i : Item) : Bool :=
  i.variants.isEmpty || i.variants.any (·.isDefault)

/-- The number of qualified variants. -/
def alternateCount (i : Item) : Nat :=
  i.variants.countP (!·.isDefault)

/-- The resource can be edited without choosing a configuration. -/
def isEditableDirectly (i : Item) : Bool :=
  !i.isDeclaredInline && !i.hasAlternates

/-- The variants in ascending order of their configurations; equal ones stay in the order of their arrival. -/
def sortedVariants (i : Item) : List Variant :=
  i.variants.mergeSort fun v w => (compare v.configuration w.configuration).isLE

/-- The oldest unqualified variant. -/
def defaultVariant? (i : Item) : Option Variant :=
  i.variants.find? (·.isDefault)

/-! ### Identity and text -/

/-- Items are identified by their names. -/
instance : BEq Item where
  beq a b := a.name == b.name

/-- Items are ordered by their names. -/
instance : Ord Item where
  compare a b := compare a.name b.name

/-- The item as it is shown: its name and its variants. -/
def toText (i : Item) : String :=
  "ResourceItem [name=" ++ i.name ++ ", variants=[" ++ ", ".intercalate (i.variants.map Variant.toText) ++ "]]"

end Item

end ResourceIndex
