import ResourceIndex.Configuration.Basic

/-!
# Configurations as folder-name text

A folder name lists qualifiers in dimension order, joined by dashes, each dimension at most once. Reading takes for
every segment the first dimension, after those already used, that accepts it; the whole list is refused as soon as no
dimension does. Writing lists the set dimensions in order in their canonical form.
-/

namespace ResourceIndex.Configuration

/-- Reads the segments into the given dimensions, in order, on top of `c`. -/
def readSegments (c : Configuration) : List Dimension → List (List Char) → Option Configuration
  | _, [] => some c
  | [], _ :: _ => none
  | d :: dims, seg :: segs =>
    match d.read? seg with
    | some v => readSegments (c.set d v) dims segs
    | none => readSegments c dims (seg :: segs)

/-- The configuration that a list of qualifier segments denotes. -/
def ofSegments? (segs : List (List Char)) : Option Configuration :=
  readSegments empty Dimension.all segs

/-- Reads dash-separated qualifiers such as `fr-rCA-hdpi`; the empty text sets nothing. -/
def ofText? (text : String) : Option Configuration :=
  if text.isEmpty then some empty else ofSegments? (text.toList.splitOn '-')

/-- The canonical segments of the set dimensions, in order. -/
def segments (c : Configuration) : List (List Char) :=
  Dimension.all.filterMap fun d => (c.get d).map d.write

/-- The canonical folder suffix, empty when nothing is set. -/
def toText (c : Configuration) : String :=
  String.ofList (['-'].intercalate c.segments)

def qualifierCount (c : Configuration) : Nat :=
  c.segments.length

def isDefault (c : Configuration) : Bool :=
  c.qualifierCount == 0

end ResourceIndex.Configuration
