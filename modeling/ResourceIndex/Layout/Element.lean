import ResourceIndex.Layout.Attribute
import ResourceIndex.Markup.Event
import Std.Data.TreeMap

/-!
# Layout elements

An element is read from the first tag of a text. The prefixes of its attributes are resolved by the namespace
declarations on the tag itself, wherever these stand, and the declarations are not attributes of the element. An element
is written as an empty-element tag that declares the prefixes it uses, in their order, before its attributes.
-/

namespace ResourceIndex.Layout

/-- An element without its content. -/
structure Element where
  tag : String
  attributes : List Attribute
deriving DecidableEq, Repr

inductive ElementFault where
  | markup (fault : Markup.Fault)
  | malformed (fault : Markup.AttributeFault)
  | unboundPrefix (name : String)
  | unknownNamespace (uri : String)
  | noElement
deriving DecidableEq, Repr

def ElementFault.message : ElementFault → String
  | markup f => "XML error: " ++ f.message
  | malformed f => "Attribute error: " ++ f.message
  | unboundPrefix p => "Unbound namespace prefix '" ++ p ++ "'"
  | unknownNamespace u => "No namespace prefix for '" ++ u ++ "'"
  | noElement => "No element found"

/-! ### Reading -/

/-- The key that declares a default namespace, which attributes ignore. -/
def declarationKey : List Char := "xmlns".toList

/-- The prefix that a key declares. -/
def declaredPrefix? (key : List Char) : Option (List Char) :=
  (declarationKey ++ [':']).isPrefixOf? key

/-- The prefixes that the attributes of a tag declare, with their namespaces. -/
def bindings (raw : List Markup.RawAttribute) : List (List Char × List Char) :=
  raw.filterMap fun a => (declaredPrefix? a.key).map fun p => (p, a.value)

/-- The attributes of a tag that are not declarations. -/
def proper (raw : List Markup.RawAttribute) : List Markup.RawAttribute :=
  raw.filter fun a => (declaredPrefix? a.key).isNone && a.key ≠ declarationKey

/-- Resolves the prefix of a key, the part before its first colon. -/
def resolveKey (bound : List (List Char × List Char)) (key : List Char) : Except ElementFault AttributeName :=
  match key.dropWhile (· ≠ ':') with
  | [] => .ok ⟨none, String.ofList key⟩
  | _ :: name =>
    let pre := key.takeWhile (· ≠ ':')
    match bound.lookup pre with
    | some uri => .ok ⟨some (String.ofList uri), String.ofList name⟩
    | none => .error (.unboundPrefix (String.ofList pre))

def resolve (bound : List (List Char × List Char)) (a : Markup.RawAttribute) : Except ElementFault Attribute := do
  return ⟨← resolveKey bound a.key, String.ofList a.value⟩

namespace Element

/-- Reads a tag; the first attribute that cannot be read stops it. -/
def ofTag (tag : Markup.Tag) : Except ElementFault Element := do
  let raw ← (tag.attributes.mapM id).mapError .malformed
  return ⟨String.ofList tag.name, ← (proper raw).mapM (resolve (bindings raw))⟩

/-- Reads the first element of a text. What stands behind its tag does not matter. -/
def ofText (text : String) : Except ElementFault Element :=
  let reading := Markup.read text
  match reading.events.findSome? Markup.Event.tag? with
  | some tag => ofTag tag
  | none =>
    match reading.fault? with
    | some f => .error (.markup f)
    | none => .error .noElement

/-! ### Writing -/

/-- The written form of a character of a value. -/
def escapeChar : Char → List Char
  | '<' => "&lt;".toList
  | '>' => "&gt;".toList
  | '&' => "&amp;".toList
  | '\'' => "&apos;".toList
  | '"' => "&quot;".toList
  | c => [c]

def escape (value : String) : List Char :=
  value.toList.flatMap escapeChar

/-- An attribute as it stands in a tag, behind a space. -/
def written (key : List Char) (value : String) : List Char :=
  ' ' :: key ++ '=' :: '"' :: escape value ++ ['"']

/-- The key of an attribute, given the prefix of each namespace. -/
def writtenKey (prefixes : List (String × String)) (n : AttributeName) : Except ElementFault (List Char) :=
  match n.uri with
  | none => .ok n.name.toList
  | some uri =>
    match prefixes.lookup uri with
    | some p => .ok (p.toList ++ ':' :: n.name.toList)
    | none => .error (.unknownNamespace uri)

/-- The prefixes that the attributes use, in order, with their namespaces. Of two namespaces with one prefix the one
used last is declared. -/
def declarations (prefixes : List (String × String)) (attributes : List Attribute) : List (String × String) :=
  let used := attributes.filterMap fun a => a.name.uri.bind fun uri => (prefixes.lookup uri).map fun p => (p, uri)
  (Std.TreeMap.ofList used).toList

/-- Writes the element as an empty-element tag, given the prefix of each namespace. -/
def render (prefixes : List (String × String)) (e : Element) : Except ElementFault String := do
  let keys ← e.attributes.mapM fun a => writtenKey prefixes a.name
  let declared := (declarations prefixes e.attributes).flatMap fun (p, uri) =>
    written (declarationKey ++ ':' :: p.toList) uri
  let attributes := (keys.zip e.attributes).flatMap fun (key, a) => written key a.value
  return String.ofList ('<' :: e.tag.toList ++ declared ++ attributes ++ ['/', '>'])

end Element

end ResourceIndex.Layout
