import ResourceIndex.Layout.Element
import ResourceIndex.Layout.Ids

/-!
# Pasting elements

Pasting copies elements from text to text: they are read, their ids are made fresh, and each copy is written on its own.
-/

namespace ResourceIndex.Layout

/-- The copies of elements, and the ids taken afterwards. -/
def copies (excluded : List AttributeName) (elements : List Element) (taken : Ids) : List Element × Ids :=
  let (renamings, after) := remap (elements.map (·.attributes)) taken
  (elements.zipWith (fun e r => { e with attributes := copyAttributes excluded r e.attributes }) renamings, after)

/-- Pastes the first element of each text. The first text that holds no readable element stops the paste; a copy that
cannot be written does not stop the others. -/
def paste (excluded : List AttributeName) (prefixes : List (String × String)) (taken : Ids) (texts : List String) :
    Except ElementFault (List (Except ElementFault String) × Ids) := do
  let elements ← texts.mapM Element.ofText
  let (copied, after) := copies excluded elements taken
  return (copied.map (·.render prefixes), after)

end ResourceIndex.Layout
