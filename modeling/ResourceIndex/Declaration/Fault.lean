import ResourceIndex.Markup.Event

/-!
# Faults of declaration readers
-/

namespace ResourceIndex

/-- Why the declarations of a file cannot be read. -/
inductive DeclarationFault where
  | markup (fault : Markup.Fault)
  | unknownType (name : String)
deriving DecidableEq, Repr

def DeclarationFault.message : DeclarationFault → String
  | markup f => "XML parsing error: " ++ f.message
  | unknownType n => "Unknown resource type '" ++ n ++ "'"

end ResourceIndex
