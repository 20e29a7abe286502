/-!
# Faults of the index

What can go wrong when settings are read, folders are scanned and resources are looked up, with a message for logs and
one for users. After some faults work can go on.
-/

namespace ResourceIndex

inductive IndexFault where
  | file (cause : String)
  | listing (directory : String) (cause : String)
  | settings (problem : String)
  | malformedSettings (problem : String)
  | unwritableSettings (problem : String)
  | record (problem : String)
  | markup (problem : String)
  | invalidFolder (name : String)
  | invalidFileName (path : String)
  | notFound (what : String)
  | cancelled
deriving DecidableEq, Repr

namespace IndexFault

def listingText (directory cause : String) : String :=
  "IO error for operation on " ++ directory ++ ": " ++ cause

def message : IndexFault → String
  | file cause => "IO error: " ++ cause
  | listing directory cause => "IO error: " ++ listingText directory cause
  | settings problem => "Configuration error: " ++ problem
  | malformedSettings problem => "TOML parse error: " ++ problem
  | unwritableSettings problem => "TOML serialize error: " ++ problem
  | record problem => "JSON error: " ++ problem
  | markup problem => "XML parse error: " ++ problem
  | invalidFolder name => "Invalid resource folder: " ++ name
  | invalidFileName path => "Invalid resource file name: " ++ path
  | notFound what => "Not found: " ++ what
  | cancelled => "Cancelled"

/-- The index stays usable after the fault. -/
def isRecoverable : IndexFault → Bool
  | markup _ | invalidFolder _ | invalidFileName _ | cancelled => true
  | _ => false

/-- The fault in words for users. -/
def userMessage : IndexFault → String
  | file cause => "File operation failed: " ++ cause
  | listing directory cause => "File operation failed: " ++ listingText directory cause
  | settings problem => "Configuration error: " ++ problem
  | invalidFolder name => "'" ++ name ++ "' is not a valid resource folder name"
  | notFound what => "Not found: " ++ what
  | cancelled => "Operation was cancelled"
  | e => e.message

/-- What lies beneath the fault, from the outside in. -/
def causes : IndexFault → List String
  | file cause => [cause]
  | listing directory cause => [listingText directory cause, cause]
  | _ => []

end IndexFault

end ResourceIndex
