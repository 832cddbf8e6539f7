import ProtoSchema.Decl
import ProtoSchema.Fault
import ProtoSchema.Load
import ProtoSchema.Text.Escape

namespace ProtoSchema

inductive ImportError
  | malformed (error : SyntaxError)
  | load (fault : LoadFault)
  /-- No file is found for an import of the file `importer`, whose text is `source`. -/
  | missingImport (name importer source : String) (item : Import)
  /-- No file of the import root is found for a path that was given. -/
  | outsideRoot (path : String)
deriving DecidableEq, Repr

namespace ImportError

def isMalformed : ImportError → Bool
  | .malformed _ => true
  | _ => false

def isIo : ImportError → Bool
  | .load (.unreadable _ _ _) => true
  | .load (.denied _) => true
  | _ => false

def isNotFound : ImportError → Bool
  | .load (.notFound _) => true
  | .missingImport _ _ _ _ => true
  | .outsideRoot _ => true
  | _ => false

def message : ImportError → String
  | .malformed error => error.message
  | .load (.notFound name) => "file '" ++ name ++ "' not found"
  | .load (.unreadable _ path _) => "error opening file '" ++ path ++ "'"
  | .load (.refused text) => text
  | .load (.denied text) => text
  | .missingImport name _ _ _ => "import '" ++ name ++ "' not found"
  | .outsideRoot path => "file '" ++ path ++ "' is not in the import root"

/-- The error on one line with its place or its cause. -/
def describe (e : ImportError) : String :=
  match e with
  | .malformed error => error.describe
  | .load (.unreadable _ _ cause) => e.message ++ ": " ++ cause.text
  | .load (.refused text) => Text.quoted text
  | .load (.denied text) => "Custom \x7b kind: PermissionDenied, error: " ++ Text.quoted text ++ " \x7d"
  | .missingImport _ importer _ item => importer ++ ":" ++ toString item.line ++ ": " ++ e.message
  | _ => e.message

/-- The file in which the error shows. -/
def file? : ImportError → Option String
  | .malformed error => some error.file
  | .load (.notFound name) => some name
  | .load (.unreadable name _ _) => some name
  | .missingImport _ importer _ _ => some importer
  | _ => none

def cause? : ImportError → Option String
  | .load (.unreadable _ _ cause) => some cause.text
  | _ => none

def help? : ImportError → Option String
  | .malformed error => error.fault.help?
  | .outsideRoot _ => some "pass a path relative to the import root, or change the import root"
  | _ => none

def labels : ImportError → List Label
  | .malformed error => error.labels
  | .missingImport _ _ _ item => [⟨"imported here", item.span⟩]
  | _ => []

end ImportError

end ProtoSchema
