import ProtoSchema.Name
import ProtoSchema.File.Basic
import ProtoSchema.Text.Escape

namespace ProtoSchema

/-- A file of a set of files. The flags say for each row of the tables of the file whether it is needed. -/
structure Entry where
  file : File
  path : Option String
  source : String
  isRoot : Bool
  messageFlags : List Bool
  enumFlags : List Bool
deriving Repr

namespace Entry

def ofFile (file : File) (path : Option String) (source : String) : Entry :=
  ⟨file, path, source, false, file.messageTable.map fun _ => false, file.enumTable.map fun _ => false⟩

/-- The entry of a root file, of which everything is needed. -/
def asRoot (entry : Entry) : Entry :=
  { entry with
    isRoot := true, messageFlags := entry.messageFlags.map fun _ => true,
    enumFlags := entry.enumFlags.map fun _ => true }

def includes (entry : Entry) (id : MessageId) : Bool :=
  entry.messageFlags[id.index]? = some true

def reaches (entry : Entry) (id : EnumId) : Bool :=
  entry.enumFlags[id.index]? = some true

def reach (entry : Entry) (id : EnumId) : Entry :=
  { entry with enumFlags := entry.enumFlags.set id.index true }

/-- The messages of the file that are needed. -/
def messages (entry : Entry) : List Message :=
  entry.file.messageTable.filter fun message => entry.includes message.id

/-- The enums of the file that are needed. -/
def enums (entry : Entry) : List Enum :=
  entry.file.enumTable.filter fun enum => entry.reaches enum.id

/-- The services of the file that are needed: those of a root file. -/
def services (entry : Entry) : List Service :=
  if entry.isRoot then entry.file.services else []

end Entry

/-- Files in the order in which they were parsed. -/
structure FileSet where
  entries : List Entry
  urlPattern : Option String
deriving Repr

/-- A text with each `{path}` in it replaced by a name. -/
def fillPattern (name : List Char) : List Char → List Char
  | '\x7b' :: 'p' :: 'a' :: 't' :: 'h' :: '\x7d' :: rest => name ++ fillPattern name rest
  | c :: rest => c :: fillPattern name rest
  | [] => []

namespace FileSet

def empty : FileSet :=
  ⟨[], none⟩

def toList (files : FileSet) : List File :=
  files.entries.map Entry.file

def rootFiles (files : FileSet) : List File :=
  (files.entries.filter Entry.isRoot).map Entry.file

def indexOf? (files : FileSet) (name : String) : Option Nat :=
  files.entries.findIdx? fun entry => entry.file.name == name

def entry? (files : FileSet) (name : String) : Option Entry :=
  files.entries.find? fun entry => entry.file.name == name

def file? (files : FileSet) (name : String) : Option File :=
  (files.entry? name).map Entry.file

/-- The files that declare a package. -/
def filesIn (files : FileSet) (package : String) : List File :=
  files.toList.filter fun file => file.package == some package

def isRoot (files : FileSet) (name : String) : Bool :=
  (files.entry? name).any Entry.isRoot

def includes (files : FileSet) (name : String) (id : MessageId) : Bool :=
  (files.entry? name).any fun entry => entry.includes id

def source? (files : FileSet) (name : String) : Option String :=
  (files.entry? name).map Entry.source

def path? (files : FileSet) (name : String) : Option String :=
  (files.entry? name).bind Entry.path

/-- The needed messages, each with its file. -/
def messages (files : FileSet) : List (File × Message) :=
  files.entries.flatMap fun entry => entry.messages.map fun message => (entry.file, message)

def enums (files : FileSet) : List (File × Enum) :=
  files.entries.flatMap fun entry => entry.enums.map fun enum => (entry.file, enum)

def services (files : FileSet) : List (File × Service) :=
  files.entries.flatMap fun entry => entry.services.map fun service => (entry.file, service)

/-- The place where a file is published, if a pattern for such places is known. -/
def url? (files : FileSet) (file : File) : Option String :=
  files.urlPattern.map fun pattern => String.ofList (fillPattern file.name.toList pattern.toList)

/-- Adds a file behind the others. -/
def add (files : FileSet) (entry : Entry) : FileSet :=
  { files with entries := files.entries ++ [entry] }

/-- The set on one line for a programmer. -/
def describe (files : FileSet) : String :=
  let pattern := match files.urlPattern with
    | some pattern => "Some(" ++ Text.quoted pattern ++ ")"
    | none => "None"
  "FileBundle \x7b files: [" ++ String.intercalate ", " (files.toList.map fun file => Text.quoted file.name) ++
    "], source_url_pattern: " ++ pattern ++ ", .. \x7d"

end FileSet

end ProtoSchema
