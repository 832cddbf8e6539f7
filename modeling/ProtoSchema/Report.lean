import ProtoSchema.FileSet.Basic

namespace ProtoSchema

/-- The needed declarations of one file. -/
structure Section where
  file : File
  url : Option String
  messages : List Message
  enums : List Enum
  services : List Service
deriving Repr

def Section.isEmpty (part : Section) : Bool :=
  part.messages.isEmpty && part.enums.isEmpty && part.services.isEmpty

namespace FileSet

/-- Those among some declarations that stand in a file of a given name. -/
def declaredIn (name : String) (items : List (File × α)) : List α :=
  (items.filter fun (owner, _) => owner.name == name).map Prod.snd

def sectionOf (files : FileSet) (file : File) : Section :=
  ⟨file, files.url? file, declaredIn file.name files.messages, declaredIn file.name files.enums,
    declaredIn file.name files.services⟩

/-- The sections of the report, in the order of the files. -/
def sections (files : FileSet) : List Section :=
  (files.toList.map files.sectionOf).filter fun part => !part.isEmpty

end FileSet

def Operand.text (operand : Operand) : String :=
  (if operand.stream then "stream " else "") ++ operand.type.name

def Method.line (method : Method) : String :=
  "    rpc " ++ method.name ++ "(" ++ method.input.text ++ ") returns (" ++ method.output.text ++ ")"

namespace Section

def title (part : Section) : String :=
  match part.url with
  | some url => part.file.name ++ " (" ++ url ++ ")"
  | none => part.file.name

def serviceLines (part : Section) (service : Service) : List String :=
  ("  service " ++ service.fullName part.file) :: service.methods.map Method.line

/-- The lines of a section. -/
def lines (part : Section) : List String :=
  part.title ::
    (part.messages.map (fun message => "  message " ++ message.fullName part.file) ++
      part.enums.map (fun enum => "  enum " ++ enum.fullName part.file) ++
      part.services.flatMap part.serviceLines)

end Section

/-- How many files a set has, and how many declarations of each kind are needed. -/
structure Summary where
  files : Nat
  messages : Nat
  enums : Nat
  services : Nat
deriving DecidableEq, Repr

def FileSet.summary (files : FileSet) : Summary :=
  ⟨files.entries.length, files.messages.length, files.enums.length, files.services.length⟩

def Summary.lines (summary : Summary) : List String :=
  ["files: " ++ toString summary.files, "messages: " ++ toString summary.messages,
    "enums: " ++ toString summary.enums, "services: " ++ toString summary.services]

/-- Lines with a newline after each. -/
def printLines (lines : List String) : String :=
  String.join (lines.map fun line => line ++ "\n")

namespace FileSet

def printText (files : FileSet) : String :=
  printLines (files.sections.flatMap Section.lines)

def printSummary (files : FileSet) : String :=
  printLines files.summary.lines

end FileSet

end ProtoSchema
