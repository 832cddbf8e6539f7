import ProtoSchema.Report
import ProtoSchema.Search

namespace ProtoSchema

inductive Format
  | text
  | summary
deriving DecidableEq, Repr

/-- A command that can be carried out. -/
structure Command where
  files : List String
  importRoot : String
  urlPattern : Option String
  format : Format
deriving DecidableEq, Repr

/-- The options, each of which takes a value. -/
inductive Flag
  | importRoot
  | urlPattern
  | format
deriving DecidableEq, Repr

/-- What one argument is by itself. -/
inductive Argument
  | file (path : String)
  /-- An option with its value. -/
  | setting (flag : Flag) (value : String)
  /-- An option whose value is the next argument. -/
  | pending (flag : Flag)
  /-- The mark after which all arguments are files. -/
  | endOfOptions
  | unknown
deriving DecidableEq, Repr

def Flag.ofLongName? (name : String) : Option Flag :=
  if name = "import-root" then some .importRoot
  else if name = "source-url-pattern" then some .urlPattern
  else if name = "format" then some .format
  else none

namespace Argument

/-- An option with a long name, without its dashes. -/
def ofLong (text : List Char) : Argument :=
  let name := text.takeWhile (· != '=')
  match Flag.ofLongName? (String.ofList name), text.drop name.length with
  | some flag, '=' :: value => .setting flag (String.ofList value)
  | some flag, _ => .pending flag
  | none, _ => .unknown

def ofText (text : String) : Argument :=
  match text.toList with
  | ['-'] => .file text
  | ['-', '-'] => .endOfOptions
  | '-' :: '-' :: long => ofLong long
  | ['-', 'I'] => .pending .importRoot
  | '-' :: 'I' :: '=' :: value => .setting .importRoot (String.ofList value)
  | '-' :: 'I' :: value => .setting .importRoot (String.ofList value)
  | '-' :: _ => .unknown
  | _ => .file text

end Argument

/-- Whether an argument can only be an option, and so not the value of the option before it. -/
def looksLikeOption (text : String) : Bool :=
  match Argument.ofText text with
  | .file _ => false
  | _ => true

/-- The files and settings among the arguments. -/
structure Given where
  files : List String
  settings : List (Flag × String)
deriving DecidableEq, Repr

namespace Given

def addFile (path : String) (given : Given) : Given :=
  { given with files := path :: given.files }

def addSetting (flag : Flag) (value : String) (given : Given) : Given :=
  { given with settings := (flag, value) :: given.settings }

/-- Sorts arguments into files and settings, if all of them are known and complete. -/
def ofArguments? : List String → Option Given
  | [] => some ⟨[], []⟩
  | text :: rest =>
    match Argument.ofText text with
    | .file path => (ofArguments? rest).map (addFile path)
    | .setting flag value => (ofArguments? rest).map (addSetting flag value)
    | .pending flag =>
      match rest with
      | [] => none
      | value :: rest =>
        if looksLikeOption value then none else (ofArguments? rest).map (addSetting flag value)
    | .endOfOptions => some ⟨rest, []⟩
    | .unknown => none

def value? (given : Given) (flag : Flag) : Option String :=
  given.settings.lookup flag

end Given

def Format.ofName? (name : String) : Option Format :=
  if name = "text" then some .text
  else if name = "summary" then some .summary
  else none

namespace Command

/-- The command that some arguments spell. There is at least one file, no path is empty, and no option is
given twice. -/
def ofArguments? (arguments : List String) : Option Command := do
  let given ← Given.ofArguments? arguments
  let format ← Format.ofName? ((given.value? .format).getD "text")
  let importRoot := (given.value? .importRoot).getD "."
  if given.files.isEmpty || given.files.contains "" || importRoot == "" ||
      !(given.settings.map Prod.fst).Nodup then none
  else some ⟨given.files, importRoot, given.value? .urlPattern, format⟩

/-- Gathers what the files need and prints the report. -/
def run (command : Command) (disk : Disk) : Except Halt String :=
  let workspace := Workspace.empty.setUrlPattern command.urlPattern
  match workspace.addRoots (Loader.underRoot command.importRoot disk) command.files with
  | (.error halt, _) => .error halt
  | (.ok _, workspace) =>
    .ok (match command.format with
      | .text => workspace.files.printText
      | .summary => workspace.files.printSummary)

end Command

/-- How the program ends. -/
inductive Ending
  | printed (text : String)
  | failed (halt : Halt)
  | misused
deriving DecidableEq, Repr

namespace Ending

/-- Runs the program with some arguments. -/
def ofArguments (disk : Disk) (arguments : List String) : Ending :=
  match Command.ofArguments? arguments with
  | none => .misused
  | some command =>
    match command.run disk with
    | .ok text => .printed text
    | .error halt => .failed halt

def exitCode : Ending → Nat
  | .printed _ => 0
  | .failed _ => 1
  | .misused => 2

/-- What goes to the standard output. -/
def output : Ending → String
  | .printed text => text
  | _ => ""

end Ending

end ProtoSchema
