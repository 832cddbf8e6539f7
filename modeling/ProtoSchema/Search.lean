import ProtoSchema.ImportError
import ProtoSchema.Parse
import ProtoSchema.Workspace

namespace ProtoSchema

/-- Why a search stops early. -/
inductive Halt
  | failed (error : ImportError)
  | tooDeep
deriving DecidableEq, Repr

/-- A step of the search: it changes what has been gathered, and keeps the changes when it stops. -/
abbrev Search := EStateM Halt Workspace

namespace Search

def fail (error : ImportError) : Search α :=
  throw (.failed error)

/-- Parses a source and adds its file. Answers the place of the file. -/
def addParsed (name : String) (source : Source) : Search Nat := do
  match parse name source.text with
  | .error error => fail (.malformed error)
  | .ok file =>
    let workspace ← get
    set (workspace.add (Entry.ofFile file source.path source.text))
    return workspace.files.entries.length

/-- Asks the loader for a name. A fault is reported as `blame` puts it. -/
def request (loader : Loader) (name : String) (blame : LoadFault → ImportError) : Search Source := do
  modify fun workspace => workspace.log name
  match loader.load name with
  | .ok source => return source
  | .error fault => fail (blame fault)

/-- A missing file is reported at the import statement that names it. -/
def blameImport (entry : Entry) (item : Import) : LoadFault → ImportError
  | .notFound name => .missingImport name entry.file.name entry.source item
  | fault => .load fault

/-- A missing file is reported with the path that was given for it. -/
def blamePath (path : String) : LoadFault → ImportError
  | .notFound _ => .outsideRoot path
  | fault => .load fault

/-- The place of the file that an import of `entry` names, which is loaded if need be. -/
def imported (loader : Loader) (entry : Entry) (item : Import) : Search Nat := do
  let workspace ← get
  match workspace.files.indexOf? item.path with
  | some found => return found
  | none =>
    let source ← request loader item.path (blameImport entry item)
    addParsed item.path source

/-- Looks for references in the files that some imports of `entry` name, one file after another. -/
def lookInEach (loader : Loader) (lookIn : Nat → List OuterRef → Search Unit) (entry : Entry)
    (outer : List OuterRef) : List Import → Search Unit
  | [] => pure ()
  | item :: rest => do
    let found ← imported loader entry item
    lookIn found outer
    lookInEach loader lookIn entry outer rest

/-- Looks for references in the imports of `entry`, the file at `index`, if there are any to look for. -/
def lookInImports (loader : Loader) (lookIn : Nat → List OuterRef → Search Unit) (index : Nat) (entry : Entry)
    (outer : List OuterRef) (handedOn : Bool) : Search Unit := do
  if outer.isEmpty then pure ()
  else
    let workspace ← get
    lookInEach loader lookIn entry outer (workspace.importsOf index handedOn)

/-- Looks for references in the file at `index`. Those that its messages make to types outside it are
looked for in all its imports, and those that it does not declare in the imports that it hands on. -/
def lookIn (loader : Loader) : Nat → Nat → List OuterRef → Search Unit
  | 0, _, _ => throw .tooDeep
  | depth + 1, index, outer => do
    let workspace ← get
    match workspace.entry? index with
    | none => pure ()
    | some entry =>
      let (workspace, visit) := workspace.look index entry outer
      set workspace
      lookInImports loader (lookIn loader depth) index entry visit.outside false
      lookInImports loader (lookIn loader depth) index entry visit.unmatched true

/-- The number of bytes of some texts together. -/
def totalSize (texts : List String) : Nat :=
  texts.foldr (fun text size => text.utf8ByteSize + size) 0

/-- A depth that no search exceeds: more than the number of pairs of a file and a reference to look for in
it. No file has more imports, and none more references, than bytes. -/
def depthFor (loader : Loader) (workspace : Workspace) : Nat :=
  let entries := workspace.files.entries
  let size := totalSize (entries.map Entry.source ++ loader.texts ++ loader.disk.texts)
  (entries.length + size + 1) * (size + 1) + 2

/-- Makes the file at `index` a root and looks for the types that it refers to outside. -/
def makeRoot (loader : Loader) (index : Nat) : Search Unit := do
  let workspace ← get
  match workspace.entry? index with
  | none => pure ()
  | some entry =>
    set (workspace.setEntry index entry.asRoot)
    let outside := addAllNew [] (entry.file.uses entry.file.types).outside
    lookInImports loader (lookIn loader (depthFor loader workspace)) index entry outside false

/-- The place of the root file at a path. A path without a name is read from the disk, and is itself the
name of its file. -/
def fileAt (loader : Loader) (path : String) : Search Nat := do
  let workspace ← get
  match (loader.fileName? path).or (Path.fileName? path) with
  | some name =>
    match workspace.files.indexOf? name with
    | some found => return found
    | none =>
      let source ← request loader name (blamePath path)
      addParsed name source
  | none =>
    match workspace.files.indexOf? path with
    | some found => return found
    | none =>
      match loader.disk.load path path with
      | .ok source => addParsed path source
      | .error fault => fail (.load fault)

/-- The place of the file `name`, which is parsed from `text` unless there is such a file already. -/
def fileOf (name text : String) : Search Nat := do
  let workspace ← get
  match workspace.files.indexOf? name with
  | some found => return found
  | none => addParsed name ⟨none, text⟩

/-- Runs a search and shows whether it came to its end. -/
def run (search : Search Unit) (workspace : Workspace) : Except Halt Unit × Workspace :=
  match search workspace with
  | .ok _ workspace => (.ok (), workspace)
  | .error halt workspace => (.error halt, workspace)

end Search

namespace Workspace

/-- Adds the file at a path as a root. -/
def addRoot (loader : Loader) (path : String) (workspace : Workspace) : Except Halt Unit × Workspace :=
  Search.run (do Search.makeRoot loader (← Search.fileAt loader path)) workspace

/-- Adds a text as the root file `name`. A file of that name that is already there is taken instead. -/
def addRootText (loader : Loader) (name text : String) (workspace : Workspace) : Except Halt Unit × Workspace :=
  Search.run (do Search.makeRoot loader (← Search.fileOf name text)) workspace

/-- Adds the files at some paths as roots, up to the first that fails. -/
def addRoots (loader : Loader) (workspace : Workspace) : List String → Except Halt Unit × Workspace
  | [] => (.ok (), workspace)
  | path :: rest =>
    match workspace.addRoot loader path with
    | (.ok _, workspace) => workspace.addRoots loader rest
    | (.error halt, workspace) => (.error halt, workspace)

end Workspace

/-- The files that the roots at some paths need, when imports are found under `root`. -/
def FileSet.ofRoots (disk : Disk) (root : String) (paths : List String) : Except Halt FileSet :=
  match Workspace.empty.addRoots (Loader.underRoot root disk) paths with
  | (.ok _, workspace) => .ok workspace.files
  | (.error halt, _) => .error halt

end ProtoSchema
