import ProtoSchema.FileSet.Closure

namespace ProtoSchema

/-- A name that a loader has been asked for, with the number of files that there were by then. -/
structure Opening where
  name : String
  known : Nat
deriving DecidableEq, Repr

/-- What has been gathered, the references that have been looked for in the file at a place, and the names
that have been asked for, the first one first. -/
structure Workspace where
  files : FileSet
  requested : List (Nat × OuterRef)
  opened : List Opening
deriving Repr

namespace Workspace

def empty : Workspace :=
  ⟨FileSet.empty, [], []⟩

def setUrlPattern (workspace : Workspace) (pattern : Option String) : Workspace :=
  { workspace with files := { workspace.files with urlPattern := pattern } }

def entry? (workspace : Workspace) (index : Nat) : Option Entry :=
  workspace.files.entries[index]?

def add (workspace : Workspace) (entry : Entry) : Workspace :=
  { workspace with files := workspace.files.add entry }

def setEntry (workspace : Workspace) (index : Nat) (entry : Entry) : Workspace :=
  { workspace with files := { workspace.files with entries := workspace.files.entries.set index entry } }

/-- Notes that a name is asked for. -/
def log (workspace : Workspace) (name : String) : Workspace :=
  { workspace with opened := workspace.opened ++ [⟨name, workspace.files.entries.length⟩] }

/-- The imports of a file, or those among them that are handed on to whoever imports the file. -/
def importsOf (workspace : Workspace) (index : Nat) (handedOn : Bool) : List Import :=
  match workspace.entry? index with
  | none => []
  | some entry => entry.file.imports.filter fun item => !handedOn || item.kind == .reexported

/-- The workspace on one line for a programmer. -/
def describe (workspace : Workspace) : String :=
  "Importer \x7b bundle: " ++ workspace.files.describe ++ ", requested: " ++
    toString workspace.requested.length ++ ", .. \x7d"

end Workspace

/-- A file in which references are looked for, with those that its messages make to types outside it and
those that it does not declare. -/
structure Visit where
  entry : Entry
  requested : List (Nat × OuterRef)
  outside : List OuterRef
  unmatched : List OuterRef
deriving Repr

/-- Looks for one reference in the file at `index`, unless that has been done before. -/
def Visit.lookFor (index : Nat) (visit : Visit) (outer : OuterRef) : Visit :=
  if (index, outer) ∈ visit.requested then visit
  else
    let visit := { visit with requested := visit.requested ++ [(index, outer)] }
    match outer.resolve visit.entry.file with
    | some (.message id) =>
      let (entry, outside) := visit.entry.gather visit.outside [id]
      { visit with entry, outside }
    | some (.enum id) => { visit with entry := visit.entry.reach id }
    | none => { visit with unmatched := visit.unmatched ++ [outer] }

/-- Looks for some references in the file at `index`, one after another. -/
def Workspace.look (workspace : Workspace) (index : Nat) (entry : Entry) (outer : List OuterRef) :
    Workspace × Visit :=
  let visit := outer.foldl (Visit.lookFor index) ⟨entry, workspace.requested, [], []⟩
  ({ workspace.setEntry index visit.entry with requested := visit.requested }, visit)

end ProtoSchema
