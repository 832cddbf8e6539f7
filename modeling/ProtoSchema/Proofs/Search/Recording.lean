import ProtoSchema.Proofs.Search.Closure
import ProtoSchema.Proofs.Search.Looking

namespace ProtoSchema

/-- The workspace while references are looked for in the file at `index`. -/
def Workspace.during (workspace : Workspace) (index : Nat) (visit : Visit) : Workspace :=
  { workspace.setEntry index visit.entry with requested := visit.requested }

/-- What a search does, one thing after another. -/
inductive Event
  /-- A name is looked up among the files. -/
  | named (name : String)
  /-- The record of a file is read. -/
  | read (index : Nat)
  /-- A loader is asked for a name, and what it answers with is added, if that parses. -/
  | opened (loader : Loader) (name : String) (found : Option Entry)
  /-- A root file is added for which no loader has been asked. -/
  | added (entry : Entry)
  /-- A file becomes a root, and all its references are looked up. -/
  | rooted (index : Nat) (entry : Entry) (memo : Memo)
  /-- References are looked for in the file at `index`, to which an import of the file at `source` leads. -/
  | visited (source : Nat) (item : Import) (index : Nat) (looking : Looking)
  | patterned (pattern : Option String)

namespace Event

/-- The workspace after an event. -/
def after (workspace : Workspace) : Event → Workspace
  | .named _ | .read _ => workspace
  | .opened _ name none => workspace.log name
  | .opened _ name (some entry) => (workspace.log name).add entry
  | .added entry => workspace.add entry
  | .rooted index entry _ => workspace.setEntry index entry.asRoot
  | .visited _ _ index looking => workspace.during index looking.visit
  | .patterned pattern => workspace.setUrlPattern pattern

/-- What the references of the files remember after an event. Those of a file that is added remember nothing. -/
def memosAfter (memos : List Memo) : Event → List Memo
  | .named _ | .read _ | .opened _ _ none | .patterned _ => memos
  | .opened _ _ (some entry) | .added entry => memos ++ [entry.file.memo]
  | .rooted index _ memo => memos.set index memo
  | .visited _ _ index looking => memos.set index looking.memo

end Event

/-- A workspace with what the references of its files remember, and what has been done so far, each time with the
workspace before. -/
structure Record where
  workspace : Workspace
  memos : List Memo
  events : List (Workspace × Event)

namespace Record

/-- A record of a workspace in which nothing has been done yet, and no reference remembers anything. -/
def of (workspace : Workspace) : Record :=
  ⟨workspace, workspace.files.entries.map fun entry => entry.file.memo, []⟩

def empty : Record :=
  .of .empty

def add (record : Record) (event : Event) : Record :=
  ⟨event.after record.workspace, event.memosAfter record.memos, record.events ++ [(record.workspace, event)]⟩

/-- The record of a file, and what its references remember. -/
def at? (record : Record) (index : Nat) : Option (Entry × Memo) :=
  match record.workspace.entry? index, record.memos[index]? with
  | some entry, some memo => some (entry, memo)
  | _, _ => none

end Record

/-- A search that records what it does. It looks each reference up in its own file by what the reference remembers,
and reads and changes nothing but by events. -/
abbrev Recording := EStateM Halt Record

namespace Recording

variable {α : Type} {record : Record}

def perform (event : Event) : Recording Unit :=
  modify fun record => record.add event

/-- The place of the file of a name. -/
def find (name : String) : Recording (Option Nat) := do
  let record ← get
  perform (.named name)
  return record.workspace.files.indexOf? name

/-- The record of a file, and what its references remember. -/
def read (index : Nat) : Recording (Option (Entry × Memo)) := do
  let record ← get
  perform (.read index)
  return record.at? index

def importsOf (index : Nat) (handedOn : Bool) : Recording (List Import) := do
  let record ← get
  perform (.read index)
  return record.workspace.importsOf index handedOn

/-- Performs an event by which a file is added. Answers the place of the file. -/
def adding (event : Event) : Recording Nat := do
  let record ← get
  perform event
  return record.workspace.files.entries.length

/-- Looks for references in a file of which the record has been read. -/
def visit (source : Nat) (item : Import) (index : Nat) (entry : Entry) (memo : Memo) (outer : List OuterRef) :
    Recording Visit := do
  let record ← get
  let looking := (Looking.start entry record.workspace.requested memo).lookForAll index outer
  perform (.visited source item index looking)
  return looking.visit

theorem perform_bind (event : Event) (next : Unit → Recording α) :
    (perform event >>= next) record = next () (record.add event) := rfl

theorem find_bind (name : String) (next : Option Nat → Recording α) :
    (find name >>= next) record = next (record.workspace.files.indexOf? name) (record.add (.named name)) := rfl

theorem read_bind (index : Nat) (next : Option (Entry × Memo) → Recording α) :
    (read index >>= next) record = next (record.at? index) (record.add (.read index)) := rfl

theorem visit_bind {source index : Nat} {item : Import} {entry : Entry} {memo : Memo} {outer : List OuterRef}
    (next : Visit → Recording α) :
    (visit source item index entry memo outer >>= next) record =
      let looking := (Looking.start entry record.workspace.requested memo).lookForAll index outer
      next looking.visit (record.add (.visited source item index looking)) := rfl

/-- Asks the loader for a name, and adds the file that it answers with. -/
def opened (loader : Loader) (name : String) (blame : LoadFault → Recording Nat) : Recording Nat := do
  match loader.load name with
  | .error fault =>
    perform (.opened loader name none)
    blame fault
  | .ok source =>
    match parse name source.text with
    | .error error =>
      perform (.opened loader name none)
      throw (.failed (.malformed error))
    | .ok file => adding (.opened loader name (some (.ofFile file source.path source.text)))

def addParsed (name : String) (source : Source) : Recording Nat :=
  match parse name source.text with
  | .error error => throw (.failed (.malformed error))
  | .ok file => adding (.added (.ofFile file source.path source.text))

/-- The place of the file of a name, and where `absent` finds it if there is none yet. -/
def located (name : String) (absent : Recording Nat) : Recording Nat := do
  match ← find name with
  | some found => return found
  | none => absent

/-- The record of the importing file is read again if no file is found for the import. -/
def imported (loader : Loader) (index : Nat) (entry : Entry) (item : Import) : Recording Nat :=
  located item.path <| opened loader item.path fun fault => do
    perform (.read index)
    throw (.failed (Search.blameImport entry item fault))

def lookInEach (loader : Loader) (lookIn : Nat → Import → Nat → List OuterRef → Recording Unit) (index : Nat)
    (entry : Entry) (outer : List OuterRef) : List Import → Recording Unit
  | [] => pure ()
  | item :: rest => do
    let found ← imported loader index entry item
    lookIn index item found outer
    lookInEach loader lookIn index entry outer rest

def lookInImports (loader : Loader) (lookIn : Nat → Import → Nat → List OuterRef → Recording Unit) (index : Nat)
    (entry : Entry) (outer : List OuterRef) (handedOn : Bool) : Recording Unit := do
  let items ← importsOf index handedOn
  if outer.isEmpty then pure () else lookInEach loader lookIn index entry outer items

/-- Looks for references in the file at `index`, to which an import of the file at `source` leads. -/
def lookIn (loader : Loader) : Nat → Nat → Import → Nat → List OuterRef → Recording Unit
  | 0, _, _, _, _ => throw .tooDeep
  | depth + 1, source, item, index, outer => do
    match ← read index with
    | some (entry, memo) =>
      let visit ← visit source item index entry memo outer
      lookInImports loader (lookIn loader depth) index entry visit.outside false
      lookInImports loader (lookIn loader depth) index entry visit.unmatched true
    | none => pure ()

def makeRoot (loader : Loader) (index : Nat) : Recording Unit := do
  let depth := Search.depthFor loader (← get).workspace
  match ← read index with
  | some (entry, memo) =>
    let (uses, memo) := memo.uses entry.file 0 entry.file.types.length
    perform (.rooted index entry memo)
    lookInImports loader (lookIn loader depth) index entry (addAllNew [] uses.outside) false
  | none => pure ()

def fileAt (loader : Loader) (path : String) : Recording Nat :=
  match (loader.fileName? path).or (Path.fileName? path) with
  | some name => located name <| opened loader name fun fault => throw (.failed (Search.blamePath path fault))
  | none => located path <|
    match loader.disk.load path path with
    | .ok source => addParsed path source
    | .error fault => throw (.failed (.load fault))

def fileOf (name text : String) : Recording Nat :=
  located name (addParsed name ⟨none, text⟩)

def run (recording : Recording Unit) (record : Record) : Except Halt Unit × Record :=
  match recording record with
  | .ok _ later => (.ok (), later)
  | .error halt later => (.error halt, later)

/-- What is done when it is begun in a workspace. -/
def events (recording : Recording Unit) (workspace : Workspace) : List (Workspace × Event) :=
  (recording.run (.of workspace)).2.events

end Recording

namespace Workspace.Command

def recording : Command → Recording Unit
  | .addRoot loader path => do Recording.makeRoot loader (← Recording.fileAt loader path)
  | .addRootText loader name text => do Recording.makeRoot loader (← Recording.fileOf name text)
  | .setUrlPattern pattern => Recording.perform (.patterned pattern)

/-- What a command does. -/
def events (command : Command) (workspace : Workspace) : List (Workspace × Event) :=
  command.recording.events workspace

/-- What some commands do, one after another, whether they succeed or fail. -/
def allEvents (workspace : Workspace) : List Command → List (Workspace × Event)
  | [] => []
  | command :: rest => command.events workspace ++ allEvents (command.run workspace).2 rest

/-- The record after some commands, whether they succeed or fail, with what references remember from one command to
the next. -/
def recallAll (record : Record) (commands : List Command) : Record :=
  commands.foldl (fun record command => (command.recording.run record).2) record

end Workspace.Command

end ProtoSchema
