import ProtoSchema.Proofs.Search.Replay

namespace ProtoSchema

/-- A name that is looked up, a record of a file, a declaration with its flag, and a file that is inserted. -/
inductive Access
  | name (name : String)
  | file (index : Nat)
  | decl (index : Nat) (decl : DeclId)
  | insert (file : File)

def Access.inserted? : Access → Option File
  | .insert added => some added
  | .name _ | .file _ | .decl _ _ => none

/-- What an event accesses, with the workspaces in which it does. A file that a loader answers with is inserted when it
has been noted that the loader is asked. -/
def Event.accesses (workspace : Workspace) : Event → List (Workspace × Access)
  | .named name => [(workspace, .name name)]
  | .read index => [(workspace, .file index)]
  | .opened _ name (some entry) => [(workspace.log name, .insert entry.file)]
  | .added entry => [(workspace, .insert entry.file)]
  | .visited _ _ index looking =>
    (looking.trail.flatMap fun row => row.2).map fun encounter => (workspace, .decl index encounter.decl)
  | .opened _ _ none | .rooted _ _ _ | .patterned _ => []

/-- The files that are inserted, in order. -/
def Search.insertions (accesses : List (Workspace × Access)) : List File :=
  accesses.filterMap fun access => access.2.inserted?

theorem Search.insertions_decls (workspace : Workspace) (index : Nat) (met : List Encounter) :
    insertions (met.map fun encounter => (workspace, .decl index encounter.decl)) = [] := by
  rw [insertions, List.filterMap_map]
  exact List.filterMap_eq_nil_iff.2 fun _ _ => rfl

namespace Entry

/-- Whether there are a row and a flag for a declaration. -/
def HasRow (entry : Entry) : DeclId → Prop
  | .message id => id.index < entry.file.messageTable.length ∧ id.index < entry.messageFlags.length
  | .enum id => id.index < entry.file.enumTable.length ∧ id.index < entry.enumFlags.length

theorem Tidy.hasRow {entry : Entry} (tidy : entry.Tidy) {decl : DeclId} (declared : entry.file.Declares decl) :
    entry.HasRow decl := by
  cases decl with
  | message id =>
    have bound := tidy.message_lt declared
    exact ⟨tidy.messageFlags ▸ bound, bound⟩
  | enum id =>
    have bound := tidy.enum_lt declared
    exact ⟨tidy.enumFlags ▸ bound, bound⟩

end Entry

namespace Workspace

variable {workspace : Workspace}

/-- Whether what is accessed is there. A name is looked up in the map with the same answer as in the list of
files, and a file is inserted under a new name. -/
def Admits (workspace : Workspace) : Access → Prop
  | .name name => workspace.files.indexOf? name = workspace.files.indexes.byName.lookup name
  | .file index => index < workspace.files.entries.length
  | .decl index decl => ∃ entry, workspace.At index entry ∧ entry.HasRow decl
  | .insert file => workspace.files.indexes.byName.lookup file.name = none

theorem Firm.admits_insert {name : String} {source : Source} {file : File} (firm : workspace.Firm)
    (missing : workspace.files.indexOf? name = none) (parsed : parse name source.text = .ok file) :
    workspace.Admits (.insert file) := by
  rw [Admits, parse_name parsed, ← firm.wellFormed.indexOf?_eq, missing]

theorem toList_add (entry : Entry) : (workspace.add entry).files.toList = workspace.files.toList ++ [entry.file] := by
  simp [Workspace.add, FileSet.add, FileSet.toList]

/-- Whether all that is accessed between two workspaces is there, each time in a workspace that is coherent. Just the
files that are inserted are behind those that there were. -/
structure Inserts (before : Workspace) (accesses : List (Workspace × Access)) (after : Workspace) : Prop where
  admitted : ∀ access ∈ accesses, access.1.Coherent ∧ access.1.Admits access.2
  inserted : after.files.toList = before.files.toList ++ Search.insertions accesses

theorem Inserts.nothing {before after : Workspace} (same : after.files.toList = before.files.toList) :
    before.Inserts [] after where
  admitted := List.forall_mem_nil _
  inserted := by rw [same, Search.insertions, List.filterMap_nil, List.append_nil]

theorem Inserts.trans {a b c : Workspace} {first second : List (Workspace × Access)} (one : a.Inserts first b)
    (two : b.Inserts second c) : a.Inserts (first ++ second) c where
  admitted := List.forall_mem_append.2 ⟨one.admitted, two.admitted⟩
  inserted := by rw [two.inserted, one.inserted, Search.insertions, Search.insertions, Search.insertions,
    List.filterMap_append, List.append_assoc]

/-- What is read changes nothing. -/
theorem Inserts.read {access : Access} (firm : workspace.Firm) (there : workspace.Admits access)
    (reads : access.inserted? = none) : workspace.Inserts [(workspace, access)] workspace where
  admitted := List.forall_mem_singleton.2 ⟨firm.coherent, there⟩
  inserted := by simp [Search.insertions, reads]

theorem Inserts.insert {name : String} {source : Source} {file : File} (firm : workspace.Firm)
    (missing : workspace.files.indexOf? name = none) (parsed : parse name source.text = .ok file) :
    workspace.Inserts [(workspace, .insert file)] (workspace.add (.ofFile file source.path source.text)) where
  admitted := List.forall_mem_singleton.2 ⟨firm.coherent, firm.admits_insert missing parsed⟩
  inserted := toList_add _

end Workspace

theorem Happens.inserts {command : Workspace.Command} {workspace : Workspace} {event : Event}
    (happens : Happens command workspace event) (firm : workspace.Firm) :
    workspace.Inserts (event.accesses workspace) (event.after workspace) := by
  cases happens with
  | named name => exact .read firm (firm.wellFormed.indexOf?_eq name) rfl
  | read place => exact .read firm place rfl
  | @opened _ name _ _ missing _ answers =>
    have asked : workspace.Inserts [] (workspace.log name) := .nothing rfl
    cases answers with
    | file _ parsed => exact asked.trans (.insert (firm.log name) missing parsed)
    | fault | malformed => exact asked
  | added _ missing parsed => exact .insert firm missing parsed
  | rooted at_index => exact .nothing (Workspace.toList_setEntry at_index rfl)
  | @visited _ index entry _ _ outer _ _ at_index recalls =>
    have tidy := firm.wellFormed.tidy index entry at_index
    have fits := Workspace.fits_looking firm.wellFormed at_index recalls outer
    refine ⟨List.forall_mem_map.2 fun met member => ⟨firm.coherent, entry, at_index, tidy.hasRow ?_⟩, ?_⟩
    · obtain ⟨row, trailed, member⟩ := List.mem_flatMap.1 member
      exact fits.declared row trailed met member
    · rw [Event.accesses, Search.insertions_decls, List.append_nil]
      exact Workspace.toList_setEntry at_index fits.visit.grows.file
  | patterned => exact .nothing rfl

namespace Workspace.Command

variable {workspace : Workspace}

/-- What a command accesses. The pattern is no part of the files. -/
def accesses (command : Command) (workspace : Workspace) : List (Workspace × Access) :=
  (command.events workspace).flatMap fun row => row.2.accesses row.1

theorem inserts_run (firm : workspace.Firm) (command : Command) :
    workspace.Inserts (command.accesses workspace) (command.run workspace).2 :=
  collect_run _ (fun _ _ => .nothing rfl) .trans firm command fun _ _ happens => happens.inserts

/-- Whatever commands are run, and whether they succeed or fail, the workspace is coherent. So are the workspaces
in which a further command accesses something, and what it accesses is there. However the command ends, it keeps
all files where they are and as they are but for flags that it sets, and the maps are those from before with
the files that it has inserted behind the others. -/
theorem run_coherent (commands : List Command) (command : Command) :
    (runAll .empty commands).Coherent ∧
      (∀ access ∈ command.accesses (runAll .empty commands), access.1.Coherent ∧ access.1.Admits access.2) ∧
      (runAll .empty commands).Grows (command.run (runAll .empty commands)).2 ∧
      (command.run (runAll .empty commands)).2.files.toList =
        (runAll .empty commands).files.toList ++ Search.insertions (command.accesses (runAll .empty commands)) ∧
      (command.run (runAll .empty commands)).2.files.indexes =
        (runAll .empty commands).files.indexes.insertAll (runAll .empty commands).files.toList.length
          (Search.insertions (command.accesses (runAll .empty commands))) := by
  have firm := (Gathered.empty.runAll commands).firm
  obtain ⟨admitted, inserted⟩ := inserts_run firm command
  refine ⟨firm.coherent, admitted, (grows_firm_run firm command).1, inserted, ?_⟩
  rw [FileSet.indexes, inserted, Indexes.ofFiles_append, ← FileSet.indexes]

end Workspace.Command

end ProtoSchema
