import ProtoSchema.Disk.Tree
import ProtoSchema.Proofs.File.Children
import ProtoSchema.Proofs.File.Imports
import ProtoSchema.Proofs.Search.Openings

namespace ProtoSchema

/-- Whether a search stops as no file is found for an import. -/
def Halt.AtImport (halt : Halt) : Prop :=
  ∃ name importer text item, halt = .failed (.missingImport name importer text item)

/-- Whether a loader that finds no file says so of the name that it has been asked for. -/
def Loader.NamesMissing (loader : Loader) : Prop :=
  ∀ asked named, loader.load asked = .error (.notFound named) → named = asked

theorem Loader.namesMissing_underRoot (root : String) (disk : Disk) : (underRoot root disk).NamesMissing := by
  intro asked named unloaded
  simp only [underRoot, Disk.load] at unloaded
  split at unloaded
  · cases unloaded
  · cases unloaded
    rfl
  · cases unloaded

namespace Search

variable {loader : Loader} {workspace : Workspace}

/-- A root file that is not found is not blamed on an import. -/
theorem fileAt_elsewhere (loader : Loader) (path : String) :
    (fileAt loader path).Ensures workspace (fun _ _ => True) (fun halt _ => ¬halt.AtImport) := by
  refine (ensures_located loader path workspace).mono (fun _ _ _ => trivial) ?_
  rintro halt later unlocated ⟨name, importer, text, item, rfl⟩
  generalize stopped : Halt.failed (.missingImport name importer text item) = halt at unlocated
  cases unlocated with
  | @refused _ fault => cases fault <;> cases stopped
  | malformed | unreadable | unparsed => cases stopped

theorem fileOf_elsewhere (name text : String) :
    (fileOf name text).Ensures workspace (fun _ _ => True) (fun halt _ => ¬halt.AtImport) := by
  unfold fileOf
  simp only [ensures_bind, ensures_get]
  split
  next => trivial
  next =>
    refine (ensures_addParsed name _).mono (fun _ _ _ => trivial) ?_
    rintro _ _ ⟨-, error, rfl, -⟩ ⟨_, _, _, _, same⟩
    cases same

theorem ensures_blocked {name : String} {file : Search Nat} (gathered : Workspace.Command.Gathered workspace)
    (locates : Locates loader workspace name file)
    (elsewhere : file.Ensures workspace (fun _ _ => True) (fun halt _ => ¬halt.AtImport)) :
    (do makeRoot loader (← file) : Search Unit).Ensures workspace (fun _ _ => True)
      (fun halt later => halt.AtImport → Workspace.Blocked loader later halt) := by
  rw [ensures_bind]
  refine (locates.and elsewhere).mono ?_ fun _ _ stopped atImport => absurd atImport stopped.2
  rintro found one ⟨⟨traced, entry, at_found, -⟩, -⟩
  have gatheredOne := gathered.steps traced.steps
  exact (ensures_makeRoot gatheredOne.wellFormed gatheredOne.grounded at_found).mono (fun _ _ _ => trivial)
    fun _ _ stopped _ => stopped.2

end Search

namespace Workspace

variable {workspace : Workspace} {loader : Loader}

/-- What is reported of a search that is blocked by a missing file, if the loader reports the name that it is asked
for: an import of the file that the search has come to. -/
theorem Blocked.missingImport {name importer text : String} {item : Import}
    (blocked : Blocked loader workspace (.failed (.missingImport name importer text item)))
    (names : loader.NamesMissing) :
    item.path = name ∧ workspace.files.indexOf? name = none ∧
      ∃ index entry, workspace.At index entry ∧ entry.file.name = importer ∧ entry.source = text ∧
        item ∈ entry.file.imports := by
  generalize stopped : Halt.failed (.missingImport name importer text item) = halt at blocked
  cases blocked with
  | malformed => cases stopped
  | @unloadable index entry outer handedOn other fault at_index _ imported missing unloaded =>
    -- Other faults of the loader are reported as they are.
    cases fault with
    | notFound named =>
      cases stopped
      obtain rfl := names _ _ unloaded
      rw [importsOf_eq at_index, List.mem_filter] at imported
      exact ⟨rfl, missing, index, entry, at_index, rfl, rfl, imported.1⟩
    | unreadable | refused | denied => cases stopped

namespace Command

theorem blocked_run (gathered : Gathered workspace) {command : Command} (asks : command.loader? = some loader)
    {halt : Halt} (stops : (command.run workspace).1 = .error halt) (atImport : halt.AtImport) :
    Blocked loader (command.run workspace).2 halt := by
  cases command with
  | addRoot own path =>
    obtain rfl := Option.some.inj asks
    have locates : Search.Locates own workspace _ (Search.fileAt own path) := Search.locates_fileAt path gathered.wellFormed
    exact (Search.ensures_blocked gathered locates (Search.fileAt_elsewhere own path)).of_run_error stops atImport
  | addRootText own name text =>
    obtain rfl := Option.some.inj asks
    have locates : Search.Locates own workspace _ (Search.fileOf name text) :=
      Search.locates_fileOf name text gathered.wellFormed
    exact (Search.ensures_blocked gathered locates (Search.fileOf_elsewhere name text)).of_run_error stops atImport
  | setUrlPattern => contradiction

/-- Every import of a text that parses marks its statement there, and the imports come one behind another. If a
command fails as no file is found for an import, and its loader reports missing files by the names that it is asked
for, then what is reported is an import of a file that is there, with the text of that file, in which it marks its
statement; and no file of the name is there. -/
theorem missingImport_marks :
    (∀ (name source : String) (file : File), parse name source = .ok file →
      (∀ item ∈ file.imports, item.Marks source.toList) ∧ file.imports.Pairwise Import.Before) ∧
      ∀ (commands : List Command) (command : Command) (loader : Loader),
        command.loader? = some loader → loader.NamesMissing → ∀ (name importer text : String) (item : Import),
          (command.run (runAll .empty commands)).1 = .error (.failed (.missingImport name importer text item)) →
          item.path = name ∧ item.Marks text.toList ∧
            (∃ index entry, (command.run (runAll .empty commands)).2.At index entry ∧ entry.file.name = importer ∧
              entry.source = text ∧ item ∈ entry.file.imports) ∧
            ¬(command.run (runAll .empty commands)).2.Knows name := by
  refine ⟨fun name source file => parse_marks, ?_⟩
  intro commands command loader asks names name importer text item fails
  have gathered := Gathered.empty.runAll commands
  have blocked := blocked_run gathered asks fails ⟨name, importer, text, item, rfl⟩
  obtain ⟨stated, missing, index, entry, at_index, named, here, imported⟩ := blocked.missingImport names
  have parsed := (gathered.run command).grounded.parsed index entry at_index
  have marks := (parse_marks parsed).1 item imported
  rw [here] at marks
  exact ⟨stated, marks, ⟨index, entry, at_index, named, here, imported⟩, not_knows_of_indexOf? missing⟩

/-- A text with two imports. The path of the first one is written with an escape, on two lines with a comment
between. -/
def spreadImport : String :=
  "message M \x7b Y y = 1; \x7d // M\nimport /* no file */ weak\n  'mis\\sing.proto';import public \"c.proto\";"

/-- A root file that needs a message of that text. -/
def spreadBelow : Command :=
  .addRoot (.underRoot "inc" (FileTree.disk (.ofPaths ["t"] [("inc/b.proto", .text spreadImport),
    ("inc/root.proto", .text "import \"b.proto\"; message R \x7b M m = 1; \x7d")]))) "root.proto"

/-- The statement that is reported is that of the first import, from its keyword to the end of its path. -/
theorem spreadBelow_marks :
    (∃ file, parse "b.proto" spreadImport = .ok file ∧
      file.imports = [⟨"missing.proto", .weak, 2, ⟨28, 72⟩⟩, ⟨"c.proto", .reexported, 3, ⟨73, 96⟩⟩] ∧
      file.imports.Pairwise Import.Before) ∧
      (spreadBelow.run .empty).1 = .error (.failed (.missingImport "missing.proto" "b.proto" spreadImport
        ⟨"missing.proto", .weak, 2, ⟨28, 72⟩⟩)) ∧
      Import.Marks ⟨"missing.proto", .weak, 2, ⟨28, 72⟩⟩ spreadImport.toList ∧
      ¬(spreadBelow.run .empty).2.Knows "missing.proto" := by
  have fails : (spreadBelow.run (runAll .empty [])).1 = .error (.failed (.missingImport "missing.proto" "b.proto"
      spreadImport ⟨"missing.proto", .weak, 2, ⟨28, 72⟩⟩)) := by decide +kernel
  have evaluated : (parse "b.proto" spreadImport).toOption.map (fun file => file.imports) =
      some [⟨"missing.proto", .weak, 2, ⟨28, 72⟩⟩, ⟨"c.proto", .reexported, 3, ⟨73, 96⟩⟩] := by decide +kernel
  obtain ⟨file, parsed, imports⟩ := parse_of_map_toOption evaluated
  obtain ⟨-, marks, -, unknown⟩ :=
    missingImport_marks.2 [] spreadBelow _ rfl (Loader.namesMissing_underRoot _ _) _ _ _ _ fails
  exact ⟨⟨file, parsed, imports, (missingImport_marks.1 _ _ _ parsed).2⟩, fails, marks, unknown⟩

end Command

end Workspace

end ProtoSchema
