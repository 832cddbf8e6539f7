import ProtoSchema.Disk.Tree
import ProtoSchema.Proofs.Search.Termination

namespace ProtoSchema

/-- Whether a name is one of the paths that have been given and does not lead through names only, so that its file
is read from the path as it stands. -/
def Path.Outside (root : String) (given : List String) (name : String) : Prop :=
  name ∈ given ∧ (nameUnder? root name).or (fileName? name) = none

theorem Path.Outside.mono {root name : String} {given more : List String} (outside : Outside root given name)
    (weaker : given ⊆ more) : Outside root more name :=
  ⟨weaker outside.1, outside.2⟩

namespace Entry

variable {entry old now : Entry} {disk : Disk} {root path : String} {given more : List String}

/-- Whether a file has been read from a path of a disk. -/
def ReadFrom (entry : Entry) (disk : Disk) (path : String) : Prop :=
  entry.path = some path ∧ disk.read path = .ok entry.source

theorem Grows.readFrom (grows : old.Grows now) (readFrom : old.ReadFrom disk path) : now.ReadFrom disk path := by
  obtain ⟨here, read⟩ := readFrom
  exact ⟨grows.path.trans here, by rw [grows.source, read]⟩

theorem readFrom_of_load {name : String} {source : Source} (loaded : disk.load name path = .ok source) (file : File) :
    (ofFile file source.path source.text).ReadFrom disk path := by
  unfold Disk.load at loaded
  split at loaded
  · rename_i read
    cases loaded
    exact ⟨rfl, read⟩
  · contradiction
  · contradiction

/-- Whether a file has been read from the path of its name under the root, or is a root outside and has been read
from the path that is its name. -/
def Placed (root : String) (disk : Disk) (given : List String) (entry : Entry) : Prop :=
  entry.ReadFrom disk (Path.join root entry.file.name) ∨
    Path.Outside root given entry.file.name ∧ entry.ReadFrom disk entry.file.name

theorem Grows.placed (grows : old.Grows now) (placed : old.Placed root disk given) : now.Placed root disk given := by
  unfold Placed
  rw [grows.file]
  exact placed.imp grows.readFrom (And.imp_right grows.readFrom)

theorem Placed.mono (placed : entry.Placed root disk given) (weaker : given ⊆ more) : entry.Placed root disk more :=
  placed.imp_right (And.imp_left fun outside => outside.mono weaker)

end Entry

namespace Workspace

variable {workspace before after : Workspace} {disk : Disk} {root path : String} {given more : List String}

/-- Whether all files have been read from where they belong. -/
def Placed (root : String) (disk : Disk) (given : List String) (workspace : Workspace) : Prop :=
  ∀ (index : Nat) (entry : Entry), workspace.At index entry → entry.Placed root disk given

theorem Placed.empty : Workspace.empty.Placed root disk given :=
  fun _ _ at_index => absurd at_index not_at_empty

theorem Placed.mono (placed : workspace.Placed root disk given) (weaker : given ⊆ more) :
    workspace.Placed root disk more :=
  fun index entry at_index => (placed index entry at_index).mono weaker

theorem Placed.add {entry : Entry} (placed : workspace.Placed root disk given) (new : entry.Placed root disk given) :
    (workspace.add entry).Placed root disk given := by
  intro index found at_index
  rcases at_add_iff.1 at_index with ⟨_, rfl⟩ | old
  · exact new
  · exact placed index found old

theorem Placed.replace {index : Nat} {old entry : Entry} {requested : List (Nat × OuterRef)}
    (placed : workspace.Placed root disk given) (at_index : workspace.At index old) (grows : old.Grows entry) :
    ({ workspace.setEntry index entry with requested } : Workspace).Placed root disk given := by
  intro other found at_other
  rcases (at_replace_iff at_index).1 at_other with ⟨_, rfl⟩ | ⟨_, elsewhere⟩
  · exact grows.placed (placed index old at_index)
  · exact placed other found elsewhere

/-- A file that is loaded under a name has been read from the path of the name under the root. -/
theorem Placed.load {name : String} {source : Source} {file : File} (placed : workspace.Placed root disk given)
    (loaded : (Loader.underRoot root disk).load name = .ok source) (parsed : parse name source.text = .ok file) :
    (workspace.add (.ofFile file source.path source.text)).Placed root disk given := by
  refine placed.add (Or.inl ?_)
  show Entry.ReadFrom _ disk (Path.join root file.name)
  rw [parse_name parsed]
  exact Entry.readFrom_of_load loaded file

end Workspace

/-- An event in adding the root at a path keeps files where they belong. -/
theorem Happens.placed {workspace : Workspace} {event : Event} {root path : String} {disk : Disk} {given : List String}
    (happens : Happens (.addRoot (.underRoot root disk) path) workspace event) (firm : workspace.Firm)
    (isGiven : path ∈ given) (placed : workspace.Placed root disk given) :
    (event.after workspace).Placed root disk given := by
  cases happens with
  | named | read | patterned => exact placed
  | @opened _ name _ asks _ _ answers =>
    obtain rfl := Option.some.inj asks
    have asked : (workspace.log name).Placed root disk given := placed
    cases answers with
    | file loaded parsed => exact asked.load loaded parsed
    | fault | malformed => exact asked
  | @added _ source file gives _ parsed =>
    cases gives with
    | read nameless loaded =>
      refine placed.add (Or.inr ?_)
      show Path.Outside root given file.name ∧ Entry.ReadFrom _ disk file.name
      rw [parse_name parsed]
      exact ⟨⟨isGiven, nameless⟩, Entry.readFrom_of_load loaded file⟩
  | @rooted _ entry _ at_index => exact placed.replace at_index entry.grows_asRoot
  | @visited _ _ _ _ _ outer _ _ at_index recalls =>
    exact placed.replace at_index (Workspace.fits_looking firm.wellFormed at_index recalls outer).visit.grows

/-- An import of the file at `index` that is followed, and the place of the file that it leads to, in the
workspace in which references are looked for there. -/
structure Search.Pursuit where
  workspace : Workspace
  index : Nat
  item : Import
  found : Nat

def Event.pursuits (workspace : Workspace) : Event → List Search.Pursuit
  | .visited source item index _ => [⟨workspace, source, item, index⟩]
  | .named _ | .read _ | .opened _ _ _ | .added _ | .rooted _ _ _ | .patterned _ => []

/-- References are looked for only in files that imports lead to which are followed. -/
theorem Event.pursued_deeds {event : Event} {index : Nat} {ref : OuterRef} (visit : .visit index ref ∈ event.deeds)
    (workspace : Workspace) : ∃ p ∈ event.pursuits workspace, p.found = index := by
  cases event with
  | named | read | opened | added | rooted | patterned => contradiction
  | visited source item other looking =>
    refine ⟨⟨workspace, source, item, other⟩, List.mem_singleton_self _, ?_⟩
    obtain ⟨row, -, done⟩ := List.mem_flatMap.1 visit
    rcases List.mem_cons.1 done with same | walked
    · exact (Need.visit.inj same).1.symm
    · simp at walked

namespace Workspace.Command

variable {workspace : Workspace} {disk : Disk} {root : String} {given : List String}

/-- Which imports a command follows. -/
def pursuits (workspace : Workspace) (command : Command) : List Search.Pursuit :=
  (command.events workspace).flatMap fun row => row.2.pursuits row.1

theorem pursued_deeds {command : Command} {index : Nat} {ref : OuterRef}
    (visit : .visit index ref ∈ command.deeds workspace) : ∃ p ∈ command.pursuits workspace, p.found = index := by
  obtain ⟨row, member, done⟩ := List.mem_flatMap.1 visit
  obtain ⟨p, isPursuit, found⟩ := Event.pursued_deeds done row.1
  exact ⟨p, List.mem_flatMap.2 ⟨row, member, isPursuit⟩, found⟩

/-- Files are where they belong all along while a root is added. -/
theorem placed_addRoot (firm : workspace.Firm) (placed : workspace.Placed root disk given) (path : String) :
    ((addRoot (.underRoot root disk) path).run workspace).2.Placed root disk (given ++ [path]) ∧
      ∀ row ∈ (addRoot (.underRoot root disk) path).events workspace, row.1.Placed root disk (given ++ [path]) ∧
        Happens (addRoot (.underRoot root disk) path) row.1 row.2 := by
  have isGiven : path ∈ given ++ [path] := List.mem_append_right _ (List.mem_singleton_self _)
  have start := And.intro firm (placed.mono (List.subset_append_left given [path]))
  have kept (workspace : Workspace) (event : Event)
      (happens : Happens (addRoot (.underRoot root disk) path) workspace event)
      (holds : workspace.Firm ∧ workspace.Placed root disk (given ++ [path])) :
      (event.after workspace).Firm ∧ (event.after workspace).Placed root disk (given ++ [path]) :=
    ⟨(happens.grows_firm holds.1).2, happens.placed holds.1 isGiven holds.2⟩
  obtain ⟨ending, along⟩ := (chain_events firm (addRoot (.underRoot root disk) path)).holds_all kept start
  exact ⟨ending.2, fun row member => ⟨(along row member).1.2, (along row member).2⟩⟩

theorem placed_runAll (firm : workspace.Firm) (placed : workspace.Placed root disk given) (paths : List String) :
    (runAll workspace (paths.map (addRoot (.underRoot root disk)))).Placed root disk (given ++ paths) := by
  induction paths generalizing workspace given with
  | nil =>
    rw [List.append_nil]
    exact placed
  | cons path rest ih =>
    have later := ih (grows_firm_run firm (addRoot (.underRoot root disk) path)).2 (placed_addRoot firm placed path).1
    rw [List.append_assoc] at later
    exact later

theorem sound_pursuits (firm : workspace.Firm) (placed : workspace.Placed root disk given) (path : String) :
    ∀ p ∈ (addRoot (.underRoot root disk) path).pursuits workspace, p.workspace.Placed root disk (given ++ [path]) ∧
      p.workspace.Writes p.index p.item ∧ p.workspace.files.Names p.item p.found := by
  intro p member
  obtain ⟨⟨during, event⟩, happened, isPursuit⟩ := List.mem_flatMap.1 member
  obtain ⟨placedThere, happens⟩ := (placed_addRoot firm placed path).2 _ happened
  dsimp only at placedThere happens isPursuit
  cases happens with
  | named | read | opened | added | rooted | patterned => contradiction
  | visited writes names =>
    obtain rfl := List.mem_singleton.1 isPursuit
    exact ⟨placedThere, writes, names⟩

/-- The workspace after the roots at some paths have been added, whether that succeeds or fails, where all files are
under one root of a disk. -/
def rootsUnder (root : String) (disk : Disk) (given : List String) : Workspace :=
  runAll .empty (given.map (addRoot (.underRoot root disk)))

/-- Whatever roots have been added from one disk, each import that is followed for the next one is an import of the
file that it is followed from, and leads to a file of the name that it states. That file has been read from the path
of the import under the root, unless the import states the path of a root outside: then it has been read from that
path. References are looked for in no other files. -/
theorem pursuits_placed (root : String) (disk : Disk) (given : List String) (path : String) :
    (∀ p ∈ (addRoot (.underRoot root disk) path).pursuits (rootsUnder root disk given),
      ∃ importer entry, p.workspace.At p.index importer ∧ p.item ∈ importer.file.imports ∧
        p.workspace.At p.found entry ∧ entry.file.name = p.item.path ∧
        (entry.ReadFrom disk (Path.join root p.item.path) ∨
          Path.Outside root (given ++ [path]) p.item.path ∧ entry.ReadFrom disk p.item.path)) ∧
      ∀ index ref, .visit index ref ∈ (addRoot (.underRoot root disk) path).deeds (rootsUnder root disk given) →
        ∃ p ∈ (addRoot (.underRoot root disk) path).pursuits (rootsUnder root disk given), p.found = index := by
  refine ⟨fun p member => ?_, fun _ _ => pursued_deeds⟩
  have nowhere : Workspace.empty.Placed root disk [] := .empty
  obtain ⟨placed, ⟨importer, at_index, written⟩, entry, at_found, named⟩ :=
    sound_pursuits (Gathered.empty.runAll _).firm (placed_runAll Gathered.empty.firm nowhere given) path p member
  have read := placed p.found entry at_found
  unfold Entry.Placed at read
  rw [named] at read
  exact ⟨importer, entry, at_index, written, at_found, named, read⟩

/-- A file beside the directory `inc`, and two in it. The first import of `a.proto` states the path of the file beside,
and nothing is found there under `inc`. -/
def besideInc : Disk :=
  FileTree.disk (.ofPaths ["t"] [("x.proto", .text "message X \x7b\x7d"), ("inc/y.proto", .text "message Y \x7b\x7d"),
    ("inc/a.proto", .text "import \"inc/../x.proto\"; import \"y.proto\"; message A \x7b X x = 1; Y y = 2; \x7d")])

/-- The import that stays under the root leads to a file that has been read from under the root. -/
theorem besideInc_placed :
    ∃ p ∈ (addRoot (.underRoot "inc" besideInc) "inc/a.proto").pursuits (rootsUnder "inc" besideInc ["inc/../x.proto"]),
      p.item.path = "y.proto" ∧ ∃ entry, p.workspace.At p.found entry ∧ entry.ReadFrom besideInc "inc/y.proto" := by
  have listed : ((addRoot (.underRoot "inc" besideInc) "inc/a.proto").pursuits
      (rootsUnder "inc" besideInc ["inc/../x.proto"])).map (fun p => p.item.path) = ["inc/../x.proto", "y.proto"] := by
    decide +kernel
  have there : "y.proto" ∈ ["inc/../x.proto", "y.proto"] := by decide
  rw [← listed] at there
  obtain ⟨p, member, stated⟩ := List.mem_map.1 there
  obtain ⟨_, entry, _, _, at_found, _, read⟩ :=
    (pursuits_placed "inc" besideInc ["inc/../x.proto"] "inc/a.proto").1 p member
  refine ⟨p, member, stated, entry, at_found, ?_⟩
  rw [stated] at read
  rcases read with under | ⟨⟨isGiven, _⟩, _⟩
  · have joined : Path.join "inc" "y.proto" = "inc/y.proto" := by decide +kernel
    rwa [joined] at under
  · have notGiven : "y.proto" ∉ ["inc/../x.proto"] ++ ["inc/a.proto"] := by decide
    exact absurd isGiven notGiven

/-- Both roots are added, and the import that states the path of the root outside leads to that root, though nothing
is found at that path under `inc`. -/
theorem besideInc_outside :
    ((addRoot (.underRoot "inc" besideInc) "inc/../x.proto").run .empty).1 = .ok () ∧
      ((addRoot (.underRoot "inc" besideInc) "inc/a.proto").run (rootsUnder "inc" besideInc ["inc/../x.proto"])).1 =
        .ok () ∧
      ((addRoot (.underRoot "inc" besideInc) "inc/a.proto").pursuits
        (rootsUnder "inc" besideInc ["inc/../x.proto"])).map
          (fun p => (p.item.path, (Workspace.entry? p.workspace p.found).bind fun entry => entry.path)) =
        [("inc/../x.proto", some "inc/../x.proto"), ("y.proto", some "inc/y.proto")] ∧
      Path.join "inc" "inc/../x.proto" = "inc/inc/../x.proto" ∧
      besideInc.read "inc/inc/../x.proto" = .error .notFound := by
  decide +kernel

end Workspace.Command

end ProtoSchema
