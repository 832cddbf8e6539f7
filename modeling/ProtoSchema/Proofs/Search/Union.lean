import ProtoSchema.Proofs.Search.Loads
import ProtoSchema.Proofs.Search.Termination

namespace ProtoSchema

namespace Search

variable {loader : Loader} {workspace : Workspace} {index : Nat} {entry : Entry} {outer : List OuterRef}

/-- A root file has all flags set. -/
theorem asRoot_of_isRoot (gathered : Workspace.Command.Gathered workspace) (at_index : workspace.At index entry)
    (root : entry.isRoot = true) : entry.asRoot = entry := by
  have tidy := gathered.wellFormed.tidy index entry at_index
  obtain ⟨messages, enums⟩ := tidy.flags_set fun decl => gathered.settled.roots index entry decl at_index root
  have same {flags : List Bool} (set : ∀ flag ∈ flags, flag = true) : flags.map (fun _ => true) = flags :=
    (List.map_congr_left fun flag member => (set flag member).symm).trans (List.map_id _)
  obtain ⟨file, path, source, isRoot, messageFlags, enumFlags⟩ := entry
  simp only at root messages enums
  rw [Entry.asRoot, same messages, same enums, root]

/-- Imports that have been followed are followed again without effect. -/
theorem lookInEach_again {depth : Nat} {items : List Import} (wellFormed : workspace.WellFormed) (some : outer ≠ [])
    (answered : ∀ item ∈ items, ∀ ref ∈ outer, workspace.Answers item ref) :
    lookInEach loader (lookIn loader (depth + 1)) entry outer items workspace = .ok () workspace := by
  induction items with
  | nil => rfl
  | cons item rest ih =>
    have here := answered item (List.mem_cons_self ..)
    obtain ⟨first, isOuter⟩ := List.exists_mem_of_ne_nil outer some
    cases there : workspace.files.indexOf? item.path with
    | none =>
      obtain ⟨_, ⟨found, at_target, named⟩, _⟩ := here first isOuter
      exact absurd named (Workspace.name_ne_of_indexOf? there at_target)
    | some target =>
      obtain ⟨found, at_target, named⟩ := Workspace.names_of_indexOf? there
      have known (ref : OuterRef) (member : ref ∈ outer) : (target, ref) ∈ workspace.requested :=
        wellFormed.requested_of_answers (here ref member) ⟨found, at_target, named⟩
      have again := ih fun other member => answered other (List.mem_cons_of_mem _ member)
      have found : imported loader entry item workspace = .ok target workspace := by
        simp only [imported, get_bind, there]
        rfl
      rw [lookInEach, bind_of_ok found, bind_of_ok (lookIn_of_requested loader depth at_target known), again]

/-- A root that has been added is added again without effect. -/
theorem makeRoot_again (gathered : Workspace.Command.Gathered workspace) (at_index : workspace.At index entry)
    (root : entry.isRoot = true)
    (answered : ∀ item ∈ entry.file.imports, ∀ ref ∈ (entry.file.uses entry.file.types).outside,
      workspace.Answers item ref) :
    makeRoot loader index workspace = .ok () workspace := by
  have entry? : workspace.entry? index = some entry := at_index
  have unchanged : workspace.setEntry index entry.asRoot = workspace := by
    rw [asRoot_of_isRoot gathered at_index root]
    obtain ⟨bound, rfl⟩ := List.getElem?_eq_some_iff.1 at_index
    simp [Workspace.setEntry]
  simp only [makeRoot, get_bind, entry?, set_bind, unchanged, lookInImports]
  split
  · rfl
  next some =>
    refine lookInEach_again gathered.wellFormed (by simpa using some) fun item imported ref member => ?_
    rw [Workspace.importsOf_eq at_index] at imported
    refine answered item (List.mem_filter.1 imported).1 ref ?_
    simpa [mem_addAllNew] using member

end Search

namespace Workspace

variable {loader : Loader} {workspace before after : Workspace} {roots : String → Prop} {path name : String}

theorem Rooted.grow (grows : before.Grows after) (rooted : before.Rooted name) : after.Rooted name := by
  obtain ⟨index, entry, at_index, named, root, answered⟩ := rooted
  obtain ⟨later, at_later, grown⟩ := grows.entries index entry at_index
  refine ⟨index, later, at_later, by rw [grown.file, named], grown.isRoot root, ?_⟩
  rw [grown.file]
  exact fun item imported ref outside => (answered item imported ref outside).grow grows

theorem addRoot_again (gathered : Command.Gathered workspace) (rooted : workspace.Rooted name)
    (named : loader.rootName? path = some name) : workspace.addRoot loader path = (.ok (), workspace) := by
  have asName : (loader.fileName? path).or (Path.fileName? path) = some name := named
  cases there : workspace.files.indexOf? name with
  | none =>
    obtain ⟨index, entry, at_index, same, _⟩ := rooted
    exact absurd same (name_ne_of_indexOf? there at_index)
  | some found =>
    obtain ⟨index, entry, at_index, same, root, answered⟩ := rooted
    obtain ⟨other, at_found, sameFound⟩ := names_of_indexOf? there
    obtain rfl := gathered.wellFormed.distinct _ _ _ _ at_index at_found (same.trans sameFound.symm)
    have again : Search.makeRoot loader index workspace = .ok () workspace :=
      Search.makeRoot_again gathered at_index root answered
    have placed : Search.fileAt loader path workspace = .ok index workspace := by
      simp only [Search.fileAt, Search.get_bind, asName, there]
      rfl
    simp only [addRoot, Search.run, Search.bind_of_ok placed, again]

/-- The root file at a path gets a place, if the loader has it. -/
theorem ensures_fileAt (loads : workspace.Loads loader roots) (wellFormed : workspace.WellFormed)
    (named : loader.rootName? path = some name) (isRoot : roots name) :
    (Search.fileAt loader path).Ensures workspace
      (fun found later => Search.Traced (Step loader) workspace later ∧ later.Loads loader roots ∧
        ∃ entry, later.At found entry ∧ entry.file.name = name)
      (fun _ _ => loader.file? name = none) := by
  have asName : (loader.fileName? path).or (Path.fileName? path) = some name := named
  unfold Search.fileAt
  simp only [Search.ensures_bind, Search.ensures_get, asName]
  split
  next there => exact ⟨.refl workspace, loads, names_of_indexOf? there⟩
  next missing =>
    have asked : Step loader workspace (workspace.log name) := .rootAsked name missing
    simp only [Search.ensures_bind]
    refine (Search.ensures_request name _).mono ?_ ?_
    · rintro source _ ⟨rfl, loaded⟩
      refine (Search.ensures_addParsed name source).mono ?_ ?_
      · rintro _ _ ⟨file, parsed, rfl, rfl⟩
        have logged : (workspace.log name).Loads loader roots := ⟨loads.file, loads.needed, loads.root⟩
        refine ⟨(Search.Traced.log asked).trans ?_, logged.add loaded parsed (.root isRoot), _, Search.at_added,
          parse_name parsed⟩
        exact .add (asked.wellFormed wellFormed) (.rootLoaded missing parsed)
      · rintro _ _ ⟨_, error, _, parsed⟩
        exact Loader.file?_eq_none_of_malformed loaded parsed
    · rintro _ _ ⟨_, fault, _, loaded⟩
      exact Loader.file?_eq_none_of_fault loaded

/-- The names of the root files at some paths. -/
def rootsAt (loader : Loader) (paths : List String) (name : String) : Prop :=
  ∃ path ∈ paths, loader.rootName? path = some name

/-- Adding one more root completes it, or fails as the loader does not have a file that it leads to. -/
theorem Complete.addRoot {done : List String} (complete : Complete loader (rootsAt loader done) workspace)
    (named : (loader.rootName? path).isSome) :
    match workspace.addRoot loader path with
    | (.ok _, later) => Complete loader (rootsAt loader (done ++ [path])) later
    | (.error _, _) => ∃ missing,
        loader.Leads (rootsAt loader (done ++ [path])) (.file missing) ∧ loader.file? missing = none := by
  obtain ⟨name, named⟩ := Option.isSome_iff_exists.1 named
  have isRoot : rootsAt loader (done ++ [path]) name := ⟨path, by simp, named⟩
  have earlier (other : String) : rootsAt loader done other → rootsAt loader (done ++ [path]) other := by
    rintro ⟨known, member, same⟩
    exact ⟨known, List.mem_append_left _ member, same⟩
  have wellFormed := complete.gathered.wellFormed
  refine Search.Ensures.run (?_ : Search.Ensures _ _ _ _)
  rw [Search.ensures_bind]
  refine (ensures_fileAt (complete.loads.mono earlier) wellFormed named isRoot).mono ?_
    fun _ _ missing => ⟨name, .root isRoot, missing⟩
  rintro found one ⟨toOne, loadsOne, entry, at_found, rfl⟩
  have gatheredOne := complete.gathered.steps toOne.steps
  have rooted : Step loader one (one.setEntry found entry.asRoot) := .rooted at_found
  have gatheredRoot := gatheredOne.steps (.single rooted)
  have loadsRoot : (one.setEntry found entry.asRoot).Loads loader _ := loadsOne.replace at_found rfl fun _ => isRoot
  refine (Search.ensures_makeRoot gatheredOne.wellFormed gatheredOne.grounded at_found).mono ?_ ?_
  · rintro _ later ⟨advances, followed, rootedLater⟩
    have grows := ((Steps.grows toOne.steps wellFormed).trans (rooted.grows gatheredOne.wellFormed)).trans
      (Advances.grows advances gatheredRoot.wellFormed)
    refine ⟨gatheredRoot.steps advances.steps, advances.loads gatheredRoot loadsRoot,
      followed _ (toOne.followed _ complete.followed), ?_⟩
    rintro other ⟨known, member, same⟩
    rcases List.mem_append.1 member with old | new
    · exact (complete.rooted other ⟨known, old, same⟩).grow grows
    · obtain rfl := List.mem_singleton.1 new
      obtain rfl := Option.some.inj (named.symm.trans same)
      exact rootedLater
  · rintro halt later ⟨advances, blocked⟩
    exact (advances.loads gatheredRoot loadsRoot).missing_of_blocked (gatheredRoot.steps advances.steps) blocked

theorem Complete.addRoots {done : List String} (complete : Complete loader (rootsAt loader done) workspace)
    (paths : List String) (named : ∀ path ∈ paths, (loader.rootName? path).isSome) :
    match workspace.addRoots loader paths with
    | (.ok _, later) => Complete loader (rootsAt loader (done ++ paths)) later
    | (.error _, _) => ∃ missing,
        loader.Leads (rootsAt loader (done ++ paths)) (.file missing) ∧ loader.file? missing = none := by
  induction paths generalizing done workspace with
  | nil => simpa [Workspace.addRoots] using complete
  | cons path rest ih =>
    have one := complete.addRoot (named path (List.mem_cons_self ..))
    unfold Workspace.addRoots
    generalize workspace.addRoot loader path = result at one ⊢
    obtain ⟨outcome, later⟩ := result
    cases outcome with
    | ok _ =>
      have whole := ih one fun other member => named other (List.mem_cons_of_mem _ member)
      simpa using whole
    | error halt =>
      obtain ⟨missing, leads, absent⟩ := one
      refine ⟨missing, leads.mono ?_, absent⟩
      rintro name ⟨known, member, same⟩
      exact ⟨known, by simp only [List.mem_append, List.mem_cons] at member ⊢; grind, same⟩

theorem addRoots_singleton (loader : Loader) (workspace : Workspace) (path : String) :
    workspace.addRoots loader [path] = workspace.addRoot loader path := by
  unfold addRoots
  obtain ⟨outcome, later⟩ := workspace.addRoot loader path
  cases outcome <;> rfl

section Paths

variable {paths : List String}

theorem Complete.ofAddRoots (named : ∀ path ∈ paths, (loader.rootName? path).isSome)
    (ok : (Workspace.empty.addRoots loader paths).1 = .ok ()) :
    Complete loader (rootsAt loader paths) (Workspace.empty.addRoots loader paths).2 := by
  have nothing : rootsAt loader [] = fun _ => False := by
    funext name
    simp [rootsAt]
  have added := Complete.addRoots (nothing ▸ Complete.empty) paths named
  generalize Workspace.empty.addRoots loader paths = result at added ok ⊢
  obtain ⟨outcome, later⟩ := result
  cases outcome with
  | ok _ => exact added
  | error halt => contradiction

/-- Adding roots succeeds if the loader has all files that they lead to, and only then. -/
theorem addRoots_ok_iff (named : ∀ path ∈ paths, (loader.rootName? path).isSome) :
    (Workspace.empty.addRoots loader paths).1 = .ok () ↔
      ∀ name, loader.Leads (rootsAt loader paths) (.file name) → (loader.file? name).isSome := by
  constructor
  · intro ok name leads
    have complete := Complete.ofAddRoots named ok
    obtain ⟨index, entry, at_index, rfl⟩ := complete.holds leads
    rw [complete.loads.file index entry at_index]
    rfl
  · intro all
    have nothing : rootsAt loader [] = fun _ => False := by
      funext name
      simp [rootsAt]
    have added := Complete.addRoots (nothing ▸ Complete.empty) paths named
    generalize Workspace.empty.addRoots loader paths = result at added ⊢
    obtain ⟨outcome, later⟩ := result
    cases outcome with
    | ok _ => rfl
    | error halt =>
      obtain ⟨missing, leads, absent⟩ := added
      have present := all missing leads
      rw [absent] at present
      contradiction

/-- What roots lead to together, the root at one of the paths leads to alone. -/
theorem leads_rootsAt_iff {part : Part} :
    loader.Leads (rootsAt loader paths) part ↔ ∃ path ∈ paths, loader.Leads (rootsAt loader [path]) part := by
  constructor
  · intro leads
    obtain ⟨name, ⟨path, member, named⟩, alone⟩ := Loader.leads_iff_exists.1 leads
    refine ⟨path, member, alone.mono ?_⟩
    rintro other rfl
    exact ⟨path, List.mem_singleton_self _, named⟩
  · rintro ⟨path, member, alone⟩
    refine alone.mono ?_
    rintro name ⟨other, isPath, named⟩
    exact ⟨path, member, List.mem_singleton.1 isPath ▸ named⟩

end Paths

end Workspace

/-- Something that is in a set of files: a file, a root file, or a declaration that is needed. -/
inductive Item
  | file (file : File)
  | root (file : File)
  | message (file : File) (message : Message)
  | enum (file : File) (enum : Enum)

def FileSet.Contains (files : FileSet) : Item → Prop
  | .file file => file ∈ files.toList
  | .root file => file ∈ files.rootFiles
  | .message file message => (file, message) ∈ files.messages
  | .enum file enum => (file, enum) ∈ files.enums

/-- What a loader gives for some roots: what they lead to of the files that it has. -/
def Loader.Gives (loader : Loader) (roots : String → Prop) : Item → Prop
  | .file file => loader.file? file.name = some file ∧ loader.Leads roots (.file file.name)
  | .root file => loader.file? file.name = some file ∧ roots file.name
  | .message file message => loader.file? file.name = some file ∧ message ∈ file.messageTable ∧
      loader.Leads roots (.decl file.name (.message message.id))
  | .enum file enum => loader.file? file.name = some file ∧ enum ∈ file.enumTable ∧
      loader.Leads roots (.decl file.name (.enum enum.id))

namespace Workspace

variable {loader : Loader} {workspace : Workspace} {roots : String → Prop} {paths : List String}

theorem Complete.file_iff (complete : Complete loader roots workspace) {file : File} :
    (∃ index entry, workspace.At index entry ∧ entry.file = file) ↔
      loader.file? file.name = some file ∧ loader.Leads roots (.file file.name) := by
  constructor
  · rintro ⟨index, entry, at_index, rfl⟩
    exact ⟨complete.loads.file index entry at_index, complete.loads.needed index entry at_index⟩
  · rintro ⟨loaded, leads⟩
    obtain ⟨index, entry, at_index, named⟩ := complete.holds leads
    exact ⟨index, entry, at_index, complete.file_eq at_index (named ▸ loaded)⟩

theorem Complete.root_iff (complete : Complete loader roots workspace) {file : File} :
    (∃ index entry, workspace.At index entry ∧ entry.isRoot = true ∧ entry.file = file) ↔
      loader.file? file.name = some file ∧ roots file.name := by
  constructor
  · rintro ⟨index, entry, at_index, root, rfl⟩
    exact ⟨complete.loads.file index entry at_index, complete.loads.root index entry at_index root⟩
  · rintro ⟨loaded, isRoot⟩
    obtain ⟨index, entry, at_index, named, root, _⟩ := complete.rooted _ isRoot
    exact ⟨index, entry, at_index, root, complete.file_eq at_index (named ▸ loaded)⟩

theorem Complete.decl_iff (complete : Complete loader roots workspace) {file : File} {decl : DeclId} :
    (∃ index entry, workspace.At index entry ∧ entry.Has decl ∧ entry.file = file) ↔
      loader.file? file.name = some file ∧ loader.Leads roots (.decl file.name decl) := by
  constructor
  · rintro ⟨index, entry, at_index, has, rfl⟩
    exact ⟨complete.loads.file index entry at_index, (complete.has_iff at_index).1 has⟩
  · rintro ⟨loaded, leads⟩
    obtain ⟨index, entry, at_index, named, has⟩ := complete.holds leads
    exact ⟨index, entry, at_index, has, complete.file_eq at_index (named ▸ loaded)⟩

/-- A set of files to which roots have been added is what the loader gives for them. -/
theorem Complete.contains_iff (complete : Complete loader roots workspace) (item : Item) :
    workspace.files.Contains item ↔ loader.Gives roots item := by
  have mem_entries {entry : Entry} : entry ∈ workspace.files.entries ↔ ∃ index, workspace.At index entry :=
    List.mem_iff_getElem?
  cases item with
  | file file =>
    rw [Loader.Gives, ← complete.file_iff]
    simp only [FileSet.Contains, FileSet.toList, List.mem_map, mem_entries]
    grind
  | root file =>
    rw [Loader.Gives, ← complete.root_iff]
    simp only [FileSet.Contains, FileSet.rootFiles, List.mem_map, List.mem_filter, mem_entries]
    grind
  | message file message =>
    rw [Loader.Gives, and_left_comm, ← complete.decl_iff]
    simp only [FileSet.Contains, FileSet.messages, Entry.messages, List.mem_flatMap, List.mem_map, List.mem_filter,
      mem_entries, Prod.mk.injEq, Entry.Has]
    grind
  | enum file enum =>
    rw [Loader.Gives, and_left_comm, ← complete.decl_iff]
    simp only [FileSet.Contains, FileSet.enums, Entry.enums, List.mem_flatMap, List.mem_map, List.mem_filter,
      mem_entries, Prod.mk.injEq, Entry.Has]
    grind

theorem gives_rootsAt_iff {item : Item} :
    loader.Gives (rootsAt loader paths) item ↔ ∃ path ∈ paths, loader.Gives (rootsAt loader [path]) item := by
  cases item with
  | file | message | enum =>
    simp only [Loader.Gives, @leads_rootsAt_iff loader paths]
    grind
  | root file =>
    simp only [Loader.Gives, rootsAt, List.mem_singleton]
    grind

/-- The roots at some paths, added one after another, lead to what each of them leads to alone. -/
theorem contains_addRoots_iff (named : ∀ path ∈ paths, (loader.rootName? path).isSome)
    (ok : (empty.addRoots loader paths).1 = .ok ()) (item : Item) :
    (empty.addRoots loader paths).2.files.Contains item ↔ loader.Gives (rootsAt loader paths) item :=
  (Complete.ofAddRoots named ok).contains_iff item

theorem named_of_mem (named : ∀ path ∈ paths, (loader.rootName? path).isSome) {path : String} (member : path ∈ paths) :
    ∀ other ∈ [path], (loader.rootName? other).isSome :=
  fun _ same => List.mem_singleton.1 same ▸ named path member

/-- Roots can be added one after another if each of them can be added alone. -/
theorem addRoots_ok_iff_alone (named : ∀ path ∈ paths, (loader.rootName? path).isSome) :
    (empty.addRoots loader paths).1 = .ok () ↔ ∀ path ∈ paths, (empty.addRoot loader path).1 = .ok () := by
  rw [addRoots_ok_iff named]
  constructor
  · intro all path member
    rw [← addRoots_singleton, addRoots_ok_iff (named_of_mem named member)]
    exact fun name leads => all name (leads_rootsAt_iff.2 ⟨path, member, leads⟩)
  · intro alone name leads
    obtain ⟨path, member, leadsAlone⟩ := leads_rootsAt_iff.1 leads
    have ok := alone path member
    rw [← addRoots_singleton, addRoots_ok_iff (named_of_mem named member)] at ok
    exact ok name leadsAlone

theorem contains_addRoots_iff_alone (named : ∀ path ∈ paths, (loader.rootName? path).isSome)
    (ok : (empty.addRoots loader paths).1 = .ok ()) (item : Item) :
    (empty.addRoots loader paths).2.files.Contains item ↔
      ∃ path ∈ paths, (empty.addRoot loader path).2.files.Contains item := by
  rw [contains_addRoots_iff named ok, gives_rootsAt_iff]
  refine exists_congr fun path => and_congr_right fun member => ?_
  have alone := (addRoots_ok_iff_alone named).1 ok path member
  rw [← addRoots_singleton] at alone ⊢
  exact (contains_addRoots_iff (named_of_mem named member) alone item).symm

theorem rootsAt_congr {others : List String} (same : ∀ path, path ∈ others ↔ path ∈ paths) :
    rootsAt loader others = rootsAt loader paths := by
  funext name
  simp only [rootsAt, same]

/-- Adding roots one after another succeeds just if adding each of them alone does, and gives just what they
give alone. So it comes to the same for other paths that are the same but for order and repetition, and
adding one of the roots again, whatever has been done since, changes nothing and asks for nothing. -/
theorem addRoots_union (loader : Loader) (paths : List String)
    (named : ∀ path ∈ paths, (loader.rootName? path).isSome) :
    ((empty.addRoots loader paths).1 = .ok () ↔ ∀ path ∈ paths, (empty.addRoot loader path).1 = .ok ()) ∧
      ((empty.addRoots loader paths).1 = .ok () →
        (∀ item, (empty.addRoots loader paths).2.files.Contains item ↔
          ∃ path ∈ paths, (empty.addRoot loader path).2.files.Contains item) ∧
        (∀ path ∈ paths, ∀ commands, (Command.runAll (empty.addRoots loader paths).2 commands).addRoot loader path =
          (.ok (), Command.runAll (empty.addRoots loader paths).2 commands))) ∧
      ∀ others, (∀ path, path ∈ others ↔ path ∈ paths) →
        ((empty.addRoots loader others).1 = .ok () ↔ (empty.addRoots loader paths).1 = .ok ()) ∧
        ((empty.addRoots loader paths).1 = .ok () → ∀ item,
          (empty.addRoots loader others).2.files.Contains item ↔
            (empty.addRoots loader paths).2.files.Contains item) := by
  refine ⟨addRoots_ok_iff_alone named,
    fun ok => ⟨contains_addRoots_iff_alone named ok, fun path member commands => ?_⟩, fun others same => ?_⟩
  · have complete := Complete.ofAddRoots named ok
    obtain ⟨name, isName⟩ := Option.isSome_iff_exists.1 (named path member)
    have grows := (Command.accounts_runAll complete.gathered.firm commands).grows
    exact addRoot_again (complete.gathered.runAll commands) ((complete.rooted name ⟨path, member, isName⟩).grow grows) isName
  · have namedOthers (path : String) (member : path ∈ others) : (loader.rootName? path).isSome :=
      named path ((same path).1 member)
    have succeeds : (empty.addRoots loader others).1 = .ok () ↔ (empty.addRoots loader paths).1 = .ok () := by
      rw [addRoots_ok_iff namedOthers, addRoots_ok_iff named, rootsAt_congr same]
    refine ⟨succeeds, fun ok item => ?_⟩
    rw [contains_addRoots_iff namedOthers (succeeds.2 ok), contains_addRoots_iff named ok, rootsAt_congr same]

/-- Two files that each import the other one, and a third one that nobody imports. -/
def sharing : Loader :=
  .ofFiles [("x/a.proto", "a.proto"), ("x/b.proto", "b.proto"), ("x/c.proto", "c.proto")]
    [("a.proto", .ok "import \"b.proto\"; message A { B b = 1; }"),
      ("b.proto", .ok "import \"a.proto\"; message B { A a = 1; } message C {}"), ("c.proto", .ok "enum E { Z = 0; }")]
    (Snapshot.disk [])

/-- Either file may be the first one to be loaded, and a root may come twice. -/
theorem sharing_union :
    (∀ item, (empty.addRoots sharing ["x/a.proto", "x/b.proto"]).2.files.Contains item ↔
        (empty.addRoots sharing ["x/b.proto", "x/a.proto", "x/b.proto"]).2.files.Contains item) ∧
      (empty.addRoots sharing ["x/a.proto", "x/b.proto"]).2.addRoot sharing "x/a.proto" =
        (.ok (), (empty.addRoots sharing ["x/a.proto", "x/b.proto"]).2) := by
  have ok : (empty.addRoots sharing ["x/a.proto", "x/b.proto"]).1 = .ok () := by decide +kernel
  obtain ⟨_, added, others⟩ := addRoots_union sharing ["x/a.proto", "x/b.proto"] (by decide +kernel)
  refine ⟨fun item => ?_, (added ok).2 "x/a.proto" (by decide) []⟩
  exact ((others ["x/b.proto", "x/a.proto", "x/b.proto"] (by simp)).2 ok item).symm

end Workspace

end ProtoSchema
