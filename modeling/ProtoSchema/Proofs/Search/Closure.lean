import ProtoSchema.Proofs.Search.Bounds
import ProtoSchema.Proofs.Search.Trace

namespace ProtoSchema

/-- Whether the file called `name` is a root, and what it refers to outside has been looked for in all its
imports. -/
def Workspace.Rooted (workspace : Workspace) (name : String) : Prop :=
  ∃ index entry, workspace.At index entry ∧ entry.file.name = name ∧ entry.isRoot = true ∧
    ∀ item ∈ entry.file.imports, ∀ ref ∈ (entry.file.uses entry.file.types).outside, workspace.Answers item ref

namespace Search

open Workspace (Advances Blocked Step Steps)

variable {loader : Loader} {workspace : Workspace}

/-- Making a file a root and following its imports, so that what the file itself refers to outside has been
looked for in all of them. -/
theorem ensures_makeRoot {index : Nat} {entry : Entry} (wellFormed : workspace.WellFormed)
    (grounded : workspace.Grounded) (at_index : workspace.At index entry) :
    (makeRoot loader index).Ensures workspace
      (fun _ later => Advances loader (workspace.setEntry index entry.asRoot) later ∧
        (∀ pending, workspace.Followed pending → later.Followed pending) ∧
        later.Rooted entry.file.name)
      (fun halt later => Advances loader (workspace.setEntry index entry.asRoot) later ∧ Blocked loader later halt) := by
  have rooted : Step loader workspace (workspace.setEntry index entry.asRoot) := .rooted at_index
  have at_root := Workspace.at_root_self at_index
  have keeps : (workspace.setEntry index entry.asRoot).Keeps index entry := ⟨_, at_root, entry.grows_asRoot⟩
  have mem_outside (ref : OuterRef) : ref ∈ addAllNew [] (entry.file.uses entry.file.types).outside ↔
      ref ∈ (entry.file.uses entry.file.types).outside := by simp [mem_addAllNew]
  unfold makeRoot
  simp only [ensures_bind, ensures_get, show workspace.entry? index = some entry from at_index, ensures_set]
  refine (ensures_lookInImports (looksIn_lookIn loader _) (rooted.wellFormed wellFormed) keeps ?_).mono ?_ ?_
  · exact fun ref member => .root at_root rfl ((mem_outside ref).1 member)
  · rintro _ later ⟨advances, followedLater, answered⟩
    refine ⟨advances, fun pending followed => followedLater pending ?_, ?_⟩
    · refine (followed.root at_index).grow (.refl _) (fun _ _ _ => Or.inl) ?_
      rintro other ref handedOn (waits | ⟨rfl, outside, rfl⟩)
      · exact Or.inl waits
      · exact Or.inr ⟨rfl, (mem_outside ref).2 outside, rfl⟩
    · have grows := Advances.grows advances (rooted.wellFormed wellFormed)
      obtain ⟨now, at_now, grown⟩ := grows.entries index entry.asRoot at_root
      have file : now.file = entry.file := grown.file
      refine ⟨index, now, at_now, by rw [file], grown.isRoot rfl, ?_⟩
      rw [file]
      intro item imported ref outside
      refine answered item ?_ ref ((mem_outside ref).2 outside)
      simpa [Workspace.importsOf_eq at_root, entry.grows_asRoot.file] using imported
  · rintro halt later ⟨advances, blocked | ⟨_, levels⟩⟩
    · exact ⟨advances, blocked⟩
    · have deep := Workspace.length_lt_depthFor at_index wellFormed grounded advances
      omega

theorem failed_ne_tooDeep (error : ImportError) : Halt.failed error ≠ .tooDeep := by
  simp

/-- What a search for the root file called `name` is to ensure. -/
def Locates (loader : Loader) (workspace : Workspace) (name : String) (file : Search Nat) : Prop :=
  file.Ensures workspace
    (fun found later => Traced (Step loader) workspace later ∧ ∃ entry, later.At found entry ∧ entry.file.name = name)
    (fun halt later => Steps loader workspace later ∧ halt ≠ .tooDeep)

theorem traced_of_indexOf? {name : String} {found : Nat} (there : workspace.files.indexOf? name = some found) :
    Traced (Step loader) workspace workspace ∧ ∃ entry, workspace.At found entry ∧ entry.file.name = name :=
  ⟨.refl workspace, Workspace.names_of_indexOf? there⟩

/-- A file that is not in the set can be loaded as a root. -/
theorem locates_addParsed {name : String} (source : Source) (wellFormed : workspace.WellFormed)
    (missing : workspace.files.indexOf? name = none) : Locates loader workspace name (addParsed name source) := by
  refine (ensures_addParsed name source).mono ?_ ?_
  · rintro _ _ ⟨file, parsed, rfl, rfl⟩
    exact ⟨.add wellFormed (.rootLoaded missing parsed), _, at_added, parse_name parsed⟩
  · rintro _ _ ⟨rfl, error, rfl, _⟩
    exact ⟨.refl, failed_ne_tooDeep _⟩

theorem locates_fileOf (name text : String) (wellFormed : workspace.WellFormed) :
    Locates loader workspace name (fileOf name text) := by
  unfold Locates fileOf
  simp only [ensures_bind, ensures_get]
  split
  next there => exact traced_of_indexOf? there
  next missing => exact locates_addParsed _ wellFormed missing

theorem locates_fileAt (path : String) (wellFormed : workspace.WellFormed) :
    Locates loader workspace (((loader.fileName? path).or (Path.fileName? path)).getD path) (fileAt loader path) := by
  refine (ensures_located loader path workspace).mono ?_ ?_
  · intro found later located
    cases located with
    | there known => exact traced_of_indexOf? known
    | @loaded name source file named missing _ parsed =>
      have asked : Step loader workspace (workspace.log name) := .rootAsked name missing
      rw [named]
      exact ⟨(Traced.log asked).trans (.add (asked.wellFormed wellFormed) (.rootLoaded missing parsed)), _, at_added,
        parse_name parsed⟩
    | read nameless missing _ parsed =>
      rw [nameless]
      exact ⟨.add wellFormed (.rootLoaded missing parsed), _, at_added, parse_name parsed⟩
  · intro halt later unlocated
    cases unlocated with
    | refused _ missing | malformed _ missing => exact ⟨.single (.rootAsked _ missing), failed_ne_tooDeep _⟩
    | unreadable | unparsed => exact ⟨.refl, failed_ne_tooDeep _⟩

/-- Adding a root, wherever its file comes from, makes steps, and leaves nothing pending when it succeeds. -/
theorem ensures_addRoot {name : String} {file : Search Nat} (wellFormed : workspace.WellFormed)
    (grounded : workspace.Grounded) (locates : Locates loader workspace name file) :
    (do makeRoot loader (← file) : Search Unit).Ensures workspace
      (fun _ later => Traced (Step loader) workspace later ∧ later.Rooted name)
      (fun halt later => Steps loader workspace later ∧ halt ≠ .tooDeep) := by
  rw [ensures_bind]
  refine locates.mono ?_ fun _ _ => id
  rintro found one ⟨toOne, entry, at_found, named⟩
  have wellFormedOne := Steps.wellFormed toOne.steps wellFormed
  have groundedOne := Steps.grounded toOne.steps wellFormed grounded
  have rooted : Step loader one (one.setEntry found entry.asRoot) := .rooted at_found
  have toRoot : Steps loader workspace _ := toOne.steps.tail rooted
  refine (ensures_makeRoot wellFormedOne groundedOne at_found).mono ?_
    fun _ _ stopped => ⟨toRoot.trans stopped.1.steps, stopped.2.ne_tooDeep⟩
  rintro _ later ⟨advances, followed, rootedLater⟩
  exact ⟨⟨toRoot.trans advances.steps, fun pending => followed pending ∘ toOne.followed pending⟩, named ▸ rootedLater⟩

end Search

namespace Workspace

/-- What can be asked of a workspace. Each command that loads files has a loader of its own, so the sources
may change from one to the next. -/
inductive Command
  | addRoot (loader : Loader) (path : String)
  | addRootText (loader : Loader) (name text : String)
  | setUrlPattern (pattern : Option String)

namespace Command

def run (workspace : Workspace) : Command → Except Halt Unit × Workspace
  | .addRoot loader path => workspace.addRoot loader path
  | .addRootText loader name text => workspace.addRootText loader name text
  | .setUrlPattern pattern => (.ok (), workspace.setUrlPattern pattern)

/-- The workspace after some commands, whether they succeed or fail. -/
def runAll (workspace : Workspace) (commands : List Command) : Workspace :=
  commands.foldl (fun workspace command => (command.run workspace).2) workspace

/-- Whether some commands all succeed, one after another. -/
def Succeed (workspace : Workspace) : List Command → Prop
  | [] => True
  | command :: rest => (command.run workspace).1 = .ok () ∧ Succeed (command.run workspace).2 rest

/-- The name of the root file that a command adds, if it adds one. -/
def rootName? : Command → Option String
  | .addRoot loader path => some (((loader.fileName? path).or (Path.fileName? path)).getD path)
  | .addRootText _ name _ => some name
  | .setUrlPattern _ => none

/-- What holds of every workspace that commands lead to, whether they succeed or fail. -/
structure Gathered (workspace : Workspace) : Prop where
  wellFormed : workspace.WellFormed
  grounded : workspace.Grounded
  sound : workspace.Sound
  settled : workspace.Settled

theorem Gathered.empty : Gathered Workspace.empty where
  wellFormed := .empty
  grounded := .empty
  sound := .of_parts (fun _ _ _ at_index => absurd at_index not_at_empty)
    fun index outer member => by simp [Workspace.empty] at member
  settled := .empty

theorem Gathered.steps {loader : Loader} {before after : Workspace} (gathered : Gathered before)
    (steps : Steps loader before after) : Gathered after := by
  induction steps with
  | refl => exact gathered
  | tail _ step ih =>
    exact ⟨step.wellFormed ih.wellFormed, step.grounded ih.wellFormed ih.grounded, step.sound ih.wellFormed ih.sound,
      step.settled ih.wellFormed ih.settled⟩

/-- What a command changes: it makes steps, or the pattern is set. One that succeeds leaves nothing pending. -/
theorem run_traced (command : Command) {workspace : Workspace} (gathered : Gathered workspace) :
    (∃ pattern, command = .setUrlPattern pattern) ∨
      ∃ loader name, command.rootName? = some name ∧ Steps loader workspace (command.run workspace).2 ∧
        (command.run workspace).1 ≠ .error .tooDeep ∧
        ((command.run workspace).1 = .ok () →
          Search.Traced (Step loader) workspace (command.run workspace).2 ∧ (command.run workspace).2.Rooted name) := by
  have traced {loader : Loader} {name : String} {search : Search Unit}
      (ensures : search.Ensures workspace
        (fun _ later => Search.Traced (Step loader) workspace later ∧ later.Rooted name)
        (fun halt later => Steps loader workspace later ∧ halt ≠ .tooDeep)) :
      Steps loader workspace (search.run workspace).2 ∧ (search.run workspace).1 ≠ .error .tooDeep ∧
        ((search.run workspace).1 = .ok () →
          Search.Traced (Step loader) workspace (search.run workspace).2 ∧ (search.run workspace).2.Rooted name) := by
    have outcome := ensures.run
    match ran : search.run workspace with
    | (.ok _, later) =>
      rw [ran] at outcome
      exact ⟨outcome.1.steps, by simp, fun _ => outcome⟩
    | (.error halt, later) =>
      rw [ran] at outcome
      exact ⟨outcome.1, by simpa using outcome.2, by simp⟩
  obtain ⟨wellFormed, grounded, -, -⟩ := gathered
  cases command with
  | addRoot loader path =>
    have locates : Search.Locates loader workspace _ (Search.fileAt loader path) := Search.locates_fileAt path wellFormed
    exact Or.inr ⟨loader, _, rfl, traced (Search.ensures_addRoot wellFormed grounded locates)⟩
  | addRootText loader name text =>
    have locates : Search.Locates loader workspace _ (Search.fileOf name text) := Search.locates_fileOf name text wellFormed
    exact Or.inr ⟨loader, _, rfl, traced (Search.ensures_addRoot wellFormed grounded locates)⟩
  | setUrlPattern pattern => exact Or.inl ⟨pattern, rfl⟩

theorem Gathered.setUrlPattern {workspace : Workspace} (gathered : Gathered workspace) (pattern : Option String) :
    Gathered (workspace.setUrlPattern pattern) := by
  obtain ⟨⟨tidy, distinct, requested⟩, ⟨parsed, written, once⟩, sound, ⟨roots, messages, visits⟩⟩ := gathered
  have grows : workspace.Grows (workspace.setUrlPattern pattern) :=
    ⟨fun _ entry at_index => ⟨entry, at_index, .refl entry⟩, fun _ => id⟩
  refine ⟨⟨tidy, distinct, requested⟩, ⟨parsed, written, once⟩, .of_parts ?_ ?_, ⟨roots, messages, visits⟩⟩
  · exact fun index entry decl at_index has => grows.needsBy (sound.needs at_index has)
  · exact fun index outer made => grows.needsBy (sound (.visit index outer) made)

theorem Gathered.run {workspace : Workspace} (gathered : Gathered workspace) (command : Command) :
    Gathered (command.run workspace).2 := by
  rcases command.run_traced gathered with ⟨pattern, rfl⟩ | ⟨loader, name, _, steps, _, _⟩
  · exact gathered.setUrlPattern pattern
  · exact gathered.steps steps

theorem followed_run {workspace : Workspace} (gathered : Gathered workspace) {command : Command}
    (ok : (command.run workspace).1 = .ok ()) {pending : Nat → OuterRef → Bool → Prop}
    (followed : workspace.Followed pending) : (command.run workspace).2.Followed pending := by
  rcases command.run_traced gathered with ⟨pattern, rfl⟩ | ⟨loader, name, _, _, _, traced⟩
  · refine followed.grow ⟨fun _ entry at_index => ⟨entry, at_index, .refl entry⟩, fun _ => id⟩ ?_ fun _ _ _ => id
    intro index outer handedOn follows
    left
    cases follows with
    | root at_index root outside => exact .root at_index root outside
    | message at_index included outside => exact .message at_index included outside
    | handedOn at_index requested missed => exact .handedOn at_index requested missed
  · exact (traced ok).1.followed pending followed

theorem Gathered.runAll {workspace : Workspace} (gathered : Gathered workspace) (commands : List Command) :
    Gathered (runAll workspace commands) := by
  induction commands generalizing workspace with
  | nil => exact gathered
  | cons command rest ih => exact ih (gathered.run command)

theorem followed_runAll {workspace : Workspace} (gathered : Gathered workspace) {commands : List Command}
    (succeed : Succeed workspace commands) {pending : Nat → OuterRef → Bool → Prop}
    (followed : workspace.Followed pending) : (runAll workspace commands).Followed pending := by
  induction commands generalizing workspace with
  | nil => exact followed
  | cons command rest ih => exact ih (gathered.run command) succeed.2 (followed_run gathered succeed.1 followed)

theorem followed_empty {pending : Nat → OuterRef → Bool → Prop} : Workspace.empty.Followed pending := by
  intro index outer handedOn follows
  obtain ⟨entry, at_index⟩ := follows.entry
  exact absurd at_index not_at_empty

/-- Whatever commands are run, a workspace has noted nothing but what its root files need, and exactly what
they need by the visits that have been made. If no command has failed, it has noted all that they need. -/
theorem notes_exactly_needs (commands : List Command) (need : Need) :
    ((runAll Workspace.empty commands).Notes need → (runAll Workspace.empty commands).files.Needs need) ∧
      ((runAll Workspace.empty commands).Notes need ↔
        (runAll Workspace.empty commands).files.NeedsBy (runAll Workspace.empty commands).Made need) ∧
      (Succeed Workspace.empty commands →
        ((runAll Workspace.empty commands).Notes need ↔ (runAll Workspace.empty commands).files.Needs need)) := by
  have gathered := Gathered.empty.runAll commands
  have needed (notes : (runAll Workspace.empty commands).Notes need) :
      (runAll Workspace.empty commands).files.Needs need :=
    (gathered.sound need notes).mono (.refl _) fun _ _ _ => trivial
  refine ⟨needed, ⟨gathered.sound need, gathered.settled.notes⟩, fun succeed => ⟨needed, fun needs => ?_⟩⟩
  have followed : (runAll Workspace.empty commands).Followed fun _ _ _ => False :=
    followed_runAll Gathered.empty succeed followed_empty
  exact gathered.settled.notes (followed.needsBy gathered.wellFormed gathered.settled needs)

/-- A root file that refers to one of the two messages of the file that it imports. -/
def oneReference : Command :=
  .addRootText (.ofFiles [] [("dep.proto", .ok "package dep; message Used {} message Unused {}")] (Snapshot.disk []))
    "root.proto" "import \"dep.proto\"; message Root { dep.Used used = 1; }"

/-- Of an imported file only what is referred to is needed. -/
theorem unused_not_needed :
    Succeed .empty [oneReference] ∧ (runAll .empty [oneReference]).files.Needs (.message 1 ⟨0⟩) ∧
      ¬(runAll .empty [oneReference]).files.Needs (.message 1 ⟨1⟩) := by
  have succeed : Succeed .empty [oneReference] := ⟨by decide +kernel, trivial⟩
  refine ⟨succeed, ?_, ?_⟩
  · have notes : (runAll .empty [oneReference]).Notes (.message 1 ⟨0⟩) := by decide +kernel
    exact (notes_exactly_needs _ _).1 notes
  · intro needs
    have notes := ((notes_exactly_needs _ _).2.2 succeed).2 needs
    have unnoted : ¬(runAll .empty [oneReference]).Notes (.message 1 ⟨1⟩) := by decide +kernel
    exact unnoted notes

end Command

end Workspace

end ProtoSchema
