import ProtoSchema.Proofs.Search.Ensures
import ProtoSchema.Proofs.Search.Followed

namespace ProtoSchema.Search

open Workspace (Advance Advances Blocked)

variable {loader : Loader} {workspace before after : Workspace} {index : Nat} {outer : List OuterRef} {handedOn : Bool}

/-- Whether `after` comes from `before` by steps that leave nothing pending that was not. -/
structure Traced (moves : Workspace → Workspace → Prop) (before after : Workspace) : Prop where
  steps : Relation.ReflTransGen moves before after
  followed : ∀ pending, before.Followed pending → after.Followed pending

section Traced

variable {moves : Workspace → Workspace → Prop}

theorem Traced.refl (workspace : Workspace) : Traced moves workspace workspace :=
  ⟨.refl, fun _ => id⟩

theorem Traced.trans {a b c : Workspace} (first : Traced moves a b) (second : Traced moves b c) :
    Traced moves a c :=
  ⟨first.steps.trans second.steps, fun pending => second.followed pending ∘ first.followed pending⟩

theorem Traced.log {name : String} (step : moves workspace (workspace.log name)) :
    Traced moves workspace (workspace.log name) :=
  ⟨.single step, fun _ followed => followed.log _⟩

theorem Traced.add {file : File} {path : Option String} {source : String} (wellFormed : workspace.WellFormed)
    (step : moves workspace (workspace.add (.ofFile file path source))) :
    Traced moves workspace (workspace.add (.ofFile file path source)) :=
  ⟨.single step, fun _ followed => followed.add wellFormed _ _ _⟩

end Traced

theorem ensures_addParsed (name : String) (source : Source) :
    (addParsed name source).Ensures workspace
      (fun found later => ∃ file, parse name source.text = .ok file ∧ found = workspace.files.entries.length ∧
        later = workspace.add (.ofFile file source.path source.text))
      (fun halt later => later = workspace ∧
        ∃ error, halt = .failed (.malformed error) ∧ parse name source.text = .error error) := by
  unfold addParsed
  cases parse name source.text with
  | error error => exact ⟨rfl, error, rfl, rfl⟩
  | ok file => exact ⟨file, rfl, rfl, rfl⟩

theorem ensures_request (name : String) (blame : LoadFault → ImportError) :
    (request loader name blame).Ensures workspace
      (fun source later => later = workspace.log name ∧ loader.load name = .ok source)
      (fun halt later => later = workspace.log name ∧
        ∃ fault, halt = .failed (blame fault) ∧ loader.load name = .error fault) := by
  unfold request
  simp only [ensures_bind, ensures_modify]
  cases loader.load name with
  | ok source => exact ⟨rfl, rfl⟩
  | error fault => exact ⟨rfl, fault, rfl, rfl⟩

/-- Where the root file at a path is found: among the files that are there, by the loader under its name, or on the
disk if it has no name. -/
inductive Located (loader : Loader) (path : String) (workspace : Workspace) : Nat → Workspace → Prop
  | there {found : Nat}
      (known : workspace.files.indexOf? (((loader.fileName? path).or (Path.fileName? path)).getD path) = some found) :
      Located loader path workspace found workspace
  | loaded {name : String} {source : Source} {file : File}
      (named : (loader.fileName? path).or (Path.fileName? path) = some name)
      (missing : workspace.files.indexOf? name = none) (loaded : loader.load name = .ok source)
      (parsed : parse name source.text = .ok file) :
      Located loader path workspace workspace.files.entries.length
        ((workspace.log name).add (.ofFile file source.path source.text))
  | read {source : Source} {file : File} (nameless : (loader.fileName? path).or (Path.fileName? path) = none)
      (missing : workspace.files.indexOf? path = none) (loaded : loader.disk.load path path = .ok source)
      (parsed : parse path source.text = .ok file) :
      Located loader path workspace workspace.files.entries.length
        (workspace.add (.ofFile file source.path source.text))

/-- Why the root file at a path is not found. -/
inductive Unlocated (loader : Loader) (path : String) (workspace : Workspace) : Halt → Workspace → Prop
  | refused {name : String} {fault : LoadFault} (named : (loader.fileName? path).or (Path.fileName? path) = some name)
      (missing : workspace.files.indexOf? name = none) (refused : loader.load name = .error fault) :
      Unlocated loader path workspace (.failed (blamePath path fault)) (workspace.log name)
  | malformed {name : String} {source : Source} {error : SyntaxError}
      (named : (loader.fileName? path).or (Path.fileName? path) = some name)
      (missing : workspace.files.indexOf? name = none) (loaded : loader.load name = .ok source)
      (parsed : parse name source.text = .error error) :
      Unlocated loader path workspace (.failed (.malformed error)) (workspace.log name)
  | unreadable {fault : LoadFault} (nameless : (loader.fileName? path).or (Path.fileName? path) = none)
      (missing : workspace.files.indexOf? path = none) (refused : loader.disk.load path path = .error fault) :
      Unlocated loader path workspace (.failed (.load fault)) workspace
  | unparsed {source : Source} {error : SyntaxError}
      (nameless : (loader.fileName? path).or (Path.fileName? path) = none)
      (missing : workspace.files.indexOf? path = none) (loaded : loader.disk.load path path = .ok source)
      (parsed : parse path source.text = .error error) :
      Unlocated loader path workspace (.failed (.malformed error)) workspace

theorem ensures_located (loader : Loader) (path : String) (workspace : Workspace) :
    (fileAt loader path).Ensures workspace (Located loader path workspace) (Unlocated loader path workspace) := by
  unfold fileAt
  simp only [ensures_bind, ensures_get]
  cases named : (loader.fileName? path).or (Path.fileName? path) with
  | some name =>
    dsimp only
    split
    next known => exact .there (by rwa [named])
    next missing =>
      rw [ensures_bind]
      refine (ensures_request name _).mono ?_ ?_
      · rintro source _ ⟨rfl, loaded⟩
        refine (ensures_addParsed name source).mono ?_ ?_
        · rintro _ _ ⟨file, parsed, rfl, rfl⟩
          exact .loaded named missing loaded parsed
        · rintro _ _ ⟨rfl, error, rfl, parsed⟩
          exact .malformed named missing loaded parsed
      · rintro _ _ ⟨rfl, fault, rfl, refused⟩
        exact .refused named missing refused
  | none =>
    dsimp only
    split
    next known => exact .there (by rwa [named])
    next missing =>
      split
      next source loaded =>
        refine (ensures_addParsed path source).mono ?_ ?_
        · rintro _ _ ⟨file, parsed, rfl, rfl⟩
          exact .read named missing loaded parsed
        · rintro _ _ ⟨rfl, error, rfl, parsed⟩
          exact .unparsed named missing loaded parsed
      next fault refused => exact .unreadable named missing refused

theorem at_added {file : File} {path : Option String} {source : String} :
    (workspace.add (.ofFile file path source)).At workspace.files.entries.length (.ofFile file path source) :=
  Workspace.at_add_iff.2 (Or.inl ⟨rfl, rfl⟩)

/-- The blame for a fault falls on what never changes about a file. -/
theorem blameImport_grow {old now : Entry} (grows : old.Grows now) (item : Import) (fault : LoadFault) :
    blameImport old item fault = blameImport now item fault := by
  cases fault <;> simp only [blameImport, grows.file, grows.source]

/-- The file that an import names is there once the import has been followed. -/
theorem ensures_imported {ref : OuterRef} {item : Import} {entry : Entry} (wellFormed : workspace.WellFormed)
    (keeps : workspace.Keeps index entry) (follows : workspace.Follows index ref handedOn)
    (imports : item ∈ workspace.importsOf index handedOn) :
    (imported loader entry item).Ensures workspace
      (fun found later => Traced (Advance loader) workspace later ∧ later.files.Names item found)
      (fun halt later => Advances loader workspace later ∧ Blocked loader later halt) := by
  unfold imported
  simp only [ensures_bind, ensures_get]
  split
  next found there => exact ⟨.refl workspace, Workspace.names_of_indexOf? there⟩
  next missing =>
    have asked : Advance loader workspace (workspace.log item.path) := .asked follows imports missing
    have followsOn := follows.grow (asked.grows wellFormed)
    simp only [ensures_bind]
    refine (ensures_request item.path _).mono ?_ ?_
    · rintro source _ ⟨rfl, loaded⟩
      refine (ensures_addParsed item.path source).mono ?_ ?_
      · rintro _ _ ⟨file, parsed, rfl, rfl⟩
        have added : Advance loader _ _ := .loaded followsOn imports missing loaded parsed
        exact ⟨(Traced.log asked).trans (.add (asked.wellFormed wellFormed) added), _, at_added, parse_name parsed⟩
      · rintro _ _ ⟨rfl, error, rfl, parsed⟩
        exact ⟨.single asked, .malformed followsOn imports missing loaded parsed⟩
    · rintro _ _ ⟨rfl, fault, rfl, loaded⟩
      obtain ⟨now, at_index, grows⟩ := keeps
      rw [blameImport_grow grows]
      exact ⟨.single asked, .unloadable at_index followsOn imports missing loaded⟩

/-- How a search of some depth stops early: it is blocked at an import, or it has noted a further reference
at every level. -/
structure Stops (loader : Loader) (depth : Nat) (before : Workspace) (halt : Halt) (after : Workspace) : Prop where
  advances : Advances loader before after
  cause : Blocked loader after halt ∨ halt = .tooDeep ∧ before.requested.length + depth ≤ after.requested.length

theorem Stops.trans {depth : Nat} {a b c : Workspace} {halt : Halt} (first : Advances loader a b)
    (second : Stops loader depth b halt c) : Stops loader depth a halt c where
  advances := first.trans second.advances
  cause := second.cause.imp_right <| And.imp_right <| Nat.le_trans (Nat.add_le_add_right first.requested_length _)

/-- What a search for references in a file is to ensure. -/
def LooksIn (loader : Loader) (depth : Nat) (look : Nat → List OuterRef → Search Unit) : Prop :=
  ∀ (workspace : Workspace) (index : Nat) (outer : List OuterRef), workspace.WellFormed →
    (∀ ref ∈ outer, workspace.Sought index ref) →
    (look index outer).Ensures workspace
      (fun _ later => Traced (Advance loader) workspace later ∧ ∀ ref ∈ outer, (index, ref) ∈ later.requested)
      (Stops loader depth workspace)

section Imports

variable {depth : Nat} {look : Nat → List OuterRef → Search Unit} {ref : OuterRef} {entry : Entry}

theorem ensures_lookInEach (looks : LooksIn loader depth look) (wellFormed : workspace.WellFormed)
    (keeps : workspace.Keeps index entry) (some : ref ∈ outer)
    (follows : ∀ ref ∈ outer, workspace.Follows index ref handedOn) (items : List Import)
    (imports : ∀ item ∈ items, item ∈ workspace.importsOf index handedOn) :
    (lookInEach loader look entry outer items).Ensures workspace
      (fun _ later => Traced (Advance loader) workspace later ∧ ∀ item ∈ items, ∀ ref ∈ outer, later.Answers item ref)
      (Stops loader depth workspace) := by
  induction items generalizing workspace with
  | nil => exact ⟨.refl workspace, by simp⟩
  | cons item rest ih =>
    unfold lookInEach
    simp only [ensures_bind]
    have here := imports item (List.mem_cons_self ..)
    refine (ensures_imported wellFormed keeps (follows ref some) here).mono ?_
      fun _ _ stopped => ⟨stopped.1, Or.inl stopped.2⟩
    rintro found one ⟨toFile, names⟩
    have grown := Advances.grows toFile.steps wellFormed
    have wellFormedOne := Advances.wellFormed toFile.steps wellFormed
    have kept (later : Workspace) (grows : workspace.Grows later) :
        later.importsOf index handedOn = workspace.importsOf index handedOn := by
      obtain ⟨source, at_index⟩ := (follows ref some).entry
      exact Workspace.importsOf_grow grows at_index handedOn
    refine (looks one found outer wellFormedOne ?_).mono ?_ fun _ _ => .trans toFile.steps
    · intro ref member
      exact ⟨index, handedOn, item, (follows ref member).grow grown, kept one grown ▸ here, names⟩
    rintro _ two ⟨intoFile, requested⟩
    have toTwo := toFile.trans intoFile
    have grownTwo := Advances.grows toTwo.steps wellFormed
    have wellFormedTwo := Advances.wellFormed toTwo.steps wellFormed
    refine (ih wellFormedTwo (keeps.grow grownTwo) (fun ref member => (follows ref member).grow grownTwo) ?_).mono ?_
      fun _ _ => .trans toTwo.steps
    · intro other member
      rw [kept two grownTwo]
      exact imports other (List.mem_cons_of_mem _ member)
    rintro _ later ⟨toEnd, answered⟩
    refine ⟨toTwo.trans toEnd, ?_⟩
    intro other member ref isOuter
    rcases List.mem_cons.1 member with rfl | below
    · have grownOne := Advances.grows intoFile.steps wellFormedOne
      have answers : two.Answers other ref := ⟨found, names.mono grownOne.extends, requested ref isOuter⟩
      exact answers.grow (Advances.grows toEnd.steps wellFormedTwo)
    · exact answered other below ref isOuter

/-- Following the imports of a file for some references, so that they no longer wait for it. -/
theorem ensures_lookInImports (looks : LooksIn loader depth look) (wellFormed : workspace.WellFormed)
    (keeps : workspace.Keeps index entry) (follows : ∀ ref ∈ outer, workspace.Follows index ref handedOn) :
    (lookInImports loader look index entry outer handedOn).Ensures workspace
      (fun _ later => Advances loader workspace later ∧
        (∀ pending, (workspace.Followed fun other ref handed =>
            pending other ref handed ∨ other = index ∧ ref ∈ outer ∧ handed = handedOn) →
          later.Followed pending) ∧
        ∀ item ∈ workspace.importsOf index handedOn, ∀ ref ∈ outer, later.Answers item ref)
      (Stops loader depth workspace) := by
  unfold lookInImports
  cases outer with
  | nil =>
    refine ⟨.refl, fun pending followed => followed.discharge ?_, ?_⟩
    · exact fun _ _ ref nothing => absurd nothing (List.not_mem_nil)
    · exact fun _ _ ref nothing => absurd nothing (List.not_mem_nil)
  | cons first rest =>
    have some : first ∈ first :: rest := List.mem_cons_self ..
    simp only [List.isEmpty_cons, Bool.false_eq_true, if_false, ensures_bind, ensures_get]
    refine (ensures_lookInEach looks wellFormed keeps some follows _ fun _ => id).mono ?_ fun _ _ => id
    rintro _ later ⟨traced, answered⟩
    refine ⟨traced.steps, fun pending followed => (traced.followed _ followed).discharge ?_, answered⟩
    obtain ⟨source, at_index⟩ := (follows first some).entry
    rwa [Workspace.importsOf_grow (Advances.grows traced.steps wellFormed) at_index]

end Imports

/-- Looking again for references that have been looked for in a file does nothing, and nothing is looked for
any deeper. -/
theorem lookIn_of_requested {entry : Entry} (loader : Loader) (depth : Nat) (at_index : workspace.At index entry)
    (known : ∀ ref ∈ outer, (index, ref) ∈ workspace.requested) :
    lookIn loader (depth + 1) index outer workspace = .ok () workspace := by
  have entry? : workspace.entry? index = some entry := at_index
  have looked := Workspace.look_of_requested at_index known
  simp only [lookIn, get_bind, entry?, looked, set_bind, lookInImports, List.isEmpty_nil, if_true]
  rfl

theorem looksIn_lookIn (loader : Loader) (depth : Nat) : LooksIn loader depth (lookIn loader depth) := by
  induction depth with
  | zero => exact fun _ _ _ _ _ => ⟨.refl, Or.inr ⟨rfl, Nat.le_refl _⟩⟩
  | succ depth ih =>
    intro workspace index outer wellFormed sought
    cases at_index : workspace.entry? index with
    | none =>
      -- An import names the file, unless nothing is looked for in it.
      have nothing (ref : OuterRef) (member : ref ∈ outer) : False := by
        obtain ⟨_, _, _, _, _, entry, at_entry, _⟩ := sought ref member
        simp [Workspace.entry?, at_entry] at at_index
      simp only [lookIn, ensures_bind, ensures_get, at_index]
      exact ⟨.refl workspace, fun ref member => (nothing ref member).elim⟩
    | some entry =>
      by_cases known : ∀ ref ∈ outer, (index, ref) ∈ workspace.requested
      · rw [Ensures, lookIn_of_requested loader depth at_index known]
        exact ⟨.refl workspace, known⟩
      obtain ⟨fresh, isOuter, unknown⟩ : ∃ ref ∈ outer, (index, ref) ∉ workspace.requested := by
        simpa only [not_forall, exists_prop] using known
      have looked : Advance loader workspace (workspace.look index entry outer).1 := .looked at_index sought
      have longer : workspace.requested.length < (workspace.look index entry outer).1.requested.length := by
        rw [Workspace.requested_look]
        exact length_lt_addAllNew _ _ (List.mem_map_of_mem isOuter) unknown
      have deeper (halt : Halt) (later : Workspace)
          (stops : Stops loader depth (workspace.look index entry outer).1 halt later) :
          Stops loader (depth + 1) workspace halt later :=
        ⟨.trans (.single looked) stops.advances, stops.cause.imp_right <| And.imp_right fun levels => by omega⟩
      have fits := Workspace.fits_look wellFormed at_index outer
      have at_later := Workspace.at_look_self at_index outer
      have wellFormedLook := looked.wellFormed wellFormed
      have keeps : (workspace.look index entry outer).1.Keeps index entry := ⟨_, at_later, fits.grows⟩
      simp only [lookIn, ensures_bind, ensures_get, at_index, ensures_set]
      refine (ensures_lookInImports ih wellFormedLook keeps ?_).mono ?_ deeper
      · exact fun ref member => Workspace.follows_outside_look wellFormed at_index member
      rintro _ one ⟨toOne, followedOne, -⟩
      have grownOne := Advances.grows toOne wellFormedLook
      refine (ensures_lookInImports ih (Advances.wellFormed toOne wellFormedLook) (keeps.grow grownOne) ?_).mono ?_
        fun halt later stops => deeper halt later (.trans toOne stops)
      · exact fun ref member => (Workspace.follows_unmatched_look wellFormed at_index member).grow grownOne
      rintro _ later ⟨toLater, followedLater, -⟩
      refine ⟨⟨.trans (.single looked) (toOne.trans toLater), ?_⟩, ?_⟩
      · intro pending followed
        exact followedLater pending (followedOne _ (followed.look wellFormed at_index outer))
      · intro ref member
        have noted : (index, ref) ∈ (workspace.look index entry outer).1.requested :=
          (fits.requested (index, ref)).2 (Or.inr ⟨rfl, member⟩)
        exact (Advances.grows (toOne.trans toLater) wellFormedLook).requested _ noted

end ProtoSchema.Search
