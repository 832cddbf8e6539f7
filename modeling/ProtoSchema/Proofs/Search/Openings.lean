import ProtoSchema.Proofs.Search.Replay

namespace ProtoSchema

namespace Search

/-- A loader, a name that it is asked for, and the workspace in which it is. -/
structure Call where
  loader : Loader
  workspace : Workspace
  name : String

/-- What is noted of a call. -/
def Call.opening (call : Call) : Opening :=
  ⟨call.name, call.workspace.files.entries.length⟩

/-- Whether the loader answers with the text of a file. -/
def Call.Succeeds (call : Call) : Prop :=
  ∃ source file, call.loader.load call.name = .ok source ∧ parse call.name source.text = .ok file

end Search

open Search (Call)

/-- What a loader is asked for by an event. -/
def Event.calls (workspace : Workspace) : Event → List Call
  | .opened loader name _ => [⟨loader, workspace, name⟩]
  | .named _ | .read _ | .added _ | .rooted _ _ _ | .visited _ _ _ _ | .patterned _ => []

def callsOf (events : List (Workspace × Event)) : List Call :=
  events.flatMap fun row => row.2.calls row.1

namespace Search

/-- Whether some calls are what is asked for between two workspaces, each for a reason and while there is no file of
the name. Whatever a call finds is there afterwards, and not asked for again. -/
structure Opens (reason : Call → Prop) (before : Workspace) (calls : List Call) (after : Workspace) : Prop where
  grows : before.Grows after
  logged : after.opened = before.opened ++ calls.map Call.opening
  later : ∀ call ∈ calls, before.Grows call.workspace
  unknown : ∀ call ∈ calls, ¬call.workspace.Knows call.name
  reasons : ∀ call ∈ calls, reason call
  found : ∀ call ∈ calls, call.Succeeds → after.Knows call.name
  once : calls.Pairwise fun earlier later => earlier.Succeeds → later.name ≠ earlier.name

variable {reason : Call → Prop}

/-- A change for which nothing is asked. -/
theorem Opens.nothing {before after : Workspace} (grows : before.Grows after) (same : after.opened = before.opened) :
    Opens reason before [] after where
  grows := grows
  logged := by simp [same]
  later := List.forall_mem_nil _
  unknown := List.forall_mem_nil _
  reasons := List.forall_mem_nil _
  found := List.forall_mem_nil _
  once := .nil

theorem Opens.refl (workspace : Workspace) : Opens reason workspace [] workspace :=
  .nothing (.refl workspace) rfl

/-- One call, for a name of which there is no file. -/
theorem Opens.single {call : Call} {after : Workspace} (missing : call.workspace.files.indexOf? call.name = none)
    (why : reason call) (grows : call.workspace.Grows after) (logged : after.opened = (call.workspace.log call.name).opened)
    (found : call.Succeeds → after.Knows call.name) : Opens reason call.workspace [call] after where
  grows := grows
  logged := logged
  later := List.forall_mem_singleton.2 (.refl _)
  unknown := List.forall_mem_singleton.2 (Workspace.not_knows_of_indexOf? missing)
  reasons := List.forall_mem_singleton.2 why
  found := List.forall_mem_singleton.2 found
  once := List.pairwise_singleton ..

theorem Opens.trans {a b c : Workspace} {first second : List Call} (one : Opens reason a first b)
    (two : Opens reason b second c) : Opens reason a (first ++ second) c where
  grows := one.grows.trans two.grows
  logged := by rw [two.logged, one.logged, List.map_append, List.append_assoc]
  later := List.forall_mem_append.2 ⟨one.later, fun call member => one.grows.trans (two.later call member)⟩
  unknown := List.forall_mem_append.2 ⟨one.unknown, two.unknown⟩
  reasons := List.forall_mem_append.2 ⟨one.reasons, two.reasons⟩
  found := List.forall_mem_append.2
    ⟨fun call member succeeds => two.grows.knows (one.found call member succeeds), two.found⟩
  once := by
    refine List.pairwise_append.2 ⟨one.once, two.once, fun earlier before later after succeeds same => ?_⟩
    -- Files are never taken away, so the file that the earlier call has found is there at the later one.
    have known := (two.later later after).knows (one.found earlier before succeeds)
    exact two.unknown later after (same ▸ known)

theorem Opens.mono {before after : Workspace} {calls : List Call} {more : Call → Prop}
    (opens : Opens reason before calls after) (weaker : ∀ call ∈ calls, reason call → more call) :
    Opens more before calls after :=
  ⟨opens.grows, opens.logged, opens.later, opens.unknown, fun call member => weaker call member (opens.reasons call member),
    opens.found, opens.once⟩

end Search

open Search (Opens)

/-- Whether a command asks for a name for a reason: as that of its root file, or as the path of an import that is
called for at that moment. -/
structure Workspace.Command.Justifies (command : Workspace.Command) (call : Call) : Prop where
  asks : command.loader? = some call.loader
  why : command.NamesRoot call.name ∨ ∃ item, call.workspace.CallsFor item ∧ item.path = call.name

theorem Happens.opens {command : Workspace.Command} {workspace : Workspace} {event : Event}
    (happens : Happens command workspace event) (firm : workspace.Firm) :
    Opens command.Justifies workspace (event.calls workspace) (event.after workspace) := by
  have grows := (happens.grows_firm firm).1
  cases happens with
  | named | read | added | rooted | visited | patterned => exact .nothing grows rfl
  | @opened loader name _ asks missing why answers =>
    have single {after : Workspace} := @Opens.single command.Justifies ⟨loader, workspace, name⟩ after missing ⟨asks, why⟩
    cases answers with
    | file loaded parsed => exact single grows rfl fun _ => ⟨_, _, Search.at_added, parse_name parsed⟩
    | fault refused =>
      refine single grows rfl ?_
      rintro ⟨source, _, loaded, -⟩
      rw [refused] at loaded
      contradiction
    | malformed loaded unparsed =>
      refine single grows rfl ?_
      rintro ⟨other, file, loadedOther, parsed⟩
      obtain rfl := Except.ok.inj (loaded.symm.trans loadedOther)
      rw [unparsed] at parsed
      contradiction

/-- What the loader is asked for to get the root file at a path: its name, if it has one and there is no such file. -/
def Search.fileAtCalls (loader : Loader) (path : String) (workspace : Workspace) : List Call :=
  match (loader.fileName? path).or (Path.fileName? path) with
  | some name => if workspace.files.indexOf? name = none then [⟨loader, workspace, name⟩] else []
  | none => []

namespace Recording

variable {α : Type} {command : Workspace.Command} {loader : Loader} {record : Record} {calls more : List Call}
  {name : String}

theorem callsOf_add (record : Record) (event : Event) :
    callsOf (record.add event).events = callsOf record.events ++ event.calls record.workspace := by
  simp [callsOf, Record.add]

/-- Whether a recording asks for something from a record on, however it ends. -/
def AsksFor (record : Record) (recording : Recording α) (calls : List Call) : Prop :=
  match recording record with
  | .ok _ later | .error _ later => callsOf later.events = callsOf record.events ++ calls

theorem asksFor_pure (answer : α) : AsksFor record (pure answer) [] :=
  (List.append_nil _).symm

theorem asksFor_throw (halt : Halt) : AsksFor record (throw halt : Recording α) [] :=
  (List.append_nil _).symm

/-- What an event asks for, and what is asked for behind it. -/
theorem AsksFor.behind {recording whole : Recording α} (event : Event) (asks : AsksFor (record.add event) recording more)
    (ran : whole record = recording (record.add event)) (all : calls = event.calls record.workspace ++ more) :
    AsksFor record whole calls := by
  unfold AsksFor at asks ⊢
  rw [ran, all, ← List.append_assoc, ← callsOf_add]
  exact asks

/-- What a whole recording has asked for. -/
theorem AsksFor.of_events {workspace : Workspace} {recording : Recording Unit}
    (asks : AsksFor (.of workspace) recording calls) : callsOf (recording.events workspace) = calls := by
  unfold AsksFor at asks
  unfold events run
  cases ran : recording (.of workspace) <;> rwa [ran] at asks

theorem asksFor_adding (event : Event) : AsksFor record (adding event) (event.calls record.workspace) :=
  (asksFor_pure record.workspace.files.entries.length).behind event rfl (List.append_nil _).symm

theorem asksFor_addParsed (name : String) (source : Source) : AsksFor record (addParsed name source) [] := by
  unfold addParsed
  cases parse name source.text with
  | error error => exact asksFor_throw _
  | ok file => exact asksFor_adding _

theorem asksFor_opened (blame : LoadFault → ImportError) :
    AsksFor record (opened loader name fun fault => throw (.failed (blame fault))) [⟨loader, record.workspace, name⟩] := by
  unfold opened
  cases loader.load name with
  | error fault => exact (asksFor_throw (.failed (blame fault))).behind (.opened loader name none) rfl rfl
  | ok source =>
    dsimp only
    cases parse name source.text with
    | error error => exact (asksFor_throw (.failed (.malformed error))).behind (.opened loader name none) rfl rfl
    | ok file => exact asksFor_adding _

/-- What is asked for to get a file is asked for only if there is no file of its name. -/
theorem asksFor_located {absent : Recording Nat} (asks : AsksFor (record.add (.named name)) absent calls) :
    AsksFor record (located name absent) (if record.workspace.files.indexOf? name = none then calls else []) := by
  cases there : record.workspace.files.indexOf? name with
  | none => exact asks.behind (.named name) (by simp only [located, find_bind, there]) rfl
  | some found =>
    exact (asksFor_pure found).behind (.named name) (by simp only [located, find_bind, there]) rfl

theorem asksFor_located_nil {absent : Recording Nat} (asks : AsksFor (record.add (.named name)) absent []) :
    AsksFor record (located name absent) [] := by
  have located := asksFor_located asks
  rwa [ite_self] at located

theorem asksFor_fileAt (loader : Loader) (path : String) (record : Record) :
    AsksFor record (fileAt loader path) (Search.fileAtCalls loader path record.workspace) := by
  unfold fileAt Search.fileAtCalls
  cases (loader.fileName? path).or (Path.fileName? path) with
  | some name => exact asksFor_located (asksFor_opened (Search.blamePath path))
  | none =>
    refine asksFor_located_nil ?_
    cases loader.disk.load path path with
    | ok source => exact asksFor_addParsed path source
    | error => exact asksFor_throw _

theorem asksFor_fileOf (name text : String) (record : Record) : AsksFor record (fileOf name text) [] :=
  asksFor_located_nil (asksFor_addParsed name _)

/-- A file that refers to nothing outside it asks for nothing when it becomes a root. -/
theorem asksFor_makeRoot (loader : Loader) {index : Nat} {entry : Entry} (firm : record.Firm)
    (at_index : record.workspace.At index entry) (inside : ∀ ref ∈ entry.file.types, ¬ref.Outside entry.file) :
    AsksFor record (makeRoot loader index) [] := by
  have nothing : (entry.file.uses entry.file.types).outside = [] := by
    refine List.eq_nil_iff_forall_not_mem.2 fun outer outside => ?_
    obtain ⟨ref, used, leads, -⟩ := File.mem_outside_uses.1 outside
    exact inside ref used leads
  obtain ⟨memo, remembers, recalls⟩ := firm.truthful.remembers at_index
  obtain ⟨same, -⟩ := recalls.uses 0 entry.file.types.length
  rw [List.drop_zero, List.take_length] at same
  have ran : makeRoot loader index record = .ok () (((record.add (.read index)).add
      (.rooted index entry (memo.uses entry.file 0 entry.file.types.length).2)).add (.read index)) := by
    simp only [makeRoot, get_bind, read_bind, perform_bind, remembers, same, nothing]
    rfl
  rw [AsksFor, ran]
  simp [callsOf_add, Event.calls]

/-- What is asked for when a root file is added that refers to nothing outside it: what is asked for to get the file. -/
theorem asksFor_root {file : Recording Nat} {search : Search Nat} (asks : command.loader? = some loader)
    (replays : Replays command record file search (IsPlaceOf name)) (asked : AsksFor record file calls) {index : Nat}
    {entry : Entry} (at_index : ((do makeRoot loader (← file)).run record).2.workspace.At index entry)
    (named : entry.file.name = name) (inside : ∀ ref ∈ entry.file.types, ¬ref.Outside entry.file) :
    AsksFor record (do makeRoot loader (← file)) calls := by
  unfold Replays at replays
  unfold AsksFor at asked
  cases ran : file record with
  | error halt later =>
    rw [ran] at asked
    simp only [AsksFor, Bind.bind, EStateM.bind, ran]
    exact asked
  | ok found later =>
    rw [ran] at asked replays
    obtain ⟨-, leads, old, at_found, oldNamed⟩ := replays
    have runs : (do makeRoot loader (← file)) record = makeRoot loader found later := by
      simp only [Bind.bind, EStateM.bind, ran]
    rw [run, runs, ← run] at at_index
    obtain ⟨-, rooted⟩ := (replays_makeRoot asks leads.firm at_found.lt).run
    obtain ⟨now, at_now, grown⟩ := rooted.grows.entries found old at_found
    have same := rooted.firm.workspace.wellFormed.distinct index found entry now at_index at_now
      (by rw [named, grown.file, oldNamed])
    subst same
    obtain rfl := at_index.unique at_now
    rw [grown.file] at inside
    have rest := asksFor_makeRoot loader leads.firm at_found inside
    unfold AsksFor at rest ⊢
    rw [runs]
    rwa [List.append_nil, asked] at rest

end Recording

namespace Workspace.Command

variable {workspace : Workspace} {command : Command}

/-- What a command asks for to get its root file. -/
def rootCalls : Command → Workspace → List Call
  | .addRoot loader path => Search.fileAtCalls loader path
  | .addRootText _ _ _ => fun _ => []
  | .setUrlPattern _ => fun _ => []

def calls (command : Command) (workspace : Workspace) : List Call :=
  callsOf (command.events workspace)

/-- What some commands ask for, one after another, whether they succeed or fail. -/
def allCalls (workspace : Workspace) (commands : List Command) : List Call :=
  callsOf (allEvents workspace commands)

theorem opens_run (firm : workspace.Firm) (command : Command) :
    Opens command.Justifies workspace (command.calls workspace) (command.run workspace).2 :=
  collect_run _ (fun workspace _ => .refl workspace) .trans firm command fun _ _ happens => happens.opens

theorem opens_runAll (firm : workspace.Firm) (commands : List Command) :
    Opens (fun _ => True) workspace (allCalls workspace commands) (runAll workspace commands) :=
  collect_runAll _ (fun workspace _ => .refl workspace) .trans firm commands
    fun _ _ _ happens firm => (happens.opens firm).mono fun _ _ _ => trivial

theorem calls_of_inside (firm : workspace.Firm) {index : Nat} {entry : Entry}
    (at_index : (command.run workspace).2.At index entry) (root : command.rootName? = some entry.file.name)
    (inside : ∀ ref ∈ entry.file.types, ¬ref.Outside entry.file) :
    command.calls workspace = command.rootCalls workspace := by
  have same : (command.recording.run (.of workspace)).2.workspace = (command.run workspace).2 :=
    congrArg Prod.snd (run_recording (.of firm) command).1
  rw [← same] at at_index
  cases command with
  | addRoot loader path =>
    exact (Recording.asksFor_root rfl (Recording.replays_fileAt loader path (.of firm))
      (Recording.asksFor_fileAt loader path _) at_index (Option.some.inj root).symm inside).of_events
  | addRootText loader name text =>
    exact (Recording.asksFor_root rfl (Recording.replays_fileOf loader name text (.of firm))
      (Recording.asksFor_fileOf name text _) at_index (Option.some.inj root).symm inside).of_events
  | setUrlPattern => rfl

/-- Whatever commands are run, and whether they succeed or fail, loaders are asked for just these names, in this
order. A command asks its own loader, each time while there is no file of the name, and only for the name of the
root that it adds or for the path of an import that is called for at that moment. Nothing is asked for again after
a loader has answered with a file. A root whose references are all scalar or resolved in it has none of its imports
asked for. -/
theorem runAll_opens (commands : List Command) (command : Command) :
    (runAll .empty commands).opened = (allCalls .empty commands).map Call.opening ∧
      (∀ call ∈ command.calls (runAll .empty commands), command.loader? = some call.loader ∧
        ¬call.workspace.Knows call.name ∧
        (command.NamesRoot call.name ∨ ∃ item, call.workspace.CallsFor item ∧ item.path = call.name)) ∧
      ((allCalls .empty commands).Pairwise fun earlier later => earlier.Succeeds → later.name ≠ earlier.name) ∧
      ∀ index entry, (command.run (runAll .empty commands)).2.At index entry →
        command.rootName? = some entry.file.name →
        (∀ ref ∈ entry.file.types, ref.isScalar = true ∨ (ref.resolve entry.file).isSome) →
        command.calls (runAll .empty commands) = command.rootCalls (runAll .empty commands) := by
  have firm := (Gathered.empty.runAll commands).firm
  have life := opens_runAll Gathered.empty.firm commands
  have here := opens_run firm command
  refine ⟨life.logged, fun call member => ⟨(here.reasons call member).asks, here.unknown call member,
    (here.reasons call member).why⟩, life.once, fun index entry at_index root known => ?_⟩
  have inside (ref : TypeRef) (used : ref ∈ entry.file.types) : ¬ref.Outside entry.file := by
    rintro ⟨notScalar, unresolved⟩
    rcases known ref used with scalar | resolved
    · rw [notScalar] at scalar
      contradiction
    · rw [unresolved] at resolved
      contradiction
  exact calls_of_inside firm at_index root inside

/-- A root file at a path, with an import that nobody keeps and references that do not lead out of the file. -/
def selfContained : Command :=
  .addRoot
    (.ofFiles [("/r.proto", "root.proto")]
      [("root.proto", .ok "import \"missing.proto\"; message R \x7b string s = 1; R r = 2; \x7d")] (Snapshot.disk []))
    "/r.proto"

/-- The loader is asked for the root file alone, and not again when the root is added a second time. -/
theorem selfContained_opens :
    (selfContained.run .empty).1 = .ok () ∧
      (runAll .empty [selfContained, selfContained]).opened = [⟨"root.proto", 0⟩] ∧
      (allCalls .empty [selfContained, selfContained]).map Call.opening = [⟨"root.proto", 0⟩] ∧
      selfContained.calls (runAll .empty [selfContained]) = selfContained.rootCalls (runAll .empty [selfContained]) := by
  have evaluated : (selfContained.run .empty).1 = .ok () ∧
      (runAll .empty [selfContained, selfContained]).opened = [⟨"root.proto", 0⟩] ∧
      (Workspace.entry? (selfContained.run (runAll .empty [selfContained])).2 0).map (fun entry => (entry.file.name,
        entry.file.types.all fun ref => ref.isScalar || (ref.resolve entry.file).isSome)) = some ("root.proto", true) := by
    decide +kernel
  obtain ⟨succeeds, opened, there⟩ := evaluated
  obtain ⟨entry, at_index, known⟩ := Option.map_eq_some_iff.1 there
  obtain ⟨named, inside⟩ := Prod.mk.inj known
  have twice := runAll_opens [selfContained, selfContained] selfContained
  have once := runAll_opens [selfContained] selfContained
  refine ⟨succeeds, opened, twice.1 ▸ opened, once.2.2.2 0 entry at_index (by rw [named]; rfl) fun ref used => ?_⟩
  simpa using List.all_eq_true.1 inside ref used

end Workspace.Command

end ProtoSchema
