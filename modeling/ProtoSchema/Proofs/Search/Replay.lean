import ProtoSchema.Proofs.Search.Events

namespace ProtoSchema

namespace Record

variable {command : Workspace.Command} {record before after : Record} {index : Nat} {entry : Entry} {memo : Memo}

/-- Whether the references of each file are there and remember what they mean in their file, if they remember
anything. -/
structure Truthful (record : Record) : Prop where
  length : record.memos.length = record.workspace.files.entries.length
  recalls : ∀ {index : Nat} {entry : Entry} {memo : Memo}, record.workspace.files.entries[index]? = some entry →
    record.memos[index]? = some memo → memo.Recalls entry.file

theorem Truthful.of (workspace : Workspace) : (of workspace).Truthful where
  length := List.length_map _
  recalls {index entry memo} at_index remembers := by
    have at_index : workspace.files.entries[index]? = some entry := at_index
    rw [Record.of, List.getElem?_map, at_index] at remembers
    obtain rfl := Option.some.inj remembers
    exact .fresh _

theorem Truthful.remembers (truthful : record.Truthful) (at_index : record.workspace.At index entry) :
    ∃ memo, record.at? index = some (entry, memo) ∧ memo.Recalls entry.file := by
  have inside := (List.getElem?_eq_some_iff.1 at_index).1
  rw [← truthful.length] at inside
  have remembers := List.getElem?_eq_getElem inside
  have entry? : record.workspace.entry? index = some entry := at_index
  exact ⟨_, by rw [at?, entry?, remembers], truthful.recalls at_index remembers⟩

/-- The entry of a file is replaced, and so is what its references remember. -/
theorem Truthful.set (truthful : record.Truthful) (at_index : record.workspace.At index entry) (later : Entry)
    (file : later.file = entry.file) (recalls : memo.Recalls entry.file) (requested : List (Nat × OuterRef))
    (events : List (Workspace × Event)) :
    Truthful ⟨{ record.workspace.setEntry index later with requested }, record.memos.set index memo, events⟩ where
  length := by simpa [Workspace.setEntry] using truthful.length
  recalls {other found remembered} at_other remembers := by
    dsimp only [Workspace.setEntry] at at_other remembers
    rw [List.getElem?_set] at at_other remembers
    by_cases here : index = other
    · have inside := (List.getElem?_eq_some_iff.1 at_index).1
      rw [if_pos here, if_pos inside] at at_other
      rw [if_pos here, if_pos (truthful.length ▸ inside)] at remembers
      obtain rfl := Option.some.inj at_other
      obtain rfl := Option.some.inj remembers
      rwa [file]
    · rw [if_neg here] at at_other remembers
      exact truthful.recalls at_other remembers

/-- A file is added, and its references remember nothing. -/
theorem Truthful.addFile (truthful : record.Truthful) (entry : Entry) (workspace : Workspace)
    (same : workspace.files.entries = record.workspace.files.entries) (events : List (Workspace × Event)) :
    Truthful ⟨workspace.add entry, record.memos ++ [entry.file.memo], events⟩ where
  length := by simp [Workspace.add, FileSet.add, same, truthful.length]
  recalls {index found memo} at_index remembers := by
    dsimp only [Workspace.add, FileSet.add] at at_index remembers
    rw [same] at at_index
    by_cases old : index < record.memos.length
    · rw [List.getElem?_append_left old] at remembers
      rw [List.getElem?_append_left (truthful.length ▸ old)] at at_index
      exact truthful.recalls at_index remembers
    · rw [List.getElem?_append_right (Nat.le_of_not_lt old)] at remembers
      rw [List.getElem?_append_right (truthful.length ▸ Nat.le_of_not_lt old)] at at_index
      obtain rfl := List.mem_singleton.1 (List.mem_of_getElem? at_index)
      obtain rfl := List.mem_singleton.1 (List.mem_of_getElem? remembers)
      exact .fresh _

/-- What holds of a record wherever a search has got to. -/
structure Firm (record : Record) : Prop where
  workspace : record.workspace.Firm
  truthful : record.Truthful

theorem Firm.of {workspace : Workspace} (firm : workspace.Firm) : (of workspace).Firm :=
  ⟨firm, .of workspace⟩

theorem Firm.add {event : Event} (firm : record.Firm) (happens : Happens command record.workspace event) :
    (record.add event).Firm where
  workspace := (happens.grows_firm firm.workspace).2
  truthful := by
    have truthful := firm.truthful
    cases happens with
    | named | read | patterned => exact ⟨truthful.length, truthful.recalls⟩
    | opened _ _ _ answers =>
      cases answers with
      | file => exact truthful.addFile _ (record.workspace.log _) rfl _
      | fault | malformed => exact ⟨truthful.length, truthful.recalls⟩
    | added => exact truthful.addFile _ record.workspace rfl _
    | @rooted _ entry _ at_index recalls => exact truthful.set at_index entry.asRoot rfl recalls _ _
    | @visited _ _ _ _ _ outer _ _ at_index recalls =>
      have fits := Workspace.fits_looking firm.workspace.wellFormed at_index recalls outer
      exact truthful.set at_index _ fits.visit.grows.file fits.recalls _ _

/-- Whether one record leads to another one by events that happen in the course of a command. -/
structure Leads (command : Workspace.Command) (before after : Record) : Prop where
  firm : after.Firm
  grows : before.workspace.Grows after.workspace
  chain : ∃ events, after.events = before.events ++ events ∧
    Chain (Happens command) before.workspace events after.workspace

theorem Leads.refl (firm : record.Firm) : record.Leads command record :=
  ⟨firm, .refl _, [], (List.append_nil _).symm, .nil⟩

theorem Leads.trans {a b c : Record} (first : a.Leads command b) (second : b.Leads command c) : a.Leads command c := by
  obtain ⟨events, done, chain⟩ := first.chain
  obtain ⟨more, doneMore, chainMore⟩ := second.chain
  exact ⟨second.firm, first.grows.trans second.grows, events ++ more, by rw [doneMore, done, List.append_assoc],
    chain.append chainMore⟩

theorem Leads.add {event : Event} (firm : record.Firm) (happens : Happens command record.workspace event) :
    record.Leads command (record.add event) :=
  ⟨firm.add happens, (happens.grows_firm firm.workspace).1, [(record.workspace, event)], rfl, .cons happens .nil⟩

end Record

namespace Recording

open Record (Leads)

variable {α β : Type} {command : Workspace.Command} {record : Record} {recording : Recording α} {search : Search α}
  {done : α → Workspace → Prop} {loader : Loader}

/-- Whether a recording goes on from a record as a search does that looks references up afresh and records nothing. -/
def Replays (command : Workspace.Command) (record : Record) (recording : Recording α) (search : Search α)
    (done : α → Workspace → Prop) : Prop :=
  match recording record with
  | .ok answer later =>
    search record.workspace = .ok answer later.workspace ∧ record.Leads command later ∧ done answer later.workspace
  | .error halt later => search record.workspace = .error halt later.workspace ∧ record.Leads command later

section Rules

theorem get_bind (next : Record → Recording α) : (get >>= next) record = next record record := rfl

theorem replays_pure (firm : record.Firm) {answer : α} (reached : done answer record.workspace) :
    Replays command record (pure answer) (pure answer) done :=
  ⟨rfl, .refl firm, reached⟩

theorem replays_throw (firm : record.Firm) (halt : Halt) :
    Replays command record (throw halt : Recording α) (throw halt) done :=
  ⟨rfl, .refl firm⟩

/-- A search that begins in a later workspace. -/
theorem Replays.prior {search' : Search α} {later : Record} (replays : Replays command later recording search' done)
    (leads : record.Leads command later) {whole : Recording α} (records : whole record = recording later)
    (runs : search record.workspace = search' later.workspace) : Replays command record whole search done := by
  unfold Replays at replays ⊢
  rw [records, runs]
  cases ran : recording later with
  | ok answer last =>
    rw [ran] at replays
    exact ⟨replays.1, leads.trans replays.2.1, replays.2.2⟩
  | error halt last =>
    rw [ran] at replays
    exact ⟨replays.1, leads.trans replays.2⟩

/-- An event changes the workspace as some steps of the search do. -/
theorem Replays.perform {event : Event} {search' : Search α} (firm : record.Firm)
    (happens : Happens command record.workspace event)
    (runs : search record.workspace = search' (event.after record.workspace))
    (replays : (record.add event).Firm → Replays command (record.add event) recording search' done) :
    Replays command record (do perform event; recording) search done :=
  (replays (firm.add happens)).prior (.add firm happens) rfl runs

theorem Replays.bind {next : α → Recording β} {next' : α → Search β} {ending : β → Workspace → Prop}
    (first : Replays command record recording search done)
    (second : ∀ answer later, record.Leads command later → done answer later.workspace →
      Replays command later (next answer) (next' answer) ending) :
    Replays command record (recording >>= next) (search >>= next') ending := by
  unfold Replays at first
  cases ran : recording record with
  | ok answer later =>
    rw [ran] at first
    obtain ⟨same, leads, reached⟩ := first
    refine (second answer later leads reached).prior leads ?_ ?_
    · simp only [Bind.bind, EStateM.bind, ran]
    · simp only [Bind.bind, EStateM.bind, same]
  | error halt later =>
    rw [ran] at first
    simp only [Replays, Bind.bind, EStateM.bind, ran, first.1]
    exact ⟨trivial, first.2⟩

end Rules

/-- Whether the answer of a search is the place of a file of a name. -/
abbrev IsPlaceOf (name : String) (found : Nat) (workspace : Workspace) : Prop :=
  ∃ entry, workspace.At found entry ∧ entry.file.name = name

section Files

variable {name : String}

theorem replays_addParsed {source : Source} (firm : record.Firm) (gives : command.Gives name source)
    (missing : record.workspace.files.indexOf? name = none) :
    Replays command record (addParsed name source) (Search.addParsed name source) (IsPlaceOf name) := by
  unfold addParsed Search.addParsed
  cases parsed : parse name source.text with
  | error error => exact replays_throw firm _
  | ok file =>
    refine Replays.perform firm (.added gives missing parsed) rfl fun firm => replays_pure firm ?_
    exact ⟨_, Search.at_added, parse_name parsed⟩

theorem replays_opened {blame : LoadFault → ImportError} {blamed : LoadFault → Recording Nat} (firm : record.Firm)
    (asks : command.loader? = some loader) (missing : record.workspace.files.indexOf? name = none)
    (why : command.NamesRoot name ∨ ∃ item, record.workspace.CallsFor item ∧ item.path = name)
    (blames : ∀ fault later, record.Leads command later →
      Replays command later (blamed fault) (Search.fail (blame fault)) (IsPlaceOf name)) :
    Replays command record (opened loader name blamed)
      (do Search.addParsed name (← Search.request loader name blame)) (IsPlaceOf name) := by
  cases loaded : loader.load name with
  | error fault =>
    have happens := Happens.opened asks missing why (.fault loaded)
    refine (blames fault _ (.add firm happens)).prior (.add firm happens) ?_ ?_
    · simp only [opened, loaded, perform_bind]
    · simp only [Search.request, loaded]
      rfl
  | ok source =>
    have asked : Search.request loader name blame record.workspace = .ok source (record.workspace.log name) := by
      simp only [Search.request, loaded]
      rfl
    cases parsed : parse name source.text with
    | error error =>
      have happens := Happens.opened asks missing why (.malformed loaded parsed)
      refine (replays_throw (firm.add happens) (.failed (.malformed error))).prior (.add firm happens) ?_ ?_
      · simp only [opened, loaded, parsed, perform_bind]
      · simp only [Search.bind_of_ok asked, Search.addParsed, parsed]
        rfl
    | ok file =>
      have happens := Happens.opened asks missing why (.file loaded parsed)
      have there : IsPlaceOf name (record.workspace.log name).files.entries.length
          ((record.workspace.log name).add (.ofFile file source.path source.text)) :=
        ⟨_, Search.at_added, parse_name parsed⟩
      refine (replays_pure (firm.add happens) there).prior (.add firm happens) ?_ ?_
      · simp only [opened, loaded, parsed]
        rfl
      · simp only [Search.bind_of_ok asked, Search.addParsed, parsed]
        rfl

/-- A search for the place of a file goes on only if there is no file of that name. -/
theorem replays_located {absent : Recording Nat} {search : Search Nat} (firm : record.Firm)
    (replays : record.workspace.files.indexOf? name = none → (record.add (.named name)).Firm →
      Replays command (record.add (.named name)) absent search (IsPlaceOf name)) :
    Replays command record (located name absent)
      (do
        let workspace ← get
        match workspace.files.indexOf? name with
        | some found => return found
        | none => search)
      (IsPlaceOf name) := by
  have happens : Happens command record.workspace (.named name) := .named name
  cases there : record.workspace.files.indexOf? name with
  | some found =>
    refine (replays_pure (firm.add happens) (Workspace.names_of_indexOf? there)).prior (.add firm happens) ?_ ?_
    · simp only [located, find_bind, there]
    · simp only [Search.get_bind, there]
      rfl
  | none =>
    refine (replays there (firm.add happens)).prior (.add firm happens) ?_ ?_
    · simp only [located, find_bind, there]
    · simp only [Search.get_bind, there]
      rfl

end Files

section Imports

variable {index : Nat} (entry : Entry) {outer : List OuterRef}

theorem replays_imported {item : Import} (firm : record.Firm) (asks : command.loader? = some loader)
    (place : index < record.workspace.files.entries.length) (calls : record.workspace.CallsFor item) :
    Replays command record (imported loader index entry item) (Search.imported loader entry item)
      (IsPlaceOf item.path) := by
  refine replays_located firm fun missing firm => ?_
  refine replays_opened firm asks missing (Or.inr ⟨item, calls, rfl⟩) fun fault later leads => ?_
  exact Replays.perform leads.firm (.read (leads.grows.lt place)) rfl fun firm => replays_throw firm _

/-- Whether looking for references in a file to which an import leads is replayed, wherever the file is. -/
def Looks (command : Workspace.Command) (lookIn : Nat → Import → Nat → List OuterRef → Recording Unit)
    (lookIn' : Nat → List OuterRef → Search Unit) : Prop :=
  ∀ (record : Record) (source : Nat) (item : Import) (index : Nat) (outer : List OuterRef), record.Firm →
    record.workspace.Writes source item → record.workspace.files.Names item index →
    Replays command record (lookIn source item index outer) (lookIn' index outer) fun _ _ => True

variable {lookIn : Nat → Import → Nat → List OuterRef → Recording Unit} {lookIn' : Nat → List OuterRef → Search Unit}

theorem replays_lookInEach (looks : Looks command lookIn lookIn') (asks : command.loader? = some loader)
    (items : List Import) (firm : record.Firm) (writes : ∀ item ∈ items, record.workspace.Writes index item)
    (calls : ∀ item ∈ items, record.workspace.CallsFor item) :
    Replays command record (lookInEach loader lookIn index entry outer items)
      (Search.lookInEach loader lookIn' entry outer items) fun _ _ => True := by
  induction items generalizing record with
  | nil => exact replays_pure firm trivial
  | cons item rest ih =>
    obtain ⟨written, others⟩ := List.forall_mem_cons.1 writes
    obtain ⟨called, othersCalled⟩ := List.forall_mem_cons.1 calls
    have place := written.lt
    refine (replays_imported entry firm asks place called).bind fun found one toOne names => ?_
    refine (looks one index item found outer toOne.firm (toOne.grows.writes written) names).bind fun _ two toTwo _ => ?_
    -- What calls for the other imports is still there after the first one has been followed.
    have grown := toOne.grows.trans toTwo.grows
    exact ih toTwo.firm (fun other member => grown.writes (others other member))
      fun other member => (othersCalled other member).grow grown

theorem replays_lookInImports (looks : Looks command lookIn lookIn') (asks : command.loader? = some loader)
    {handedOn : Bool} (firm : record.Firm) (place : index < record.workspace.files.entries.length)
    (follows : ∀ ref ∈ outer, record.workspace.Follows index ref handedOn) :
    Replays command record (lookInImports loader lookIn index entry outer handedOn)
      (Search.lookInImports loader lookIn' index entry outer handedOn) fun _ _ => True := by
  obtain ⟨importer, at_index⟩ : ∃ importer, record.workspace.At index importer := ⟨_, List.getElem?_eq_getElem place⟩
  have toRead : record.Leads command (record.add (.read index)) := .add firm (.read place)
  cases outer with
  | nil => exact (replays_pure toRead.firm trivial).prior toRead rfl rfl
  | cons first rest =>
    refine (replays_lookInEach entry looks asks (record.workspace.importsOf index handedOn) toRead.firm ?_ ?_).prior
      toRead rfl rfl
    · intro item imports
      rw [Workspace.importsOf_eq at_index, List.mem_filter] at imports
      exact ⟨importer, at_index, imports.1⟩
    · exact fun item imports => (follows first List.mem_cons_self).callsFor imports

end Imports

theorem looks_lookIn (asks : command.loader? = some loader) (depth : Nat) :
    Looks command (lookIn loader depth) (Search.lookIn loader depth) := by
  induction depth with
  | zero => exact fun record _ _ _ _ firm _ _ => replays_throw firm _
  | succ depth ih =>
    intro record source item index outer firm writes names
    obtain ⟨entry, there, _⟩ := id names
    have at_index : record.workspace.At index entry := there
    have entry? : record.workspace.entry? index = some entry := there
    obtain ⟨memo, remembers, recalls⟩ := firm.truthful.remembers at_index
    have wellFormed := firm.workspace.wellFormed
    have looked := Workspace.look_looking wellFormed at_index recalls outer
    have reading : Happens command record.workspace (.read index) := .read at_index.lt
    have visiting := @Happens.visited command record.workspace source index entry item memo outer writes names at_index
      recalls
    have toVisit := (Leads.add firm reading).trans (.add (firm.add reading) visiting)
    obtain ⟨place, outside, unmatched⟩ := Workspace.follows_looking wellFormed at_index looked
    have both := (replays_lookInImports entry ih asks toVisit.firm place outside).bind fun _ later leads _ =>
      replays_lookInImports entry ih asks leads.firm (leads.grows.lt place) fun ref member =>
        (unmatched ref member).grow leads.grows
    refine both.prior toVisit ?_ ?_
    · simp only [lookIn, read_bind, visit_bind, remembers]
      rfl
    · simp only [Search.lookIn, Search.get_bind, entry?, looked, Search.set_bind]
      rfl

theorem replays_makeRoot (asks : command.loader? = some loader) (firm : record.Firm) {index : Nat}
    (place : index < record.workspace.files.entries.length) :
    Replays command record (makeRoot loader index) (Search.makeRoot loader index) fun _ _ => True := by
  obtain ⟨entry, at_index⟩ : ∃ entry, record.workspace.At index entry := ⟨_, List.getElem?_eq_getElem place⟩
  have entry? : record.workspace.entry? index = some entry := at_index
  obtain ⟨memo, remembers, recalls⟩ := firm.truthful.remembers at_index
  obtain ⟨same, kept⟩ := recalls.uses 0 entry.file.types.length
  rw [List.drop_zero, List.take_length] at same
  have reading : Happens command record.workspace (.read index) := .read place
  have rooting : Happens command record.workspace (.rooted index entry _) := .rooted at_index kept
  have toRoot := (Leads.add firm reading).trans (.add (firm.add reading) rooting)
  have at_root := Workspace.at_root_self at_index
  have follows (ref : OuterRef) (member : ref ∈ addAllNew [] (entry.file.uses entry.file.types).outside) :
      (record.workspace.setEntry index entry.asRoot).Follows index ref false :=
    .root at_root rfl (by simpa [mem_addAllNew, Entry.asRoot] using member)
  have below := replays_lookInImports entry (looks_lookIn asks (Search.depthFor loader record.workspace)) asks toRoot.firm
    at_root.lt follows
  refine below.prior toRoot ?_ ?_
  · simp only [makeRoot, get_bind, read_bind, perform_bind, remembers, same]
  · simp only [Search.makeRoot, Search.get_bind, entry?, Search.set_bind]
    rfl

theorem replays_fileAt (loader : Loader) (path : String) (firm : record.Firm) :
    Replays (.addRoot loader path) record (fileAt loader path) (Search.fileAt loader path)
      (IsPlaceOf (((loader.fileName? path).or (Path.fileName? path)).getD path)) := by
  unfold fileAt Search.fileAt
  cases named : (loader.fileName? path).or (Path.fileName? path) with
  | some name =>
    refine replays_located firm fun missing firm => ?_
    refine replays_opened firm rfl missing (Or.inl ⟨loader, path, rfl, named⟩) fun fault later leads => ?_
    exact replays_throw leads.firm _
  | none =>
    refine replays_located firm fun missing firm => ?_
    cases loaded : loader.disk.load path path with
    | ok source => exact replays_addParsed firm (.read named loaded) missing
    | error fault => exact replays_throw firm _

theorem replays_fileOf (loader : Loader) (name text : String) (firm : record.Firm) :
    Replays (.addRootText loader name text) record (fileOf name text) (Search.fileOf name text) (IsPlaceOf name) :=
  replays_located firm fun missing firm => replays_addParsed firm .text missing

/-- A recording that has been run leaves the same workspace as the search. -/
theorem Replays.run {recording : Recording Unit} {search : Search Unit}
    (replays : Replays command record recording search fun _ _ => True) :
    ((recording.run record).1, (recording.run record).2.workspace) = search.run record.workspace ∧
      record.Leads command (recording.run record).2 := by
  unfold Replays at replays
  unfold Recording.run Search.run
  cases ran : recording record with
  | ok _ later =>
    rw [ran] at replays
    rw [replays.1]
    exact ⟨rfl, replays.2.1⟩
  | error halt later =>
    rw [ran] at replays
    rw [replays.1]
    exact ⟨rfl, replays.2⟩

end Recording

namespace Workspace.Command

open Record (Leads)

variable {record : Record} {workspace : Workspace}

/-- A command does the same when it is recorded and what references remember is used, whether it succeeds or fails. -/
theorem run_recording (firm : record.Firm) (command : Command) :
    ((command.recording.run record).1, (command.recording.run record).2.workspace) = command.run record.workspace ∧
      record.Leads command (command.recording.run record).2 := by
  cases command with
  | addRoot loader path =>
    refine Recording.Replays.run ((Recording.replays_fileAt loader path firm).bind fun found later leads there => ?_)
    obtain ⟨_, at_found, _⟩ := there
    exact Recording.replays_makeRoot rfl leads.firm at_found.lt
  | addRootText loader name text =>
    refine Recording.Replays.run ((Recording.replays_fileOf loader name text firm).bind fun found later leads there => ?_)
    obtain ⟨_, at_found, _⟩ := there
    exact Recording.replays_makeRoot rfl leads.firm at_found.lt
  | setUrlPattern pattern => exact ⟨rfl, .add firm (.patterned pattern)⟩

theorem grows_firm_run (firm : workspace.Firm) (command : Command) :
    workspace.Grows (command.run workspace).2 ∧ (command.run workspace).2.Firm := by
  obtain ⟨same, leads⟩ := run_recording (.of firm) command
  exact congrArg Prod.snd same ▸ ⟨leads.grows, leads.firm.workspace⟩

/-- The events of a command are those by which it changes the workspace. -/
theorem chain_events (firm : workspace.Firm) (command : Command) :
    Chain (Happens command) workspace (command.events workspace) (command.run workspace).2 := by
  obtain ⟨same, leads⟩ := run_recording (.of firm) command
  obtain ⟨done, recorded, chain⟩ := leads.chain
  have all : command.events workspace = done := recorded
  rw [all]
  exact congrArg Prod.snd same ▸ chain

theorem chain_allEvents (firm : workspace.Firm) (commands : List Command) :
    Chain (fun workspace event => ∃ command, Happens command workspace event) workspace
      (allEvents workspace commands) (runAll workspace commands) := by
  induction commands generalizing workspace with
  | nil => exact .nil
  | cons command rest ih =>
    exact ((chain_events firm command).mono fun _ _ happens => ⟨command, happens⟩).append
      (ih (grows_firm_run firm command).2)

section Collect

variable {α : Type} {relates : Workspace → List α → Workspace → Prop} (part : Workspace × Event → List α)
  (refl : ∀ workspace : Workspace, workspace.Firm → relates workspace [] workspace)
  (trans : ∀ {a b c first second}, relates a first b → relates b second c → relates a (first ++ second) c)

include refl trans

/-- What each event does by its part of a list, a command does by the parts of its events. -/
theorem collect_run (firm : workspace.Firm) (command : Command)
    (each : ∀ workspace event, Happens command workspace event → workspace.Firm →
      relates workspace (part (workspace, event)) (event.after workspace)) :
    relates workspace ((command.events workspace).flatMap part) (command.run workspace).2 :=
  (chain_events firm command).collect (fun _ _ happens firm => (happens.grows_firm firm).2) part refl trans each firm

theorem collect_runAll (firm : workspace.Firm) (commands : List Command)
    (each : ∀ command workspace event, Happens command workspace event → workspace.Firm →
      relates workspace (part (workspace, event)) (event.after workspace)) :
    relates workspace ((allEvents workspace commands).flatMap part) (runAll workspace commands) :=
  (chain_allEvents firm commands).collect (fun _ _ ⟨_, happens⟩ firm => (happens.grows_firm firm).2) part refl trans
    (fun _ _ ⟨_, happens⟩ => each _ _ _ happens) firm

end Collect

/-- What references remember from one command to the next makes no difference either. -/
theorem recallAll_spec (firm : record.Firm) (commands : List Command) :
    (recallAll record commands).workspace = runAll record.workspace commands ∧ (recallAll record commands).Firm := by
  induction commands generalizing record with
  | nil => exact ⟨rfl, firm⟩
  | cons command rest ih =>
    obtain ⟨same, leads⟩ := run_recording firm command
    obtain ⟨sameRest, firmRest⟩ := ih leads.firm
    refine ⟨?_, firmRest⟩
    rw [runAll, List.foldl_cons, ← same]
    exact sameRest

end Workspace.Command

end ProtoSchema
