import ProtoSchema.Proofs.Search.Coherent
import ProtoSchema.Proofs.Search.Recording

namespace ProtoSchema

namespace Workspace

variable {workspace before after : Workspace} {name : String}

/-- Whether there is a file of a name. -/
def Knows (workspace : Workspace) (name : String) : Prop :=
  ∃ index entry, workspace.At index entry ∧ entry.file.name = name

theorem Grows.knows (grows : before.Grows after) (knows : before.Knows name) : after.Knows name := by
  obtain ⟨index, entry, at_index, named⟩ := knows
  obtain ⟨later, at_later, grown⟩ := grows.entries index entry at_index
  exact ⟨index, later, at_later, grown.file ▸ named⟩

theorem not_knows_of_indexOf? (missing : workspace.files.indexOf? name = none) : ¬workspace.Knows name := by
  rintro ⟨_, _, at_index, named⟩
  exact name_ne_of_indexOf? missing at_index named

theorem Grows.lt {index : Nat} (grows : before.Grows after) (bound : index < before.files.entries.length) :
    index < after.files.entries.length := by
  obtain ⟨_, at_later, _⟩ := grows.entries index _ (List.getElem?_eq_getElem bound)
  exact at_later.lt

/-- Whether an import is written in the file at `index`. -/
def Writes (workspace : Workspace) (index : Nat) (item : Import) : Prop :=
  ∃ importer, workspace.At index importer ∧ item ∈ importer.file.imports

theorem Grows.writes {index : Nat} {item : Import} (grows : before.Grows after) (writes : before.Writes index item) :
    after.Writes index item := by
  obtain ⟨importer, at_index, written⟩ := writes
  obtain ⟨later, at_later, grown⟩ := grows.entries index importer at_index
  exact ⟨later, at_later, grown.file ▸ written⟩

theorem Writes.lt {index : Nat} {item : Import} (writes : workspace.Writes index item) :
    index < workspace.files.entries.length := by
  obtain ⟨_, at_index, _⟩ := writes
  exact at_index.lt

/-- Whether a file has an import that a reference calls for: one in a root or in an included message, if it leads out
of the file, or for imports that are handed on, one that has been looked for in the file and is not declared there. -/
inductive CallsFor (workspace : Workspace) (item : Import) : Prop
  | root {index : Nat} {entry : Entry} {ref : TypeRef} (at_index : workspace.At index entry)
      (written : item ∈ entry.file.imports) (root : entry.isRoot = true) (used : ref ∈ entry.file.types)
      (leads : ref.Outside entry.file) : CallsFor workspace item
  | message {index : Nat} {entry : Entry} {id : MessageId} {message : Message} {ref : TypeRef}
      (at_index : workspace.At index entry) (written : item ∈ entry.file.imports)
      (at_id : entry.file.message? id = some message) (included : entry.includes id = true) (used : ref ∈ message.types)
      (leads : ref.Outside entry.file) : CallsFor workspace item
  | handedOn {index : Nat} {entry : Entry} {outer : OuterRef} (at_index : workspace.At index entry)
      (written : item ∈ entry.file.imports) (kind : item.kind = .reexported)
      (looked : (index, outer) ∈ workspace.requested) (missed : outer.resolve entry.file = none) :
      CallsFor workspace item

theorem CallsFor.grow {item : Import} (grows : before.Grows after) (calls : before.CallsFor item) :
    after.CallsFor item := by
  cases calls with
  | root at_index written root used leads =>
    obtain ⟨later, at_later, grown⟩ := grows.entries _ _ at_index
    exact .root at_later (grown.file ▸ written) (grown.isRoot root) (grown.file ▸ used) (grown.file ▸ leads)
  | message at_index written at_id included used leads =>
    obtain ⟨later, at_later, grown⟩ := grows.entries _ _ at_index
    exact .message at_later (grown.file ▸ written) (grown.file ▸ at_id) (grown.includes _ included) used
      (grown.file ▸ leads)
  | handedOn at_index written kind looked missed =>
    obtain ⟨later, at_later, grown⟩ := grows.entries _ _ at_index
    exact .handedOn at_later (grown.file ▸ written) kind (grows.requested _ looked) (grown.file ▸ missed)

/-- An import that is followed for a reference is called for. -/
theorem Follows.callsFor {index : Nat} {outer : OuterRef} {handedOn : Bool} {item : Import}
    (follows : workspace.Follows index outer handedOn) (imports : item ∈ workspace.importsOf index handedOn) :
    workspace.CallsFor item := by
  cases follows with
  | root at_index root outside =>
    rw [importsOf_eq at_index, List.mem_filter] at imports
    obtain ⟨ref, used, leads, -⟩ := File.mem_outside_uses.1 outside
    exact .root at_index imports.1 root used leads
  | @message entry id at_index included outside =>
    rw [importsOf_eq at_index, List.mem_filter] at imports
    cases at_id : entry.file.message? id with
    | none => simp [Entry.usesAt, at_id, File.uses] at outside
    | some message =>
      rw [Entry.usesAt_eq at_id] at outside
      obtain ⟨ref, used, leads, -⟩ := File.mem_outside_uses.1 outside
      exact .message at_index imports.1 at_id included used leads
  | handedOn at_index requested missed =>
    rw [importsOf_eq at_index, List.mem_filter] at imports
    exact .handedOn at_index imports.1 (by simpa using imports.2) requested missed

namespace Command

theorem Gathered.firm (gathered : Gathered workspace) : workspace.Firm :=
  ⟨gathered.wellFormed, gathered.settled⟩

/-- The loader that a command asks. -/
def loader? : Command → Option Loader
  | .addRoot loader _ => some loader
  | .addRootText loader _ _ => some loader
  | .setUrlPattern _ => none

/-- Whether a command adds the root at a path which has this name. -/
def NamesRoot (command : Command) (name : String) : Prop :=
  ∃ loader path, command = .addRoot loader path ∧ (loader.fileName? path).or (Path.fileName? path) = some name

/-- Whether a command has the text of its root file without asking a loader for it: a path without a name is read from
the disk, and a text may be given. -/
inductive Gives : Command → String → Source → Prop
  | read {loader : Loader} {path : String} {source : Source}
      (nameless : (loader.fileName? path).or (Path.fileName? path) = none)
      (loaded : loader.disk.load path path = .ok source) : Gives (.addRoot loader path) path source
  | text {loader : Loader} {name text : String} : Gives (.addRootText loader name text) name ⟨none, text⟩

end Command

end Workspace

/-- Whether a loader has a file for a name. -/
inductive Loader.Answers (loader : Loader) (name : String) : Option Entry → Prop
  | file {source : Source} {file : File} (loaded : loader.load name = .ok source)
      (parsed : parse name source.text = .ok file) :
      Answers loader name (some (.ofFile file source.path source.text))
  | fault {fault : LoadFault} (refused : loader.load name = .error fault) : Answers loader name none
  | malformed {source : Source} {error : SyntaxError} (loaded : loader.load name = .ok source)
      (unparsed : parse name source.text = .error error) : Answers loader name none

/-- When an event happens in the course of a command. -/
inductive Happens (command : Workspace.Command) (workspace : Workspace) : Event → Prop
  | named (name : String) : Happens command workspace (.named name)
  | read {index : Nat} (place : index < workspace.files.entries.length) : Happens command workspace (.read index)
  | opened {loader : Loader} {name : String} {found : Option Entry} (asks : command.loader? = some loader)
      (missing : workspace.files.indexOf? name = none)
      (why : command.NamesRoot name ∨ ∃ item, workspace.CallsFor item ∧ item.path = name)
      (answers : loader.Answers name found) : Happens command workspace (.opened loader name found)
  | added {name : String} {source : Source} {file : File} (gives : command.Gives name source)
      (missing : workspace.files.indexOf? name = none) (parsed : parse name source.text = .ok file) :
      Happens command workspace (.added (.ofFile file source.path source.text))
  | rooted {index : Nat} {entry : Entry} {memo : Memo} (at_index : workspace.At index entry)
      (recalls : memo.Recalls entry.file) : Happens command workspace (.rooted index entry memo)
  | visited {source index : Nat} {entry : Entry} {item : Import} {memo : Memo} {outer : List OuterRef}
      (writes : workspace.Writes source item) (names : workspace.files.Names item index)
      (at_index : workspace.At index entry) (recalls : memo.Recalls entry.file) :
      Happens command workspace
        (.visited source item index ((Looking.start entry workspace.requested memo).lookForAll index outer))
  | patterned (pattern : Option String) : Happens command workspace (.patterned pattern)

/-- Events one after another, each in the workspace that the one before it leaves. -/
inductive Chain (may : Workspace → Event → Prop) : Workspace → List (Workspace × Event) → Workspace → Prop
  | nil {workspace : Workspace} : Chain may workspace [] workspace
  | cons {workspace later : Workspace} {event : Event} {events : List (Workspace × Event)} (first : may workspace event)
      (rest : Chain may (event.after workspace) events later) : Chain may workspace ((workspace, event) :: events) later

namespace Chain

variable {may : Workspace → Event → Prop} {before middle after : Workspace} {events more : List (Workspace × Event)}

theorem append (first : Chain may before events middle) (second : Chain may middle more after) :
    Chain may before (events ++ more) after := by
  induction first with
  | nil => exact second
  | cons event _ ih => exact .cons event (ih second)

theorem mono {other : Workspace → Event → Prop} (chain : Chain may before events after)
    (weaker : ∀ workspace event, may workspace event → other workspace event) : Chain other before events after := by
  induction chain with
  | nil => exact .nil
  | cons event _ ih => exact .cons (weaker _ _ event) ih

variable {holds : Workspace → Prop} (kept : ∀ workspace event, may workspace event → holds workspace →
  holds (event.after workspace))

include kept

/-- What every event keeps holds all along. -/
theorem holds_all (chain : Chain may before events after) (start : holds before) :
    holds after ∧ ∀ row ∈ events, holds row.1 ∧ may row.1 row.2 := by
  induction chain with
  | nil => exact ⟨start, List.forall_mem_nil _⟩
  | cons first _ ih =>
    obtain ⟨ending, along⟩ := ih (kept _ _ first start)
    exact ⟨ending, List.forall_mem_cons.2 ⟨⟨start, first⟩, along⟩⟩

/-- What each event does to a workspace by its part of a list is done by the parts of all of them together. -/
theorem collect {α : Type} {relates : Workspace → List α → Workspace → Prop} (part : Workspace × Event → List α)
    (refl : ∀ workspace, holds workspace → relates workspace [] workspace)
    (trans : ∀ {a b c first second}, relates a first b → relates b second c → relates a (first ++ second) c)
    (each : ∀ workspace event, may workspace event → holds workspace →
      relates workspace (part (workspace, event)) (event.after workspace))
    (chain : Chain may before events after) (start : holds before) : relates before (events.flatMap part) after := by
  induction chain with
  | nil => exact refl _ start
  | cons first _ ih => exact trans (each _ _ first start) (ih (kept _ _ first start))

end Chain

section Looked

variable {workspace : Workspace} {index : Nat} {entry : Entry} {memo : Memo}

theorem Workspace.fits_looking (wellFormed : workspace.WellFormed) (at_index : workspace.At index entry)
    (recalls : memo.Recalls entry.file) (outer : List OuterRef) :
    Looking.Fits index entry workspace.requested ([] ++ outer)
      ((Looking.start entry workspace.requested memo).lookForAll index outer) :=
  (Looking.Fits.start index workspace.requested (wellFormed.tidy index entry at_index) recalls).lookForAll outer

/-- What references remember makes no difference to a visit. -/
theorem Workspace.look_looking (wellFormed : workspace.WellFormed) (at_index : workspace.At index entry)
    (recalls : memo.Recalls entry.file) (outer : List OuterRef) :
    workspace.look index entry outer =
      (workspace.during index ((Looking.start entry workspace.requested memo).lookForAll index outer).visit,
        ((Looking.start entry workspace.requested memo).lookForAll index outer).visit) := by
  have tidy := wellFormed.tidy index entry at_index
  rw [(Looking.Fits.start index workspace.requested tidy recalls).visit_lookForAll outer]
  rfl

/-- Imports are to be followed for what a visit gathers. -/
theorem Workspace.follows_looking (wellFormed : workspace.WellFormed) (at_index : workspace.At index entry)
    {looking : Looking} {outer : List OuterRef}
    (looked : workspace.look index entry outer = (workspace.during index looking.visit, looking.visit)) :
    index < (workspace.during index looking.visit).files.entries.length ∧
      (∀ ref ∈ looking.visit.outside, (workspace.during index looking.visit).Follows index ref false) ∧
      ∀ ref ∈ looking.visit.unmatched, (workspace.during index looking.visit).Follows index ref true := by
  have at_later := at_look_self at_index outer
  have outside (ref : OuterRef) := @follows_outside_look workspace index entry wellFormed at_index outer ref
  have unmatched (ref : OuterRef) := @follows_unmatched_look workspace index entry wellFormed at_index outer ref
  rw [looked] at at_later outside unmatched
  exact ⟨at_later.lt, outside, unmatched⟩

end Looked

namespace Happens

variable {command : Workspace.Command} {workspace : Workspace} {event : Event}

/-- An event is one of the changes by which a workspace stays firm and grows. -/
theorem grows_firm (happens : Happens command workspace event) (firm : workspace.Firm) :
    workspace.Grows (event.after workspace) ∧ (event.after workspace).Firm := by
  cases happens with
  | named | read => exact ⟨.refl workspace, firm⟩
  | opened _ missing _ answers =>
    cases answers with
    | file _ parsed => exact ⟨(workspace.grows_log _).trans (Workspace.grows_add _ _), (firm.log _).add missing parsed⟩
    | fault | malformed => exact ⟨workspace.grows_log _, firm.log _⟩
  | added _ missing parsed => exact ⟨workspace.grows_add _, firm.add missing parsed⟩
  | rooted at_index => exact ⟨Workspace.grows_root at_index, firm.root at_index⟩
  | @visited _ _ _ _ _ outer _ _ at_index recalls =>
    have grown := Workspace.grows_look firm.wellFormed at_index outer
    have firmLook := firm.look at_index outer
    rw [Workspace.look_looking firm.wellFormed at_index recalls] at grown firmLook
    exact ⟨grown, firmLook⟩
  | patterned pattern =>
    exact ⟨⟨fun _ entry at_index => ⟨entry, at_index, .refl entry⟩, fun _ => id⟩,
      ⟨firm.wellFormed.tidy, firm.wellFormed.distinct, firm.wellFormed.requested⟩,
      ⟨firm.settled.roots, firm.settled.messages, firm.settled.visits⟩⟩

end Happens

end ProtoSchema
