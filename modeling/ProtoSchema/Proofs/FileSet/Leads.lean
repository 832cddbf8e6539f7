import ProtoSchema.Load
import ProtoSchema.Proofs.File.Tables
import ProtoSchema.Proofs.FileSet.Needs

namespace ProtoSchema

/-- A part of what roots lead to. The file is given by its name, so that nothing depends on the order in which files are
loaded. -/
inductive Part
  | file (name : String)
  | decl (name : String) (decl : DeclId)
  | visit (name : String) (outer : OuterRef)

namespace Loader

/-- The file that a loader has for a name: its source is found and parses. -/
def file? (loader : Loader) (name : String) : Option File :=
  (loader.load name).toOption.bind fun source => (parse name source.text).toOption

/-- The name of the root file at a path, if it has one that imports can use. -/
def rootName? (loader : Loader) (path : String) : Option String :=
  (loader.fileName? path).or (Path.fileName? path)

variable {loader : Loader} {roots more : String → Prop} {part : Part}

theorem file?_eq_some {name : String} {source : Source} {file : File} (loaded : loader.load name = .ok source)
    (parsed : parse name source.text = .ok file) : loader.file? name = some file := by
  simp [file?, loaded, parsed, Except.toOption]

theorem file?_eq_none_of_fault {name : String} {fault : LoadFault} (loaded : loader.load name = .error fault) :
    loader.file? name = none := by
  simp [file?, loaded, Except.toOption]

theorem file?_eq_none_of_malformed {name : String} {source : Source} {error : SyntaxError}
    (loaded : loader.load name = .ok source) (parsed : parse name source.text = .error error) :
    loader.file? name = none := by
  simp [file?, loaded, parsed, Except.toOption]

/-- What the root files of some names lead to. -/
inductive Leads (loader : Loader) (roots : String → Prop) : Part → Prop
  | root {name : String} : roots name → Leads loader roots (.file name)
  | rootDecl {name : String} {file : File} {decl : DeclId} :
      roots name → loader.file? name = some file → file.Declares decl → Leads loader roots (.decl name decl)
  | rootVisit {name : String} {file : File} {outer : OuterRef} {item : Import} :
      roots name → loader.file? name = some file → outer ∈ (file.uses file.types).outside → item ∈ file.imports →
      Leads loader roots (.visit item.path outer)
  | visited {name : String} {outer : OuterRef} :
      Leads loader roots (.visit name outer) → Leads loader roots (.file name)
  | found {name : String} {file : File} {outer : OuterRef} {decl : DeclId} :
      Leads loader roots (.visit name outer) → loader.file? name = some file → outer.resolve file = some decl →
      Leads loader roots (.decl name decl)
  | handedOn {name : String} {file : File} {outer : OuterRef} {item : Import} :
      Leads loader roots (.visit name outer) → loader.file? name = some file → outer.resolve file = none →
      item ∈ file.imports → item.kind = .reexported → Leads loader roots (.visit item.path outer)
  | refers {name : String} {file : File} {id : MessageId} {message : Message} {ref : TypeRef} {decl : DeclId} :
      Leads loader roots (.decl name (.message id)) → loader.file? name = some file →
      file.message? id = some message → ref ∈ message.types → ref.isScalar = false → ref.resolve file = some decl →
      Leads loader roots (.decl name decl)
  | refersOutside {name : String} {file : File} {id : MessageId} {message : Message} {ref : TypeRef} {item : Import} :
      Leads loader roots (.decl name (.message id)) → loader.file? name = some file →
      file.message? id = some message → ref ∈ message.types → ref.Outside file → item ∈ file.imports →
      Leads loader roots (.visit item.path (OuterRef.ofRef file ref))

theorem Leads.mono (leads : loader.Leads roots part) (weaker : ∀ name, roots name → more name) :
    loader.Leads more part := by
  induction leads with
  | root isRoot => exact .root (weaker _ isRoot)
  | rootDecl isRoot loaded declared => exact .rootDecl (weaker _ isRoot) loaded declared
  | rootVisit isRoot loaded outside imported => exact .rootVisit (weaker _ isRoot) loaded outside imported
  | visited _ ih => exact .visited ih
  | found _ loaded means ih => exact .found ih loaded means
  | handedOn _ loaded missed imported kind ih => exact .handedOn ih loaded missed imported kind
  | refers _ loaded at_id used named means ih => exact .refers ih loaded at_id used named means
  | refersOutside _ loaded at_id used outside imported ih => exact .refersOutside ih loaded at_id used outside imported

/-- Each rule goes on from one part, so what roots lead to together one of them leads to alone. -/
theorem leads_iff_exists : loader.Leads roots part ↔ ∃ name, roots name ∧ loader.Leads (· = name) part := by
  constructor
  · intro leads
    induction leads with
    | root isRoot => exact ⟨_, isRoot, .root rfl⟩
    | rootDecl isRoot loaded declared => exact ⟨_, isRoot, .rootDecl rfl loaded declared⟩
    | rootVisit isRoot loaded outside imported => exact ⟨_, isRoot, .rootVisit rfl loaded outside imported⟩
    | visited _ ih =>
      obtain ⟨root, isRoot, alone⟩ := ih
      exact ⟨root, isRoot, .visited alone⟩
    | found _ loaded means ih =>
      obtain ⟨root, isRoot, alone⟩ := ih
      exact ⟨root, isRoot, .found alone loaded means⟩
    | handedOn _ loaded missed imported kind ih =>
      obtain ⟨root, isRoot, alone⟩ := ih
      exact ⟨root, isRoot, .handedOn alone loaded missed imported kind⟩
    | refers _ loaded at_id used named means ih =>
      obtain ⟨root, isRoot, alone⟩ := ih
      exact ⟨root, isRoot, .refers alone loaded at_id used named means⟩
    | refersOutside _ loaded at_id used outside imported ih =>
      obtain ⟨root, isRoot, alone⟩ := ih
      exact ⟨root, isRoot, .refersOutside alone loaded at_id used outside imported⟩
  · rintro ⟨root, isRoot, alone⟩
    exact alone.mono fun _ same => same ▸ isRoot

end Loader

end ProtoSchema
