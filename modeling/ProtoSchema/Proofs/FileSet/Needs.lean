import ProtoSchema.FileSet.Closure

namespace ProtoSchema

/-- A part of a set of files that its roots may need, the file given by its place. A visit is a file in which a
reference from elsewhere is looked for. -/
inductive Need
  | message (index : Nat) (id : MessageId)
  | enum (index : Nat) (id : EnumId)
  | visit (index : Nat) (outer : OuterRef)
deriving DecidableEq, Repr

/-- What a reference in the file at `index` leads to when it means `decl` there. -/
def DeclId.need (index : Nat) : DeclId → Need
  | .message id => .message index id
  | .enum id => .enum index id

/-- Whether a reference of a file leads out of it: it is no scalar type, and the file does not declare it. -/
def TypeRef.Outside (file : File) (ref : TypeRef) : Prop :=
  ref.isScalar = false ∧ ref.resolve file = none

namespace FileSet

variable {files : FileSet}

/-- Whether the file at `target` has the name that an import statement gives. -/
def Names (files : FileSet) (item : Import) (target : Nat) : Prop :=
  ∃ entry, files.entries[target]? = some entry ∧ entry.file.name = item.path

/-- What the root files need as far as visits are `made`. -/
inductive NeedsBy (files : FileSet) (made : Nat → OuterRef → Prop) : Need → Prop
  | rootMessage {index : Nat} {entry : Entry} {id : MessageId} {message : Message} :
      files.entries[index]? = some entry → entry.isRoot = true → entry.file.message? id = some message →
      NeedsBy files made (.message index id)
  | rootEnum {index : Nat} {entry : Entry} {id : EnumId} {enum : Enum} :
      files.entries[index]? = some entry → entry.isRoot = true → entry.file.enum? id = some enum →
      NeedsBy files made (.enum index id)
  /-- What a root file refers to outside is looked for in all its imports. -/
  | rootVisit {index target : Nat} {entry : Entry} {ref : TypeRef} {item : Import} :
      files.entries[index]? = some entry → entry.isRoot = true → ref ∈ entry.file.types →
      ref.Outside entry.file → item ∈ entry.file.imports → files.Names item target →
      made target (OuterRef.ofRef entry.file ref) → NeedsBy files made (.visit target (OuterRef.ofRef entry.file ref))
  | found {index : Nat} {entry : Entry} {outer : OuterRef} {decl : DeclId} :
      NeedsBy files made (.visit index outer) → files.entries[index]? = some entry →
      outer.resolve entry.file = some decl → NeedsBy files made (decl.need index)
  /-- What a file does not declare is looked for in the files that it hands on. -/
  | handedOn {index target : Nat} {entry : Entry} {outer : OuterRef} {item : Import} :
      NeedsBy files made (.visit index outer) → files.entries[index]? = some entry →
      outer.resolve entry.file = none → item ∈ entry.file.imports → item.kind = .reexported →
      files.Names item target → made target outer → NeedsBy files made (.visit target outer)
  | refers {index : Nat} {entry : Entry} {id : MessageId} {message : Message} {ref : TypeRef} {decl : DeclId} :
      NeedsBy files made (.message index id) → files.entries[index]? = some entry →
      entry.file.message? id = some message → ref ∈ message.types → ref.isScalar = false →
      ref.resolve entry.file = some decl → NeedsBy files made (decl.need index)
  | refersOutside {index target : Nat} {entry : Entry} {id : MessageId} {message : Message} {ref : TypeRef}
      {item : Import} :
      NeedsBy files made (.message index id) → files.entries[index]? = some entry →
      entry.file.message? id = some message → ref ∈ message.types → ref.Outside entry.file →
      item ∈ entry.file.imports → files.Names item target →
      made target (OuterRef.ofRef entry.file ref) → NeedsBy files made (.visit target (OuterRef.ofRef entry.file ref))

/-- What the root files need when every visit is made that a reference calls for. -/
def Needs (files : FileSet) : Need → Prop :=
  files.NeedsBy fun _ _ => True

/-- Whether `after` has all files of `before` at their places, and among its roots all roots of `before`. -/
def Extends (before after : FileSet) : Prop :=
  ∀ (index : Nat) (entry : Entry), before.entries[index]? = some entry →
    ∃ later : Entry, after.entries[index]? = some later ∧ later.file = entry.file ∧
      (entry.isRoot = true → later.isRoot = true)

theorem Extends.refl (files : FileSet) : files.Extends files :=
  fun _ entry at_index => ⟨entry, at_index, rfl, id⟩

theorem Names.mono {before after : FileSet} (extend : before.Extends after) {item : Import} {target : Nat}
    (names : before.Names item target) : after.Names item target := by
  obtain ⟨entry, at_target, named⟩ := names
  obtain ⟨later, at_later, same, _⟩ := extend target entry at_target
  exact ⟨later, at_later, same ▸ named⟩

/-- More files and more visits need more. -/
theorem NeedsBy.mono {before after : FileSet} {made more : Nat → OuterRef → Prop} (extend : before.Extends after)
    (makes : ∀ index outer, made index outer → more index outer) {need : Need}
    (needs : before.NeedsBy made need) : after.NeedsBy more need := by
  induction needs with
  | rootMessage at_index root declared =>
    obtain ⟨later, at_later, same, stays⟩ := extend _ _ at_index
    exact .rootMessage at_later (stays root) (same ▸ declared)
  | rootEnum at_index root declared =>
    obtain ⟨later, at_later, same, stays⟩ := extend _ _ at_index
    exact .rootEnum at_later (stays root) (same ▸ declared)
  | rootVisit at_index root used outside imported names visited =>
    obtain ⟨later, at_later, same, stays⟩ := extend _ _ at_index
    rw [← same] at used outside imported visited ⊢
    exact .rootVisit at_later (stays root) used outside imported (names.mono extend) (makes _ _ visited)
  | found _ at_index means ih =>
    obtain ⟨later, at_later, same, _⟩ := extend _ _ at_index
    exact .found ih at_later (same ▸ means)
  | handedOn _ at_index means imported kind names visited ih =>
    obtain ⟨later, at_later, same, _⟩ := extend _ _ at_index
    rw [← same] at means imported
    exact .handedOn ih at_later means imported kind (names.mono extend) (makes _ _ visited)
  | refers _ at_index at_id used scalar means ih =>
    obtain ⟨later, at_later, same, _⟩ := extend _ _ at_index
    rw [← same] at at_id means
    exact .refers ih at_later at_id used scalar means
  | refersOutside _ at_index at_id used outside imported names visited ih =>
    obtain ⟨later, at_later, same, _⟩ := extend _ _ at_index
    rw [← same] at at_id outside imported visited ⊢
    exact .refersOutside ih at_later at_id used outside imported (names.mono extend) (makes _ _ visited)

end FileSet

end ProtoSchema
