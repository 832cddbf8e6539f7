import ProtoSchema.Proofs.Search.Visit

namespace ProtoSchema

theorem Entry.Tidy.ofFile {file : File} (ordered : file.InOrder) (path : Option String) (source : String) :
    (Entry.ofFile file path source).Tidy :=
  ⟨ordered, by simp [Entry.ofFile], by simp [Entry.ofFile]⟩

theorem Entry.not_has_ofFile {file : File} {path : Option String} {source : String} {decl : DeclId} :
    ¬(Entry.ofFile file path source).Has decl := by
  intro has
  cases decl with
  | message id =>
    simp only [Has, includes, ofFile, List.getElem?_map, Option.map_eq_some_iff, decide_eq_true_eq] at has
    obtain ⟨_, _, set⟩ := has
    contradiction
  | enum id =>
    simp only [Has, reaches, ofFile, List.getElem?_map, Option.map_eq_some_iff, decide_eq_true_eq] at has
    obtain ⟨_, _, set⟩ := has
    contradiction

theorem Entry.Tidy.asRoot {entry : Entry} (tidy : entry.Tidy) : entry.asRoot.Tidy :=
  ⟨tidy.ordered, by simpa [Entry.asRoot] using tidy.messageFlags, by simpa [Entry.asRoot] using tidy.enumFlags⟩

theorem Entry.includes_asRoot (entry : Entry) (id : MessageId) :
    entry.asRoot.includes id = true ↔ id.index < entry.messageFlags.length := by
  simp only [Entry.includes, Entry.asRoot, List.getElem?_map, Option.map_eq_some_iff, and_true, decide_eq_true_eq,
    ← Option.isSome_iff_exists, isSome_getElem?]

theorem Entry.reaches_asRoot (entry : Entry) (id : EnumId) :
    entry.asRoot.reaches id = true ↔ id.index < entry.enumFlags.length := by
  simp only [Entry.reaches, Entry.asRoot, List.getElem?_map, Option.map_eq_some_iff, and_true, decide_eq_true_eq,
    ← Option.isSome_iff_exists, isSome_getElem?]

theorem Entry.Tidy.has_asRoot_iff {entry : Entry} (tidy : entry.Tidy) {decl : DeclId} :
    entry.asRoot.Has decl ↔ entry.file.Declares decl := by
  cases decl with
  | message id =>
    rw [Entry.Has, Entry.includes_asRoot, tidy.messageFlags]
    simp only [File.Declares, File.message?, ← Option.isSome_iff_exists, isSome_getElem?]
  | enum id =>
    rw [Entry.Has, Entry.reaches_asRoot, tidy.enumFlags]
    simp only [File.Declares, File.enum?, ← Option.isSome_iff_exists, isSome_getElem?]

/-- An entry that has all that its file declares has all its flags set. -/
theorem Entry.Tidy.flags_set {entry : Entry} (tidy : entry.Tidy)
    (has : ∀ decl, entry.file.Declares decl → entry.Has decl) :
    (∀ flag ∈ entry.messageFlags, flag = true) ∧ ∀ flag ∈ entry.enumFlags, flag = true := by
  constructor <;> intro flag member <;> obtain ⟨place, bound, rfl⟩ := List.getElem_of_mem member
  · have declared : entry.file.Declares (.message ⟨place⟩) :=
      ⟨_, List.getElem?_eq_getElem (tidy.messageFlags ▸ bound)⟩
    exact (List.getElem?_eq_some_iff.1 (of_decide_eq_true (has _ declared))).2
  · have declared : entry.file.Declares (.enum ⟨place⟩) := ⟨_, List.getElem?_eq_getElem (tidy.enumFlags ▸ bound)⟩
    exact (List.getElem?_eq_some_iff.1 (of_decide_eq_true (has _ declared))).2

theorem Entry.grows_asRoot (entry : Entry) : entry.Grows entry.asRoot where
  file := rfl
  path := rfl
  source := rfl
  isRoot _ := rfl
  includes id included := by
    simp only [Entry.includes, decide_eq_true_eq] at included
    exact (entry.includes_asRoot id).2 (List.getElem?_eq_some_iff.1 included).1
  reaches id reached := by
    simp only [Entry.reaches, decide_eq_true_eq] at reached
    exact (entry.reaches_asRoot id).2 (List.getElem?_eq_some_iff.1 reached).1

namespace Workspace

variable {workspace before after : Workspace}

/-- Whether the file at `index` has the record `entry`. -/
def At (workspace : Workspace) (index : Nat) (entry : Entry) : Prop :=
  workspace.entry? index = some entry

theorem At.unique {index : Nat} {entry other : Entry} (at_index : workspace.At index entry)
    (at_other : workspace.At index other) : entry = other :=
  Option.some.inj (at_index.symm.trans at_other)

theorem At.lt {index : Nat} {entry : Entry} (at_index : workspace.At index entry) :
    index < workspace.files.entries.length :=
  (List.getElem?_eq_some_iff.1 at_index).1

theorem not_at_empty {index : Nat} {entry : Entry} : ¬Workspace.empty.At index entry := by
  simp [At, Workspace.entry?, Workspace.empty, FileSet.empty]

/-- Whether `after` has all that `before` has gathered. -/
structure Grows (before after : Workspace) : Prop where
  entries : ∀ (index : Nat) (entry : Entry), before.At index entry →
    ∃ later, after.At index later ∧ entry.Grows later
  requested : ∀ pair ∈ before.requested, pair ∈ after.requested

theorem Grows.refl (workspace : Workspace) : workspace.Grows workspace :=
  ⟨fun _ entry at_index => ⟨entry, at_index, .refl entry⟩, fun _ => id⟩

theorem Grows.trans {a b c : Workspace} (first : a.Grows b) (second : b.Grows c) : a.Grows c where
  entries index entry at_index := by
    obtain ⟨middle, at_middle, grows⟩ := first.entries index entry at_index
    obtain ⟨later, at_later, growsOn⟩ := second.entries index middle at_middle
    exact ⟨later, at_later, grows.trans growsOn⟩
  requested pair := second.requested pair ∘ first.requested pair

theorem Grows.extends (grows : before.Grows after) : before.files.Extends after.files := by
  intro index entry at_index
  obtain ⟨later, at_later, same⟩ := grows.entries index entry at_index
  exact ⟨later, at_later, same.file, same.isRoot⟩

/-- Whether the file at `index` has a record that has grown from `entry`. -/
def Keeps (workspace : Workspace) (index : Nat) (entry : Entry) : Prop :=
  ∃ now, workspace.At index now ∧ entry.Grows now

theorem Keeps.grow {index : Nat} {entry : Entry} (keeps : before.Keeps index entry) (grows : before.Grows after) :
    after.Keeps index entry := by
  obtain ⟨now, at_index, grown⟩ := keeps
  obtain ⟨later, at_later, grownOn⟩ := grows.entries index now at_index
  exact ⟨later, at_later, grown.trans grownOn⟩

/-- What every workspace has that came about by gathering. -/
structure WellFormed (workspace : Workspace) : Prop where
  tidy : ∀ (index : Nat) (entry : Entry), workspace.At index entry → entry.Tidy
  distinct : ∀ (index other : Nat) (entry found : Entry), workspace.At index entry →
    workspace.At other found → entry.file.name = found.file.name → index = other
  requested : ∀ pair ∈ workspace.requested, ∃ entry, workspace.At pair.1 entry

/-- A file that is added comes behind all others. -/
theorem at_add_iff {index : Nat} {entry found : Entry} :
    (workspace.add entry).At index found ↔
      index = workspace.files.entries.length ∧ found = entry ∨ workspace.At index found := by
  simp only [At, Workspace.entry?, add, FileSet.add, List.getElem?_append]
  grind

section Replace

variable {index : Nat} {old entry : Entry} {requested : List (Nat × OuterRef)}

theorem at_replace_iff (at_index : workspace.At index old) {other : Nat} {found : Entry} :
    ({ workspace.setEntry index entry with requested } : Workspace).At other found ↔
      other = index ∧ found = entry ∨ other ≠ index ∧ workspace.At other found := by
  have bound := at_index.lt
  simp only [At, Workspace.entry?, setEntry, List.getElem?_set]
  grind

theorem at_setEntry_iff (at_index : workspace.At index old) {other : Nat} {found : Entry} :
    (workspace.setEntry index entry).At other found ↔
      other = index ∧ found = entry ∨ other ≠ index ∧ workspace.At other found :=
  at_replace_iff at_index

end Replace

theorem names_of_indexOf? {name : String} {index : Nat} (found : workspace.files.indexOf? name = some index) :
    ∃ entry, workspace.At index entry ∧ entry.file.name = name := by
  obtain ⟨bound, named, _⟩ := List.findIdx?_eq_some_iff_getElem.1 found
  exact ⟨_, List.getElem?_eq_getElem bound, by simpa using named⟩

theorem name_ne_of_indexOf? {name : String} (missing : workspace.files.indexOf? name = none) {index : Nat}
    {entry : Entry} (at_index : workspace.At index entry) : entry.file.name ≠ name := by
  have other := List.findIdx?_eq_none_iff.1 missing entry (List.mem_of_getElem? at_index)
  simpa using other

theorem WellFormed.empty : Workspace.empty.WellFormed where
  tidy _ _ at_index := absurd at_index not_at_empty
  distinct _ _ _ _ at_index := absurd at_index not_at_empty
  requested pair member := by simp [Workspace.empty] at member

theorem grows_add (workspace : Workspace) (entry : Entry) : workspace.Grows (workspace.add entry) where
  entries _ old at_index := ⟨old, at_add_iff.2 (Or.inr at_index), .refl old⟩
  requested _ := id

theorem WellFormed.add (wellFormed : workspace.WellFormed) {entry : Entry} (tidy : entry.Tidy)
    (missing : workspace.files.indexOf? entry.file.name = none) : (workspace.add entry).WellFormed where
  tidy index found at_index := by
    rcases at_add_iff.1 at_index with ⟨_, rfl⟩ | old
    · exact tidy
    · exact wellFormed.tidy index found old
  distinct index other first second at_index at_other same := by
    rcases at_add_iff.1 at_index with ⟨rfl, rfl⟩ | oldFirst <;>
      rcases at_add_iff.1 at_other with ⟨rfl, rfl⟩ | oldSecond
    · rfl
    · exact absurd same.symm (name_ne_of_indexOf? missing oldSecond)
    · exact absurd same (name_ne_of_indexOf? missing oldFirst)
    · exact wellFormed.distinct index other first second oldFirst oldSecond same
  requested pair member := by
    obtain ⟨found, at_index⟩ := wellFormed.requested pair member
    exact ⟨found, at_add_iff.2 (Or.inr at_index)⟩

end Workspace

end ProtoSchema
