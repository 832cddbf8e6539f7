import ProtoSchema.Proofs.FileSet.Indexes
import ProtoSchema.Proofs.Search.Bounds
import ProtoSchema.Proofs.Search.Settled

namespace ProtoSchema

namespace Workspace

variable {workspace : Workspace}

theorem at_iff_toList {index : Nat} {file : File} :
    workspace.files.toList[index]? = some file ↔ ∃ entry, workspace.At index entry ∧ entry.file = file := by
  simp [FileSet.toList, At, Workspace.entry?]

theorem toList_setEntry {index : Nat} {old entry : Entry} (at_index : workspace.At index old)
    (same : entry.file = old.file) : (workspace.setEntry index entry).files.toList = workspace.files.toList := by
  obtain ⟨bound, rfl⟩ := List.getElem?_eq_some_iff.1 at_index
  have inside : index < workspace.files.toList.length := by simpa [FileSet.toList] using bound
  have here : entry.file = workspace.files.toList[index] := by simp [FileSet.toList, same]
  rw [FileSet.toList, setEntry, List.map_set, here]
  exact List.set_getElem_self inside

/-- Whether the maps, the flags and the notes of a workspace agree with its files. -/
structure Coherent (workspace : Workspace) : Prop where
  distinct : workspace.names.Nodup
  byName : ∀ name index, workspace.files.indexes.byName.lookup name = some index ↔
    ∃ entry, workspace.At index entry ∧ entry.file.name = name
  byPackage : ∀ package index, index ∈ workspace.files.indexes.placesIn package ↔
    ∃ entry, workspace.At index entry ∧ entry.file.package = some package
  ascending : ∀ package, (workspace.files.indexes.placesIn package).Pairwise (· < ·)
  declared : ∀ package, workspace.files.indexes.byPackage.lookup package ≠ some []
  /-- What is asked about names and packages is what the maps say. -/
  indexOf : ∀ name, workspace.files.indexOf? name = workspace.files.indexes.byName.lookup name
  filesIn : ∀ package, workspace.files.filesIn package =
    (workspace.files.indexes.placesIn package).filterMap fun index => workspace.files.toList[index]?
  flags : ∀ index entry, workspace.At index entry →
    entry.messageFlags.length = entry.file.messageTable.length ∧ entry.enumFlags.length = entry.file.enumTable.length
  roots : ∀ index entry, workspace.At index entry → entry.isRoot = true →
    (∀ flag ∈ entry.messageFlags, flag = true) ∧ ∀ flag ∈ entry.enumFlags, flag = true
  requested : ∀ pair ∈ workspace.requested, pair.1 < workspace.files.entries.length

section Maps

theorem WellFormed.lookup_byName (wellFormed : workspace.WellFormed) (name : String) (index : Nat) :
    workspace.files.indexes.byName.lookup name = some index ↔
      ∃ entry, workspace.At index entry ∧ entry.file.name = name := by
  have distinct : (workspace.files.toList.map File.name).Nodup := by
    rw [FileSet.toList, List.map_map]
    exact wellFormed.names_nodup
  rw [FileSet.indexes, Indexes.lookup_byName_ofFiles distinct]
  constructor
  · rintro ⟨_, found, named⟩
    obtain ⟨entry, at_index, rfl⟩ := at_iff_toList.1 found
    exact ⟨entry, at_index, named⟩
  · rintro ⟨entry, at_index, named⟩
    exact ⟨entry.file, at_iff_toList.2 ⟨entry, at_index, rfl⟩, named⟩

/-- The first file of a name is the one that the map leads to. -/
theorem WellFormed.indexOf?_eq (wellFormed : workspace.WellFormed) (name : String) :
    workspace.files.indexOf? name = workspace.files.indexes.byName.lookup name := by
  cases found : workspace.files.indexOf? name with
  | some index => exact ((wellFormed.lookup_byName name index).2 (names_of_indexOf? found)).symm
  | none =>
    refine (Option.eq_none_iff_forall_ne_some.2 fun index leads => ?_).symm
    obtain ⟨entry, at_index, named⟩ := (wellFormed.lookup_byName name index).1 leads
    exact name_ne_of_indexOf? found at_index named

theorem mem_placesIn_indexes (package : String) (index : Nat) :
    index ∈ workspace.files.indexes.placesIn package ↔
      ∃ entry, workspace.At index entry ∧ entry.file.package = some package := by
  rw [FileSet.indexes, Indexes.mem_placesIn_ofFiles]
  constructor
  · rintro ⟨_, found, declares⟩
    obtain ⟨entry, at_index, rfl⟩ := at_iff_toList.1 found
    exact ⟨entry, at_index, declares⟩
  · rintro ⟨entry, at_index, declares⟩
    exact ⟨entry.file, at_iff_toList.2 ⟨entry, at_index, rfl⟩, declares⟩

end Maps

/-- What a search may rely on wherever it has got to. -/
structure Firm (workspace : Workspace) : Prop where
  wellFormed : workspace.WellFormed
  settled : workspace.Settled

theorem Firm.coherent (firm : workspace.Firm) : workspace.Coherent where
  distinct := firm.wellFormed.names_nodup
  byName := firm.wellFormed.lookup_byName
  byPackage := mem_placesIn_indexes
  ascending := Indexes.placesIn_ascending _
  declared := Indexes.lookup_byPackage_ne_nil _
  indexOf := firm.wellFormed.indexOf?_eq
  filesIn package := (Indexes.filterMap_placesIn _ package).symm
  flags index entry at_index :=
    have tidy := firm.wellFormed.tidy index entry at_index
    ⟨tidy.messageFlags, tidy.enumFlags⟩
  roots index entry at_index root :=
    (firm.wellFormed.tidy index entry at_index).flags_set fun decl => firm.settled.roots index entry decl at_index root
  requested pair member := by
    obtain ⟨entry, at_index⟩ := firm.wellFormed.requested pair member
    exact at_index.lt

theorem Firm.log (firm : workspace.Firm) (name : String) : (workspace.log name).Firm :=
  ⟨wellFormed_log firm.wellFormed name, firm.settled.log name⟩

theorem Firm.add {name : String} {source : Source} {file : File} (firm : workspace.Firm)
    (missing : workspace.files.indexOf? name = none) (parsed : parse name source.text = .ok file) :
    (workspace.add (.ofFile file source.path source.text)).Firm :=
  ⟨wellFormed_parsed firm.wellFormed missing parsed, firm.settled.add firm.wellFormed _ _ _⟩

theorem Firm.root {index : Nat} {entry : Entry} (firm : workspace.Firm) (at_index : workspace.At index entry) :
    (workspace.setEntry index entry.asRoot).Firm :=
  have tidy := (firm.wellFormed.tidy index entry at_index).asRoot
  ⟨firm.wellFormed.replace at_index entry.grows_asRoot tidy fun _ => Or.inl, firm.settled.root firm.wellFormed at_index⟩

theorem Firm.look {index : Nat} {entry : Entry} (firm : workspace.Firm) (at_index : workspace.At index entry)
    (outer : List OuterRef) : (workspace.look index entry outer).1.Firm :=
  ⟨firm.wellFormed.look at_index outer, firm.settled.look firm.wellFormed at_index outer⟩

end Workspace

end ProtoSchema
