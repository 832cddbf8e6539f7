import Mathlib.Data.List.Nodup
import Mathlib.Data.List.Perm.Subperm
import Mathlib.Data.List.ProdSigma
import ProtoSchema.Proofs.Grammar.Size
import ProtoSchema.Proofs.Search.Step

namespace ProtoSchema

section FromTexts

variable {α : Type} (part : File → List α)

/-- A part of the files that some texts declare, one file after another. -/
def fromTexts (texts : List String) : List α :=
  texts.flatMap fun text => match parse "" text with
    | .ok file => part file
    | .error _ => []

variable {part}

theorem mem_fromTexts {texts : List String} {name text : String} {file : File} {a : α} (member : text ∈ texts)
    (parsed : parse name text = .ok file) (has : a ∈ part { file with name := "" }) : a ∈ fromTexts part texts :=
  List.mem_flatMap.2 ⟨text, member, by rwa [parse_rename parsed ""]⟩

theorem length_fromTexts_le (bound : ∀ file, (part file).length ≤ file.size) (texts : List String) :
    (fromTexts part texts).length ≤ Search.totalSize texts := by
  induction texts with
  | nil => exact Nat.le_refl _
  | cons text texts ih =>
    have first : (match parse "" text with | .ok file => part file | .error _ => []).length ≤ text.utf8ByteSize := by
      split
      next file parsed => exact (bound file).trans (size_le_of_parse parsed)
      next => exact Nat.zero_le _
    simp only [fromTexts, List.flatMap_cons, List.length_append] at ih ⊢
    exact Nat.add_le_add first ih

end FromTexts

theorem Search.totalSize_append (before after : List String) :
    totalSize (before ++ after) = totalSize before + totalSize after := by
  induction before with
  | nil => simp [totalSize]
  | cons text before ih =>
    simp only [totalSize, List.cons_append, List.foldr_cons] at ih ⊢
    omega

/-- The paths that a file imports. -/
def File.paths (file : File) : List String :=
  file.imports.map Import.path

/-- The references that a file can hand to other files. -/
def File.outers (file : File) : List OuterRef :=
  file.types.map (OuterRef.ofRef file)

theorem File.outside_uses_subset (file : File) : ∀ outer ∈ (file.uses file.types).outside, outer ∈ file.outers := by
  intro outer outside
  obtain ⟨ref, used, _, rfl⟩ := File.mem_outside_uses.1 outside
  exact List.mem_map_of_mem used

namespace Workspace

variable {workspace before after : Workspace} {loader : Loader}

/-- Whether each file is what its source says, and each reference that has been looked for is one of a file
that is there and has been looked for once. -/
structure Grounded (workspace : Workspace) : Prop where
  parsed : ∀ (index : Nat) (entry : Entry), workspace.At index entry →
    parse entry.file.name entry.source = .ok entry.file
  written : ∀ pair ∈ workspace.requested, ∃ index entry, workspace.At index entry ∧ pair.2 ∈ entry.file.outers
  once : workspace.requested.Nodup

theorem Grounded.empty : Workspace.empty.Grounded where
  parsed _ _ at_index := absurd at_index not_at_empty
  written pair member := by simp [Workspace.empty] at member
  once := List.nodup_nil

/-- What an import is followed for is written in a file that is there. -/
theorem Grounded.written_of_follows {index : Nat} {outer : OuterRef} {handedOn : Bool} (grounded : workspace.Grounded)
    (follows : workspace.Follows index outer handedOn) :
    ∃ other entry, workspace.At other entry ∧ outer ∈ entry.file.outers := by
  cases follows with
  | @root entry at_index _ outside => exact ⟨index, entry, at_index, entry.file.outside_uses_subset _ outside⟩
  | @message entry _ at_index _ outside =>
    exact ⟨index, entry, at_index, entry.file.outside_uses_subset _ (entry.outside_usesAt outside)⟩
  | handedOn _ requested _ => exact grounded.written _ requested

theorem Grounded.add {name : String} {source : Source} {file : File} (grounded : workspace.Grounded)
    (parsed : parse name source.text = .ok file) : (workspace.add (.ofFile file source.path source.text)).Grounded where
  parsed index entry at_index := by
    rcases at_add_iff.1 at_index with ⟨_, rfl⟩ | old
    · have named : file.name = name := parse_name parsed
      simpa [Entry.ofFile, named] using parsed
    · exact grounded.parsed index entry old
  written pair member := by
    obtain ⟨index, entry, at_index, written⟩ := grounded.written pair member
    exact ⟨index, entry, at_add_iff.2 (Or.inr at_index), written⟩
  once := grounded.once

theorem Grounded.replace {index : Nat} {old entry : Entry} {requested : List (Nat × OuterRef)}
    (grounded : workspace.Grounded) (at_index : workspace.At index old) (grows : old.Grows entry)
    (written : ∀ pair ∈ requested, pair ∈ workspace.requested ∨
      ∃ index entry, workspace.At index entry ∧ pair.2 ∈ entry.file.outers) (once : requested.Nodup) :
    ({ workspace.setEntry index entry with requested } : Workspace).Grounded where
  parsed other found at_other := by
    rcases (at_replace_iff at_index).1 at_other with ⟨_, rfl⟩ | ⟨_, elsewhere⟩
    · rw [grows.file, grows.source]
      exact grounded.parsed index old at_index
    · exact grounded.parsed other found elsewhere
  written pair member := by
    have stays {other : Nat} {found : Entry} (at_other : workspace.At other found) :
        ∃ now, ({ workspace.setEntry index entry with requested } : Workspace).At other now ∧ now.file = found.file := by
      by_cases same : other = index
      · subst same
        obtain rfl := at_index.unique at_other
        exact ⟨entry, (at_replace_iff at_index).2 (Or.inl ⟨rfl, rfl⟩), grows.file⟩
      · exact ⟨found, (at_replace_iff at_index).2 (Or.inr ⟨same, at_other⟩), rfl⟩
    obtain ⟨other, found, at_other, has⟩ : ∃ index entry, workspace.At index entry ∧ pair.2 ∈ entry.file.outers :=
      (written pair member).elim (grounded.written pair) id
    obtain ⟨now, at_now, same⟩ := stays at_other
    exact ⟨other, now, at_now, same ▸ has⟩
  once := once

theorem Advance.grounded (advance : Advance loader before after) (wellFormed : before.WellFormed)
    (grounded : before.Grounded) : after.Grounded := by
  have once := advance.requested_nodup grounded.once
  cases advance with
  | asked => exact ⟨grounded.parsed, grounded.written, once⟩
  | loaded _ _ _ _ parsed => exact grounded.add parsed
  | @looked index entry outer at_index sought =>
    have fits := fits_look wellFormed at_index outer
    refine grounded.replace at_index fits.grows ?_ once
    rintro ⟨other, ref⟩ member
    rcases (fits.requested (other, ref)).1 member with known | ⟨_, isOuter⟩
    · exact Or.inl known
    · obtain ⟨source, handedOn, item, follows, _⟩ := sought ref isOuter
      exact Or.inr (grounded.written_of_follows follows)

theorem Step.grounded (step : Step loader before after) (wellFormed : before.WellFormed)
    (grounded : before.Grounded) : after.Grounded := by
  cases step with
  | advance advance => exact advance.grounded wellFormed grounded
  | rootAsked => exact ⟨grounded.parsed, grounded.written, grounded.once⟩
  | rootLoaded _ parsed => exact grounded.add parsed
  | rooted at_index => exact grounded.replace at_index (Entry.grows_asRoot _) (fun _ => Or.inl) grounded.once

theorem Steps.grounded (steps : Steps loader before after) (wellFormed : before.WellFormed)
    (grounded : before.Grounded) : after.Grounded := by
  induction steps with
  | refl => exact grounded
  | tail earlier step ih => exact step.grounded (Steps.wellFormed earlier wellFormed) ih

/-- The names of the files. -/
def names (workspace : Workspace) : List String :=
  workspace.files.entries.map fun entry => entry.file.name

/-- The sources that there are and those that a loader has. -/
def texts (workspace : Workspace) (loader : Loader) : List String :=
  workspace.files.entries.map Entry.source ++ loader.texts

theorem At.name_mem {index : Nat} {entry : Entry} (at_index : workspace.At index entry) :
    entry.file.name ∈ workspace.names :=
  List.mem_map_of_mem (List.mem_of_getElem? at_index)

theorem At.source_mem {index : Nat} {entry : Entry} (at_index : workspace.At index entry) (loader : Loader) :
    entry.source ∈ workspace.texts loader :=
  List.mem_append_left _ (List.mem_map_of_mem (List.mem_of_getElem? at_index))

theorem WellFormed.names_nodup (wellFormed : workspace.WellFormed) : workspace.names.Nodup := by
  refine List.nodup_iff_injective_getElem.2 fun ⟨one, bound⟩ ⟨other, limit⟩ same => Fin.ext ?_
  simp only [names, List.length_map] at bound limit
  exact wellFormed.distinct one other _ _ (List.getElem?_eq_getElem bound) (List.getElem?_eq_getElem limit)
    (by simpa [names] using same)

/-- Whether the files of `after` are those of `before` and what the loader has for the imports of all of
them. -/
def Within (loader : Loader) (before after : Workspace) : Prop :=
  ∀ (index : Nat) (entry : Entry), after.At index entry →
    entry.source ∈ before.texts loader ∧ entry.file.name ∈ before.names ++ fromTexts File.paths (before.texts loader)

theorem Within.refl (loader : Loader) (workspace : Workspace) : Within loader workspace workspace :=
  fun _ _ at_index => ⟨at_index.source_mem loader, List.mem_append_left _ at_index.name_mem⟩

theorem Within.advance {start : Workspace} (within : Within loader start before) (advance : Advance loader before after)
    (wellFormed : before.WellFormed) (grounded : before.Grounded) : Within loader start after := by
  cases advance with
  | asked => exact within
  | @loaded source outer handedOn item text file follows imported missing loaded parsed =>
    intro index entry at_index
    rcases at_add_iff.1 at_index with ⟨_, rfl⟩ | old
    · obtain ⟨importer, at_source⟩ := follows.entry
      rw [importsOf_eq at_source] at imported
      have path : item.path ∈ importer.file.paths := List.mem_map_of_mem (List.mem_filter.1 imported).1
      refine ⟨List.mem_append_right _ (loader.text_mem loaded), List.mem_append_right _ ?_⟩
      rw [show (Entry.ofFile file text.path text.text).file.name = item.path from parse_name parsed]
      exact mem_fromTexts (within source importer at_source).1 (grounded.parsed source importer at_source) path
    · exact within index entry old
  | @looked place old outer at_index _ =>
    intro other found at_other
    rcases (at_look_iff at_index).1 at_other with ⟨rfl, rfl⟩ | ⟨_, elsewhere⟩
    · have grows := (fits_look wellFormed at_index outer).grows
      rw [grows.source, grows.file]
      exact within other old at_index
    · exact within other found elsewhere

theorem Advances.within (advances : Advances loader before after) (wellFormed : before.WellFormed)
    (grounded : before.Grounded) : Within loader before after := by
  induction advances with
  | refl => exact .refl loader before
  | tail earlier advance ih =>
    exact ih.advance advance (Advances.wellFormed earlier wellFormed)
      (Steps.grounded (Advances.steps earlier) wellFormed grounded)

/-- Following imports leads to no more files than there are names for them. -/
theorem Advances.length_entries_le (advances : Advances loader before after) (wellFormed : before.WellFormed)
    (grounded : before.Grounded) :
    after.files.entries.length ≤ before.files.entries.length + Search.totalSize (before.texts loader) := by
  have within := advances.within wellFormed grounded
  have known : after.names ⊆ before.names ++ fromTexts File.paths (before.texts loader) := by
    intro name member
    obtain ⟨entry, inside, rfl⟩ := List.mem_map.1 member
    obtain ⟨index, at_index⟩ := List.mem_iff_getElem?.1 inside
    exact (within index entry at_index).2
  have paths : (fromTexts File.paths (before.texts loader)).length ≤ Search.totalSize (before.texts loader) :=
    length_fromTexts_le (fun file => by simp [File.paths, File.size]) _
  calc
    after.files.entries.length = after.names.length := by simp [names]
    _ ≤ (before.names ++ fromTexts File.paths (before.texts loader)).length :=
      (Advances.wellFormed advances wellFormed).names_nodup.length_le_of_subset known
    _ ≤ before.files.entries.length + Search.totalSize (before.texts loader) := by
      rw [List.length_append]
      exact Nat.add_le_add (by simp [names]) paths

/-- Following imports looks for no more than every reference in every file. -/
theorem Advances.length_requested_le (advances : Advances loader before after) (wellFormed : before.WellFormed)
    (grounded : before.Grounded) :
    after.requested.length ≤ (before.files.entries.length + Search.totalSize (before.texts loader)) *
      Search.totalSize (before.texts loader) := by
  have wellFormedAfter := Advances.wellFormed advances wellFormed
  have groundedAfter := Steps.grounded advances.steps wellFormed grounded
  have within := advances.within wellFormed grounded
  have known : after.requested ⊆
      List.range after.files.entries.length ×ˢ fromTexts File.outers (before.texts loader) := by
    rintro ⟨index, outer⟩ member
    obtain ⟨found, at_index⟩ := wellFormedAfter.requested _ member
    obtain ⟨other, entry, at_other, written⟩ := groundedAfter.written _ member
    refine List.mem_product.2 ⟨List.mem_range.2 at_index.lt, ?_⟩
    exact mem_fromTexts (within other entry at_other).1 (groundedAfter.parsed other entry at_other) written
  have outers : (fromTexts File.outers (before.texts loader)).length ≤ Search.totalSize (before.texts loader) :=
    length_fromTexts_le (fun file => by simp [File.outers, File.size]) _
  calc
    after.requested.length ≤
        (List.range after.files.entries.length ×ˢ fromTexts File.outers (before.texts loader)).length :=
      groundedAfter.once.length_le_of_subset known
    _ = after.files.entries.length * (fromTexts File.outers (before.texts loader)).length := by
      rw [List.length_product, List.length_range]
    _ ≤ _ := Nat.mul_le_mul (advances.length_entries_le wellFormed grounded) outers

theorem texts_root {index : Nat} {entry : Entry} (at_index : workspace.At index entry) :
    (workspace.setEntry index entry.asRoot).texts loader = workspace.texts loader := by
  obtain ⟨bound, rfl⟩ := List.getElem?_eq_some_iff.1 at_index
  have inside : index < (workspace.files.entries.map Entry.source).length := by simpa using bound
  have here : workspace.files.entries[index].asRoot.source = (workspace.files.entries.map Entry.source)[index] := by
    simp [Entry.asRoot]
  simp only [texts, setEntry, List.map_set]
  rw [here, List.set_getElem_self]

/-- The depth of a search is more than the number of references that can be noted in it. -/
theorem length_lt_depthFor {index : Nat} {entry : Entry} (at_index : workspace.At index entry)
    (wellFormed : workspace.WellFormed) (grounded : workspace.Grounded)
    (advances : Advances loader (workspace.setEntry index entry.asRoot) after) :
    after.requested.length < Search.depthFor loader workspace := by
  have rooted : Step loader workspace (workspace.setEntry index entry.asRoot) := .rooted at_index
  have bound := advances.length_requested_le (rooted.wellFormed wellFormed) (rooted.grounded wellFormed grounded)
  rw [texts_root at_index] at bound
  have entries : (workspace.setEntry index entry.asRoot).files.entries.length = workspace.files.entries.length := by
    simp [setEntry]
  rw [entries] at bound
  have size : Search.totalSize (workspace.texts loader) ≤
      Search.totalSize (workspace.files.entries.map Entry.source ++ loader.texts ++ loader.disk.texts) := by
    rw [Search.totalSize_append _ loader.disk.texts]
    exact Nat.le_add_right _ _
  have files := Nat.le_succ_of_le (Nat.add_le_add_left size workspace.files.entries.length)
  have product := Nat.mul_le_mul files (Nat.le_succ_of_le size)
  exact Nat.lt_of_le_of_lt (bound.trans product) (Nat.lt_add_of_pos_right (by decide))

end Workspace

end ProtoSchema
