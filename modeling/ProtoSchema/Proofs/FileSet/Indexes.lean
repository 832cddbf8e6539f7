import Mathlib.Data.List.AList
import Mathlib.Data.List.Induction
import ProtoSchema.FileSet.Basic

namespace ProtoSchema

theorem getElem?_concat_iff {α : Type} {items : List α} {item found : α} {place : Nat} :
    (items ++ [item])[place]? = some found ↔ place = items.length ∧ found = item ∨ items[place]? = some found := by
  rw [List.getElem?_append]
  grind

/-- The place of each name, and for each package the places of the files that declare it. -/
structure Indexes where
  byName : AList fun _ : String => Nat
  byPackage : AList fun _ : String => List Nat

namespace Indexes

def empty : Indexes :=
  ⟨∅, ∅⟩

def placesIn (indexes : Indexes) (package : String) : List Nat :=
  (indexes.byPackage.lookup package).getD []

/-- Inserts a file at a place that comes behind all others. It takes its name over from any file that had it before. -/
def insert (indexes : Indexes) (place : Nat) (file : File) : Indexes where
  byName := indexes.byName.insert file.name place
  byPackage := match file.package with
    | some package => indexes.byPackage.insert package (indexes.placesIn package ++ [place])
    | none => indexes.byPackage

/-- Inserts files one after another, the first one at `place`. -/
def insertAll (indexes : Indexes) (place : Nat) : List File → Indexes
  | [] => indexes
  | file :: rest => (indexes.insert place file).insertAll (place + 1) rest

def ofFiles (files : List File) : Indexes :=
  empty.insertAll 0 files

theorem insertAll_append (indexes : Indexes) (place : Nat) (files more : List File) :
    indexes.insertAll place (files ++ more) = (indexes.insertAll place files).insertAll (place + files.length) more := by
  induction files generalizing indexes place with
  | nil => rfl
  | cons first rest ih =>
    rw [List.cons_append, insertAll, ih, insertAll, List.length_cons, Nat.add_assoc, Nat.add_comm 1]

theorem ofFiles_append (files more : List File) :
    ofFiles (files ++ more) = (ofFiles files).insertAll files.length more := by
  rw [ofFiles, insertAll_append, Nat.zero_add, ofFiles]

theorem ofFiles_concat (files : List File) (file : File) :
    ofFiles (files ++ [file]) = (ofFiles files).insert files.length file :=
  ofFiles_append files [file]

section Insert

variable (indexes : Indexes) (place : Nat) (file : File)

theorem lookup_byName_insert (name : String) :
    (indexes.insert place file).byName.lookup name =
      if name = file.name then some place else indexes.byName.lookup name := by
  split
  next same =>
    subst same
    exact AList.lookup_insert _
  next other => exact AList.lookup_insert_ne other

theorem lookup_byPackage_insert (package : String) :
    (indexes.insert place file).byPackage.lookup package =
      if file.package = some package then some (indexes.placesIn package ++ [place])
      else indexes.byPackage.lookup package := by
  unfold insert
  cases declared : file.package with
  | none => simp
  | some own =>
    by_cases same : own = package
    · subst same
      simp
    · rw [if_neg (by simpa using same)]
      exact AList.lookup_insert_ne (Ne.symm same)

theorem placesIn_insert (package : String) :
    (indexes.insert place file).placesIn package =
      indexes.placesIn package ++ if file.package = some package then [place] else [] := by
  rw [placesIn, lookup_byPackage_insert]
  split
  · rfl
  · rw [List.append_nil, placesIn]

end Insert

section OfFiles

variable {files : List File} {name package : String} {place : Nat}

/-- A name leads to the place of the file that has it, if no other file does. -/
theorem lookup_byName_ofFiles (distinct : (files.map File.name).Nodup) :
    (ofFiles files).byName.lookup name = some place ↔ ∃ file, files[place]? = some file ∧ file.name = name := by
  induction files using List.reverseRecOn with
  | nil => simp [ofFiles, empty, insertAll]
  | append_singleton files file ih =>
    rw [List.map_append, List.nodup_append] at distinct
    obtain ⟨before, _, apart⟩ := distinct
    rw [ofFiles_concat, lookup_byName_insert]
    simp only [getElem?_concat_iff]
    split
    next same =>
      subst same
      constructor
      · rintro found
        exact ⟨file, Or.inl ⟨(Option.some.inj found).symm, rfl⟩, rfl⟩
      · rintro ⟨found, ⟨rfl, _⟩ | old, named⟩
        · rfl
        · exact absurd named (apart _ (List.mem_map_of_mem (List.mem_of_getElem? old)) _ (by simp))
    next other =>
      rw [ih before]
      constructor
      · rintro ⟨found, old, named⟩
        exact ⟨found, Or.inr old, named⟩
      · rintro ⟨found, ⟨_, rfl⟩ | old, named⟩
        · exact absurd named.symm other
        · exact ⟨found, old, named⟩

theorem mem_placesIn_ofFiles :
    place ∈ (ofFiles files).placesIn package ↔ ∃ file, files[place]? = some file ∧ file.package = some package := by
  induction files using List.reverseRecOn with
  | nil => simp [ofFiles, empty, insertAll, placesIn]
  | append_singleton files file ih =>
    rw [ofFiles_concat, placesIn_insert, List.mem_append, ih]
    simp only [getElem?_concat_iff]
    constructor
    · rintro (⟨found, old, declares⟩ | here)
      · exact ⟨found, Or.inr old, declares⟩
      · split at here
        next declares => exact ⟨file, Or.inl ⟨List.mem_singleton.1 here, rfl⟩, declares⟩
        next => contradiction
    · rintro ⟨found, ⟨rfl, rfl⟩ | old, declares⟩
      · exact Or.inr (by simp [declares])
      · exact Or.inl ⟨found, old, declares⟩

theorem lt_of_mem_placesIn (member : place ∈ (ofFiles files).placesIn package) : place < files.length := by
  obtain ⟨file, found, _⟩ := mem_placesIn_ofFiles.1 member
  exact (List.getElem?_eq_some_iff.1 found).1

/-- The places of a package ascend, so none comes twice. -/
theorem placesIn_ascending (files : List File) (package : String) :
    ((ofFiles files).placesIn package).Pairwise (· < ·) := by
  induction files using List.reverseRecOn with
  | nil => exact .nil
  | append_singleton files file ih =>
    rw [ofFiles_concat, placesIn_insert]
    split
    · refine List.pairwise_append.2 ⟨ih, List.pairwise_singleton .., fun place member last here => ?_⟩
      rw [List.mem_singleton.1 here]
      exact lt_of_mem_placesIn member
    · rwa [List.append_nil]

/-- A package that no file declares is not in the map. -/
theorem lookup_byPackage_ne_nil (files : List File) (package : String) :
    (ofFiles files).byPackage.lookup package ≠ some [] := by
  induction files using List.reverseRecOn with
  | nil => simp [ofFiles, empty, insertAll]
  | append_singleton files file ih =>
    rw [ofFiles_concat, lookup_byPackage_insert]
    split
    · simp
    · exact ih

/-- The files at the places of a package are those that declare it. -/
theorem filterMap_placesIn (files : List File) (package : String) :
    ((ofFiles files).placesIn package).filterMap (fun place => files[place]?) =
      files.filter fun file => file.package == some package := by
  induction files using List.reverseRecOn with
  | nil => rfl
  | append_singleton files file ih =>
    have kept : ((ofFiles files).placesIn package).filterMap (fun place => (files ++ [file])[place]?) =
        ((ofFiles files).placesIn package).filterMap fun place => files[place]? := by
      refine List.filterMap_congr fun place member => ?_
      rw [List.getElem?_append_left (lt_of_mem_placesIn member)]
    rw [ofFiles_concat, placesIn_insert, List.filterMap_append, kept, ih, List.filter_append]
    by_cases declares : file.package = some package <;> simp [declares]

end OfFiles

end Indexes

namespace FileSet

/-- The maps as they are when the files have been inserted one after another. -/
def indexes (files : FileSet) : Indexes :=
  .ofFiles files.toList

end FileSet

end ProtoSchema
