import ProtoSchema.Disk.Basic
import ProtoSchema.Path

namespace ProtoSchema

/-- The text of a file, with the path that it was read from if it was read from a disk. -/
structure Source where
  path : Option String
  text : String
deriving DecidableEq, Repr

/-- The reasons for which a loader finds no text behind a name. -/
inductive LoadFault
  | notFound (name : String)
  | unreadable (name path : String) (cause : IoFault)
  /-- Refused by whoever keeps the sources, in their own words. -/
  | refused (text : String)
  /-- Access denied, in the words of whoever denied it. -/
  | denied (text : String)
deriving DecidableEq, Repr

/-- Reads the file at a path, to be known by a name. -/
def Disk.load (disk : Disk) (name path : String) : Except LoadFault Source :=
  match disk.read path with
  | .ok text => .ok ⟨some path, text⟩
  | .error .notFound => .error (.notFound name)
  | .error cause => .error (.unreadable name path cause)

theorem Disk.text_mem_of_load {disk : Disk} {name path : String} {source : Source}
    (ok : disk.load name path = .ok source) : source.text ∈ disk.texts := by
  unfold Disk.load at ok
  split at ok
  · rename_i read
    obtain rfl := Except.ok.inj ok
    exact disk.mem_texts read
  · contradiction
  · contradiction

/-- Answers for the sources behind names. A file at a path has a name if imports can reach it; the disk is there for
files that have a path but no name. -/
structure Loader where
  fileName? : String → Option String
  load : String → Except LoadFault Source
  texts : List String
  text_mem : ∀ {name source}, load name = .ok source → source.text ∈ texts
  disk : Disk

namespace Loader

/-- All files are found on a disk under one directory. -/
def underRoot (root : String) (disk : Disk) : Loader :=
  { fileName? := Path.nameUnder? root
    load := fun name => disk.load name (Path.join root name)
    texts := disk.texts
    text_mem := Disk.text_mem_of_load
    disk }

/-- The text that some entry gives for a name, or the fault it gives. -/
def find (files : List (String × Except LoadFault String)) (name : String) : Except LoadFault Source :=
  match files.lookup name with
  | some (.ok text) => .ok ⟨none, text⟩
  | some (.error fault) => .error fault
  | none => .error (.notFound name)

def textsOf (files : List (String × Except LoadFault String)) : List String :=
  files.filterMap fun (_, answer) => answer.toOption

theorem text_mem_of_find {files : List (String × Except LoadFault String)} {name : String} {source : Source}
    (ok : find files name = .ok source) : source.text ∈ textsOf files := by
  unfold find at ok
  split at ok
  · rename_i text looked
    obtain rfl := Except.ok.inj ok
    obtain ⟨before, after, rfl, _⟩ := List.lookup_eq_some_iff.1 looked
    exact List.mem_filterMap.2 ⟨(name, .ok text), by simp, rfl⟩
  · contradiction
  · contradiction

/-- All files are kept in a list by name, and so are the names of paths. -/
def ofFiles (paths : List (String × String)) (files : List (String × Except LoadFault String)) (disk : Disk) :
    Loader :=
  { fileName? := fun path => List.lookup path paths
    load := find files
    texts := textsOf files
    text_mem := text_mem_of_find
    disk }

end Loader

end ProtoSchema
