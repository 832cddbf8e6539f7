namespace ProtoSchema

/-- The reasons for which no text is found at a path. -/
inductive IoFault
  | notFound
  | isDirectory
  | notDirectory
  | notText
  | nulByte
  /-- A fault of another kind, in the words of the system. -/
  | other (text : String)
  /-- Nobody has looked at the path yet. -/
  | unread
deriving DecidableEq, Repr

def IoFault.text : IoFault → String
  | .notFound => "No such file or directory (os error 2)"
  | .isDirectory => "Is a directory (os error 21)"
  | .notDirectory => "Not a directory (os error 20)"
  | .notText => "stream did not contain valid UTF-8"
  | .nulByte => "file name contained an unexpected NUL byte"
  | .other text => text
  | .unread => "not read yet"

/-- Answers for the texts at paths. There are only so many texts, however many paths lead to them. -/
structure Disk where
  read : String → Except IoFault String
  texts : List String
  mem_texts : ∀ {path text}, read path = .ok text → text ∈ texts

/-- What has been found at paths so far. -/
abbrev Snapshot := List (String × Except IoFault String)

namespace Snapshot

def read (known : Snapshot) (path : String) : Except IoFault String :=
  (List.lookup path known).getD (.error .unread)

def texts (known : Snapshot) : List String :=
  known.filterMap fun (_, answer) => answer.toOption

theorem mem_texts_of_read {known : Snapshot} {path text : String} (ok : known.read path = .ok text) :
    text ∈ known.texts := by
  unfold read at ok
  cases looked : List.lookup path known with
  | none => simp [looked] at ok
  | some answer =>
    obtain rfl : answer = .ok text := by simpa [looked] using ok
    obtain ⟨before, after, rfl, _⟩ := List.lookup_eq_some_iff.1 looked
    exact List.mem_filterMap.2 ⟨(path, .ok text), by simp, rfl⟩

def disk (known : Snapshot) : Disk :=
  ⟨known.read, known.texts, mem_texts_of_read⟩

end Snapshot

end ProtoSchema
