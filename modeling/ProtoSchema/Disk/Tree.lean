import ProtoSchema.Disk.Basic
import ProtoSchema.Text.Pieces

namespace ProtoSchema

inductive FileNode
  | directory
  | text (content : String)
  /-- A file whose bytes are not UTF-8. -/
  | binary
deriving DecidableEq, Repr

def FileNode.ofBytes (bytes : ByteArray) : FileNode :=
  match String.fromUTF8? bytes with
  | some content => .text content
  | none => .binary

/-- Files and directories by the names that lead to them from `location`, which itself is given by the
names that lead to it from the root of the file system. Relative paths start there. -/
structure FileTree where
  location : List String
  nodes : List (List String × FileNode)
deriving Repr

namespace FileTree

/-- The tree with the given paths under `location`. -/
def ofPaths (location : List String) (nodes : List (String × FileNode)) : FileTree :=
  ⟨location, nodes.map fun (path, node) => ((Text.pieces '/' path.toList).map String.ofList, node)⟩

/-- What stands at the end of some names from the root of the file system. Whatever leads to a node is
a directory. -/
def node? (tree : FileTree) (names : List String) : Option FileNode :=
  if names.isPrefixOf tree.location then some .directory
  else (tree.location.isPrefixOf? names).bind fun inside =>
    match tree.nodes.lookup inside with
    | some node => some node
    | none => if tree.nodes.any fun (other, _) => inside.isPrefixOf other then some .directory else none

/-- One step of a path from the place reached by `names`, which has to be a directory. Two dots go back to the
directory around it. -/
def step (tree : FileTree) (names : List String) (piece : List Char) : Except IoFault (List String) :=
  match tree.node? names with
  | none => .error .notFound
  | some .directory =>
    if piece = [] ∨ piece = ['.'] then .ok names
    else if piece = ['.', '.'] then .ok names.dropLast
    else .ok (names ++ [String.ofList piece])
  | some _ => .error .notDirectory

/-- The place that a path leads to. -/
def follow (tree : FileTree) (names : List String) : List (List Char) → Except IoFault (List String)
  | [] => .ok names
  | piece :: rest =>
    match tree.step names piece with
    | .ok next => tree.follow next rest
    | .error fault => .error fault

/-- The place from which a path is followed. -/
def start (tree : FileTree) (path : String) : List String :=
  if path.toList.head? = some '/' then [] else tree.location

/-- The text of the file at a path. -/
def read (tree : FileTree) (path : String) : Except IoFault String :=
  if path.toList.contains '\x00' then .error .nulByte
  else if path.toList = [] then .error .notFound
  else match tree.follow (tree.start path) (Text.pieces '/' path.toList) with
    | .error fault => .error fault
    | .ok names =>
      match tree.node? names with
      | none => .error .notFound
      | some .directory => .error .isDirectory
      | some (.text content) => .ok content
      | some .binary => .error .notText

def texts (tree : FileTree) : List String :=
  tree.nodes.filterMap fun (_, node) =>
    match node with
    | .text content => some content
    | _ => none

theorem mem_texts_of_node? {tree : FileTree} {names : List String} {content : String}
    (found : tree.node? names = some (.text content)) : content ∈ tree.texts := by
  unfold node? at found
  split at found
  · simp at found
  · obtain ⟨inside, _, found⟩ := Option.bind_eq_some_iff.1 found
    split at found
    · rename_i node looked
      cases found
      obtain ⟨before, after, nodes, _⟩ := List.lookup_eq_some_iff.1 looked
      exact List.mem_filterMap.2 ⟨(inside, .text content), by simp [nodes], rfl⟩
    · split at found <;> simp at found

theorem mem_texts_of_read {tree : FileTree} {path content : String} (ok : tree.read path = .ok content) :
    content ∈ tree.texts := by
  unfold read at ok
  repeat' split at ok
  all_goals first | contradiction | skip
  rename_i found
  obtain rfl := Except.ok.inj ok
  exact mem_texts_of_node? found

def disk (tree : FileTree) : Disk :=
  ⟨tree.read, tree.texts, mem_texts_of_read⟩

end FileTree

end ProtoSchema
