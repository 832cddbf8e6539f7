import ProtoSchema.Text.Pieces

namespace ProtoSchema.Path

/-- A step of a path. The directory itself, a single dot, counts only at the beginning. -/
inductive Component
  | root
  | here
  | up
  | name (text : String)
deriving DecidableEq, Repr

/-- The step that a piece between slashes stands for, after the beginning of a path. -/
def inner? (piece : List Char) : Option Component :=
  if piece = [] ∨ piece = ['.'] then none
  else if piece = ['.', '.'] then some .up
  else some (.name (String.ofList piece))

/-- The steps of a path. Repeated slashes and one at the end add nothing. -/
def components (path : String) : List Component :=
  match Text.pieces '/' path.toList with
  | [] => []
  | [[]] => []
  | [] :: rest => .root :: rest.filterMap inner?
  | ['.'] :: rest => .here :: rest.filterMap inner?
  | first :: rest => (first :: rest).filterMap inner?

/-- The steps of a path that go somewhere. -/
def steps (path : String) : List Component :=
  match components path with
  | .here :: rest => rest
  | steps => steps

/-- The names of steps that lead through names only. -/
def names? : List Component → Option (List String)
  | [] => some []
  | .name text :: rest => (names? rest).map (text :: ·)
  | _ => none

/-- The file name that steps make, if they lead through at least one name and nothing else. -/
def nameOf? (steps : List Component) : Option String :=
  match names? steps with
  | none => none
  | some [] => none
  | some names => some (String.intercalate "/" names)

/-- The name of the file at a path that stays where it starts. -/
def fileName? (path : String) : Option String :=
  nameOf? (steps path)

/-- The name of the file at a path under a root. -/
def nameUnder? (root path : String) : Option String :=
  ((steps root).isPrefixOf? (steps path)).bind nameOf?

/-- The path of a name under a root. A name that begins with a slash stands for itself. -/
def join (root name : String) : String :=
  if name.toList.head? = some '/' then name
  else if root.toList = [] ∨ root.toList.getLast? = some '/' then root ++ name
  else root ++ "/" ++ name

end ProtoSchema.Path
