import Mathlib.Data.List.Basic
import ProtoSchema.Load
import ProtoSchema.Proofs.Text.Dotted

namespace ProtoSchema.Path

variable {path root name : String} {names : List String} {way : List Component}

/-- Whether a text between slashes is the name of a step: there is some of it, and it does not stand for a
directory. -/
structure IsStepName (name : String) : Prop where
  ne_empty : name ≠ ""
  ne_here : name ≠ "."
  ne_up : name ≠ ".."
  no_slash : '/' ∉ name.toList

/-- Whether a text is one or more names of steps with slashes between them. -/
def IsFileName (name : String) : Prop :=
  ∃ names, names ≠ [] ∧ (∀ step ∈ names, IsStepName step) ∧ name = String.intercalate "/" names

theorem here_not_mem_inner (pieces : List (List Char)) : .here ∉ pieces.filterMap inner? := by
  intro member
  obtain ⟨piece, -, step⟩ := List.mem_filterMap.1 member
  unfold inner? at step
  split at step
  · contradiction
  · split at step <;> cases step

theorem inner?_eq_name {piece : List Char} (step : inner? piece = some (.name name)) :
    name = String.ofList piece ∧ piece ≠ [] ∧ piece ≠ ['.'] ∧ piece ≠ ['.', '.'] := by
  unfold inner? at step
  split at step
  · contradiction
  · rename_i inside
    obtain ⟨some, notHere⟩ := not_or.1 inside
    split at step
    · cases step
    · rename_i notUp
      cases step
      exact ⟨rfl, some, notHere, notUp⟩

theorem inner?_of_isStepName (step : IsStepName name) : inner? name.toList = some (.name name) := by
  have notHere : name.toList ≠ ['.'] := fun same => step.ne_here (String.toList_inj.1 same)
  have notUp : name.toList ≠ ['.', '.'] := fun same => step.ne_up (String.toList_inj.1 same)
  simp [inner?, step.ne_empty, notHere, notUp]

theorem exists_pieces (path : String) : ∃ first pieces, Text.pieces '/' path.toList = first :: pieces :=
  List.exists_cons_of_ne_nil (Text.pieces_ne_nil '/' path.toList)

/-- What the first piece of a path makes of it: a root, the directory itself, or a step like any other. -/
theorem components_of_pieces {first : List Char} {pieces : List (List Char)}
    (split : Text.pieces '/' path.toList = first :: pieces) : components path =
      if first = [] then (if pieces = [] then [] else .root :: pieces.filterMap inner?)
      else if first = ['.'] then .here :: pieces.filterMap inner?
      else (first :: pieces).filterMap inner? := by
  unfold components
  rw [split]
  split <;> simp_all

/-- Only the first step of a path can be the directory itself. -/
theorem components_cases (path : String) : (.here ∉ components path ∧ steps path = components path) ∨
    components path = .here :: steps path ∧ .here ∉ steps path := by
  obtain ⟨first, pieces, split⟩ := exists_pieces path
  have away (none : .here ∉ components path) : steps path = components path := by
    unfold steps
    split
    · rename_i found
      exact absurd (found ▸ List.mem_cons_self) none
    · rfl
  by_cases root : first = []
  · have none : .here ∉ components path := by
      rw [components_of_pieces split, if_pos root]
      split
      · exact List.not_mem_nil
      · simpa using here_not_mem_inner pieces
    exact Or.inl ⟨none, away none⟩
  · by_cases here : first = ['.']
    · have begins : components path = .here :: pieces.filterMap inner? := by
        rw [components_of_pieces split, if_neg root, if_pos here]
      have after : steps path = pieces.filterMap inner? := by rw [steps, begins]
      exact Or.inr ⟨by rw [after, begins], after ▸ here_not_mem_inner pieces⟩
    · have none : .here ∉ components path := by
        rw [components_of_pieces split, if_neg root, if_neg here]
        exact here_not_mem_inner (first :: pieces)
      exact Or.inl ⟨none, away none⟩

theorem here_not_mem_steps (path : String) : .here ∉ steps path := by
  rcases components_cases path with ⟨none, same⟩ | ⟨-, none⟩
  · rwa [same]
  · exact none

theorem isStepName_of_mem_steps (member : .name name ∈ steps path) : IsStepName name := by
  have among : .name name ∈ components path := by
    rcases components_cases path with ⟨-, same⟩ | ⟨begins, -⟩
    · rwa [same] at member
    · rw [begins]
      exact List.mem_cons_of_mem _ member
  obtain ⟨first, pieces, split⟩ := exists_pieces path
  obtain ⟨piece, written, step⟩ : ∃ piece ∈ first :: pieces, inner? piece = some (.name name) := by
    refine List.mem_filterMap.1 ?_
    rw [components_of_pieces split] at among
    have later (inRest : .name name ∈ pieces.filterMap inner?) : .name name ∈ (first :: pieces).filterMap inner? :=
      (List.sublist_cons_self first pieces).filterMap inner? |>.subset inRest
    split at among
    · split at among
      · contradiction
      · exact later (by simpa using among)
    · split at among
      · exact later (by simpa using among)
      · exact among
  obtain ⟨rfl, some, notHere, notUp⟩ := inner?_eq_name step
  have noSlash : '/' ∉ piece := by
    rw [← split, Text.pieces_eq_splitOn] at written
    exact Text.not_mem_of_mem_splitOn written
  exact ⟨fun same => some (String.ofList_injective same), fun same => notHere (String.ofList_injective same),
    fun same => notUp (String.ofList_injective same), by simpa using noSlash⟩

theorem names?_eq_some_iff : names? way = some names ↔ way = names.map .name := by
  induction way generalizing names with
  | nil => cases names <;> simp [names?]
  | cons step way ih =>
    cases step with
    | name text =>
      simp only [names?, Option.map_eq_some_iff, ih]
      constructor
      · rintro ⟨rest, rfl, rfl⟩
        rfl
      · intro same
        obtain ⟨first, rest, rfl, begins, further⟩ := List.map_eq_cons_iff.1 same.symm
        cases begins
        exact ⟨rest, further.symm, rfl⟩
    | root | here | up => cases names <;> simp [names?]

theorem nameOf?_eq_some_iff : nameOf? way = some name ↔
    ∃ names, names ≠ [] ∧ way = names.map .name ∧ name = String.intercalate "/" names := by
  simp only [← names?_eq_some_iff, nameOf?]
  cases names? way with
  | none => simp
  | some names =>
    cases names with
    | nil => simp +contextual
    | cons first rest =>
      simp only [Option.some.injEq]
      constructor
      · rintro rfl
        exact ⟨_, List.cons_ne_nil first rest, rfl, rfl⟩
      · rintro ⟨_, -, rfl, rfl⟩
        rfl

theorem names?_eq_none_iff (inside : .here ∉ way) : names? way = none ↔ .up ∈ way ∨ .root ∈ way := by
  induction way with
  | nil => simp [names?]
  | cons step way ih =>
    rw [List.mem_cons, not_or] at inside
    have further := ih inside.2
    cases step with
    | name text => simp [names?, further]
    | here => exact absurd rfl inside.1
    | root | up => simp [names?]

/-- Steps make no name if there are none, or if some do not lead through names. -/
theorem nameOf?_eq_none_iff (inside : .here ∉ way) :
    nameOf? way = none ↔ way = [] ∨ .up ∈ way ∨ .root ∈ way := by
  rw [← names?_eq_none_iff inside, nameOf?]
  cases named : names? way with
  | none => simp
  | some names =>
    obtain rfl := names?_eq_some_iff.1 named
    cases names <;> simp

/-- What is left of a path when a root is taken off, both gone through at once. A dot counts on neither side. -/
def behind? : List Component → List Component → Option (List Component)
  | .here :: path, root => behind? path root
  | path, .here :: root => behind? path root
  | step :: path, other :: root => if step = other then behind? path root else none
  | [], _ :: _ => none
  | path, [] => some path
termination_by path root => path.length + root.length

theorem behind?_here_root (path root : List Component) : behind? path (.here :: root) = behind? path root := by
  induction path with
  | nil => simp [behind?]
  | cons step path ih => cases step <;> simp [behind?, ih]

theorem behind?_eq_isPrefixOf? {path root : List Component} (inPath : .here ∉ path) (inRoot : .here ∉ root) :
    behind? path root = root.isPrefixOf? path := by
  fun_induction behind? path root with
  | case1 => exact absurd List.mem_cons_self inPath
  | case2 => exact absurd List.mem_cons_self inRoot
  | case3 _ step _ _ _ ih =>
    have further := ih (fun later => inPath (List.mem_cons_of_mem _ later)) fun later =>
      inRoot (List.mem_cons_of_mem _ later)
    simp [List.isPrefixOf?, further]
  | case4 _ step _ other _ _ differ => simp [List.isPrefixOf?, Ne.symm differ]
  | case5 | case6 => simp [List.isPrefixOf?]

/-- Going through a path and a root at once finds what the path has behind the steps of the root. -/
theorem behind?_components (path root : String) :
    behind? (components path) (components root) = (steps root).isPrefixOf? (steps path) := by
  rw [← behind?_eq_isPrefixOf? (here_not_mem_steps path) (here_not_mem_steps root)]
  have dropRoot (way : List Component) : behind? way (components root) = behind? way (steps root) := by
    rcases components_cases root with ⟨-, same⟩ | ⟨begins, -⟩
    · rw [same]
    · rw [begins, behind?_here_root]
  rw [dropRoot]
  rcases components_cases path with ⟨-, same⟩ | ⟨begins, -⟩
  · rw [same]
  · rw [begins, behind?]

/-- What stands behind a slash in a path leads through its pieces, whatever stands before the slash. -/
theorem components_slash (front back : String) : components (front ++ "/" ++ back) =
    components (front ++ "/") ++ (Text.pieces '/' back.toList).filterMap inner? := by
  have slash : "/".toList = ['/'] := rfl
  have apart (back : String) : Text.pieces '/' (front ++ "/" ++ back).toList =
      Text.pieces '/' front.toList ++ Text.pieces '/' back.toList := by
    simp only [Text.pieces_eq_splitOn, String.toList_append, slash, List.append_assoc, List.singleton_append,
      List.splitOn_append_cons_self]
  obtain ⟨first, pieces, split⟩ := exists_pieces front
  have whole : Text.pieces '/' (front ++ "/" ++ back).toList = first :: (pieces ++ Text.pieces '/' back.toList) := by
    rw [apart, split, List.cons_append]
  have alone : Text.pieces '/' (front ++ "/").toList = first :: (pieces ++ [[]]) := by
    have ended := apart ""
    rwa [String.append_empty, split, List.cons_append] at ended
  have empty : inner? [] = none := rfl
  rw [components_of_pieces whole, components_of_pieces alone]
  split
  · have some := Text.pieces_ne_nil '/' back.toList
    simp [some, empty]
  · split <;> simp [List.filterMap_cons, empty]
    split <;> simp

/-- A slash at the end of a path adds nothing, unless it is all of it. -/
theorem components_slash_end (nonempty : root ≠ "") : components (root ++ "/") = components root := by
  have slash : "/".toList = ['/'] := rfl
  obtain ⟨first, pieces, split⟩ := exists_pieces root
  have ended : Text.pieces '/' (root ++ "/").toList = first :: (pieces ++ [[]]) := by
    rw [Text.pieces_eq_splitOn] at split ⊢
    rw [String.toList_append, slash, List.splitOn_append_cons_self, split, List.splitOn_nil, List.cons_append]
  have empty : inner? [] = none := rfl
  have written : first = [] → pieces ≠ [] := by
    rintro rfl rfl
    have text := Text.joinPieces_pieces '/' root.toList
    rw [split] at text
    exact nonempty (String.toList_eq_nil_iff.1 text.symm)
  rw [components_of_pieces ended, components_of_pieces split]
  by_cases root : first = []
  · simp [root, written root, empty]
  · simp [root, List.filterMap_cons, empty]

theorem pieces_fileName (nonempty : names ≠ []) (plain : ∀ step ∈ names, IsStepName step) :
    Text.pieces '/' (String.intercalate "/" names).toList = names.map String.toList := by
  have slash : "/".toList = ['/'] := rfl
  rw [Text.pieces_eq_splitOn, String.toList_intercalate, slash]
  refine List.splitOn_intercalate _ ?_ (by simpa using nonempty)
  rintro _ member
  obtain ⟨step, among, rfl⟩ := List.mem_map.1 member
  exact (plain step among).no_slash

theorem inner_names (plain : ∀ step ∈ names, IsStepName step) :
    (names.map String.toList).filterMap inner? = names.map .name := by
  induction names with
  | nil => rfl
  | cons first rest ih =>
    obtain ⟨begins, further⟩ := List.forall_mem_cons.1 plain
    rw [List.map_cons, List.filterMap_cons_some (inner?_of_isStepName begins), ih further, List.map_cons]

theorem components_fileName (nonempty : names ≠ []) (plain : ∀ step ∈ names, IsStepName step) :
    components (String.intercalate "/" names) = names.map .name := by
  have pieces := pieces_fileName nonempty plain
  obtain ⟨first, rest, rfl⟩ := List.exists_cons_of_ne_nil nonempty
  have begins := plain first List.mem_cons_self
  have notHere : first.toList ≠ ['.'] := fun same => begins.ne_here (String.toList_inj.1 same)
  rw [List.map_cons] at pieces
  rw [components_of_pieces pieces, if_neg (by simpa using begins.ne_empty), if_neg notHere, ← List.map_cons,
    inner_names plain]

theorem head?_fileName (nonempty : names ≠ []) (plain : ∀ step ∈ names, IsStepName step) :
    (String.intercalate "/" names).toList.head? ≠ some '/' := by
  intro begins
  have pieces := pieces_fileName nonempty plain
  obtain ⟨text, whole⟩ := List.head?_eq_some_iff.1 begins
  obtain ⟨first, rest, rfl⟩ := List.exists_cons_of_ne_nil nonempty
  rw [whole, List.map_cons, Text.pieces, if_pos rfl] at pieces
  have empty : first = "" := String.toList_eq_nil_iff.1 (List.cons.inj pieces).1.symm
  exact (plain first List.mem_cons_self).ne_empty empty

/-- The path of a file name under a root leads through the steps of the root and then through the names. -/
theorem components_join (root : String) (nonempty : names ≠ []) (plain : ∀ step ∈ names, IsStepName step) :
    components (join root (String.intercalate "/" names)) = components root ++ names.map .name := by
  have inner : (Text.pieces '/' (String.intercalate "/" names).toList).filterMap inner? = names.map .name := by
    rw [pieces_fileName nonempty plain, inner_names plain]
  rw [join, if_neg (head?_fileName nonempty plain)]
  by_cases absent : root = ""
  · simp [absent, components_fileName nonempty plain, show components "" = [] from rfl]
  · by_cases ends : root.toList.getLast? = some '/'
    · obtain ⟨front, whole⟩ := List.getLast?_eq_some_iff.1 ends
      obtain rfl : root = String.ofList front ++ "/" := String.toList_inj.1 (by simp [whole])
      rw [if_pos (Or.inr ends), components_slash, inner]
    · rw [if_neg (by simp [absent, ends]), components_slash, components_slash_end absent, inner]

theorem steps_join (root : String) (nonempty : names ≠ []) (plain : ∀ step ∈ names, IsStepName step) :
    steps (join root (String.intercalate "/" names)) = steps root ++ names.map .name := by
  rw [steps, steps, components_join root nonempty plain]
  cases components root with
  | nil => cases names <;> rfl
  | cons step rest => cases step <;> rfl

theorem nameUnder?_eq_some_iff : nameUnder? root path = some name ↔
    ∃ names, names ≠ [] ∧ steps path = steps root ++ names.map .name ∧ name = String.intercalate "/" names := by
  simp only [nameUnder?, Option.bind_eq_some_iff, List.isPrefixOf?_eq_some_iff_append_eq, nameOf?_eq_some_iff]
  constructor
  · rintro ⟨_, same, names, nonempty, rfl, rfl⟩
    exact ⟨names, nonempty, same.symm, rfl⟩
  · rintro ⟨names, nonempty, same, rfl⟩
    exact ⟨_, same.symm, names, nonempty, rfl, rfl⟩

theorem nameUnder?_eq_none_iff : nameUnder? root path = none ↔ ¬steps root <+: steps path ∨
    ∃ rest, steps path = steps root ++ rest ∧ (rest = [] ∨ .up ∈ rest ∨ .root ∈ rest) := by
  rw [nameUnder?]
  cases taken : (steps root).isPrefixOf? (steps path) with
  | none =>
    have apart : ¬steps root <+: steps path := by
      rintro ⟨rest, whole⟩
      rw [List.isPrefixOf?_eq_some_iff_append_eq.2 whole] at taken
      contradiction
    simp [apart]
  | some rest =>
    have whole : steps root ++ rest = steps path := List.isPrefixOf?_eq_some_iff_append_eq.1 taken
    have inside : .here ∉ rest := by
      intro member
      exact here_not_mem_steps path (whole ▸ List.mem_append_right _ member)
    rw [Option.bind_some, nameOf?_eq_none_iff inside]
    simp [← whole]

end ProtoSchema.Path

namespace ProtoSchema.Loader

open ProtoSchema.Path (IsFileName behind? join nameOf? steps)

/-- A disk with one file, below a directory that is left again by two dots. -/
def oneFile : Disk :=
  Snapshot.disk [("./a/../b/c.proto", .ok "")]

end ProtoSchema.Loader
