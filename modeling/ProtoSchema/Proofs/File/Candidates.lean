import Mathlib.Data.List.Induction
import ProtoSchema.Proofs.File.OuterNames
import ProtoSchema.Proofs.Grammar.TypeNames

namespace ProtoSchema

variable {name : String} {names : List String}

/-- A name behind a package, then behind what is left of the package when its last component is taken away, again and
again, and in the end alone. -/
def namesBehind (name : String) (package : List String) : List String :=
  if package = [] then [name]
  else (dotted package ++ "." ++ name) :: namesBehind name package.dropLast
termination_by package.length
decreasing_by
  rw [List.length_dropLast]
  have := List.length_pos_iff.2 ‹package ≠ []›
  omega

theorem namesBehind_snoc (name last : String) (front : List String) :
    namesBehind name (front ++ [last]) = (dotted (front ++ [last]) ++ "." ++ name) :: namesBehind name front := by
  rw [namesBehind, if_neg (by simp), List.dropLast_concat]

theorem beginnings_snoc {α : Type} (front : List α) (last : α) :
    beginnings (front ++ [last]) = (front ++ [last]) :: beginnings front := by
  induction front with
  | nil => rfl
  | cons first rest ih => simp [beginnings, ih]

theorem namesBehind_eq (name : String) (package : List String) : namesBehind name package =
    (beginnings package).map (fun front => dotted (front ++ [name])) ++ [name] := by
  induction package using List.reverseRecOn with
  | nil => rw [namesBehind]; rfl
  | append_singleton front last ih =>
    have some : front ++ [last] ≠ [] := by simp
    have whole : dotted (front ++ [last] ++ [name]) = dotted (front ++ [last]) ++ "." ++ name := by
      rw [dotted_append some (List.cons_ne_nil _ _), dotted_singleton]
    rw [namesBehind_snoc, ih, beginnings_snoc, List.map_cons, List.cons_append, whole]

theorem length_namesBehind (name : String) (package : List String) :
    (namesBehind name package).length = package.length + 1 := by
  induction package using List.reverseRecOn with
  | nil => rw [namesBehind]; rfl
  | append_singleton front last ih => simp [namesBehind_snoc, ih]

theorem isRelativeName_iff : isRelativeName name.toList ↔ ∀ component ∈ components name, isIdentifier component.toList := by
  simp [isRelativeName, components]

theorem isRelativeName_dotted (nonempty : names ≠ []) (relative : ∀ part ∈ names, isRelativeName part.toList) :
    isRelativeName (dotted names).toList := by
  rw [isRelativeName_iff, components_dotted nonempty]
  intro component member
  obtain ⟨part, among, inPart⟩ := List.mem_flatMap.1 member
  exact isRelativeName_iff.1 (relative part among) component inPart

/-- A relative name does not begin with a dot that could be taken away. -/
theorem withoutDot_of_isRelativeName (relative : isRelativeName name.toList) : withoutDot name = name := by
  unfold withoutDot
  split
  · rename_i rest text
    rw [text] at relative
    simp [isRelativeName, Text.pieces, isIdentifier] at relative
  · rfl

theorem isRelativeName_of_isIdentifier (identifier : isIdentifier name.toList) : isRelativeName name.toList := by
  rw [isRelativeName_iff, components_of_undotted (undotted_of_isIdentifier identifier)]
  exact List.forall_mem_singleton.2 identifier

theorem isTypeName_iff : isTypeName name.toList ↔
    isRelativeName name.toList ∨ ∃ rest, name = "." ++ rest ∧ isRelativeName rest.toList := by
  constructor
  · unfold isTypeName
    split
    · rename_i rest text
      intro relative
      have begins : name = "." ++ String.ofList rest := String.toList_inj.1 (by simp [text])
      exact Or.inr ⟨String.ofList rest, begins, by simpa using relative⟩
    · exact Or.inl
  · rintro (relative | ⟨rest, rfl, relative⟩)
    · unfold isTypeName
      split
      · rename_i rest text
        rw [text] at relative
        simp [isRelativeName, Text.pieces, isIdentifier] at relative
      · exact relative
    · simpa [isTypeName] using relative

namespace OuterRef

variable {file : File} {ref : TypeRef}

theorem candidates_dot {rest : String} (absolute : ref.name = "." ++ rest) : (ofRef file ref).candidates = [rest] := by
  rw [ofRef, absolute, afterDot?_dot]
  simp

theorem candidates_relative (relative : ref.isAbsolute = false) :
    (ofRef file ref).candidates = namesBehind ref.name (file.package.toList.flatMap components) := by
  rw [ofRef, TypeRef.afterDot?_eq_none relative, namesBehind_eq]
  cases file.package <;> simp

/-- What a reference may mean is a name without a leading dot. -/
theorem isRelativeName_of_mem_candidates (named : file.WellNamed) (typed : isTypeName ref.name.toList)
    {called : String} (candidate : called ∈ (ofRef file ref).candidates) : isRelativeName called.toList := by
  rcases isTypeName_iff.1 typed with relative | ⟨rest, absolute, relative⟩
  · have noDot : ref.isAbsolute = false := by
      rw [TypeRef.isAbsolute, afterDot?_of_isRelativeName relative]
      rfl
    rw [candidates_relative noDot, namesBehind_eq, List.mem_append, List.mem_map, List.mem_singleton] at candidate
    rcases candidate with ⟨front, beginning, rfl⟩ | rfl
    · obtain ⟨-, before⟩ := mem_beginnings.1 beginning
      refine isRelativeName_dotted (by simp) (List.forall_mem_append.2 ⟨fun part among => ?_, ?_⟩)
      · obtain ⟨package, declared, inPackage⟩ := List.mem_flatMap.1 (before.subset among)
        have identifier := isIdentifier_of_mem_components (named.package package (Option.mem_toList.1 declared)) inPackage
        exact isRelativeName_of_isIdentifier identifier
      · exact List.forall_mem_singleton.2 relative
    · exact relative
  · rw [candidates_dot absolute, List.mem_singleton] at candidate
    rwa [candidate]

end OuterRef

namespace File

variable {file : File} {scope : Scope} {decl other : DeclId}

/-- Whether names lead from the top of a file to a declaration that has no namesake in its scope, nor have any of the
messages around it in theirs. -/
inductive LeadsOnlyTo (file : File) : List String → DeclId → Prop
  | top {name : String} {decl : DeclId} (child : file.Child .file name decl)
      (alone : ∀ other, file.Child .file name other → other = decl) : LeadsOnlyTo file [name] decl
  | inner {names : List String} {id : MessageId} {name : String} {decl : DeclId}
      (outer : LeadsOnlyTo file names (.message id)) (child : file.Child (.message id) name decl)
      (alone : ∀ other, file.Child (.message id) name other → other = decl) : LeadsOnlyTo file (names ++ [name]) decl

theorem LeadsOnlyTo.leadsTo (leads : file.LeadsOnlyTo names decl) : file.LeadsTo names decl := by
  induction leads with
  | top child _ => exact .top child
  | inner _ child _ ih => exact .inner ih child

namespace ScopeTree

variable (tree : file.ScopeTree)
include tree

theorem child?_of_alone (child : file.Child scope name decl) (alone : ∀ other, file.Child scope name other → other = decl) :
    file.child? scope name = some decl := by
  cases found : file.child? scope name with
  | none => exact absurd child (tree.child?_eq_none_iff.1 found decl)
  | some other => rw [alone other (tree.child?_eq_some_iff.1 found).child]

theorem find?_of_leadsOnlyTo (leads : file.LeadsOnlyTo names decl) : file.find? names = some decl := by
  induction leads with
  | top child alone => simp [find?, tree.child?_of_alone child alone, inward]
  | inner outer child alone ih =>
    rw [find?_append file _ outer.leadsTo.ne_nil, ih]
    simp [inward, tree.child?_of_alone child alone]

/-- A declaration without a namesake is found by its full name. -/
theorem byFullName?_of_leadsOnlyTo (named : file.WellNamed) (leads : file.LeadsOnlyTo names decl) {called : String}
    (isCalled : file.fullName? decl = some called) : file.byFullName? called = some decl := by
  obtain rfl : dotted (file.package.toList ++ names) = called :=
    Option.some.inj ((tree.fullName?_of_leadsTo leads.leadsTo).symm.trans isCalled)
  rw [byFullName?, named.components_fullName leads.leadsTo, named.afterDot?_fullName leads.leadsTo]
  exact (findInPackage?_or_find? (tree.find?_of_leadsOnlyTo leads)).1

end ScopeTree

end File

/-- A reference in one parsed file, looked for in another. If its name begins with a dot, it may mean what follows the
dot; otherwise it may mean its name behind the package, behind the packages around that, and alone. What is found is
called by such a name, and no earlier one is the full name of a declaration without a namesake; if nothing is found,
none is. -/
theorem OuterRef.resolve_ofRef_first {name title source text : String} {file other : File} {ref : TypeRef}
    (parsed : parse name source = .ok file) (listed : ref ∈ file.types) (parsedOther : parse title text = .ok other) :
    (∀ rest, ref.name = "." ++ rest → (ofRef file ref).candidates = [rest]) ∧
    (ref.isAbsolute = false →
      (ofRef file ref).candidates = namesBehind ref.name (file.package.toList.flatMap components) ∧
      (ofRef file ref).candidates.length = (file.package.toList.flatMap components).length + 1) ∧
    (∀ decl, (ofRef file ref).resolve other = some decl → ∃ before called after,
      (ofRef file ref).candidates = before ++ called :: after ∧ other.fullName? decl = some called ∧
        ∀ earlier ∈ before, ∀ names lone, other.LeadsOnlyTo names lone → other.fullName? lone ≠ some earlier) ∧
    ((ofRef file ref).resolve other = none → ∀ called ∈ (ofRef file ref).candidates, ∀ names lone,
      other.LeadsOnlyTo names lone → other.fullName? lone ≠ some called) := by
  have tree := scopeTree_of_parse parsedOther
  have named := parse_wellNamed parsedOther
  have typed := parse_typeNamed parsed ref listed
  have unfound {called : String} (missing : other.byFullName? called = none) (names : List String) (lone : DeclId)
      (leads : other.LeadsOnlyTo names lone) : other.fullName? lone ≠ some called := by
    intro isCalled
    rw [tree.byFullName?_of_leadsOnlyTo named leads isCalled] at missing
    contradiction
  refine ⟨fun rest => candidates_dot, fun relative => ?_, fun decl found => ?_, fun nothing called candidate => ?_⟩
  · rw [candidates_relative relative, length_namesBehind]
    exact ⟨rfl, rfl⟩
  · obtain ⟨before, called, after, split, reached, missing⟩ := List.findSome?_eq_some_iff.1 found
    have candidate : called ∈ (ofRef file ref).candidates := by
      rw [split]
      exact List.mem_append_right _ List.mem_cons_self
    have relative := isRelativeName_of_mem_candidates (parse_wellNamed parsed) typed candidate
    refine ⟨before, called, after, split, ?_, fun earlier among => unfound (missing earlier among)⟩
    rw [tree.fullName?_of_byFullName? reached, withoutDot_of_isRelativeName relative]
  · exact unfound (List.findSome?_eq_none_iff.1 nothing called candidate)

/-- A reference by a bare name, in a package inside another. -/
def innerPackage : String :=
  "package a.b;\nmessage M \x7b X x = 1; \x7d"

/-- Two messages called `b`, the second of which holds a namesake of a message at the top. -/
def outerPackage : String :=
  "package a;\nmessage b \x7b \x7d\nmessage b \x7b message X \x7b \x7d \x7d\nmessage X \x7b \x7d"

/-- A reference means the message at the top, by its second candidate. Its first candidate is the full name of a message
too, but of one inside a namesake. -/
theorem OuterRef.resolve_ofRef_outerPackage : ∃ file other ref, parse "m" innerPackage = .ok file ∧ ref ∈ file.types ∧
    parse "n" outerPackage = .ok other ∧ (ofRef file ref).candidates = ["a.b.X", "a.X", "X"] ∧
    (ofRef file ref).resolve other = some (.message ⟨3⟩) ∧ other.fullName? (.message ⟨2⟩) = some "a.b.X" ∧
    ∃ before called after, (ofRef file ref).candidates = before ++ called :: after ∧
      other.fullName? (.message ⟨3⟩) = some called ∧
      ∀ earlier ∈ before, ∀ names lone, other.LeadsOnlyTo names lone → other.fullName? lone ≠ some earlier := by
  let ref : TypeRef := ⟨"X", .message ⟨0⟩⟩
  have evaluated : ((parse "m" innerPackage).toOption.map fun file => (file.types, ofRef file ref)) =
    some ([ref], ⟨["a.b.X", "a.X", "X"]⟩) := by decide +kernel
  have evaluatedOther : ((parse "n" outerPackage).toOption.map fun other =>
      (OuterRef.resolve ⟨["a.b.X", "a.X", "X"]⟩ other, other.fullName? (.message ⟨2⟩))) =
    some (some (.message ⟨3⟩), some "a.b.X") := by decide +kernel
  obtain ⟨file, parsed, known⟩ := parse_of_map_toOption evaluated
  obtain ⟨other, parsedOther, knownOther⟩ := parse_of_map_toOption evaluatedOther
  obtain ⟨types, outer⟩ := Prod.mk.inj known
  obtain ⟨resolved, namesake⟩ := Prod.mk.inj knownOther
  have listed : ref ∈ file.types := by simp [types]
  rw [← outer] at resolved
  obtain ⟨-, -, taken, -⟩ := OuterRef.resolve_ofRef_first parsed listed parsedOther
  exact ⟨file, other, ref, parsed, listed, parsedOther, by rw [outer], resolved, namesake, taken _ resolved⟩

end ProtoSchema
