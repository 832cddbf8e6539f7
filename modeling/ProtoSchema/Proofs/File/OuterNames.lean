import ProtoSchema.OuterRef
import ProtoSchema.Proofs.File.Anchors

namespace ProtoSchema

variable {names : List String}

theorem mem_beginnings {α : Type} {items front : List α} : front ∈ beginnings items ↔ front ≠ [] ∧ front <+: items := by
  induction items generalizing front with
  | nil => simp [beginnings]
  | cons item rest ih =>
    simp only [beginnings, List.mem_append, List.mem_map, List.mem_singleton, ih]
    constructor
    · rintro (⟨more, ⟨-, before⟩, rfl⟩ | rfl)
      · exact ⟨List.cons_ne_nil _ _, List.cons_prefix_cons.2 ⟨rfl, before⟩⟩
      · exact ⟨List.cons_ne_nil _ _, List.cons_prefix_cons.2 ⟨rfl, List.nil_prefix⟩⟩
    · rintro ⟨some, before⟩
      obtain ⟨next, more, rfl⟩ := List.exists_cons_of_ne_nil some
      obtain ⟨rfl, further⟩ := List.cons_prefix_cons.1 before
      rcases eq_or_ne more [] with rfl | others
      · exact Or.inr rfl
      · exact Or.inl ⟨more, ⟨others, further⟩, rfl⟩

theorem TypeRef.afterDot?_eq_none {ref : TypeRef} (relative : ref.isAbsolute = false) :
    afterDot? (components ref.name) = none := by
  rwa [TypeRef.isAbsolute, Option.isSome_eq_false_iff, Option.isNone_iff_eq_none] at relative

namespace File

variable {file : File} {scope : Scope} {first : String} {rest front : List String} {decl : DeclId} {ref : TypeRef}

/-- Whether names begin with a part of the package that is not all of it, and lead on to a declaration. The part
stands at the end of the package, behind the components in `front`. -/
def LeadsFromPart (file : File) (front names : List String) (decl : DeclId) : Prop :=
  ∃ package back rest, file.package = some package ∧ components package = front ++ back ∧ front ≠ [] ∧ back ≠ [] ∧
    names = back ++ rest ∧ file.FromTop rest decl

namespace ScopeTree

variable (tree : file.ScopeTree)
include tree

/-- A reference is written at the top of the file or in one of its messages. -/
theorem scope_mem_scopes (listed : ref ∈ file.types) : ref.scope ∈ file.scopes := by
  rw [types, List.append_assoc, List.mem_append, List.mem_append] at listed
  rcases listed with inMessage | inExtension | inService
  · obtain ⟨message, inTable, among⟩ := List.mem_flatMap.1 inMessage
    rw [tree.message_types message inTable ref among]
    exact List.mem_cons_of_mem _ (List.mem_map_of_mem inTable)
  · obtain ⟨extension, written, among⟩ := List.mem_flatMap.1 inExtension
    rw [tree.extension_types extension written ref among]
    exact List.mem_cons_self
  · obtain ⟨service, written, among⟩ := List.mem_flatMap.1 inService
    rw [tree.service_types service written ref among]
    exact List.mem_cons_self

theorem grounded_of_mem_types (listed : ref ∈ file.types) : file.Grounded ref.scope :=
  tree.grounded_of_mem_scopes (tree.scope_mem_scopes listed)

/-- Without an anchor, a reference is looked for behind the package as a whole. -/
theorem resolve_of_free (listed : ref ∈ file.types) (named : ref.isScalar = false) (relative : ref.isAbsolute = false)
    (split : components ref.name = first :: rest)
    (free : ∀ outer, file.Around ref.scope outer → ∀ decl, ¬file.Child outer first decl) :
    ref.resolve file = file.findInPackage? (components ref.name) := by
  have unanchored := (tree.anchor?_eq_none_iff_childless (tree.grounded_of_mem_types listed)).2 free
  rw [TypeRef.resolve, resolve, show isScalar ref.name = false from named, TypeRef.afterDot?_eq_none relative, split]
  simp only [resolveRelative, unanchored, Bool.false_eq_true, if_false]

/-- A name behind a beginning of the package is found where it goes on with the rest of the package. -/
theorem findInPackage?_behind_iff {package : String} {back : List String} (declared : file.package = some package)
    (parts : components package = front ++ back) :
    file.findInPackage? (front ++ names) = some decl ↔ ∃ rest, names = back ++ rest ∧ file.FromTop rest decl := by
  rw [findInPackage?_eq_some_iff]
  constructor
  · rintro ⟨same, rest, declared', split, found⟩
    obtain rfl := Option.some.inj (declared.symm.trans declared')
    rw [parts, List.append_assoc] at split
    exact ⟨rest, List.append_cancel_left split, tree.find?_eq_some_iff.1 found⟩
  · rintro ⟨rest, rfl, found⟩
    exact ⟨package, rest, declared, by rw [parts, List.append_assoc], tree.find?_eq_some_iff.2 found⟩

/-- If names lead nowhere from the top, behind a beginning of the package only a part of it can lead somewhere. -/
theorem findInPackage?_beginning_iff {package : String} (declared : file.package = some package)
    (beginning : front ∈ beginnings (components package)) (nowhere : file.find? names = none) :
    file.findInPackage? (front ++ names) = some decl ↔ file.LeadsFromPart front names decl := by
  obtain ⟨some, back, parts⟩ := mem_beginnings.1 beginning
  rw [tree.findInPackage?_behind_iff declared parts.symm]
  constructor
  · rintro ⟨rest, rfl, found⟩
    refine ⟨package, back, rest, declared, parts.symm, some, ?_, rfl, found⟩
    rintro rfl
    rw [← tree.find?_eq_some_iff, ← List.nil_append rest, nowhere] at found
    contradiction
  · rintro ⟨same, tail, rest, declared', parts', -, -, rfl, found⟩
    obtain rfl := Option.some.inj (declared.symm.trans declared')
    obtain rfl := List.append_cancel_left (parts.trans parts')
    exact ⟨rest, rfl, found⟩

/-- A part of the package does not lead to where the whole of it leads. -/
theorem findInPackage?_ne_of_leadsFromPart (leads : file.LeadsFromPart front names decl) :
    file.findInPackage? names ≠ some decl := by
  rintro whole
  obtain ⟨package, back, rest, declared, parts, some, -, rfl, found⟩ := leads
  obtain ⟨same, tail, declared', split, found'⟩ := findInPackage?_eq_some_iff.1 whole
  obtain rfl := Option.some.inj (declared.symm.trans declared')
  obtain rfl := tree.leadsTo_unique (tree.leadsTo_of_find? (tree.find?_eq_some_iff.2 found)) (tree.leadsTo_of_find? found')
  have longer : back = components package := List.append_cancel_right split
  rw [parts] at longer
  exact some (List.append_left_eq_self.1 longer.symm)

end ScopeTree

theorem Grounded.around_file (grounded : file.Grounded scope) : file.Around scope .file := by
  induction grounded with
  | file => exact .here _
  | message found _ ih => exact .owner found ih

/-- A name behind a beginning of the package does not begin with a dot. -/
theorem WellNamed.byFullName?_behind (named : file.WellNamed) {package : String} (declared : file.package = some package)
    (beginning : front ∈ beginnings (components package)) (name : String) :
    file.byFullName? (dotted (front ++ [name])) = file.findInPackage? (front ++ components name) := by
  obtain ⟨some, before⟩ := mem_beginnings.1 beginning
  have split : components (dotted (front ++ [name])) = front ++ components name := by
    rw [components_dotted (by simp), List.flatMap_append, List.flatMap_singleton,
      flatMap_components fun component member => undotted_of_mem_components (before.subset member)]
  have noDot : afterDot? (front ++ components name) = none := by
    obtain ⟨component, others, rfl⟩ := List.exists_cons_of_ne_nil some
    have identifier : isIdentifier component.toList :=
      isIdentifier_of_mem_components (named.package package declared) (before.subset List.mem_cons_self)
    exact afterDot?_eq_none _ _ (ne_empty_of_isIdentifier identifier)
  rw [byFullName?, split, noDot, declared]
  rfl

/-- What a name that leads nowhere from the top leads to behind the beginnings of the package, it leads to from a part
of the package. -/
theorem ScopeTree.byFullName?_beginning_iff (tree : file.ScopeTree) (named : file.WellNamed) {name : String}
    (nowhere : file.find? (components name) = none) :
    (∃ front ∈ beginnings ((file.package.map components).getD []), file.byFullName? (dotted (front ++ [name])) = some decl) ↔
      ∃ front, file.LeadsFromPart front (components name) decl := by
  constructor
  · rintro ⟨front, beginning, reached⟩
    cases declared : file.package with
    | none => simp [declared, beginnings] at beginning
    | some package =>
      rw [declared, Option.map_some, Option.getD_some] at beginning
      rw [named.byFullName?_behind declared beginning,
        tree.findInPackage?_beginning_iff declared beginning nowhere] at reached
      exact ⟨front, reached⟩
  · rintro ⟨front, leads⟩
    have ⟨package, back, _, declared, parts, nonempty, _⟩ := leads
    have beginning : front ∈ beginnings (components package) := mem_beginnings.2 ⟨nonempty, back, parts.symm⟩
    refine ⟨front, by rwa [declared, Option.map_some, Option.getD_some], ?_⟩
    rw [named.byFullName?_behind declared beginning]
    exact (tree.findInPackage?_beginning_iff declared beginning nowhere).2 leads

/-- A relative name that leads nowhere from the top is looked up alone as in the package. -/
theorem byFullName?_of_nowhere {name : String} (noDot : afterDot? (components name) = none)
    (nowhere : file.find? (components name) = none) : file.byFullName? name = file.findInPackage? (components name) := by
  rw [byFullName?, noDot, Option.getD_none]
  split
  · rfl
  · rename_i bare
    rw [nowhere, findInPackage?_of_package_eq_none (by simpa using bare)]

end File

/-- A reference that leads out is looked up behind the beginnings of the package, and then by its name alone. -/
theorem OuterRef.resolve_ofRef {file : File} {ref : TypeRef} (relative : ref.isAbsolute = false) (other : File) :
    (OuterRef.ofRef file ref).resolve other =
      ((beginnings ((file.package.map components).getD [])).findSome? fun front =>
        other.byFullName? (dotted (front ++ [ref.name]))).or (other.byFullName? ref.name) := by
  rw [OuterRef.resolve, OuterRef.ofRef, TypeRef.afterDot?_eq_none relative]
  simp only [List.findSome?_append, List.findSome?_map, List.findSome?_singleton]
  rfl

/-- In a parsed file, take a reference without an anchor: no scope met on the way outwards, the top included, has a
child called by its first component, and so no message around it is called by it either. As a reference that leads
out, it means in the same file what it means there anyway, if and only if no part of the package leads somewhere. -/
theorem OuterRef.resolve_ofRef_eq_iff {name source first : String} {file : File} {ref : TypeRef} {rest : List String}
    (parsed : parse name source = .ok file) (listed : ref ∈ file.types) (named : ref.isScalar = false)
    (relative : ref.isAbsolute = false) (split : components ref.name = first :: rest)
    (free : ∀ outer, file.Around ref.scope outer → ∀ decl, ¬file.Child outer first decl) :
    (OuterRef.ofRef file ref).resolve file = ref.resolve file ↔
      ∀ front decl, ¬file.LeadsFromPart front (components ref.name) decl := by
  have tree := scopeTree_of_parse parsed
  have nowhere : file.find? (components ref.name) = none := by
    have top := (tree.grounded_of_mem_types listed).around_file
    rw [split, File.find?, tree.child?_eq_none_iff.2 (free .file top), Option.bind_none]
  have behind (decl : DeclId) := @tree.byFullName?_beginning_iff _ decl (parse_wellNamed parsed) ref.name nowhere
  rw [tree.resolve_of_free listed named relative split free, OuterRef.resolve_ofRef relative,
    File.byFullName?_of_nowhere (TypeRef.afterDot?_eq_none relative) nowhere]
  cases found : (beginnings ((file.package.map components).getD [])).findSome? fun front =>
      file.byFullName? (dotted (front ++ [ref.name])) with
  | none =>
    simp only [Option.none_or, true_iff]
    intro front decl leads
    obtain ⟨other, beginning, reached⟩ := (behind decl).2 ⟨front, leads⟩
    have unreached := List.findSome?_eq_none_iff.1 found other beginning
    rw [reached] at unreached
    contradiction
  | some decl =>
    -- The first part that leads somewhere leads to something else than the whole package does.
    obtain ⟨front, leads⟩ := (behind decl).1 (List.exists_of_findSome?_eq_some found)
    rw [Option.some_or]
    constructor
    · intro same
      exact absurd same.symm (tree.findInPackage?_ne_of_leadsFromPart leads)
    · intro noPart
      exact absurd leads (noPart front decl)

/-- A package of two components, and a type of it referred to behind the whole of it and behind the last one. -/
def inPackage : String :=
  "package a.b; message X \x7b \x7d message M \x7b a.b.X whole = 1; b.X part = 2; \x7d"

/-- A reference in the second message of that file. -/
def inPackageRef (name : String) : TypeRef :=
  ⟨name, .message ⟨1⟩⟩

/-- In that file neither reference has an anchor. The first is found at its place and the second is not, although it
would be found from outside. -/
theorem parse_inPackage : ∃ file, parse "m" inPackage = .ok file ∧
    file.types = [inPackageRef "a.b.X", inPackageRef "b.X"] ∧ file.package = some "a.b" ∧
    (∀ outer, file.Around (.message ⟨1⟩) outer → ∀ decl, ¬file.Child outer "a" decl ∧ ¬file.Child outer "b" decl) ∧
    (inPackageRef "a.b.X").resolve file = some (.message ⟨0⟩) ∧ (inPackageRef "b.X").resolve file = none ∧
    (OuterRef.ofRef file (inPackageRef "b.X")).resolve file = some (.message ⟨0⟩) := by
  have evaluated : ((parse "m" inPackage).toOption.map fun file => (file.types, file.package,
      [file.anchor? (.message ⟨1⟩) "a", file.anchor? (.message ⟨1⟩) "b", (inPackageRef "a.b.X").resolve file,
        (inPackageRef "b.X").resolve file, (OuterRef.ofRef file (inPackageRef "b.X")).resolve file])) =
    some ([inPackageRef "a.b.X", inPackageRef "b.X"], some "a.b",
      [none, none, some (.message ⟨0⟩), none, some (.message ⟨0⟩)]) := by decide +kernel
  obtain ⟨file, parsed, known⟩ := parse_of_map_toOption evaluated
  simp only [Prod.mk.injEq, List.cons.injEq, and_true] at known
  obtain ⟨types, package, noA, noB, resolved, unresolved, fromOutside⟩ := known
  have tree := scopeTree_of_parse parsed
  have grounded : file.Grounded (.message ⟨1⟩) := by
    have listed : inPackageRef "b.X" ∈ file.types := by simp [types]
    exact tree.grounded_of_mem_types listed
  refine ⟨file, parsed, types, package, fun outer around decl => ⟨?_, ?_⟩, resolved, unresolved, fromOutside⟩
  · exact (tree.anchor?_eq_none_iff_childless grounded).1 noA outer around decl
  · exact (tree.anchor?_eq_none_iff_childless grounded).1 noB outer around decl

/-- A reference behind the whole package means the same from outside: no part of the package leads somewhere. -/
theorem OuterRef.resolve_ofRef_inPackage : ∃ file ref, parse "m" inPackage = .ok file ∧ ref ∈ file.types ∧
    ref.isScalar = false ∧ ref.isAbsolute = false ∧ components ref.name = ["a", "b", "X"] ∧
    (∀ outer, file.Around ref.scope outer → ∀ decl, ¬file.Child outer "a" decl) ∧
    (∀ front decl, ¬file.LeadsFromPart front (components ref.name) decl) ∧
    (OuterRef.ofRef file ref).resolve file = some (.message ⟨0⟩) ∧ ref.resolve file = some (.message ⟨0⟩) := by
  obtain ⟨file, parsed, types, package, free, resolved, -⟩ := parse_inPackage
  have listed : inPackageRef "a.b.X" ∈ file.types := by simp [types]
  have named : (inPackageRef "a.b.X").isScalar = false := by decide
  have relative : (inPackageRef "a.b.X").isAbsolute = false := by decide
  have split : components (inPackageRef "a.b.X").name = ["a", "b", "X"] := by decide
  have noPart (front : List String) (decl : DeclId) :
      ¬file.LeadsFromPart front (components (inPackageRef "a.b.X").name) decl := by
    rintro ⟨_, back, rest, declared, parts, some, others, same, -⟩
    rw [package] at declared
    obtain rfl := Option.some.inj declared
    rw [split] at same
    obtain ⟨next, more, rfl⟩ := List.exists_cons_of_ne_nil some
    obtain ⟨last, beyond, rfl⟩ := List.exists_cons_of_ne_nil others
    have whole : components "a.b" = ["a", "b"] := by decide
    rw [whole] at parts
    have later : last ∈ ["b"] := by
      rw [(List.cons.inj parts).2]
      simp
    rw [← (List.cons.inj same).1] at later
    contradiction
  have anchorless (outer : Scope) (around : file.Around (.message ⟨1⟩) outer) (decl : DeclId) :=
    (free outer around decl).1
  refine ⟨file, _, parsed, listed, named, relative, split, anchorless, noPart, ?_, resolved⟩
  rw [(OuterRef.resolve_ofRef_eq_iff parsed listed named relative split anchorless).2 noPart, resolved]

/-- A reference behind the last component of the package means nothing in the file, but something from outside. -/
theorem OuterRef.resolve_ofRef_ne : ∃ file ref, parse "m" inPackage = .ok file ∧ ref ∈ file.types ∧
    ref.isScalar = false ∧ ref.isAbsolute = false ∧ components ref.name = ["b", "X"] ∧
    (∀ outer, file.Around ref.scope outer → ∀ decl, ¬file.Child outer "b" decl) ∧
    (OuterRef.ofRef file ref).resolve file ≠ ref.resolve file := by
  obtain ⟨file, parsed, types, -, free, -, unresolved, fromOutside⟩ := parse_inPackage
  exact ⟨file, inPackageRef "b.X", parsed, by simp [types], by decide, by decide, by decide,
    fun outer around decl => (free outer around decl).2, by simp [unresolved, fromOutside]⟩

end ProtoSchema
