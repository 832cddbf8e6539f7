import ProtoSchema.Proofs.File.Children
import ProtoSchema.Proofs.Grammar.Names

namespace ProtoSchema

/-- Where a function takes each value once in a list, it takes it at one place. -/
theorem index_unique {α β : Type} {items : List α} {f : α → β} (once : (items.map f).Nodup) {i j : Nat} {a b : α}
    (atFirst : items[i]? = some a) (atSecond : items[j]? = some b) (same : f a = f b) : i = j := by
  obtain ⟨bound, -⟩ := List.getElem?_eq_some_iff.1 atFirst
  refine (List.getElem?_inj (by rwa [List.length_map]) once).1 ?_
  rw [List.getElem?_map, List.getElem?_map, atFirst, atSecond, Option.map_some, Option.map_some, same]

variable {name : String} {names : List String}

/-- A name without the dot that it may begin with. -/
def withoutDot (name : String) : String :=
  match name.toList with
  | '.' :: rest => String.ofList rest
  | _ => name

theorem components_dot (name : String) : components ("." ++ name) = "" :: components name :=
  components_append "" name

theorem afterDot?_dot (name : String) : afterDot? (components ("." ++ name)) = some (components name) := by
  rw [components_dot]
  obtain ⟨first, rest, split⟩ := List.exists_cons_of_ne_nil (components_ne_nil name)
  rw [split, afterDot?]

theorem afterDot?_eq_none (first : String) (rest : List String) (some : first ≠ "") : afterDot? (first :: rest) = none := by
  unfold afterDot?
  split
  · rename_i same
    exact absurd (List.cons.inj same).1 some
  · rfl

/-- Only a name that begins with a dot has components after one. -/
theorem eq_dot_of_afterDot? (after : afterDot? (components name) = some names) : ∃ rest, name = "." ++ rest := by
  unfold afterDot? at after
  split at after
  · rename_i next rest split
    exact ⟨dotted (next :: rest), by rw [← dotted_components name, split, dotted_cons _ (List.cons_ne_nil _ _)]; rfl⟩
  · contradiction

theorem afterDot?_components (name : String) :
    (afterDot? (components name)).getD (components name) = components (withoutDot name) := by
  cases after : afterDot? (components name) with
  | some names =>
    obtain ⟨rest, rfl⟩ := eq_dot_of_afterDot? after
    rw [afterDot?_dot] at after
    rw [Option.getD_some, ← Option.some.inj after]
    simp [withoutDot]
  | none =>
    rw [Option.getD_none, withoutDot]
    split
    · rename_i rest text
      have begins : name = "." ++ String.ofList rest := by
        apply String.toList_inj.1
        simp [text]
      rw [begins, afterDot?_dot] at after
      contradiction
    · rfl

namespace File

variable {file : File} {scope : Scope} {called : String} {more rest : List String} {anchor decl other : DeclId}

theorem afterPackage?_eq_some_iff : file.afterPackage? names = some rest ↔
    ∃ package, file.package = some package ∧ names = components package ++ rest ∧ rest ≠ [] := by
  simp only [afterPackage?, Option.filter_eq_some_iff, Option.bind_eq_some_iff, List.isPrefixOf?_eq_some_iff_append_eq]
  constructor
  · rintro ⟨⟨package, declared, rfl⟩, some⟩
    exact ⟨package, declared, rfl, by simpa using some⟩
  · rintro ⟨package, declared, rfl, some⟩
    exact ⟨⟨package, declared, rfl⟩, by simpa using some⟩

theorem findInPackage?_eq_some_iff : file.findInPackage? names = some decl ↔
    ∃ package rest, file.package = some package ∧ names = components package ++ rest ∧ file.find? rest = some decl := by
  simp only [findInPackage?, Option.bind_eq_some_iff, afterPackage?_eq_some_iff]
  constructor
  · rintro ⟨rest, ⟨package, declared, split, -⟩, found⟩
    exact ⟨package, rest, declared, split, found⟩
  · rintro ⟨package, rest, declared, split, found⟩
    refine ⟨rest, ⟨package, declared, split, ?_⟩, found⟩
    rintro rfl
    contradiction

theorem findInPackage?_of_package_eq_none (bare : file.package = none) (names : List String) :
    file.findInPackage? names = none := by
  simp [findInPackage?, afterPackage?, bare]

/-- Looking up a full name follows what comes behind the package. -/
theorem byFullName?_eq_some_iff : file.byFullName? called = some decl ↔
    ∃ names, components (withoutDot called) = file.package.toList.flatMap components ++ names ∧
      file.find? names = some decl := by
  rw [byFullName?, afterDot?_components]
  cases declared : file.package with
  | none => simp
  | some package => simp [findInPackage?_eq_some_iff, declared]

theorem dotted_package (package : Option String) (some : names ≠ []) :
    dotted (package.toList.flatMap components ++ names) = dotted (package.toList ++ names) := by
  cases package with
  | none => rfl
  | some package =>
    simp only [Option.toList_some, List.flatMap_singleton, List.singleton_append]
    rw [dotted_append (components_ne_nil package) some, dotted_components, dotted_cons package some]

/-- A declaration is called by the name that it is found by. -/
theorem ScopeTree.fullName?_of_byFullName? (tree : file.ScopeTree) (found : file.byFullName? called = some decl) :
    file.fullName? decl = some (withoutDot called) := by
  obtain ⟨names, split, reached⟩ := byFullName?_eq_some_iff.1 found
  have leads := tree.leadsTo_of_find? reached
  rw [tree.fullName?_of_leadsTo leads, ← dotted_package file.package leads.ne_nil, ← split, dotted_components]

/-- Whether no two direct children of a scope, be they messages or enums, have the same name. -/
def Unambiguous (file : File) : Prop :=
  (file.messageTable.map (fun message => (message.owner, message.name)) ++
    file.enumTable.map fun enum => (enum.owner, enum.name)).Nodup

instance (file : File) : Decidable file.Unambiguous :=
  inferInstanceAs (Decidable (List.Nodup _))

theorem Unambiguous.child_unique (unambiguous : file.Unambiguous) (child : file.Child scope name decl)
    (again : file.Child scope name other) : decl = other := by
  obtain ⟨messages, enums, apart⟩ := List.nodup_append.1 unambiguous
  have mixed {message : MessageId} {enum : EnumId} (asMessage : file.Child scope name (.message message))
      (asEnum : file.Child scope name (.enum enum)) : False := by
    obtain ⟨first, atFirst, rfl, rfl⟩ := asMessage
    obtain ⟨second, atSecond, owned, named⟩ := asEnum
    exact apart _ (List.mem_map_of_mem (List.mem_of_getElem? atFirst)) _
      (List.mem_map_of_mem (List.mem_of_getElem? atSecond)) (by rw [owned, named])
  cases decl with
  | message =>
    cases other with
    | message =>
      obtain ⟨first, atFirst, rfl, rfl⟩ := child
      obtain ⟨second, atSecond, owned, named⟩ := again
      have same := index_unique messages atFirst atSecond (by rw [owned, named])
      rw [DeclId.message.injEq, MessageId.mk.injEq, same]
    | enum => exact (mixed child again).elim
  | enum =>
    cases other with
    | message => exact (mixed again child).elim
    | enum =>
      obtain ⟨first, atFirst, rfl, rfl⟩ := child
      obtain ⟨second, atSecond, owned, named⟩ := again
      have same := index_unique enums atFirst atSecond (by rw [owned, named])
      rw [DeclId.enum.injEq, EnumId.mk.injEq, same]

theorem inward_append (file : File) (anchor : DeclId) (names more : List String) :
    file.inward anchor (names ++ more) = (file.inward anchor names).bind fun decl => file.inward decl more := by
  induction names generalizing anchor with
  | nil => rfl
  | cons name rest ih =>
    cases anchor with
    | message id => simp only [List.cons_append, inward, ih, Option.bind_assoc]
    | enum id => rfl

theorem find?_append (file : File) (more : List String) (some : names ≠ []) :
    file.find? (names ++ more) = (file.find? names).bind fun decl => file.inward decl more := by
  obtain ⟨first, rest, rfl⟩ := List.exists_cons_of_ne_nil some
  simp only [List.cons_append, find?, inward_append, Option.bind_assoc]

theorem ScopeTree.child?_of_child (tree : file.ScopeTree) (unambiguous : file.Unambiguous)
    (child : file.Child scope name decl) : file.child? scope name = some decl := by
  cases found : file.child? scope name with
  | none => exact absurd child (tree.child?_eq_none_iff.1 found decl)
  | some other => rw [unambiguous.child_unique (tree.child?_eq_some_iff.1 found).child child]

/-- Where names are unambiguous, the names that lead to a declaration find it. -/
theorem ScopeTree.find?_of_leadsTo (tree : file.ScopeTree) (unambiguous : file.Unambiguous)
    (leads : file.LeadsTo names decl) : file.find? names = some decl := by
  induction leads with
  | top child => simp [find?, tree.child?_of_child unambiguous child, inward]
  | inner outer child ih =>
    rw [find?_append file _ outer.ne_nil, ih]
    simp [inward, tree.child?_of_child unambiguous child]

theorem WellNamed.of_child (named : file.WellNamed) (child : file.Child scope name decl) : isIdentifier name.toList := by
  cases decl with
  | message =>
    obtain ⟨message, found, -, rfl⟩ := child
    exact named.messages message (List.mem_of_getElem? found)
  | enum =>
    obtain ⟨enum, found, -, rfl⟩ := child
    exact named.enums enum (List.mem_of_getElem? found)

theorem WellNamed.of_leadsTo (named : file.WellNamed) (leads : file.LeadsTo names decl) :
    ∀ name ∈ names, isIdentifier name.toList := by
  induction leads with
  | top child => exact List.forall_mem_singleton.2 (named.of_child child)
  | inner _ child ih => exact List.forall_mem_append.2 ⟨ih, List.forall_mem_singleton.2 (named.of_child child)⟩

/-- What a full name consists of. -/
theorem WellNamed.components_fullName (named : file.WellNamed) (leads : file.LeadsTo names decl) :
    components (dotted (file.package.toList ++ names)) = file.package.toList.flatMap components ++ names := by
  have undotted (name : String) (member : name ∈ names) : Undotted name :=
    undotted_of_isIdentifier (named.of_leadsTo leads name member)
  rw [components_dotted (by simp [leads.ne_nil]), List.flatMap_append, flatMap_components undotted]

theorem WellNamed.identifiers (named : file.WellNamed) (leads : file.LeadsTo names decl) :
    ∀ name ∈ file.package.toList.flatMap components ++ names, isIdentifier name.toList := by
  refine List.forall_mem_append.2 ⟨fun name member => ?_, named.of_leadsTo leads⟩
  obtain ⟨package, declared, among⟩ := List.mem_flatMap.1 member
  exact isIdentifier_of_mem_components (named.package package (Option.mem_toList.1 declared)) among

/-- A full name does not begin with a dot. -/
theorem WellNamed.afterDot?_fullName (named : file.WellNamed) (leads : file.LeadsTo names decl) :
    afterDot? (file.package.toList.flatMap components ++ names) = none := by
  have identifiers := named.identifiers leads
  cases split : file.package.toList.flatMap components ++ names with
  | nil => rfl
  | cons first rest =>
    rw [split] at identifiers
    exact afterDot?_eq_none first rest (ne_empty_of_isIdentifier (identifiers first (List.mem_cons_self ..)))

theorem not_isScalar_dot (name : String) : isScalar ("." ++ name) = false := by
  have plain : ∀ scalar ∈ scalarTypes, scalar.toList.head? ≠ some '.' := by decide
  rw [← Bool.not_eq_true, isScalar, List.contains_iff_mem]
  intro scalar
  exact plain _ scalar (by simp)

/-- Following a package and then names finds what the names find, whether there is a package or not. -/
theorem findInPackage?_or_find? (found : file.find? names = some decl) :
    (if file.package.isSome then file.findInPackage? (file.package.toList.flatMap components ++ names)
      else file.find? (file.package.toList.flatMap components ++ names)) = some decl ∧
      file.resolveAbsolute (file.package.toList.flatMap components ++ names) = some decl := by
  cases declared : file.package with
  | none => simpa [resolveAbsolute, findInPackage?_of_package_eq_none declared] using found
  | some package =>
    have inPackage : file.findInPackage? (components package ++ names) = some decl :=
      findInPackage?_eq_some_iff.2 ⟨package, names, declared, rfl, found⟩
    simp [resolveAbsolute, inPackage]

end File

/-- In a parsed file, whatever a name is looked up to is called by it, and if no two children of a scope have the
same name, no two declarations have the same full name and each is found by its own, with or without a dot before it
and from all scopes. -/
theorem byFullName?_inverse {name source : String} {file : File} (parsed : parse name source = .ok file) :
    (∀ called decl, file.byFullName? called = some decl → file.fullName? decl = some (withoutDot called)) ∧
      (file.Unambiguous →
        (∀ decl other, file.Declares decl → file.fullName? decl = file.fullName? other → decl = other) ∧
        ∀ decl, file.Declares decl → ∃ called, file.fullName? decl = some called ∧
          file.byFullName? called = some decl ∧ file.byFullName? ("." ++ called) = some decl ∧
            ∀ scope, file.resolve scope ("." ++ called) = some decl) := by
  have tree := scopeTree_of_parse parsed
  have named := parse_wellNamed parsed
  refine ⟨fun called decl => tree.fullName?_of_byFullName?, fun unambiguous => ?_⟩
  have found (decl : DeclId) (declared : file.Declares decl) : ∃ called, file.fullName? decl = some called ∧
      file.byFullName? called = some decl ∧ file.byFullName? ("." ++ called) = some decl ∧
        ∀ scope, file.resolve scope ("." ++ called) = some decl := by
    obtain ⟨names, leads⟩ := tree.exists_leadsTo declared
    obtain ⟨lookedUp, absolute⟩ := File.findInPackage?_or_find? (tree.find?_of_leadsTo unambiguous leads)
    have split := named.components_fullName leads
    refine ⟨_, tree.fullName?_of_leadsTo leads, ?_, ?_, fun scope => ?_⟩
    · rwa [File.byFullName?, split, named.afterDot?_fullName leads]
    · rwa [File.byFullName?, afterDot?_dot, Option.getD_some, split]
    · rw [File.resolve, File.not_isScalar_dot, afterDot?_dot, split]
      exact absolute
  refine ⟨fun decl other declared same => ?_, found⟩
  obtain ⟨called, isCalled, lookedUp, -⟩ := found decl declared
  have also : file.fullName? other = some called := same ▸ isCalled
  obtain ⟨otherCalled, isOther, lookedUpOther, -⟩ := found other (File.declares_of_fullName? also)
  obtain rfl := Option.some.inj (also.symm.trans isOther)
  exact Option.some.inj (lookedUp.symm.trans lookedUpOther)

/-- A package, two messages and an enum of the same name, and two messages called like a scalar type. -/
def shadowing : String :=
  "package a; message a \x7b message string \x7b \x7d enum a \x7b \x7d \x7d message string \x7b \x7d"

/-- The inner message is found by its full name, although the outer one is called like a part of it. -/
theorem byFullName?_inverse_shadowing : ∃ file, parse "m" shadowing = .ok file ∧ file.Unambiguous ∧
    file.fullName? (.message ⟨1⟩) = some "a.a.string" ∧ file.byFullName? "a.a.string" = some (.message ⟨1⟩) ∧
    file.byFullName? ".a.a.string" = some (.message ⟨1⟩) ∧
    ∀ scope, file.resolve scope ".a.a.string" = some (.message ⟨1⟩) := by
  have evaluated : ((parse "m" shadowing).toOption.map fun file =>
      (decide file.Unambiguous, file.fullName? (.message ⟨1⟩))) = some (true, some "a.a.string") := by decide +kernel
  obtain ⟨file, parsed, known⟩ := parse_of_map_toOption evaluated
  simp only [Prod.mk.injEq, decide_eq_true_eq] at known
  obtain ⟨unambiguous, isCalled⟩ := known
  obtain ⟨-, inverse⟩ := byFullName?_inverse parsed
  obtain ⟨called, same, lookedUp, dotted, absolute⟩ :=
    (inverse unambiguous).2 (.message ⟨1⟩) (File.declares_of_fullName? isCalled)
  obtain rfl := Option.some.inj (isCalled.symm.trans same)
  exact ⟨file, parsed, unambiguous, isCalled, lookedUp, dotted, absolute⟩

end ProtoSchema
