import ProtoSchema.Proofs.File.FullNames

namespace ProtoSchema

variable {name : String} {names : List String}

/-- Names put together before a dotted name may as well come before its components. -/
theorem dotted_append_components (names : List String) (name : String) :
    dotted (names ++ components name) = dotted (names ++ [name]) := by
  rcases eq_or_ne names [] with rfl | some
  · simp
  · rw [dotted_append some (components_ne_nil name), dotted_components, dotted_append some (List.cons_ne_nil _ _),
      dotted_singleton]

theorem afterDot?_of_isRelativeName (relative : isRelativeName name.toList) : afterDot? (components name) = none := by
  obtain ⟨first, rest, split⟩ := List.exists_cons_of_ne_nil (components_ne_nil name)
  rw [split]
  refine afterDot?_eq_none first rest (ne_empty_of_isIdentifier (isIdentifier_of_mem_components relative ?_))
  rw [split]
  exact List.mem_cons_self

namespace File

variable {file : File} {scope outer : Scope} {first : String} {rest : List String} {anchor decl : DeclId}
  {message : Message} {id : MessageId}

/-- Whether a scope is met on the way outwards from another one, that one included. -/
inductive Around (file : File) : Scope → Scope → Prop
  | here (scope : Scope) : Around file scope scope
  | owner {id : MessageId} {message : Message} {outer : Scope} (found : file.message? id = some message)
      (further : Around file message.owner outer) : Around file (.message id) outer

/-- Whether a declaration is the anchor of a name in a scope. A message is the anchor of its own name, before what
is declared in it; only where neither has the name does the scope around it decide. -/
inductive Anchors (file : File) (first : String) : Scope → DeclId → Prop
  | itself {id : MessageId} {message : Message} (found : file.message? id = some message) (called : message.name = first) :
      Anchors file first (.message id) (.message id)
  | inside {id : MessageId} {message : Message} {decl : DeclId} (found : file.message? id = some message)
      (other : message.name ≠ first) (child : file.FirstChild (.message id) first decl) :
      Anchors file first (.message id) decl
  | around {id : MessageId} {message : Message} {decl : DeclId} (found : file.message? id = some message)
      (other : message.name ≠ first) (childless : ∀ child, ¬file.Child (.message id) first child)
      (further : Anchors file first message.owner decl) : Anchors file first (.message id) decl
  | top {decl : DeclId} (child : file.FirstChild .file first decl) : Anchors file first .file decl

/-- An anchor has its name in a scope that is met on the way outwards. -/
theorem Anchors.child (anchors : file.Anchors first scope anchor) :
    ∃ outer, file.Around scope outer ∧ file.Child outer first anchor := by
  induction anchors with
  | @itself _ message found called => exact ⟨message.owner, .owner found (.here _), message, found, rfl, called⟩
  | inside _ _ child => exact ⟨_, .here _, child.child⟩
  | around found _ _ _ ih =>
    obtain ⟨outer, further, child⟩ := ih
    exact ⟨outer, .owner found further, child⟩
  | top child => exact ⟨_, .here _, child.child⟩

/-- The ways in which a declaration can be an anchor in the body of a message. -/
theorem anchors_message_iff (found : file.message? id = some message) : file.Anchors first (.message id) decl ↔
    message.name = first ∧ decl = .message id ∨ message.name ≠ first ∧ (file.FirstChild (.message id) first decl ∨
      (∀ child, ¬file.Child (.message id) first child) ∧ file.Anchors first message.owner decl) := by
  constructor
  · intro anchors
    cases anchors with
    | itself same called =>
      obtain rfl := Option.some.inj (found.symm.trans same)
      exact Or.inl ⟨called, rfl⟩
    | inside same other child =>
      obtain rfl := Option.some.inj (found.symm.trans same)
      exact Or.inr ⟨other, Or.inl child⟩
    | around same other childless further =>
      obtain rfl := Option.some.inj (found.symm.trans same)
      exact Or.inr ⟨other, Or.inr ⟨childless, further⟩⟩
  · rintro (⟨called, rfl⟩ | ⟨other, child | ⟨childless, further⟩⟩)
    · exact .itself found called
    · exact .inside found other child
    · exact .around found other childless further

theorem anchor?_file (file : File) (first : String) : file.anchor? .file first = file.child? .file first := by
  simp [anchor?, enclosing]

namespace ScopeTree

variable (tree : file.ScopeTree)
include tree

theorem anchor?_message (found : file.message? id = some message) :
    file.anchor? (.message id) first = (file.anchorIn? first message).or (file.anchor? message.owner first) := by
  rw [anchor?, anchor?, tree.enclosing_message found, List.findSome?_cons]
  cases file.anchorIn? first message <;> rfl

theorem grounded_of_mem_scopes (member : scope ∈ file.scopes) : file.Grounded scope := by
  rcases List.mem_cons.1 member with rfl | inner
  · exact .file
  · obtain ⟨message, inTable, rfl⟩ := List.mem_map.1 inner
    obtain ⟨index, found⟩ := List.getElem?_of_mem inTable
    refine .message ?_ (tree.grounded message inTable)
    rwa [message?, tree.message_id index message found]

/-- The search outwards ends at the anchor. -/
theorem anchor?_eq_some_iff (grounded : file.Grounded scope) :
    file.anchor? scope first = some anchor ↔ file.Anchors first scope anchor := by
  -- Owners end at the top, where only the children are left to be looked at.
  induction grounded with
  | file =>
    rw [anchor?_file, tree.child?_eq_some_iff]
    constructor
    · exact .top
    · rintro ⟨⟩
      assumption
  | @message id message found _ ih =>
    have place : message.id = id := tree.message_id id.index message found
    rw [tree.anchor?_message found, anchorIn?, place, anchors_message_iff found, ← tree.child?_eq_some_iff]
    by_cases called : message.name = first
    · simp [called, eq_comm]
    · cases inMessage : file.child? (.message id) first with
      | some decl =>
        have child := (tree.child?_eq_some_iff.1 inMessage).child
        have shut : ¬∀ decl, ¬file.Child (.message id) first decl := fun childless => childless decl child
        simp [called, shut]
      | none =>
        have childless := tree.child?_eq_none_iff.1 inMessage
        simp [called, childless, ih]

theorem anchor?_eq_none_iff (grounded : file.Grounded scope) :
    file.anchor? scope first = none ↔ ∀ anchor, ¬file.Anchors first scope anchor := by
  simp only [Option.eq_none_iff_forall_ne_some, ne_eq, tree.anchor?_eq_some_iff grounded]

/-- There is no anchor where no scope met on the way outwards has a child of the name. A message of the name around
the place would be such a child. -/
theorem anchor?_eq_none_iff_childless (grounded : file.Grounded scope) : file.anchor? scope first = none ↔
    ∀ outer, file.Around scope outer → ∀ decl, ¬file.Child outer first decl := by
  constructor
  · intro nothing outer around
    induction grounded with
    | file =>
      cases around
      rwa [anchor?_file, tree.child?_eq_none_iff] at nothing
    | @message id message found _ ih =>
      have place : message.id = id := tree.message_id id.index message found
      rw [tree.anchor?_message found, Option.or_eq_none_iff, anchorIn?, place] at nothing
      cases around with
      | here =>
        refine tree.child?_eq_none_iff.1 ?_
        split at nothing
        · cases nothing.1
        · exact nothing.1
      | owner same further =>
        obtain rfl := Option.some.inj (found.symm.trans same)
        exact ih nothing.2 further
  · intro free
    refine (tree.anchor?_eq_none_iff grounded).2 fun anchor anchors => ?_
    obtain ⟨outer, around, child⟩ := anchors.child
    exact free outer around anchor child

end ScopeTree

/-- Whether names lead inwards from the top of a file, each to the first declaration of that name. -/
def FromTop (file : File) (names : List String) (decl : DeclId) : Prop :=
  ∃ first rest top, names = first :: rest ∧ file.FirstChild .file first top ∧ file.Follow top rest decl

theorem ScopeTree.find?_eq_some_iff (tree : file.ScopeTree) : file.find? names = some decl ↔ file.FromTop names decl := by
  cases names with
  | nil => exact ⟨nofun, nofun⟩
  | cons first rest =>
    rw [find?, Option.bind_eq_some_iff]
    simp only [tree.child?_eq_some_iff, tree.inward_eq_some_iff]
    constructor
    · rintro ⟨top, child, follow⟩
      exact ⟨first, rest, top, rfl, child, follow⟩
    · rintro ⟨_, _, top, ⟨⟩, child, follow⟩
      exact ⟨top, child, follow⟩

/-- A name is found in a package by what is left of its text behind the package and a dot. -/
theorem findInPackage?_components : file.findInPackage? (components name) = some decl ↔
    ∃ package tail, file.package = some package ∧ name = package ++ "." ++ tail ∧
      file.find? (components tail) = some decl := by
  rw [findInPackage?_eq_some_iff]
  constructor
  · rintro ⟨package, rest, declared, split, found⟩
    have some : rest ≠ [] := by
      rintro rfl
      contradiction
    have text : name = package ++ "." ++ dotted rest := by
      rw [← dotted_components name, split, dotted_append (components_ne_nil package) some, dotted_components]
    refine ⟨package, dotted rest, declared, text, ?_⟩
    rw [text, components_append] at split
    rwa [List.append_cancel_left split]
  · rintro ⟨package, tail, declared, rfl, found⟩
    exact ⟨package, components tail, declared, components_append package tail, found⟩

/-- The full name of a scope: that of a message, or the package at the top of a file. -/
def scopeName? (file : File) : Scope → Option String
  | .file => file.package
  | .message id => file.fullName? (.message id)

namespace ScopeTree

variable (tree : file.ScopeTree)
include tree

/-- What holds a declaration is declared itself. -/
theorem declares_owner (child : file.Child (.message id) first decl) : file.Declares (.message id) := by
  have listed : file.messagesIn (.message id) ≠ [] ∨ file.enumsIn (.message id) ≠ [] := by
    cases decl with
    | message => exact Or.inl (List.ne_nil_of_mem (tree.message_child_iff.1 child).1)
    | enum => exact Or.inr (List.ne_nil_of_mem (tree.enum_child_iff.1 child).1)
  cases found : file.message? id with
  | none => simp [messagesIn, enumsIn, found] at listed
  | some message => exact ⟨message, found⟩

theorem scopeName?_message (declared : file.Declares (.message id)) :
    file.scopeName? (.message id) = some (dotted (file.package.toList ++ file.path (.message id))) := by
  obtain ⟨scope, name, child⟩ := declared.child
  have leads : file.LeadsTo (file.path (.message id)) (.message id) :=
    tree.leadsTo_iff.2 ⟨scope, name, child, tree.path_message child⟩
  rw [scopeName?, tree.fullName?_of_leadsTo leads]

/-- What is followed from a child of a scope has the full name of the scope before the names followed. -/
theorem fullName?_of_follow (child : file.Child outer first anchor) (follow : file.Follow anchor rest decl)
    (split : components name = first :: rest) :
    file.fullName? decl = some ((file.scopeName? outer).elim name (· ++ "." ++ name)) := by
  have leads : file.LeadsTo (file.path outer ++ components name) decl := by
    have toAnchor := tree.leadsTo_iff.2 ⟨outer, first, child, rfl⟩
    have next := toAnchor.follow follow
    rwa [List.append_assoc, List.singleton_append, ← split] at next
  rw [tree.fullName?_of_leadsTo leads, ← List.append_assoc, dotted_append_components]
  cases outer with
  | file =>
    cases declared : file.package with
    | none => simp [scopeName?, declared]
    | some package => simp [scopeName?, declared, dotted_cons]
  | message id =>
    have within : file.path (.message id) ≠ [] := by
      obtain ⟨scope, called, owner⟩ := (tree.declares_owner child).child
      simp [tree.path_message owner]
    rw [tree.scopeName?_message (tree.declares_owner child), dotted_append (by simp [within]) (List.cons_ne_nil _ _),
      dotted_singleton]
    rfl

end ScopeTree

end File

/-- In a parsed file, the innermost anchor of the first component of a name decides alone what the name means in a
scope. Where there is none the name is looked for from the top, behind the package. What is found is called by the
name itself, and the name begins with the package, or by the name behind that of a scope met on the way outwards. -/
theorem resolve_eq_some_iff_follow {title source name first : String} {file : File} {scope : Scope} {rest : List String}
    (parsed : parse title source = .ok file) (member : scope ∈ file.scopes) (relative : isRelativeName name.toList)
    (named : isScalar name = false) (split : components name = first :: rest) :
    (∀ anchor, file.Anchors first scope anchor →
      ∀ decl, file.resolve scope name = some decl ↔ file.Follow anchor rest decl) ∧
    ((∀ anchor, ¬file.Anchors first scope anchor) →
      ∀ decl, file.resolve scope name = some decl ↔
        ∃ package tail, file.package = some package ∧ name = package ++ "." ++ tail ∧
          file.FromTop (components tail) decl) ∧
    ∀ decl, file.resolve scope name = some decl → ∃ called, file.fullName? decl = some called ∧
      (called = name ∧ (∃ package tail, file.package = some package ∧ name = package ++ "." ++ tail) ∨
        ∃ outer, file.Around scope outer ∧ called = (file.scopeName? outer).elim name (· ++ "." ++ name)) := by
  have tree := scopeTree_of_parse parsed
  have grounded := tree.grounded_of_mem_scopes member
  have asRelative : file.resolve scope name = file.resolveRelative scope (first :: rest) := by
    rw [File.resolve, named, afterDot?_of_isRelativeName relative, split]
    rfl
  have anchored (anchor : DeclId) (anchors : file.Anchors first scope anchor) (decl : DeclId) :
      file.resolve scope name = some decl ↔ file.Follow anchor rest decl := by
    rw [asRelative, File.resolveRelative, (tree.anchor?_eq_some_iff grounded).2 anchors]
    exact tree.inward_eq_some_iff
  have unanchored (free : ∀ anchor, ¬file.Anchors first scope anchor) (decl : DeclId) :
      file.resolve scope name = some decl ↔ ∃ package tail, file.package = some package ∧
        name = package ++ "." ++ tail ∧ file.FromTop (components tail) decl := by
    rw [asRelative, File.resolveRelative, (tree.anchor?_eq_none_iff grounded).2 free]
    simp only [← split, File.findInPackage?_components, tree.find?_eq_some_iff]
  refine ⟨anchored, unanchored, fun decl resolved => ?_⟩
  by_cases some : ∃ anchor, file.Anchors first scope anchor
  · obtain ⟨anchor, anchors⟩ := some
    obtain ⟨outer, around, child⟩ := anchors.child
    have follow := (anchored anchor anchors decl).1 resolved
    exact ⟨_, tree.fullName?_of_follow child follow split, Or.inr ⟨outer, around, rfl⟩⟩
  · obtain ⟨package, tail, declared, text, found⟩ := (unanchored (not_exists.1 some) decl).1 resolved
    obtain ⟨_, _, top, tailSplit, child, follow⟩ := found
    refine ⟨_, tree.fullName?_of_follow child.child follow tailSplit, Or.inl ⟨?_, package, tail, declared, text⟩⟩
    simp [File.scopeName?, declared, text]

/-- A message within another, and a message of the same name as the outer one in a third. -/
def sameInnerName : String :=
  "message B \x7b message X \x7b \x7d \x7d message M \x7b message B \x7b \x7d \x7d"

/-- In the third message the inner name is the anchor: nothing is found behind it, as would be from the top. -/
theorem resolve_sameInnerName : ∃ file, parse "m" sameInnerName = .ok file ∧
    Scope.message ⟨2⟩ ∈ file.scopes ∧ file.Anchors "B" (.message ⟨2⟩) (.message ⟨3⟩) ∧
    file.resolve (.message ⟨2⟩) "B.X" = none ∧ file.resolve .file "B.X" = some (.message ⟨1⟩) ∧
    file.fullName? (.message ⟨1⟩) = some "B.X" := by
  have evaluated : ((parse "m" sameInnerName).toOption.map fun file =>
      (decide (Scope.message ⟨2⟩ ∈ file.scopes), file.anchor? (.message ⟨2⟩) "B",
        file.child? (.message ⟨3⟩) "X", file.resolve .file "B.X", file.package)) =
      some (true, some (.message ⟨3⟩), none, some (.message ⟨1⟩), none) := by decide +kernel
  obtain ⟨file, parsed, known⟩ := parse_of_map_toOption evaluated
  simp only [Prod.mk.injEq, decide_eq_true_eq] at known
  obtain ⟨member, anchor, childless, fromTop, bare⟩ := known
  have tree := scopeTree_of_parse parsed
  have anchors := (tree.anchor?_eq_some_iff (tree.grounded_of_mem_scopes member)).1 anchor
  have relative : isRelativeName "B.X".toList := by decide
  have named : isScalar "B.X" = false := by decide
  have split : components "B.X" = ["B", "X"] := by decide
  have top : Scope.file ∈ file.scopes := List.mem_cons_self
  have within := resolve_eq_some_iff_follow parsed member relative named split
  have atTop := resolve_eq_some_iff_follow parsed top relative named split
  refine ⟨file, parsed, member, anchors, Option.eq_none_iff_forall_ne_some.2 fun decl resolved => ?_, fromTop, ?_⟩
  · cases (within.1 _ anchors decl).1 resolved with
    | inward first => exact tree.child?_eq_none_iff.1 childless _ first.child
  · obtain ⟨called, isCalled, ⟨rfl, -⟩ | ⟨outer, around, rfl⟩⟩ := atTop.2.2 _ fromTop
    · exact isCalled
    · cases around
      simpa [File.scopeName?, bare] using isCalled

end ProtoSchema
