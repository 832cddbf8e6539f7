import ProtoSchema.Proofs.File.ScopeTree
import ProtoSchema.Proofs.Text.Dotted

namespace ProtoSchema

/-- What is found first in a list that ascends is the least of what may be found. -/
theorem find?_eq_some_iff_least {α : Type} {rank : α → Nat} {items : List α} {p : α → Bool} {a : α}
    (ascend : items.Pairwise (rank · < rank ·)) :
    items.find? p = some a ↔ (a ∈ items ∧ p a) ∧ ∀ b, b ∈ items ∧ p b → rank a ≤ rank b := by
  induction items with
  | nil => simp
  | cons first rest ih =>
    obtain ⟨above, ascendRest⟩ := List.pairwise_cons.1 ascend
    by_cases fits : p first
    · rw [List.find?_cons_of_pos fits, Option.some.injEq]
      constructor
      · rintro rfl
        refine ⟨⟨List.mem_cons_self, fits⟩, fun b listed => ?_⟩
        rcases List.mem_cons.1 listed.1 with rfl | later
        · exact Nat.le_refl _
        · exact Nat.le_of_lt (above b later)
      · rintro ⟨⟨listed, -⟩, least⟩
        rcases List.mem_cons.1 listed with rfl | later
        · rfl
        · exact absurd (least first ⟨List.mem_cons_self, fits⟩) (Nat.not_le_of_lt (above a later))
    · have other (b : α) : b ∈ first :: rest ∧ p b ↔ b ∈ rest ∧ p b := by
        rw [List.mem_cons, or_and_right, or_iff_right]
        rintro ⟨rfl, found⟩
        exact fits found
      simp only [List.find?_cons_of_neg fits, ih ascendRest, other]

namespace File

variable {file : File} {scope outer : Scope} {name first : String} {names more : List String} {anchor decl : DeclId}

/-- Whether a declaration is a direct child of `scope` called `name`. -/
def Child (file : File) (scope : Scope) (name : String) : DeclId → Prop
  | .message id => ∃ message, file.message? id = some message ∧ message.owner = scope ∧ message.name = name
  | .enum id => ∃ enum, file.enum? id = some enum ∧ enum.owner = scope ∧ enum.name = name

/-- Whether a declaration comes first among the direct children of `scope` called `name`, messages before enums. -/
def FirstChild (file : File) (scope : Scope) (name : String) : DeclId → Prop
  | .message id => file.Child scope name (.message id) ∧
      ∀ other, file.Child scope name (.message other) → id.index ≤ other.index
  | .enum id => (∀ other, ¬file.Child scope name (.message other)) ∧ file.Child scope name (.enum id) ∧
      ∀ other, file.Child scope name (.enum other) → id.index ≤ other.index

theorem FirstChild.child (child : file.FirstChild scope name decl) : file.Child scope name decl := by
  cases decl with
  | message => exact child.1
  | enum => exact child.2.1

/-- A declaration is a child of one scope only, and has one name. -/
theorem Child.unique {other : Scope} {called : String} (child : file.Child scope name decl)
    (again : file.Child other called decl) : scope = other ∧ name = called := by
  cases decl with
  | message =>
    obtain ⟨message, found, rfl, rfl⟩ := child
    obtain ⟨same, found', rfl, rfl⟩ := again
    obtain rfl := Option.some.inj (found.symm.trans found')
    exact ⟨rfl, rfl⟩
  | enum =>
    obtain ⟨enum, found, rfl, rfl⟩ := child
    obtain ⟨same, found', rfl, rfl⟩ := again
    obtain rfl := Option.some.inj (found.symm.trans found')
    exact ⟨rfl, rfl⟩

theorem Declares.child (declared : file.Declares decl) : ∃ scope name, file.Child scope name decl := by
  cases decl with
  | message =>
    obtain ⟨message, found⟩ := declared
    exact ⟨_, _, message, found, rfl, rfl⟩
  | enum =>
    obtain ⟨enum, found⟩ := declared
    exact ⟨_, _, enum, found, rfl, rfl⟩

theorem child?_eq_pick? (file : File) (scope : Scope) (name : String) :
    file.child? scope name = file.pick? (file.messagesIn scope) (file.enumsIn scope) name := by
  cases scope with
  | file => rfl
  | message id => cases found : file.message? id <;> simp [child?, messagesIn, enumsIn, found, pick?]

namespace ScopeTree

variable (tree : file.ScopeTree)
include tree

theorem message_child_iff {id : MessageId} : file.Child scope name (.message id) ↔
    id ∈ file.messagesIn scope ∧ (file.message? id).any (fun message => message.name == name) := by
  rw [tree.message_listed]
  constructor
  · rintro ⟨message, found, owned, named⟩
    exact ⟨⟨message, found, owned⟩, by simp [found, named]⟩
  · rintro ⟨⟨message, found, owned⟩, named⟩
    exact ⟨message, found, owned, by simpa [found] using named⟩

theorem enum_child_iff {id : EnumId} : file.Child scope name (.enum id) ↔
    id ∈ file.enumsIn scope ∧ (file.enum? id).any (fun enum => enum.name == name) := by
  rw [tree.enum_listed]
  constructor
  · rintro ⟨enum, found, owned, named⟩
    exact ⟨⟨enum, found, owned⟩, by simp [found, named]⟩
  · rintro ⟨⟨enum, found, owned⟩, named⟩
    exact ⟨enum, found, owned, by simpa [found] using named⟩

/-- Looking for a name in a scope finds the first child of that name. -/
theorem child?_eq_some_iff : file.child? scope name = some decl ↔ file.FirstChild scope name decl := by
  rw [child?_eq_pick?, pick?]
  cases among : (file.messagesIn scope).find? _ with
  | some id =>
    obtain ⟨child, least⟩ := (find?_eq_some_iff_least (tree.messages_ascend scope)).1 among
    simp only [← tree.message_child_iff] at child least
    cases decl with
    | message other =>
      simp only [Option.some.injEq, DeclId.message.injEq]
      constructor
      · rintro rfl
        exact ⟨child, least⟩
      · rintro ⟨also, leastAlso⟩
        have below := least other also
        have above := leastAlso id child
        exact MessageId.mk.injEq .. ▸ Nat.le_antisymm below above
    | enum other => exact ⟨nofun, fun later => absurd child (later.1 id)⟩
  | none =>
    have noMessage (id : MessageId) : ¬file.Child scope name (.message id) := by
      rw [tree.message_child_iff]
      exact fun ⟨listed, named⟩ => List.find?_eq_none.1 among id listed named
    cases decl with
    | message id => exact ⟨by simp, fun child => absurd child.1 (noMessage id)⟩
    | enum id =>
      simp only [Option.map_eq_some_iff, DeclId.enum.injEq, exists_eq_right,
        find?_eq_some_iff_least (tree.enums_ascend scope), ← tree.enum_child_iff]
      exact (and_iff_right noMessage).symm

theorem child?_eq_none_iff : file.child? scope name = none ↔ ∀ decl, ¬file.Child scope name decl := by
  rw [child?_eq_pick?, pick?]
  constructor
  · intro nothing decl child
    split at nothing
    · contradiction
    · rename_i noMessage
      cases decl with
      | message id =>
        obtain ⟨listed, named⟩ := tree.message_child_iff.1 child
        exact List.find?_eq_none.1 noMessage id listed named
      | enum id =>
        obtain ⟨listed, named⟩ := tree.enum_child_iff.1 child
        exact List.find?_eq_none.1 (Option.map_eq_none_iff.1 nothing) id listed named
  · intro childless
    refine Option.eq_none_iff_forall_ne_some.2 fun decl found => ?_
    rw [← pick?, ← child?_eq_pick?, tree.child?_eq_some_iff] at found
    exact childless decl found.child

end ScopeTree

/-- Whether names lead inwards from a declaration, each to the first child of that name. -/
inductive Follow (file : File) : DeclId → List String → DeclId → Prop
  | here (decl : DeclId) : Follow file decl [] decl
  | inward {id : MessageId} {name : String} {child decl : DeclId} {rest : List String}
      (first : file.FirstChild (.message id) name child) (further : Follow file child rest decl) :
      Follow file (.message id) (name :: rest) decl

/-- Whether names lead from the top of a file to a declaration, each to a child of what those before it lead to. -/
inductive LeadsTo (file : File) : List String → DeclId → Prop
  | top {name : String} {decl : DeclId} (child : file.Child .file name decl) : LeadsTo file [name] decl
  | inner {names : List String} {id : MessageId} {name : String} {decl : DeclId}
      (outer : LeadsTo file names (.message id)) (child : file.Child (.message id) name decl) :
      LeadsTo file (names ++ [name]) decl

theorem LeadsTo.ne_nil (leads : file.LeadsTo names decl) : names ≠ [] := by
  cases leads <;> simp

theorem LeadsTo.follow (leads : file.LeadsTo names anchor) (follow : file.Follow anchor more decl) :
    file.LeadsTo (names ++ more) decl := by
  induction follow generalizing names with
  | here => rwa [List.append_nil]
  | @inward _ name _ _ rest first _ ih =>
    have next := ih (leads.inner first.child)
    rwa [List.append_assoc, List.singleton_append] at next

theorem ScopeTree.inward_eq_some_iff (tree : file.ScopeTree) :
    file.inward anchor names = some decl ↔ file.Follow anchor names decl := by
  induction names generalizing anchor with
  | nil =>
    rw [inward, Option.some.injEq]
    constructor
    · rintro rfl
      exact .here anchor
    · rintro ⟨⟩
      rfl
  | cons name rest ih =>
    cases anchor with
    | message id =>
      simp only [inward, Option.bind_eq_some_iff, ih, tree.child?_eq_some_iff]
      constructor
      · rintro ⟨child, first, further⟩
        exact .inward first further
      · rintro ⟨⟩
        exact ⟨_, ‹_›, ‹_›⟩
    | enum id => exact ⟨nofun, nofun⟩

/-- The names of the messages around a place, the outermost one first. -/
def path (file : File) (scope : Scope) : List String :=
  ((file.enclosing scope).map Message.name).reverse

@[simp] theorem path_file : file.path .file = [] := by
  simp [path, enclosing]

theorem fullNameIn_eq_dotted (file : File) (scope : Scope) (name : String) :
    file.fullNameIn scope name = dotted (file.package.toList ++ (file.path scope ++ [name])) := by
  rw [fullNameIn, ← path, List.append_assoc, dotted]

namespace ScopeTree

variable (tree : file.ScopeTree)
include tree

/-- An owner comes before what it owns. -/
theorem rank_owner_lt {id : MessageId} {message : Message} (found : file.message? id = some message) :
    message.owner.rank < (Scope.message id).rank := by
  have place := tree.message_id id.index message found
  rcases tree.message_owner message (List.mem_of_getElem? found) with top | ⟨outer, -, owned, before⟩
  · simp [top, Scope.rank]
  · rw [place] at before
    simpa [owned, Scope.rank] using before

theorem enclosing_message {id : MessageId} {message : Message} (found : file.message? id = some message) :
    file.enclosing (.message id) = message :: file.enclosing message.owner := by
  rw [enclosing]
  simp [found, tree.rank_owner_lt found]

theorem path_message {id : MessageId} (child : file.Child scope name (.message id)) :
    file.path (.message id) = file.path scope ++ [name] := by
  obtain ⟨message, found, rfl, rfl⟩ := child
  simp [path, tree.enclosing_message found]

theorem leadsTo_iff : file.LeadsTo names decl ↔
    ∃ scope name, file.Child scope name decl ∧ names = file.path scope ++ [name] := by
  constructor
  · intro leads
    induction leads with
    | top child => exact ⟨_, _, child, by simp⟩
    | inner _ child ih =>
      obtain ⟨scope, name, owner, rfl⟩ := ih
      exact ⟨_, _, child, by rw [tree.path_message owner]⟩
  · rintro ⟨scope, name, child, rfl⟩
    have grounded : file.Grounded scope := by
      cases decl with
      | message =>
        obtain ⟨message, found, rfl, -⟩ := child
        exact tree.grounded message (List.mem_of_getElem? found)
      | enum =>
        obtain ⟨enum, found, rfl, -⟩ := child
        rcases tree.enum_owner enum (List.mem_of_getElem? found) with top | ⟨outer, inTable, owned⟩
        · rw [top]
          exact .file
        · obtain ⟨index, at_index⟩ := List.getElem?_of_mem inTable
          have place := tree.message_id index outer at_index
          rw [owned]
          exact .message (by rwa [message?, place]) (tree.grounded outer inTable)
    -- Owners are named from the top inwards, so the induction is on the way outwards.
    induction grounded generalizing name decl with
    | file =>
      rw [path_file]
      exact .top child
    | @message id message found _ ih =>
      have owner : file.Child message.owner message.name (.message id) := ⟨message, found, rfl, rfl⟩
      rw [tree.path_message owner]
      exact .inner (ih _ owner) child

/-- The names that lead to a declaration are the names around it and its own. -/
theorem leadsTo_unique (leads : file.LeadsTo names decl) (again : file.LeadsTo more decl) : names = more := by
  obtain ⟨scope, name, child, rfl⟩ := tree.leadsTo_iff.1 leads
  obtain ⟨other, called, same, rfl⟩ := tree.leadsTo_iff.1 again
  obtain ⟨rfl, rfl⟩ := child.unique same
  rfl

theorem exists_leadsTo (declared : file.Declares decl) : ∃ names, file.LeadsTo names decl := by
  obtain ⟨scope, name, child⟩ := declared.child
  exact ⟨_, tree.leadsTo_iff.2 ⟨scope, name, child, rfl⟩⟩

theorem leadsTo_of_find? (found : file.find? names = some decl) : file.LeadsTo names decl := by
  cases names with
  | nil => contradiction
  | cons first rest =>
    obtain ⟨top, child, further⟩ := Option.bind_eq_some_iff.1 found
    have leads : file.LeadsTo [first] top := .top (tree.child?_eq_some_iff.1 child).child
    exact leads.follow (tree.inward_eq_some_iff.1 further)

end ScopeTree

/-- The full name of a declaration. -/
def fullName? (file : File) : DeclId → Option String
  | .message id => (file.message? id).map (Message.fullName file)
  | .enum id => (file.enum? id).map (Enum.fullName file)

theorem Child.fullName? (child : file.Child scope name decl) : file.fullName? decl = some (file.fullNameIn scope name) := by
  cases decl with
  | message =>
    obtain ⟨message, found, rfl, rfl⟩ := child
    simp [File.fullName?, found, Message.fullName]
  | enum =>
    obtain ⟨enum, found, rfl, rfl⟩ := child
    simp [File.fullName?, found, Enum.fullName]

theorem declares_of_fullName? {called : String} (named : file.fullName? decl = some called) : file.Declares decl := by
  cases decl with
  | message =>
    obtain ⟨message, found, -⟩ := Option.map_eq_some_iff.1 named
    exact ⟨message, found⟩
  | enum =>
    obtain ⟨enum, found, -⟩ := Option.map_eq_some_iff.1 named
    exact ⟨enum, found⟩

theorem ScopeTree.fullName?_of_leadsTo (tree : file.ScopeTree) (leads : file.LeadsTo names decl) :
    file.fullName? decl = some (dotted (file.package.toList ++ names)) := by
  obtain ⟨scope, name, child, rfl⟩ := tree.leadsTo_iff.1 leads
  rw [child.fullName?, fullNameIn_eq_dotted]

end File

/-- The tables of a parsed file form a tree of scopes. -/
theorem scopeTree_of_parse {name source : String} {file : File} (parsed : parse name source = .ok file) :
    file.ScopeTree := by
  obtain ⟨statements, rfl⟩ := parse_eq_ok parsed
  exact File.ofStatements_scopeTree name statements

/-- Where something evaluates for a parsed file, there is one. -/
theorem parse_of_map_toOption {α : Type} {name source : String} {f : File → α} {a : α}
    (evaluated : (parse name source).toOption.map f = some a) : ∃ file, parse name source = .ok file ∧ f file = a := by
  cases parsed : parse name source with
  | error => simp [parsed, Except.toOption] at evaluated
  | ok file =>
    rw [parsed] at evaluated
    exact ⟨file, rfl, Option.some.inj evaluated⟩

end ProtoSchema
