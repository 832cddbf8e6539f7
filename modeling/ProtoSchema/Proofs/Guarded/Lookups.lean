import ProtoSchema.Proofs.File.OuterNames
import ProtoSchema.Proofs.Guarded.Basic
import ProtoSchema.Resolve.Memo

namespace ProtoSchema

namespace Guarded

def message (file : File) (id : MessageId) : Except Breach Message :=
  (file.message? id).elim (.error .noSuchRow) .ok

def enum (file : File) (id : EnumId) : Except Breach Enum :=
  (file.enum? id).elim (.error .noSuchRow) .ok

/-- The first of some messages that has a name. Those behind it are not looked at. -/
def messageNamed (file : File) (name : String) : List MessageId → Except Breach (Option MessageId)
  | [] => return none
  | id :: rest => do
    let row ← message file id
    if row.name == name then return some id else messageNamed file name rest

def enumNamed (file : File) (name : String) : List EnumId → Except Breach (Option EnumId)
  | [] => return none
  | id :: rest => do
    let row ← enum file id
    if row.name == name then return some id else enumNamed file name rest

def pick (file : File) (messages : List MessageId) (enums : List EnumId) (name : String) :
    Except Breach (Option DeclId) := do
  match ← messageNamed file name messages with
  | some id => return some (.message id)
  | none => return (← enumNamed file name enums).map .enum

/-- Follows names inwards from a declaration. -/
def inward (file : File) (decl : DeclId) : List String → Except Breach Meaning
  | [] => return some decl
  | name :: rest =>
    match decl with
    | .enum _ => return none
    | .message id => do
      let row ← message file id
      match ← pick file row.messages row.enums name with
      | some child => inward file child rest
      | none => return none

def find (file : File) : List String → Except Breach Meaning
  | [] => return none
  | name :: rest => do
    match ← pick file file.messages file.enums name with
    | some decl => inward file decl rest
    | none => return none

def findInPackage (file : File) (names : List String) : Except Breach Meaning :=
  match file.afterPackage? names with
  | some rest => find file rest
  | none => return none

/-- Searches outwards for what names without a leading dot mean, through no more than `bound` scopes. -/
def outward (file : File) (first : String) (rest : List String) : Nat → Scope → Except Breach Meaning
  | 0, _ => .error .endless
  | _ + 1, .file => do
    match ← pick file file.messages file.enums first with
    | some anchor => inward file anchor rest
    | none => findInPackage file (first :: rest)
  | bound + 1, .message id => do
    let row ← message file id
    if row.name = first then inward file (.message row.id) rest
    else
      match ← pick file row.messages row.enums first with
      | some anchor => inward file anchor rest
      | none => outward file first rest bound row.owner

/-- A walk outwards can meet each message and the top of the file. -/
def bound (file : File) : Nat :=
  file.messageTable.length + 1

def relative (file : File) (scope : Scope) : List String → Except Breach Meaning
  | [] => return none
  | first :: rest => outward file first rest (bound file) scope

def absolute (file : File) (names : List String) : Except Breach Meaning := do
  match ← findInPackage file names with
  | some decl => return some decl
  | none => find file names

/-- What a name means at a place in `scope`. -/
def resolve (file : File) (scope : Scope) (name : String) : Except Breach Meaning :=
  if isScalar name then return none
  else match afterDot? (components name) with
    | some names => absolute file names
    | none => relative file scope (components name)

/-- The declaration with a given full name. -/
def lookup (file : File) (name : String) : Except Breach Meaning :=
  let names := (afterDot? (components name)).getD (components name)
  if file.package.isSome then findInPackage file names else find file names

/-- The messages around a place, no more than `bound` of them. -/
def enclosing (file : File) : Nat → Scope → Except Breach (List Message)
  | 0, _ => .error .endless
  | _ + 1, .file => return []
  | bound + 1, .message id => do
    let row ← message file id
    return row :: (← enclosing file bound row.owner)

def fullNameIn (file : File) (scope : Scope) (name : String) : Except Breach String := do
  let around ← enclosing file (bound file) scope
  return String.intercalate "." (file.package.toList ++ (around.map Message.name).reverse ++ [name])

/-- What a reference means, and what is known about it. -/
def meaning (file : File) (memo : MemoRef) : Except Breach (Meaning × MemoRef) :=
  match memo.known with
  | some meaning => return (meaning, memo)
  | none => do
    let meaning ← resolve file memo.ref.scope memo.ref.name
    return (meaning, { memo with known := some meaning })

def kind (file : File) (memo : MemoRef) : Except Breach (RefKind × MemoRef) :=
  if memo.ref.isScalar then return (.scalar, memo)
  else do
    let (found, memo) ← meaning file memo
    return (memo.ref.kindOf found, memo)

@[simp] theorem ok_bind {α β : Type} (a : α) (next : α → Except Breach β) : (Except.ok a >>= next) = next a := rfl

variable {file : File} {name : String} {names : List String} {scope : Scope} {decl : DeclId}

theorem message_eq {id : MessageId} {row : Message} (found : file.message? id = some row) :
    message file id = .ok row := by
  rw [message, found]
  rfl

theorem enum_eq {id : EnumId} {row : Enum} (found : file.enum? id = some row) : enum file id = .ok row := by
  rw [enum, found]
  rfl

theorem messageNamed_eq {ids : List MessageId} (declared : ∀ id ∈ ids, file.Declares (.message id)) :
    messageNamed file name ids = .ok (ids.find? fun id => (file.message? id).any fun row => row.name == name) := by
  induction ids with
  | nil => rfl
  | cons id ids ih =>
    obtain ⟨row, found⟩ := declared id List.mem_cons_self
    rw [messageNamed, message_eq found, ok_bind, ih fun other member => declared other (List.mem_cons_of_mem _ member),
      List.find?_cons, found, Option.any_some]
    cases row.name == name <;> rfl

theorem enumNamed_eq {ids : List EnumId} (declared : ∀ id ∈ ids, file.Declares (.enum id)) :
    enumNamed file name ids = .ok (ids.find? fun id => (file.enum? id).any fun row => row.name == name) := by
  induction ids with
  | nil => rfl
  | cons id ids ih =>
    obtain ⟨row, found⟩ := declared id List.mem_cons_self
    rw [enumNamed, enum_eq found, ok_bind, ih fun other member => declared other (List.mem_cons_of_mem _ member),
      List.find?_cons, found, Option.any_some]
    cases row.name == name <;> rfl

theorem pick_eq {messages : List MessageId} {enums : List EnumId}
    (messagesDeclared : ∀ id ∈ messages, file.Declares (.message id))
    (enumsDeclared : ∀ id ∈ enums, file.Declares (.enum id)) :
    pick file messages enums name = .ok (file.pick? messages enums name) := by
  rw [pick, messageNamed_eq messagesDeclared, ok_bind, enumNamed_eq enumsDeclared, File.pick?]
  cases messages.find? fun id => (file.message? id).any fun row => row.name == name <;> rfl

theorem rank_lt_bound (grounded : file.Grounded scope) : scope.rank < bound file := by
  cases grounded with
  | file => exact Nat.succ_pos _
  | message found _ => exact Nat.succ_lt_succ (List.getElem?_eq_some_iff.1 found).1

section Tree

variable (tree : file.ScopeTree)
include tree

/-- What a scope lists is in the tables. -/
theorem pick_eq_child? (scope : Scope) :
    pick file (file.messagesIn scope) (file.enumsIn scope) name =
      .ok (file.pick? (file.messagesIn scope) (file.enumsIn scope) name) := by
  refine pick_eq (fun id member => ?_) fun id member => ?_
  · obtain ⟨row, found, -⟩ := (tree.message_listed id scope).1 member
    exact ⟨row, found⟩
  · obtain ⟨row, found, -⟩ := (tree.enum_listed id scope).1 member
    exact ⟨row, found⟩

theorem pick_file : pick file file.messages file.enums name = .ok (file.child? .file name) :=
  pick_eq_child? tree .file

theorem pick_message {id : MessageId} {row : Message} (found : file.message? id = some row) :
    pick file row.messages row.enums name = .ok (file.child? (.message id) name) := by
  have picked : pick file (file.messagesIn (.message id)) (file.enumsIn (.message id)) name = _ :=
    pick_eq_child? tree (.message id)
  simp only [File.messagesIn, File.enumsIn, found, Option.elim_some] at picked
  rw [picked, File.child?, found]
  rfl

theorem inward_eq (declared : file.Declares decl) : inward file decl names = .ok (file.inward decl names) := by
  induction names generalizing decl with
  | nil => rfl
  | cons name rest ih =>
    cases decl with
    | enum id => rfl
    | message id =>
      obtain ⟨row, found⟩ := declared
      rw [inward, message_eq found, ok_bind, pick_message tree found, ok_bind, File.inward]
      cases child : file.child? (.message id) name with
      | none => rfl
      | some decl => exact ih (File.declares_of_child? child)

theorem find_eq : find file names = .ok (file.find? names) := by
  cases names with
  | nil => rfl
  | cons name rest =>
    rw [find, pick_file tree, ok_bind, File.find?]
    cases child : file.child? .file name with
    | none => rfl
    | some decl => exact inward_eq tree (File.declares_of_child? child)

theorem findInPackage_eq : findInPackage file names = .ok (file.findInPackage? names) := by
  rw [findInPackage, File.findInPackage?]
  cases file.afterPackage? names with
  | none => rfl
  | some rest => exact find_eq tree

theorem absolute_eq : absolute file names = .ok (file.resolveAbsolute names) := by
  rw [absolute, findInPackage_eq tree, ok_bind, File.resolveAbsolute]
  cases file.findInPackage? names with
  | none => exact find_eq tree
  | some decl => rfl

/-- Owners come before what they own, so that a walk outwards takes less rounds than there are messages before it. -/
theorem outward_eq {first : String} {rest : List String} (grounded : file.Grounded scope) {rounds : Nat}
    (enough : scope.rank < rounds) :
    outward file first rest rounds scope = .ok (file.resolveRelative scope (first :: rest)) := by
  induction grounded generalizing rounds with
  | file =>
    obtain ⟨rounds, rfl⟩ := Nat.exists_eq_succ_of_ne_zero (Nat.ne_zero_of_lt enough)
    rw [outward, pick_file tree, ok_bind, File.resolveRelative, File.anchor?_file]
    cases child : file.child? .file first with
    | none => exact findInPackage_eq tree
    | some decl => exact inward_eq tree (File.declares_of_child? child)
  | @message id row found outer ih =>
    obtain ⟨rounds, rfl⟩ := Nat.exists_eq_succ_of_ne_zero (Nat.ne_zero_of_lt enough)
    have place : row.id = id := tree.message_id id.index row found
    rw [outward, message_eq found, ok_bind, File.resolveRelative, tree.anchor?_message found, File.anchorIn?, place]
    by_cases called : row.name = first
    · rw [if_pos called, if_pos called]
      exact inward_eq tree ⟨row, found⟩
    · rw [if_neg called, if_neg called, pick_message tree found, ok_bind]
      cases child : file.child? (.message id) first with
      | none => exact ih (Nat.lt_of_lt_of_le (tree.rank_owner_lt found) (Nat.le_of_lt_succ enough))
      | some decl => exact inward_eq tree (File.declares_of_child? child)

/-- A name is looked up without a breach from every scope in the file. -/
theorem resolve_eq (grounded : file.Grounded scope) : resolve file scope name = .ok (file.resolve scope name) := by
  rw [resolve, File.resolve]
  split
  · rfl
  · cases afterDot? (components name) with
    | some names => exact absolute_eq tree
    | none =>
      cases components name with
      | nil => rfl
      | cons first rest => exact outward_eq tree grounded (rank_lt_bound grounded)

theorem lookup_eq : lookup file name = .ok (file.byFullName? name) := by
  simp only [lookup, File.byFullName?]
  split
  · exact findInPackage_eq tree
  · exact find_eq tree

theorem enclosing_eq (grounded : file.Grounded scope) {rounds : Nat} (enough : scope.rank < rounds) :
    enclosing file rounds scope = .ok (file.enclosing scope) := by
  induction grounded generalizing rounds with
  | file =>
    obtain ⟨rounds, rfl⟩ := Nat.exists_eq_succ_of_ne_zero (Nat.ne_zero_of_lt enough)
    rw [enclosing, File.enclosing]
    rfl
  | @message id row found outer ih =>
    obtain ⟨rounds, rfl⟩ := Nat.exists_eq_succ_of_ne_zero (Nat.ne_zero_of_lt enough)
    have further := ih (Nat.lt_of_lt_of_le (tree.rank_owner_lt found) (Nat.le_of_lt_succ enough))
    rw [enclosing, message_eq found, ok_bind, further, tree.enclosing_message found]
    rfl

theorem fullNameIn_eq (grounded : file.Grounded scope) :
    fullNameIn file scope name = .ok (file.fullNameIn scope name) := by
  rw [fullNameIn, enclosing_eq tree grounded (rank_lt_bound grounded)]
  rfl

theorem meaning_eq {memo : MemoRef} (grounded : file.Grounded memo.ref.scope) :
    meaning file memo = .ok (memo.resolve file) := by
  rw [meaning, MemoRef.resolve]
  cases memo.known with
  | some known => rfl
  | none =>
    rw [resolve_eq tree grounded]
    rfl

theorem kind_eq {memo : MemoRef} (grounded : file.Grounded memo.ref.scope) : kind file memo = .ok (memo.kind file) := by
  rw [kind, MemoRef.kind, meaning_eq tree grounded]
  split <;> rfl

end Tree

end Guarded

end ProtoSchema
