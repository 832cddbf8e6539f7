import Mathlib.Data.List.Nodup
import ProtoSchema.Proofs.File.Tables

namespace ProtoSchema

/-- The places of the rows that a scope owns, in the order of the table. -/
def Scope.children {α : Type} (scope : Scope) (rows : List (α × Scope)) : List α :=
  (rows.filter fun row => row.2 == scope).map Prod.fst

namespace Scope

variable {α : Type} {scope : Scope} {rows : List (α × Scope)}

theorem mem_children {id : α} : id ∈ scope.children rows ↔ (id, scope) ∈ rows := by
  simp only [children, List.mem_map, List.mem_filter, beq_iff_eq]
  constructor
  · rintro ⟨⟨id, owner⟩, ⟨member, rfl⟩, rfl⟩
    exact member
  · intro member
    exact ⟨(id, scope), ⟨member, rfl⟩, rfl⟩

theorem children_sublist : (scope.children rows).Sublist (rows.map Prod.fst) :=
  List.filter_sublist.map Prod.fst

@[simp] theorem children_append (a b : List (α × Scope)) :
    scope.children (a ++ b) = scope.children a ++ scope.children b := by
  simp [children]

theorem children_eq_nil (foreign : ∀ row ∈ rows, row.2 ≠ scope) : scope.children rows = [] := by
  simpa [children, List.filter_eq_nil_iff] using fun id owner member => foreign (id, owner) member

/-- Where no place stands in two rows, no place is a child twice, of one scope or of two. -/
theorem nodup_flatMap_children {scopes : List Scope} (distinct : scopes.Nodup) (once : (rows.map Prod.fst).Nodup) :
    (scopes.flatMap fun scope => scope.children rows).Nodup := by
  refine List.nodup_flatMap.2 ⟨fun scope _ => once.sublist children_sublist, distinct.imp ?_⟩
  intro first second different id inFirst inSecond
  have same := List.inj_on_of_nodup_map once (mem_children.1 inFirst) (mem_children.1 inSecond) rfl
  exact different (congrArg Prod.snd same)

end Scope

/-- The places of some enums that stand in a row from `first` on. -/
def EnumId.row (first count : Nat) : List EnumId :=
  (List.range' first count).map EnumId.mk

namespace Content

variable {a b content : Content} {scope owner : Scope} {room : Room}

def messageRows (content : Content) : List (MessageId × Scope) :=
  content.newMessages.map fun message => (message.id, message.owner)

def enumRows (content : Content) : List (EnumId × Scope) :=
  content.newEnums.map fun enum => (enum.id, enum.owner)

@[simp] theorem messageRows_append (a b : Content) : (a.append b).messageRows = a.messageRows ++ b.messageRows := by
  simp [messageRows, append]

@[simp] theorem enumRows_append (a b : Content) : (a.append b).enumRows = a.enumRows ++ b.enumRows := by
  simp [enumRows, append]

/-- Whether the new messages and the new enums that `scope` owns are these. -/
def Lists (content : Content) (scope : Scope) (messages : List MessageId) (enums : List EnumId) : Prop :=
  messages = scope.children content.messageRows ∧ enums = scope.children content.enumRows

/-- Whether no new row is owned by `scope`. -/
def Foreign (content : Content) (scope : Scope) : Prop :=
  content.Lists scope [] []

theorem Lists.append {messages others : List MessageId} {enums otherEnums : List EnumId}
    (first : a.Lists scope messages enums) (second : b.Lists scope others otherEnums) :
    (a.append b).Lists scope (messages ++ others) (enums ++ otherEnums) := by
  obtain ⟨rfl, rfl⟩ := first
  obtain ⟨rfl, rfl⟩ := second
  exact ⟨by simp, by simp⟩

/-- What is true of the content of `scope` when the tables have been filled up to `room`: new rows follow the
old ones, each is owned by the scope or by a new message before it, and each owner lists what it owns. -/
structure Nested (content : Content) (scope : Scope) (room : Room) : Prop where
  numbered : content.Numbered room
  enum_ids : content.newEnums.map Enum.id = EnumId.row room.enums content.newEnums.length
  owner : ∀ message ∈ content.newMessages,
    message.owner = scope ∨ room.messages < message.owner.rank ∧ message.owner.rank ≤ message.id.index
  enum_owner : ∀ enum ∈ content.newEnums,
    enum.owner = scope ∨
      room.messages < enum.owner.rank ∧ enum.owner.rank ≤ room.messages + content.newMessages.length
  own : content.Lists scope content.messages content.enums
  inner : ∀ message ∈ content.newMessages, content.Lists (.message message.id) message.messages message.enums

namespace Nested

theorem bounds (nested : content.Nested scope room) {message : Message} (member : message ∈ content.newMessages) :
    room.messages ≤ message.id.index ∧ message.id.index < room.messages + content.newMessages.length := by
  have listed : message.id ∈ content.newMessages.map Message.id := List.mem_map_of_mem member
  rw [nested.numbered, MessageId.row] at listed
  obtain ⟨index, inRange, same⟩ := List.mem_map.1 listed
  rw [← same]
  simpa using inRange

theorem foreign (nested : content.Nested scope room) {other : Scope} (different : other ≠ scope)
    (outside : other.rank ≤ room.messages ∨ room.messages + content.newMessages.length < other.rank) :
    content.Foreign other := by
  refine ⟨(Scope.children_eq_nil ?_).symm, (Scope.children_eq_nil ?_).symm⟩
  · intro row member same
    obtain ⟨message, inTable, rfl⟩ := List.mem_map.1 member
    obtain rfl : message.owner = other := same
    have place := nested.bounds inTable
    rcases nested.owner message inTable with same | within
    · exact different same
    · omega
  · intro row member same
    obtain ⟨enum, inTable, rfl⟩ := List.mem_map.1 member
    obtain rfl : enum.owner = other := same
    rcases nested.enum_owner enum inTable with same | within
    · exact different same
    · omega

theorem ne_of_rank {other : Scope} (differ : other.rank ≠ scope.rank) : other ≠ scope :=
  fun same => differ (congrArg Scope.rank same)

theorem empty : Content.empty.Nested scope room :=
  ⟨rfl, rfl, nofun, nofun, ⟨rfl, rfl⟩, nofun⟩

theorem ofField (field : Field) : (Content.ofField field).Nested scope room :=
  ⟨rfl, rfl, nofun, nofun, ⟨rfl, rfl⟩, nofun⟩

theorem ofEnum (decl : EnumDecl) : (Content.ofEnum decl ⟨room.enums⟩ scope).Nested scope room := by
  refine ⟨rfl, rfl, nofun, ?_, ⟨rfl, ?_⟩, nofun⟩
  · intro enum member
    obtain rfl := List.mem_singleton.1 member
    exact Or.inl rfl
  · simp [Content.ofEnum, enumRows, Scope.children]

theorem append (below : scope.rank ≤ room.messages) (first : a.Nested scope room)
    (second : b.Nested scope (a.roomAfter room)) : (a.append b).Nested scope room := by
  have total : (a.append b).newMessages.length = a.newMessages.length + b.newMessages.length := List.length_append
  have start : (a.roomAfter room).messages = room.messages + a.newMessages.length := rfl
  refine ⟨first.numbered.append second.numbered, ?_, ?_, ?_, first.own.append second.own, ?_⟩
  · have next : (a.roomAfter room).enums = room.enums + a.newEnums.length := rfl
    simp only [Content.append, List.map_append, first.enum_ids, second.enum_ids, EnumId.row, next, List.length_append]
    rw [← List.map_append, List.range'_append_1]
  · intro message member
    rcases List.mem_append.1 member with inFirst | inSecond
    · exact first.owner message inFirst
    · rcases second.owner message inSecond with same | within
      · exact Or.inl same
      · exact Or.inr (by omega)
  · intro enum member
    rw [total]
    rcases List.mem_append.1 member with inFirst | inSecond
    · rcases first.enum_owner enum inFirst with same | within
      · exact Or.inl same
      · exact Or.inr (by omega)
    · rcases second.enum_owner enum inSecond with same | within
      · exact Or.inl same
      · exact Or.inr (by omega)
  · intro message member
    rcases List.mem_append.1 member with inFirst | inSecond
    · have place := first.bounds inFirst
      have rank : (Scope.message message.id).rank = message.id.index + 1 := rfl
      have apart : b.Foreign (.message message.id) := second.foreign (ne_of_rank (by omega)) (Or.inl (by omega))
      simpa using (first.inner message inFirst).append apart
    · have place := second.bounds inSecond
      have rank : (Scope.message message.id).rank = message.id.index + 1 := rfl
      have apart : a.Foreign (.message message.id) := first.foreign (ne_of_rank (by omega)) (Or.inr (by omega))
      simpa using apart.append (second.inner message inSecond)

theorem asGroup (head : GroupHead) (body : content.Nested scope room) : (content.asGroup head).Nested scope room :=
  ⟨body.numbered, body.enum_ids, body.owner, body.enum_owner, body.own, body.inner⟩

theorem asExtension (head : ExtendHead) (body : content.Nested scope room) :
    (content.asExtension head scope).Nested scope room :=
  ⟨body.numbered, body.enum_ids, body.owner, body.enum_owner, body.own, body.inner⟩

theorem asMessage (head : MessageHead) (below : scope.rank ≤ room.messages)
    (body : content.Nested (.message ⟨room.messages⟩) ⟨room.messages + 1, room.enums⟩) :
    (content.asMessage head ⟨room.messages⟩ scope).Nested scope room := by
  have rank : (Scope.message ⟨room.messages⟩).rank = room.messages + 1 := rfl
  have place {message : Message} (inBody : message ∈ content.newMessages) :
      room.messages + 1 ≤ message.id.index ∧ (Scope.message message.id).rank = message.id.index + 1 :=
    ⟨(body.bounds inBody).1, rfl⟩
  have rows : (content.asMessage head ⟨room.messages⟩ scope).messageRows =
      (⟨room.messages⟩, scope) :: content.messageRows := rfl
  have behind {other : Scope} {messages : List MessageId} {enums : List EnumId} (different : scope ≠ other)
      (listed : content.Lists other messages enums) :
      (content.asMessage head ⟨room.messages⟩ scope).Lists other messages enums := by
    obtain ⟨rfl, rfl⟩ := listed
    refine ⟨?_, rfl⟩
    rw [rows, Scope.children, Scope.children, List.filter_cons_of_neg (by simpa using different)]
  refine ⟨body.numbered.asMessage head scope, body.enum_ids, ?_, ?_, ?_, ?_⟩
  · intro message member
    rcases List.mem_cons.1 member with rfl | inBody
    · exact Or.inl rfl
    · have later := place inBody
      rcases body.owner message inBody with same | ⟨after, before⟩
      · rw [same, rank]
        exact Or.inr ⟨by omega, by omega⟩
      · exact Or.inr ⟨Nat.lt_of_succ_lt after, before⟩
  · intro enum member
    have total : (content.asMessage head ⟨room.messages⟩ scope).newMessages.length = content.newMessages.length + 1 :=
      List.length_cons
    rw [total]
    rcases body.enum_owner enum member with same | ⟨after, before⟩
    · rw [same, rank]
      exact Or.inr ⟨by omega, by omega⟩
    · exact Or.inr ⟨Nat.lt_of_succ_lt after, by rwa [Nat.add_right_comm] at before⟩
  · obtain ⟨noMessage, noEnum⟩ : content.Foreign scope :=
      body.foreign (ne_of_rank (by omega)) (Or.inl (Nat.le_succ_of_le below))
    refine ⟨?_, noEnum⟩
    rw [rows, Scope.children, List.filter_cons_of_pos (by simp), List.map_cons, ← Scope.children, ← noMessage]
    rfl
  · intro message member
    rcases List.mem_cons.1 member with rfl | inBody
    · exact behind (ne_of_rank (by simp only [rank]; omega)) body.own
    · have later := place inBody
      exact behind (ne_of_rank (by omega)) (body.inner message inBody)

end Nested

end Content

mutual

theorem Member.layout_nested {scope : Scope} {room : Room} (below : scope.rank ≤ room.messages) :
    (member : Member) → (member.layout scope room).Nested scope room
  | .field _ | .oneof _ | .map _ => .ofField _
  | .enum decl => .ofEnum decl
  | .group head body => (layoutAll_nested below body).asGroup head
  | .extend head body => (layoutAll_nested below body).asExtension head
  | .message head body => 
    have inner : (layoutAll (.message ⟨room.messages⟩) ⟨room.messages + 1, room.enums⟩ body).Nested
        (.message ⟨room.messages⟩) ⟨room.messages + 1, room.enums⟩ := layoutAll_nested (Nat.le_refl _) body
    inner.asMessage head below

theorem layoutAll_nested {scope : Scope} {room : Room} (below : scope.rank ≤ room.messages) :
    (members : List Member) → (layoutAll scope room members).Nested scope room
  | [] => .empty
  | member :: rest =>
    have further := Nat.le_trans below (Nat.le_add_right ..)
    (member.layout_nested below).append below (layoutAll_nested further rest)

end

namespace Content

/-- Whether the types in some content are referred to from `scope`, and those in each new message from it. -/
structure Scoped (content : Content) (scope : Scope) : Prop where
  fields : ∀ ref ∈ Field.typesOfAll content.fields, ref.scope = scope
  extensions : ∀ extension ∈ content.extensions, ∀ ref ∈ extension.types, ref.scope = scope
  inner : ∀ message ∈ content.newMessages, ∀ ref ∈ message.types, ref.scope = .message message.id

namespace Scoped

variable {a b content : Content} {scope : Scope}

theorem ofField {field : Field} (types : ∀ ref ∈ field.types, ref.scope = scope) :
    (Content.ofField field).Scoped scope := by
  refine ⟨?_, nofun, nofun⟩
  simpa [Content.ofField, Field.typesOfAll] using types

theorem append (first : a.Scoped scope) (second : b.Scoped scope) : (a.append b).Scoped scope := by
  refine ⟨?_, ?_, ?_⟩
  · intro ref member
    rw [Field.typesOfAll_eq_flatMap, Content.append, List.flatMap_append] at member
    simp only [← Field.typesOfAll_eq_flatMap] at member
    exact (List.mem_append.1 member).elim (first.fields ref) (second.fields ref)
  · intro extension member
    exact (List.mem_append.1 member).elim (first.extensions extension) (second.extensions extension)
  · intro message member
    exact (List.mem_append.1 member).elim (first.inner message) (second.inner message)

theorem asGroup (head : GroupHead) (body : content.Scoped scope) : (content.asGroup head).Scoped scope := by
  refine ⟨?_, body.extensions, body.inner⟩
  simpa [Content.asGroup, Field.typesOfAll, Field.types] using body.fields

theorem asExtension (head : ExtendHead) (body : content.Scoped scope) :
    (content.asExtension head scope).Scoped scope := by
  refine ⟨nofun, ?_, body.inner⟩
  intro extension member
  obtain rfl := List.mem_singleton.1 member
  exact List.forall_mem_cons.2 ⟨rfl, body.fields⟩

theorem asMessage (head : MessageHead) (id : MessageId) (body : content.Scoped (.message id)) :
    (content.asMessage head id scope).Scoped scope := by
  refine ⟨nofun, nofun, ?_⟩
  intro message member ref among
  rcases List.mem_cons.1 member with rfl | inBody
  · rcases List.mem_append.1 among with inFields | inExtensions
    · exact body.fields ref inFields
    · obtain ⟨extension, listed, inExtension⟩ := List.mem_flatMap.1 inExtensions
      exact body.extensions extension listed ref inExtension
  · exact body.inner message inBody ref among

end Scoped

end Content

mutual

theorem Member.layout_scoped (scope : Scope) (room : Room) :
    (member : Member) → (member.layout scope room).Scoped scope
  | .field field => .ofField (by simp [Field.types, FieldDecl.layout])
  | .oneof oneof => .ofField (by simp [Field.types, OneofDecl.layout, FieldDecl.layout])
  | .map map => .ofField (by simp [Field.types, MapDecl.layout])
  | .enum decl => ⟨nofun, nofun, nofun⟩
  | .group head body => (layoutAll_scoped scope room body).asGroup head
  | .extend head body => (layoutAll_scoped scope room body).asExtension head
  | .message head body => (layoutAll_scoped _ _ body).asMessage head _

theorem layoutAll_scoped (scope : Scope) (room : Room) :
    (members : List Member) → (layoutAll scope room members).Scoped scope
  | [] => ⟨nofun, nofun, nofun⟩
  | member :: rest => (member.layout_scoped scope room).append (layoutAll_scoped scope _ rest)

end

namespace File

/-- The messages that a scope lists as its children. -/
def messagesIn (file : File) : Scope → List MessageId
  | .file => file.messages
  | .message id => (file.message? id).elim [] Message.messages

/-- The enums that a scope lists as its children. -/
def enumsIn (file : File) : Scope → List EnumId
  | .file => file.enums
  | .message id => (file.message? id).elim [] Message.enums

/-- Whether the owners of a scope, one behind another, end at the top of the file. -/
inductive Grounded (file : File) : Scope → Prop
  | file : file.Grounded .file
  | message {id : MessageId} {message : Message} (found : file.message? id = some message)
      (outer : file.Grounded message.owner) : file.Grounded (.message id)

/-- Whether the tables of a file form a tree of scopes: every row stands at the place that it names and is listed
once in all, by its owner; lists ascend; a message comes after its owner, so that owners end at the top of
the file; and a type is looked up from the message in which it is written, or from the top of the file. -/
structure ScopeTree (file : File) : Prop where
  message_id : ∀ (index : Nat) (message : Message), file.messageTable[index]? = some message → message.id = ⟨index⟩
  enum_id : ∀ (index : Nat) (enum : Enum), file.enumTable[index]? = some enum → enum.id = ⟨index⟩
  message_once : ∀ message ∈ file.messageTable,
    (file.messages ++ file.messageTable.flatMap Message.messages).count message.id = 1
  enum_once : ∀ enum ∈ file.enumTable, (file.enums ++ file.messageTable.flatMap Message.enums).count enum.id = 1
  message_listed : ∀ id scope, id ∈ file.messagesIn scope ↔
    ∃ message, file.message? id = some message ∧ message.owner = scope
  enum_listed : ∀ id scope, id ∈ file.enumsIn scope ↔ ∃ enum, file.enum? id = some enum ∧ enum.owner = scope
  messages_ascend : ∀ scope, (file.messagesIn scope).Pairwise (·.index < ·.index)
  enums_ascend : ∀ scope, (file.enumsIn scope).Pairwise (·.index < ·.index)
  message_owner : ∀ message ∈ file.messageTable, message.owner = .file ∨
    ∃ outer ∈ file.messageTable, message.owner = .message outer.id ∧ outer.id.index < message.id.index
  enum_owner : ∀ enum ∈ file.enumTable, enum.owner = .file ∨
    ∃ outer ∈ file.messageTable, enum.owner = .message outer.id
  grounded : ∀ message ∈ file.messageTable, file.Grounded message.owner
  message_types : ∀ message ∈ file.messageTable, ∀ ref ∈ message.types, ref.scope = .message message.id
  extension_types : ∀ extension ∈ file.extensions, ∀ ref ∈ extension.types, ref.scope = .file
  service_types : ∀ service ∈ file.services, ∀ ref ∈ service.types, ref.scope = .file

/-- What the top of a file holds, as content. -/
def content (file : File) : Content :=
  ⟨[], file.messages, file.enums, file.extensions, file.messageTable, file.enumTable⟩

section Tree

variable {file : File}

theorem message_id (nested : file.content.Nested .file ⟨0, 0⟩) (index : Nat) (message : Message)
    (found : file.messageTable[index]? = some message) : message.id = ⟨index⟩ := by
  obtain ⟨bound, rfl⟩ := List.getElem?_eq_some_iff.1 found
  have same := congrArg (·[index]?) nested.numbered
  simpa [MessageId.row, content, bound] using same

theorem enum_id (nested : file.content.Nested .file ⟨0, 0⟩) (index : Nat) (enum : Enum)
    (found : file.enumTable[index]? = some enum) : enum.id = ⟨index⟩ := by
  obtain ⟨bound, rfl⟩ := List.getElem?_eq_some_iff.1 found
  have same := congrArg (·[index]?) nested.enum_ids
  simpa [EnumId.row, content, bound] using same

theorem mem_messageRows (nested : file.content.Nested .file ⟨0, 0⟩) {id : MessageId} {scope : Scope} :
    (id, scope) ∈ file.content.messageRows ↔ ∃ message, file.message? id = some message ∧ message.owner = scope := by
  constructor
  · intro row
    obtain ⟨message, inTable, same⟩ := List.mem_map.1 row
    obtain ⟨rfl, rfl⟩ := Prod.mk.inj same
    obtain ⟨index, found⟩ := List.getElem?_of_mem inTable
    exact ⟨message, by rwa [message?, message_id nested index message found], rfl⟩
  · rintro ⟨message, found, rfl⟩
    have place := message_id nested id.index message found
    exact List.mem_map.2 ⟨message, List.mem_of_getElem? found, by rw [place]⟩

theorem mem_enumRows (nested : file.content.Nested .file ⟨0, 0⟩) {id : EnumId} {scope : Scope} :
    (id, scope) ∈ file.content.enumRows ↔ ∃ enum, file.enum? id = some enum ∧ enum.owner = scope := by
  constructor
  · intro row
    obtain ⟨enum, inTable, same⟩ := List.mem_map.1 row
    obtain ⟨rfl, rfl⟩ := Prod.mk.inj same
    obtain ⟨index, found⟩ := List.getElem?_of_mem inTable
    exact ⟨enum, by rwa [enum?, enum_id nested index enum found], rfl⟩
  · rintro ⟨enum, found, rfl⟩
    have place := enum_id nested id.index enum found
    exact List.mem_map.2 ⟨enum, List.mem_of_getElem? found, by rw [place]⟩

theorem messageRows_ascend (nested : file.content.Nested .file ⟨0, 0⟩) :
    (file.content.messageRows.map Prod.fst).Pairwise (·.index < ·.index) := by
  have ids : file.content.messageRows.map Prod.fst = MessageId.row 0 file.messageTable.length := by
    rw [Content.messageRows, List.map_map]
    exact nested.numbered
  rw [ids, MessageId.row, List.pairwise_map]
  exact List.pairwise_lt_range'

theorem enumRows_ascend (nested : file.content.Nested .file ⟨0, 0⟩) :
    (file.content.enumRows.map Prod.fst).Pairwise (·.index < ·.index) := by
  have ids : file.content.enumRows.map Prod.fst = EnumId.row 0 file.enumTable.length := by
    rw [Content.enumRows, List.map_map]
    exact nested.enum_ids
  rw [ids, EnumId.row, List.pairwise_map]
  exact List.pairwise_lt_range'

/-- Each scope lists its children. -/
theorem lists (nested : file.content.Nested .file ⟨0, 0⟩) (scope : Scope) :
    file.content.Lists scope (file.messagesIn scope) (file.enumsIn scope) := by
  cases scope with
  | file => exact nested.own
  | message id =>
    cases found : file.message? id with
    | some message =>
      have inner := nested.inner message (List.mem_of_getElem? found)
      rw [message_id nested id.index message found] at inner
      simpa [messagesIn, enumsIn, found] using inner
    | none =>
      have beyond : file.messageTable.length ≤ id.index := List.getElem?_eq_none_iff.1 found
      have outside : 0 + file.content.newMessages.length < (Scope.message id).rank := by
        simp only [content, Scope.rank]
        omega
      have apart : file.content.Lists (.message id) [] [] := nested.foreign (by simp) (Or.inr outside)
      simpa [messagesIn, enumsIn, found] using apart

/-- The top of a file and its messages. -/
def scopes (file : File) : List Scope :=
  .file :: file.messageTable.map fun message => .message message.id

theorem nodup_scopes (nested : file.content.Nested .file ⟨0, 0⟩) : file.scopes.Nodup := by
  refine List.nodup_cons.2 ⟨by simp, ?_⟩
  have distinct := (messageRows_ascend nested).imp fun before same => Nat.ne_of_lt before (congrArg MessageId.index same)
  rw [Content.messageRows, List.map_map] at distinct
  have inScopes := List.Nodup.map (f := Scope.message) (fun a b same => Scope.message.inj same) distinct
  simpa [content, Function.comp_def] using inScopes

theorem messages_flatMap (nested : file.content.Nested .file ⟨0, 0⟩) :
    file.messages ++ file.messageTable.flatMap Message.messages =
      file.scopes.flatMap fun scope => scope.children file.content.messageRows := by
  rw [scopes, List.flatMap_cons, List.flatMap_map, ← (lists nested .file).1]
  exact congrArg (file.messages ++ ·) (List.flatMap_congr fun message member => (nested.inner message member).1)

theorem enums_flatMap (nested : file.content.Nested .file ⟨0, 0⟩) :
    file.enums ++ file.messageTable.flatMap Message.enums =
      file.scopes.flatMap fun scope => scope.children file.content.enumRows := by
  rw [scopes, List.flatMap_cons, List.flatMap_map, ← (lists nested .file).2]
  exact congrArg (file.enums ++ ·) (List.flatMap_congr fun message member => (nested.inner message member).2)

/-- An owner whose rank is in the table is the top of the file or a message of the table. -/
theorem owner_cases (nested : file.content.Nested .file ⟨0, 0⟩) {owner : Scope} {bound : Nat}
    (place : owner = .file ∨ 0 < owner.rank ∧ owner.rank ≤ bound) (inTable : bound ≤ file.messageTable.length) :
    owner = .file ∨ ∃ outer ∈ file.messageTable, owner = .message outer.id ∧ outer.id.index < bound := by
  cases owner with
  | file => exact Or.inl rfl
  | message id =>
    have within : id.index + 1 ≤ bound := place.elim nofun And.right
    obtain ⟨outer, found⟩ : ∃ outer, file.messageTable[id.index]? = some outer :=
      ⟨_, List.getElem?_eq_getElem (Nat.lt_of_lt_of_le within inTable)⟩
    have same := message_id nested id.index outer found
    exact Or.inr ⟨outer, List.mem_of_getElem? found, by rw [same], by rw [same]; exact within⟩

theorem owner_mem_scopes (nested : file.content.Nested .file ⟨0, 0⟩) {owner : Scope} {bound : Nat}
    (place : owner = .file ∨ 0 < owner.rank ∧ owner.rank ≤ bound) (inTable : bound ≤ file.messageTable.length) :
    owner ∈ file.scopes := by
  rcases owner_cases nested place inTable with rfl | ⟨outer, found, rfl, _⟩
  · exact List.mem_cons_self
  · exact List.mem_cons_of_mem _ (List.mem_map_of_mem found)

theorem index_lt (nested : file.content.Nested .file ⟨0, 0⟩) {message : Message}
    (member : message ∈ file.messageTable) : message.id.index < file.messageTable.length := by
  have place := (nested.bounds member).2
  rwa [Nat.zero_add] at place

theorem enum_owner_rank (nested : file.content.Nested .file ⟨0, 0⟩) {enum : Enum} (member : enum ∈ file.enumTable) :
    enum.owner = .file ∨ 0 < enum.owner.rank ∧ enum.owner.rank ≤ file.messageTable.length := by
  have place := nested.enum_owner enum member
  rwa [Nat.zero_add] at place

theorem message_owner (nested : file.content.Nested .file ⟨0, 0⟩) (message : Message)
    (member : message ∈ file.messageTable) : message.owner = .file ∨
      ∃ outer ∈ file.messageTable, message.owner = .message outer.id ∧ outer.id.index < message.id.index :=
  owner_cases nested (nested.owner message member) (Nat.le_of_lt (index_lt nested member))

theorem enum_owner (nested : file.content.Nested .file ⟨0, 0⟩) (enum : Enum) (member : enum ∈ file.enumTable) :
    enum.owner = .file ∨ ∃ outer ∈ file.messageTable, enum.owner = .message outer.id := by
  rcases owner_cases nested (enum_owner_rank nested member) (Nat.le_refl _) with top | ⟨outer, inTable, same, _⟩
  · exact Or.inl top
  · exact Or.inr ⟨outer, inTable, same⟩

theorem grounded_owner (nested : file.content.Nested .file ⟨0, 0⟩) (message : Message)
    (member : message ∈ file.messageTable) : file.Grounded message.owner := by
  induction place : message.id.index using Nat.strongRecOn generalizing message with
  | ind place ih =>
    rcases message_owner nested message member with top | ⟨outer, inTable, same, before⟩
    · rw [top]
      exact .file
    · obtain ⟨index, found⟩ := List.getElem?_of_mem inTable
      have there : file.message? outer.id = some outer := by rwa [message?, message_id nested index outer found]
      rw [same]
      exact .message there (ih _ (place ▸ before) outer inTable rfl)

/-- A file whose top is laid out from the beginning of both tables is a tree of scopes. -/
theorem scopeTree_of_nested (nested : file.content.Nested .file ⟨0, 0⟩) (typed : file.content.Scoped .file)
    (services : ∀ service ∈ file.services, ∀ ref ∈ service.types, ref.scope = .file) : file.ScopeTree where
  message_id := message_id nested
  enum_id := enum_id nested
  message_once message member := by
    have rows := (messageRows_ascend nested).imp fun before same => Nat.ne_of_lt before (congrArg MessageId.index same)
    have row : (message.id, message.owner) ∈ file.content.messageRows := List.mem_map_of_mem member
    have inScopes := owner_mem_scopes nested (nested.owner message member) (Nat.le_of_lt (index_lt nested member))
    rw [messages_flatMap nested]
    exact List.count_eq_one_of_mem (Scope.nodup_flatMap_children (nodup_scopes nested) rows)
      (List.mem_flatMap.2 ⟨message.owner, inScopes, Scope.mem_children.2 row⟩)
  enum_once enum member := by
    have rows := (enumRows_ascend nested).imp fun before same => Nat.ne_of_lt before (congrArg EnumId.index same)
    have row : (enum.id, enum.owner) ∈ file.content.enumRows := List.mem_map_of_mem member
    have inScopes := owner_mem_scopes nested (enum_owner_rank nested member) (Nat.le_refl _)
    rw [enums_flatMap nested]
    exact List.count_eq_one_of_mem (Scope.nodup_flatMap_children (nodup_scopes nested) rows)
      (List.mem_flatMap.2 ⟨enum.owner, inScopes, Scope.mem_children.2 row⟩)
  message_listed id scope := by
    rw [(lists nested scope).1, Scope.mem_children]
    exact mem_messageRows nested
  enum_listed id scope := by
    rw [(lists nested scope).2, Scope.mem_children]
    exact mem_enumRows nested
  messages_ascend scope := by
    rw [(lists nested scope).1]
    exact (messageRows_ascend nested).sublist Scope.children_sublist
  enums_ascend scope := by
    rw [(lists nested scope).2]
    exact (enumRows_ascend nested).sublist Scope.children_sublist
  message_owner := message_owner nested
  enum_owner := enum_owner nested
  grounded := grounded_owner nested
  message_types := typed.inner
  extension_types := typed.extensions
  service_types := services

end Tree

theorem ofStatements_scopeTree (name : String) (statements : List Statement) :
    (ofStatements name statements).ScopeTree := by
  have nested : (layoutAll .file ⟨0, 0⟩ (statements.filterMap Statement.member?)).Nested .file ⟨0, 0⟩ :=
    layoutAll_nested (Nat.zero_le _) _
  have typed := layoutAll_scoped .file ⟨0, 0⟩ (statements.filterMap Statement.member?)
  refine scopeTree_of_nested ⟨nested.numbered, nested.enum_ids, nested.owner, nested.enum_owner, nested.own,
    nested.inner⟩ ⟨nofun, typed.extensions, typed.inner⟩ ?_
  intro service member ref among
  obtain ⟨decl, _, rfl⟩ := List.mem_map.1 member
  obtain ⟨method, written, types⟩ := List.mem_flatMap.1 among
  obtain ⟨signature, _, rfl⟩ := List.mem_map.1 written
  simp only [List.mem_cons, List.not_mem_nil, or_false] at types
  rcases types with rfl | rfl <;> rfl

end File

end ProtoSchema
