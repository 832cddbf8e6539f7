import ProtoSchema.OuterRef
import ProtoSchema.Parse

namespace ProtoSchema

/-- The places of some messages that stand in a row from `first` on. -/
def MessageId.row (first count : Nat) : List MessageId :=
  (List.range' first count).map MessageId.mk

/-- Whether new messages have the places from the next free one on. -/
def Content.Numbered (content : Content) (room : Room) : Prop :=
  content.newMessages.map Message.id = MessageId.row room.messages content.newMessages.length

theorem Content.Numbered.append {a b : Content} {room : Room} (first : a.Numbered room)
    (second : b.Numbered (a.roomAfter room)) : (a.append b).Numbered room := by
  unfold Content.Numbered MessageId.row at *
  simp only [Content.append, List.map_append, first, second, Content.roomAfter, List.length_append]
  rw [← List.map_append, List.range'_append_1]

theorem Content.Numbered.asMessage {content : Content} {room : Room} (head : MessageHead) (owner : Scope)
    (body : content.Numbered ⟨room.messages + 1, room.enums⟩) :
    (content.asMessage head ⟨room.messages⟩ owner).Numbered room := by
  unfold Content.Numbered MessageId.row at *
  simp [Content.asMessage, body, List.range'_succ]

mutual

theorem Member.layout_numbered (scope : Scope) (room : Room) :
    (member : Member) → (member.layout scope room).Numbered room
  | .field _ | .oneof _ | .map _ | .enum _ => rfl
  | .group _ body | .extend _ body => layoutAll_numbered scope room body
  | .message head body => (layoutAll_numbered _ _ body).asMessage head scope

theorem layoutAll_numbered (scope : Scope) (room : Room) :
    (members : List Member) → (layoutAll scope room members).Numbered room
  | [] => rfl
  | member :: rest => (member.layout_numbered scope room).append (layoutAll_numbered _ _ rest)

end

/-- Whether every message of a file is at the place in the table that it names. -/
def File.InOrder (file : File) : Prop :=
  ∀ (index : Nat) (message : Message), file.messageTable[index]? = some message → message.id = ⟨index⟩

theorem File.ofStatements_inOrder (name : String) (statements : List Statement) :
    (File.ofStatements name statements).InOrder := by
  intro index message found
  have numbered := layoutAll_numbered .file ⟨0, 0⟩ (statements.filterMap Statement.member?)
  obtain ⟨bound, rfl⟩ := List.getElem?_eq_some_iff.1 found
  have same := congrArg (·[index]?) numbered
  simp only [File.ofStatements] at bound ⊢
  simpa [MessageId.row, bound] using same

theorem parse_eq_ok {name source : String} {file : File} (parsed : parse name source = .ok file) :
    ∃ statements, file = File.ofStatements name statements := by
  unfold parse at parsed
  cases read : (scanTokens source.toList).bind readStatements with
  | error fault =>
    rw [read] at parsed
    cases parsed
  | ok statements =>
    rw [read] at parsed
    exact ⟨statements, (Except.ok.inj parsed).symm⟩

theorem parse_inOrder {name source : String} {file : File} (parsed : parse name source = .ok file) :
    file.InOrder := by
  obtain ⟨statements, rfl⟩ := parse_eq_ok parsed
  exact File.ofStatements_inOrder name statements

theorem parse_name {name source : String} {file : File} (parsed : parse name source = .ok file) :
    file.name = name := by
  obtain ⟨statements, rfl⟩ := parse_eq_ok parsed
  rfl

namespace File

variable {file : File}

/-- Whether a file has a declaration at a place of its tables. -/
def Declares (file : File) : DeclId → Prop
  | .message id => ∃ message, file.message? id = some message
  | .enum id => ∃ enum, file.enum? id = some enum

/-- A message of the table is declared at the place that it names. -/
theorem InOrder.declares {index : Nat} {message : Message} (ordered : file.InOrder)
    (at_index : file.messageTable[index]? = some message) : file.Declares (.message message.id) := by
  rw [ordered index message at_index]
  exact ⟨message, at_index⟩

theorem declares_of_pick? {messages : List MessageId} {enums : List EnumId} {name : String} {decl : DeclId}
    (picked : file.pick? messages enums name = some decl) : file.Declares decl := by
  unfold pick? at picked
  split at picked
  · rename_i id found
    obtain rfl := Option.some.inj picked
    have named := List.find?_some found
    obtain ⟨message, at_id, _⟩ := (Option.any_eq_true _ _).1 named
    exact ⟨message, at_id⟩
  · obtain ⟨id, found, rfl⟩ := Option.map_eq_some_iff.1 picked
    have named := List.find?_some found
    obtain ⟨enum, at_id, _⟩ := (Option.any_eq_true _ _).1 named
    exact ⟨enum, at_id⟩

theorem declares_of_child? {scope : Scope} {name : String} {decl : DeclId}
    (found : file.child? scope name = some decl) : file.Declares decl := by
  cases scope with
  | file => exact declares_of_pick? found
  | message id =>
    obtain ⟨message, _, picked⟩ := Option.bind_eq_some_iff.1 found
    exact declares_of_pick? picked

theorem declares_of_inward {names : List String} {first decl : DeclId} (start : file.Declares first)
    (found : file.inward first names = some decl) : file.Declares decl := by
  induction names generalizing first with
  | nil =>
    obtain rfl := Option.some.inj found
    exact start
  | cons name rest ih =>
    cases first with
    | message id =>
      obtain ⟨child, at_name, later⟩ := Option.bind_eq_some_iff.1 found
      exact ih (declares_of_child? at_name) later
    | enum id => contradiction

theorem declares_of_find? {names : List String} {decl : DeclId} (found : file.find? names = some decl) :
    file.Declares decl := by
  cases names with
  | nil => contradiction
  | cons name rest =>
    obtain ⟨top, at_name, later⟩ := Option.bind_eq_some_iff.1 found
    exact declares_of_inward (declares_of_child? at_name) later

theorem declares_of_findInPackage? {names : List String} {decl : DeclId}
    (found : file.findInPackage? names = some decl) : file.Declares decl := by
  obtain ⟨rest, _, later⟩ := Option.bind_eq_some_iff.1 found
  exact declares_of_find? later

theorem mem_table_of_mem_enclosing {scope : Scope} {message : Message} (around : message ∈ file.enclosing scope) :
    message ∈ file.messageTable := by
  fun_induction file.enclosing scope with
  | case1 => simp at around
  | case2 => simp at around
  | case3 id inner at_id _ ih =>
    rcases List.mem_cons.1 around with rfl | outer
    · exact List.mem_of_getElem? at_id
    · exact ih outer
  | case4 id inner at_id =>
    obtain rfl := List.mem_singleton.1 around
    exact List.mem_of_getElem? at_id

theorem InOrder.declares_of_anchor? (ordered : file.InOrder) {scope : Scope} {first : String} {decl : DeclId}
    (found : file.anchor? scope first = some decl) : file.Declares decl := by
  rcases Option.or_eq_some_iff.1 found with inner | ⟨_, top⟩
  · obtain ⟨message, around, anchored⟩ := List.exists_of_findSome?_eq_some inner
    unfold anchorIn? at anchored
    split at anchored
    · obtain rfl := Option.some.inj anchored
      obtain ⟨index, at_index⟩ := List.getElem?_of_mem (mem_table_of_mem_enclosing around)
      exact ordered.declares at_index
    · exact declares_of_child? anchored
  · exact declares_of_child? top

/-- Whatever a name is resolved to is declared in the file. -/
theorem InOrder.declares_of_resolve (ordered : file.InOrder) {scope : Scope} {name : String} {decl : DeclId}
    (found : file.resolve scope name = some decl) : file.Declares decl := by
  unfold resolve at found
  split at found
  · contradiction
  split at found
  · rcases Option.or_eq_some_iff.1 found with inPackage | ⟨_, top⟩
    · exact declares_of_findInPackage? inPackage
    · exact declares_of_find? top
  · unfold resolveRelative at found
    split at found
    · contradiction
    split at found
    · rename_i anchored
      exact declares_of_inward (ordered.declares_of_anchor? anchored) found
    · exact declares_of_findInPackage? found

theorem declares_of_byFullName? {name : String} {decl : DeclId} (found : file.byFullName? name = some decl) :
    file.Declares decl := by
  unfold byFullName? at found
  split at found
  · exact declares_of_findInPackage? found
  · exact declares_of_find? found

/-- What a reference from elsewhere means in a file is declared in the file. -/
theorem declares_of_outer {outer : OuterRef} {decl : DeclId} (found : outer.resolve file = some decl) :
    file.Declares decl := by
  obtain ⟨name, _, named⟩ := List.exists_of_findSome?_eq_some found
  exact declares_of_byFullName? named

end File

end ProtoSchema
