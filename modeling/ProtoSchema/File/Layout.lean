import ProtoSchema.File.Basic

namespace ProtoSchema

def OperandDecl.layout (operand : OperandDecl) : Operand :=
  ⟨⟨operand.type, .file⟩, operand.stream⟩

def MethodDecl.layout (method : MethodDecl) : Method :=
  ⟨method.name, method.comment, method.input.layout, method.output.layout⟩

def ServiceDecl.layout (service : ServiceDecl) : Service :=
  ⟨service.name, service.mark.comment, service.mark.line, service.methods.map MethodDecl.layout⟩

def FieldDecl.layout (scope : Scope) (field : FieldDecl) : SimpleField :=
  ⟨field.name, field.comment, field.cardinality, ⟨field.type, scope⟩, field.number⟩

def OneofDecl.layout (scope : Scope) (oneof : OneofDecl) : Oneof :=
  ⟨oneof.name, oneof.comment, oneof.fields.map (FieldDecl.layout scope)⟩

def MapDecl.layout (scope : Scope) (map : MapDecl) : MapField :=
  ⟨map.name, map.comment, ⟨map.key, scope⟩, ⟨map.value, scope⟩, map.number⟩

/-- The next free places in the two tables. -/
structure Room where
  messages : Nat
  enums : Nat
deriving DecidableEq, Repr

/-- What a run of declarations gives to the scope around it, and the rows it adds to the tables. -/
structure Content where
  fields : List Field
  messages : List MessageId
  enums : List EnumId
  extensions : List Extension
  newMessages : List Message
  newEnums : List Enum
deriving Repr

namespace Content

def empty : Content :=
  ⟨[], [], [], [], [], []⟩

def append (a b : Content) : Content :=
  ⟨a.fields ++ b.fields, a.messages ++ b.messages, a.enums ++ b.enums, a.extensions ++ b.extensions,
    a.newMessages ++ b.newMessages, a.newEnums ++ b.newEnums⟩

/-- A scope's content that is one field. -/
def ofField (field : Field) : Content :=
  { empty with fields := [field] }

/-- The places that are free after some content has been added. -/
def roomAfter (content : Content) (room : Room) : Room :=
  ⟨room.messages + content.newMessages.length, room.enums + content.newEnums.length⟩

/-- A group in the scope around it: its fields stay together, all else is handed on. -/
def asGroup (head : GroupHead) (content : Content) : Content :=
  { content with fields := [.group head content.fields] }

/-- A message of `owner` at place `id`, of which only the message itself shows in the scope around it. -/
def asMessage (head : MessageHead) (id : MessageId) (owner : Scope) (content : Content) : Content :=
  let message : Message :=
    ⟨id, head.name, head.mark.comment, head.mark.line, owner, content.fields, content.messages, content.enums,
      content.extensions⟩
  ⟨[], [id], [], [], message :: content.newMessages, content.newEnums⟩

/-- An extension written in `scope`. It keeps the fields; messages and enums are handed on, and
extensions inside it have no place to go. -/
def asExtension (head : ExtendHead) (scope : Scope) (content : Content) : Content :=
  { content with fields := [], extensions := [⟨⟨head.extendee, scope⟩, head.comment, content.fields⟩] }

/-- An enum of `owner` at place `id`. -/
def ofEnum (decl : EnumDecl) (id : EnumId) (owner : Scope) : Content :=
  { empty with
    enums := [id], newEnums := [⟨id, decl.name, decl.mark.comment, decl.mark.line, owner, decl.values⟩] }

end Content

mutual

/-- The content that one member of `scope` makes, when the tables have been filled up to `room`. A message takes its
place before what is written in it, so that the table has the messages in the order of their keywords. -/
def Member.layout (scope : Scope) (room : Room) : Member → Content
  | .field field => Content.ofField (.simple (field.layout scope))
  | .oneof oneof => Content.ofField (.oneof (oneof.layout scope))
  | .map map => Content.ofField (.map (map.layout scope))
  | .group head body => (layoutAll scope room body).asGroup head
  | .message head body =>
    (layoutAll (.message ⟨room.messages⟩) ⟨room.messages + 1, room.enums⟩ body).asMessage head ⟨room.messages⟩ scope
  | .enum decl => Content.ofEnum decl ⟨room.enums⟩ scope
  | .extend head body => (layoutAll scope room body).asExtension head scope

/-- The content that the members of `scope` make together. -/
def layoutAll (scope : Scope) (room : Room) : List Member → Content
  | [] => Content.empty
  | member :: rest =>
    let content := member.layout scope room
    content.append (layoutAll scope (content.roomAfter room) rest)

end

/-- The last of the statements' values for which `pick` answers. -/
def lastOf (pick : Statement → Option String) (statements : List Statement) : Option String :=
  (statements.filterMap pick).getLast?

def Statement.dialect? : Statement → Option String
  | .dialect value => some value
  | _ => none

def Statement.package? : Statement → Option String
  | .package name => some name
  | _ => none

def Statement.imported? : Statement → Option Import
  | .imports item => some item
  | _ => none

def Statement.service? : Statement → Option ServiceDecl
  | .service decl => some decl
  | _ => none

def Statement.member? : Statement → Option Member
  | .member declared => some declared
  | _ => none

/-- The file that some statements make. A statement that may stand only once counts where it stands
last. -/
def File.ofStatements (name : String) (statements : List Statement) : File :=
  let content := layoutAll .file ⟨0, 0⟩ (statements.filterMap Statement.member?)
  { name
    package := lastOf Statement.package? statements
    dialect := lastOf Statement.dialect? statements
    imports := statements.filterMap Statement.imported?
    messages := content.messages
    enums := content.enums
    services := (statements.filterMap Statement.service?).map ServiceDecl.layout
    extensions := content.extensions
    messageTable := content.newMessages
    enumTable := content.newEnums }

end ProtoSchema
