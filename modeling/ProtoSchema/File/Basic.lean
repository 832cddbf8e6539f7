import ProtoSchema.Decl

namespace ProtoSchema

/-- The place of a message in the table of its file, by which the message is known. -/
structure MessageId where
  index : Nat
deriving DecidableEq, Repr

/-- The place of an enum in the table of its file. -/
structure EnumId where
  index : Nat
deriving DecidableEq, Repr

/-- The top of a file or the body of a message. -/
inductive Scope
  | file
  | message (id : MessageId)
deriving DecidableEq, Repr

/-- A type by the name it is called, and the scope in which it is called so. -/
structure TypeRef where
  name : String
  scope : Scope
deriving DecidableEq, Repr

/-- A field that holds one value, or several if it is repeated. -/
structure SimpleField where
  name : String
  comment : Option String
  cardinality : Cardinality
  type : TypeRef
  number : Int
deriving DecidableEq, Repr

structure Oneof where
  name : String
  comment : Option String
  fields : List SimpleField
deriving DecidableEq, Repr

structure MapField where
  name : String
  comment : Option String
  key : TypeRef
  value : TypeRef
  number : Int
deriving DecidableEq, Repr

/-- A field of a message, a group or an extension. A group keeps only its fields: what else is declared
in it belongs to the scope around it. -/
inductive Field
  | simple (field : SimpleField)
  | oneof (oneof : Oneof)
  | map (field : MapField)
  | group (head : GroupHead) (fields : List Field)
deriving BEq, Repr

structure Extension where
  extendee : TypeRef
  comment : Option String
  fields : List Field
deriving BEq, Repr

structure Message where
  id : MessageId
  name : String
  comment : Option String
  line : Nat
  owner : Scope
  fields : List Field
  messages : List MessageId
  enums : List EnumId
  extensions : List Extension
deriving BEq, Repr

structure Enum where
  id : EnumId
  name : String
  comment : Option String
  line : Nat
  owner : Scope
  values : List EnumValue
deriving DecidableEq, Repr

structure Operand where
  type : TypeRef
  stream : Bool
deriving DecidableEq, Repr

structure Method where
  name : String
  comment : Option String
  input : Operand
  output : Operand
deriving DecidableEq, Repr

structure Service where
  name : String
  comment : Option String
  line : Nat
  methods : List Method
deriving DecidableEq, Repr

/-- A schema file. The lists `messages` and `enums` name the declarations at its top; the tables hold
all of them, however deep. -/
structure File where
  name : String
  package : Option String
  dialect : Option String
  imports : List Import
  messages : List MessageId
  enums : List EnumId
  services : List Service
  extensions : List Extension
  messageTable : List Message
  enumTable : List Enum
deriving BEq, Repr

namespace File

def message? (file : File) (id : MessageId) : Option Message :=
  file.messageTable[id.index]?

def enum? (file : File) (id : EnumId) : Option Enum :=
  file.enumTable[id.index]?

end File

/-- The number of messages a scope can be nested in, at most. -/
def Scope.rank : Scope → Nat
  | .file => 0
  | .message id => id.index + 1

/-- The messages around a place in `scope`, the innermost one first. Owners come before what they own,
so the walk ends. -/
def File.enclosing (file : File) (scope : Scope) : List Message :=
  match scope with
  | .file => []
  | .message id =>
    match file.message? id with
    | none => []
    | some message =>
      if _outward : message.owner.rank < (Scope.message id).rank then message :: file.enclosing message.owner
      else [message]
termination_by scope.rank

/-- The full name of something called `name` in `scope`: the package and the messages around it come
before it. -/
def File.fullNameIn (file : File) (scope : Scope) (name : String) : String :=
  String.intercalate "." (file.package.toList ++ ((file.enclosing scope).map Message.name).reverse ++ [name])

def Message.fullName (file : File) (message : Message) : String :=
  file.fullNameIn message.owner message.name

def Enum.fullName (file : File) (enum : Enum) : String :=
  file.fullNameIn enum.owner enum.name

def Service.fullName (file : File) (service : Service) : String :=
  file.fullNameIn .file service.name

namespace Field

def name : Field → String
  | .simple field => field.name
  | .oneof choice => choice.name
  | .map field => field.name
  | .group head _ => head.name

def comment : Field → Option String
  | .simple field => field.comment
  | .oneof choice => choice.comment
  | .map field => field.comment
  | .group head _ => head.comment

/-- The number of a field; a oneof has none of its own. -/
def number? : Field → Option Int
  | .simple field => some field.number
  | .oneof _ => none
  | .map field => some field.number
  | .group head _ => some head.number

mutual

/-- The types that a field refers to, in the order they are written. -/
def types : Field → List TypeRef
  | .simple field => [field.type]
  | .oneof choice => choice.fields.map SimpleField.type
  | .map field => [field.key, field.value]
  | .group _ fields => typesOfAll fields

/-- The types that some fields refer to, one field after another. -/
def typesOfAll : List Field → List TypeRef
  | [] => []
  | field :: rest => field.types ++ typesOfAll rest

end

theorem typesOfAll_eq_flatMap (fields : List Field) : typesOfAll fields = fields.flatMap types := by
  induction fields with
  | nil => rfl
  | cons field fields ih => rw [typesOfAll, ih, List.flatMap_cons]

end Field

/-- The extended type, followed by the types of the fields it gets. -/
def Extension.types (extension : Extension) : List TypeRef :=
  extension.extendee :: Field.typesOfAll extension.fields

def Message.fieldTypes (message : Message) : List TypeRef :=
  Field.typesOfAll message.fields

/-- All types that a message refers to, in its fields and in the extensions written in its body. -/
def Message.types (message : Message) : List TypeRef :=
  message.fieldTypes ++ message.extensions.flatMap Extension.types

def Service.types (service : Service) : List TypeRef :=
  service.methods.flatMap fun method => [method.input.type, method.output.type]

/-- All types that a file refers to: message after message, then the extensions at its top, then its
services. -/
def File.types (file : File) : List TypeRef :=
  file.messageTable.flatMap Message.types ++ file.extensions.flatMap Extension.types ++
    file.services.flatMap Service.types

end ProtoSchema
