import ProtoSchema.Token.Basic

namespace ProtoSchema

/-- Where the keyword of a declaration stands, and the comment that belongs to it. -/
structure Mark where
  comment : Option String
  line : Nat
deriving DecidableEq, Repr

def Token.mark (t : Token) : Mark :=
  ⟨t.comment, t.line⟩

/-- The keyword before the type of a field. -/
inductive Cardinality
  | unmarked
  | required
  | optional
  | repeated
deriving DecidableEq, Repr

/-- A field as it is written in a message, an extension or a oneof. Its type is still the name by which it is called. -/
structure FieldDecl where
  comment : Option String
  cardinality : Cardinality
  type : String
  name : String
  number : Int
deriving DecidableEq, Repr

structure OneofDecl where
  comment : Option String
  name : String
  fields : List FieldDecl
deriving DecidableEq, Repr

structure MapDecl where
  comment : Option String
  key : String
  value : String
  name : String
  number : Int
deriving DecidableEq, Repr

structure EnumValue where
  name : String
  number : Int
  comment : Option String
deriving DecidableEq, Repr

structure EnumDecl where
  mark : Mark
  name : String
  values : List EnumValue
deriving DecidableEq, Repr

/-- One side of the signature of a method. -/
structure OperandDecl where
  type : String
  stream : Bool
deriving DecidableEq, Repr

structure MethodDecl where
  comment : Option String
  name : String
  input : OperandDecl
  output : OperandDecl
deriving DecidableEq, Repr

structure ServiceDecl where
  mark : Mark
  name : String
  methods : List MethodDecl
deriving DecidableEq, Repr

/-- The keyword after `import`: files that import a file see what it imports with `public`. -/
inductive ImportKind
  | plain
  | weak
  | reexported
deriving DecidableEq, Repr

/-- An import statement. Its span goes from the keyword to the end of the path. -/
structure Import where
  path : String
  kind : ImportKind
  line : Nat
  span : Span
deriving DecidableEq, Repr

structure MessageHead where
  mark : Mark
  name : String
deriving DecidableEq, Repr

/-- A group is a field and a body of its own at once. -/
structure GroupHead where
  comment : Option String
  cardinality : Cardinality
  name : String
  number : Int
deriving DecidableEq, Repr

structure ExtendHead where
  comment : Option String
  extendee : String
deriving DecidableEq, Repr

/-- An entry in the body of a message, a group or an extension. -/
inductive Member
  | field (field : FieldDecl)
  | oneof (oneof : OneofDecl)
  | map (map : MapDecl)
  | group (head : GroupHead) (body : List Member)
  | message (head : MessageHead) (body : List Member)
  | enum (decl : EnumDecl)
  | extend (head : ExtendHead) (body : List Member)
deriving Repr

/-- A statement at the top of a file. -/
inductive Statement
  | dialect (value : String)
  | package (name : String)
  | imports (item : Import)
  | service (decl : ServiceDecl)
  | member (member : Member)
deriving Repr

end ProtoSchema
