import ProtoSchema.Text.Pieces

namespace ProtoSchema

/-- Whether a character may begin an identifier. -/
def isIdentifierStart (c : Char) : Bool :=
  c.isAlpha || c == '_'

def isIdentifierChar (c : Char) : Bool :=
  c.isAlphanum || c == '_'

def isIdentifier : List Char → Bool
  | [] => false
  | c :: text => isIdentifierStart c && text.all isIdentifierChar

/-- The components of a dotted name. A leading dot shows as an empty first component. -/
def components (name : String) : List String :=
  (Text.pieces '.' name.toList).map String.ofList

/-- The dotted name with the given components. -/
def dotted (names : List String) : String :=
  String.intercalate "." names

/-- Whether a name is identifiers with dots between them. -/
def isRelativeName (name : List Char) : Bool :=
  (Text.pieces '.' name).all isIdentifier

/-- Whether a name may be written where a type is expected: it may begin with a dot. -/
def isTypeName : List Char → Bool
  | '.' :: name => isRelativeName name
  | name => isRelativeName name

def scalarTypes : List String :=
  ["double", "float", "int32", "int64", "uint32", "uint64", "sint32", "sint64", "fixed32", "fixed64",
    "sfixed32", "sfixed64", "bool", "string", "bytes"]

def isScalar (name : String) : Bool :=
  scalarTypes.contains name

end ProtoSchema
