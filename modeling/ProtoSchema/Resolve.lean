import ProtoSchema.File.Basic
import ProtoSchema.Name

namespace ProtoSchema

/-- A message or an enum of a file. -/
inductive DeclId
  | message (id : MessageId)
  | enum (id : EnumId)
deriving DecidableEq, Repr

/-- What a name means in a file, if it means anything there. -/
abbrev Meaning := Option DeclId

namespace File

/-- The first of some messages, or else of some enums, that is called `name`. -/
def pick? (file : File) (messages : List MessageId) (enums : List EnumId) (name : String) : Option DeclId :=
  match messages.find? fun id => (file.message? id).any fun message => message.name == name with
  | some id => some (.message id)
  | none => (enums.find? fun id => (file.enum? id).any fun enum => enum.name == name).map .enum

/-- The declaration called `name` directly in `scope`. -/
def child? (file : File) (scope : Scope) (name : String) : Option DeclId :=
  match scope with
  | .file => file.pick? file.messages file.enums name
  | .message id => (file.message? id).bind fun message => file.pick? message.messages message.enums name

/-- Follows names inwards from a declaration. Nothing is declared in an enum. -/
def inward (file : File) (decl : DeclId) : List String → Meaning
  | [] => some decl
  | name :: rest =>
    match decl with
    | .message id => (file.child? (.message id) name).bind fun child => file.inward child rest
    | .enum _ => none

/-- The declaration reached by following names inwards from the top of the file. -/
def find? (file : File) : List String → Meaning
  | [] => none
  | name :: rest => (file.child? .file name).bind fun decl => file.inward decl rest

/-- What is left of a name after the package of the file, if it begins with the package and goes on. -/
def afterPackage? (file : File) (names : List String) : Option (List String) :=
  (file.package.bind fun package => (components package).isPrefixOf? names).filter fun rest => !rest.isEmpty

/-- The declaration reached by following names that begin with the package of the file. -/
def findInPackage? (file : File) (names : List String) : Meaning :=
  (file.afterPackage? names).bind file.find?

/-- What `first` means in the body of a message: the message itself or a declaration directly in it. -/
def anchorIn? (file : File) (first : String) (message : Message) : Option DeclId :=
  if message.name = first then some (.message message.id) else file.child? (.message message.id) first

/-- What `first` means at a place in `scope`, searching outwards. -/
def anchor? (file : File) (scope : Scope) (first : String) : Option DeclId :=
  ((file.enclosing scope).findSome? (file.anchorIn? first)).or (file.child? .file first)

/-- What a name without a leading dot means in `scope`. What is left of it is followed inwards from its anchor, and
nothing is tried again further out. Only a name without an anchor may begin with the package. -/
def resolveRelative (file : File) (scope : Scope) (names : List String) : Meaning :=
  match names with
  | [] => none
  | first :: rest =>
    match file.anchor? scope first with
    | some anchor => file.inward anchor rest
    | none => file.findInPackage? (first :: rest)

/-- What a name after a leading dot means: with the package first, and else without it. -/
def resolveAbsolute (file : File) (names : List String) : Meaning :=
  (file.findInPackage? names).or (file.find? names)

end File

/-- The components after a leading dot. -/
def afterDot? : List String → Option (List String)
  | "" :: name :: rest => some (name :: rest)
  | _ => none

namespace File

/-- What a name means at a place in `scope`. A scalar type is not declared anywhere. -/
def resolve (file : File) (scope : Scope) (name : String) : Meaning :=
  if isScalar name then none
  else match afterDot? (components name) with
    | some names => file.resolveAbsolute names
    | none => file.resolveRelative scope (components name)

/-- The declaration with a given full name, with or without a leading dot. -/
def byFullName? (file : File) (name : String) : Meaning :=
  let names := (afterDot? (components name)).getD (components name)
  if file.package.isSome then file.findInPackage? names else file.find? names

end File

namespace TypeRef

def isAbsolute (ref : TypeRef) : Bool :=
  (afterDot? (components ref.name)).isSome

/-- Whether a name has a dot after those it begins with. -/
def isDotted (ref : TypeRef) : Bool :=
  (ref.name.toList.dropWhile (· == '.')).contains '.'

def isScalar (ref : TypeRef) : Bool :=
  ProtoSchema.isScalar ref.name

/-- What a reference means in the file that it is written in. -/
def resolve (file : File) (ref : TypeRef) : Meaning :=
  file.resolve ref.scope ref.name

end TypeRef

/-- What is known about a type from the file that refers to it alone. -/
inductive RefKind
  | scalar
  | message (id : MessageId)
  | enum (id : EnumId)
  /-- Not declared in the file, but called by a dotted name. -/
  | imported
  | unknown
deriving DecidableEq, Repr

/-- The kind of a reference that means `meaning`. -/
def TypeRef.kindOf (ref : TypeRef) (meaning : Meaning) : RefKind :=
  if ref.isScalar then .scalar
  else match meaning with
    | some (.message id) => .message id
    | some (.enum id) => .enum id
    | none => if ref.isDotted then .imported else .unknown

def TypeRef.kind (file : File) (ref : TypeRef) : RefKind :=
  ref.kindOf (ref.resolve file)

end ProtoSchema
