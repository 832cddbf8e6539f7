import ProtoSchema.Resolve

namespace ProtoSchema

/-- The full names that a reference may mean, the most specific one first. The first one that a file declares is meant. -/
structure OuterRef where
  candidates : List String
deriving DecidableEq, Repr

/-- The beginnings of a list but for the empty one, the longest first. -/
def beginnings : List α → List (List α)
  | [] => []
  | a :: rest => (beginnings rest).map (a :: ·) ++ [[a]]

namespace OuterRef

/-- The full names that a reference in `file` may mean. A name without a leading dot may be declared in
the package of the file or in any package around it. -/
def ofRef (file : File) (ref : TypeRef) : OuterRef :=
  match afterDot? (components ref.name) with
  | some names => ⟨[dotted names]⟩
  | none =>
    let packages := beginnings ((file.package.map components).getD [])
    ⟨packages.map (fun package => dotted (package ++ [ref.name])) ++ [ref.name]⟩

/-- What is meant in a file that may declare the type. -/
def resolve (outer : OuterRef) (file : File) : Meaning :=
  outer.candidates.findSome? file.byFullName?

end OuterRef

/-- What some references in a file lead to: messages and enums of the file, and types outside it. -/
structure Uses where
  messages : List MessageId
  enums : List EnumId
  outside : List OuterRef
deriving DecidableEq, Repr

def DeclId.message? : DeclId → Option MessageId
  | .message id => some id
  | .enum _ => none

def DeclId.enum? : DeclId → Option EnumId
  | .message _ => none
  | .enum id => some id

/-- What references of a file lead to. Scalar types lead nowhere. -/
def File.uses (file : File) (refs : List TypeRef) : Uses :=
  let named := refs.filter fun ref => !ref.isScalar
  { messages := named.filterMap fun ref => (ref.resolve file).bind DeclId.message?
    enums := named.filterMap fun ref => (ref.resolve file).bind DeclId.enum?
    outside := (named.filter fun ref => (ref.resolve file).isNone).map (OuterRef.ofRef file) }

end ProtoSchema
