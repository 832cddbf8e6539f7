import ProtoSchema.Proofs.Guarded.Basic
import ProtoSchema.Proofs.Grammar.Basic
import ProtoSchema.Reader

namespace ProtoSchema

namespace Numeral

/-- The least of the numbers of 64 bits with a sign. -/
def least64 : Int :=
  -9223372036854775808

/-- Whether a number has 64 bits. -/
def fits64 (n : Int) : Bool :=
  least64 ≤ n ∧ n < -least64

/-- The number that digits stand for, behind a sign or not, if it has 64 bits. -/
def signed? (base : Nat) (text : List Char) : Option Int :=
  let value : Option Int := match text with
    | '-' :: digits => (ofDigits? base digits).map fun m => -Int.ofNat m
    | '+' :: digits => (ofDigits? base digits).map Int.ofNat
    | digits => (ofDigits? base digits).map Int.ofNat
  value.filter fits64

/-- The value of a literal. Behind the mark of its base, a sign could stand. -/
def literal? : List Char → Option Int
  | '0' :: 'x' :: digits => signed? 16 digits
  | '0' :: 'X' :: digits => signed? 16 digits
  | '0' :: c :: digits => signed? 8 (c :: digits)
  | digits => if digits.all Char.isDigit then signed? 10 digits else none

end Numeral

/-- What has been declared directly in a body or at the top of a file. -/
structure Declared where
  fields : List Field
  messages : List MessageId
  enums : List EnumId
  extensions : List Extension

def Declared.nothing : Declared :=
  ⟨[], [], [], []⟩

/-- A file with what has been declared at its top. -/
def File.top (file : File) (declared : Declared) : File :=
  { file with messages := declared.messages, enums := declared.enums, extensions := declared.extensions }

namespace Descent

variable {α : Type}

def negate (value : Int) : Descent Int :=
  if value = Numeral.least64 then fail .overflow else return -value

def eat (text : String) : Descent Bool := do
  if ← isNext text then
    drop
    return true
  return false

/-- A number behind its sign. -/
def magnitude (negative : Bool) : Descent Int := do
  let t ← takeIf (·.kind = .word) .integer
  match Numeral.literal? t.text.toList with
  | none => refuse (.invalidNumber t)
  | some magnitude =>
    let value ← if negative then negate magnitude else pure magnitude
    if Numeral.inRange value then return value else refuse (.invalidNumber t)

def number (signed : Bool) : Descent Int := do
  let negative ← if signed then eat "-" else pure false
  magnitude negative

/-- Skips a statement, keyword and all: only a semicolon outside all brackets ends it. -/
def skipStatement : Descent Unit :=
  loop (fun depth => do
    match ← peek with
    | none => unexpected (.literal ";")
    | some t =>
      if t.is ";" && depth == 0 then
        drop
        return .inr ()
      else if t.is "\x7b" || t.is "[" || t.is "(" || t.is "<" then
        drop
        return .inl (depth + 1)
      else if t.is "\x7d" && depth == 0 then unexpected (.literal ";")
      else if t.is "\x7d" || t.is "]" || t.is ")" || t.is ">" then
        drop
        return .inl (depth - 1)
      else
        drop
        return .inl depth) 0

/-- Skips what is in brackets that have been opened. -/
def skipInside (left right : String) : Descent Unit :=
  loop (fun depth => do
    match ← peek with
    | none => unexpected (.literal right)
    | some _ =>
      let t ← bump
      if t.is left then return .inl (depth + 1)
      else if t.is right then return if depth ≤ 1 then .inr () else .inl (depth - 1)
      else return .inl depth) 1

def skipBalanced (left right : String) : Descent Unit := do
  let _ ← expect left
  skipInside left right

def skipOptions : Descent Unit := do
  if ← isNext "[" then skipBalanced "[" "]"

/-- What follows the name of a declaration with a number, up to `stop`. -/
def assigned (signed : Bool) (stop : String) : Descent Int := do
  let _ ← expect "="
  let value ← number signed
  skipOptions
  let _ ← expect stop
  return value

/-- The name and the number of a declaration, up to `stop`. -/
def tail (signed : Bool) (stop : String) : Descent (String × Int) := do
  let name ← identifier
  let value ← assigned signed stop
  return (name.text, value)

/-- The entries of a block without bodies, up to its closing brace. -/
def entries (keywords : List String) (begins : Token → Bool) (expected : Expectation) (entry : Descent α) :
    Descent (List α) :=
  loop (fun before => do
    match ← peek with
    | none => unexpected expected
    | some t =>
      if t.is "\x7d" then
        drop
        return .inr before
      else if t.is ";" then
        drop
        return .inl before
      else if t.isAny keywords then
        skipStatement
        return .inl before
      else if begins t then
        let next ← entry
        return .inl (before ++ [next])
      else unexpected expected) []

/-- The comment of the next token. -/
def comment : Descent (Option String) := do
  return (← peek).bind Token.comment

def choice (scope : Scope) : Descent SimpleField := do
  let given ← comment
  let type ← typeName
  let (name, value) ← tail false ";"
  return ⟨name, given, .unmarked, ⟨type.text, scope⟩, value⟩

def oneof (scope : Scope) : Descent Oneof := do
  let keyword ← expect "oneof"
  let name ← identifier
  let _ ← expect "\x7b"
  let fields ← entries ["option"] (·.kind = .word) .oneofField (choice scope)
  return ⟨name.text, keyword.comment, fields⟩

def enumValue : Descent EnumValue := do
  let name ← identifier
  let value ← assigned true ";"
  return ⟨name.text, value, name.comment⟩

/-- An enum has its row in the table after its values have been read. -/
def enum (owner : Scope) : Descent EnumId := do
  let keyword ← expect "enum"
  let name ← identifier
  let _ ← expect "\x7b"
  let values ← entries ["option", "reserved"] (·.kind = .word) .enumValue enumValue
  let file ← read
  let id : EnumId := ⟨file.enumTable.length⟩
  write { file with enumTable := file.enumTable ++ [⟨id, name.text, keyword.comment, keyword.line, owner, values⟩] }
  return id

def mapField (scope : Scope) : Descent MapField := do
  let keyword ← expect "map"
  let _ ← expect "<"
  let key ← typeName
  let _ ← expect ","
  let value ← typeName
  let _ ← expect ">"
  let (name, number) ← tail false ";"
  return ⟨name, keyword.comment, ⟨key.text, scope⟩, ⟨value.text, scope⟩, number⟩

/-- Takes the word `stream`, unless it is the name of the type itself. -/
def stream : Descent Bool := do
  let word ← isNext "stream"
  let second ← peekSecond
  if word && !second.any (·.is ")") then
    drop
    return true
  return false

def operand : Descent Operand := do
  let _ ← expect "("
  let streams ← stream
  let type ← typeName
  let _ ← expect ")"
  return ⟨⟨type.text, .file⟩, streams⟩

def methodEnd : Descent Unit := do
  match ← peek with
  | none => unexpected .methodEnd
  | some t =>
    if t.is ";" then drop
    else if t.is "\x7b" then skipBalanced "\x7b" "\x7d"
    else unexpected .methodEnd

def method : Descent Method := do
  let keyword ← expect "rpc"
  let name ← identifier
  let input ← operand
  let _ ← expect "returns"
  let output ← operand
  methodEnd
  return ⟨name.text, keyword.comment, input, output⟩

def service : Descent Unit := do
  let keyword ← expect "service"
  let name ← identifier
  let _ ← expect "\x7b"
  let methods ← entries ["option"] (·.is "rpc") .serviceEntry method
  let file ← read
  write { file with services := file.services ++ [⟨name.text, keyword.comment, keyword.line, methods⟩] }

def importKind : Descent ImportKind := do
  match ← peek with
  | none => unexpected .importPath
  | some t =>
    if t.is "weak" then
      drop
      return .weak
    else if t.is "public" then
      drop
      return .reexported
    else if t.kind = .string then return .plain
    else unexpected .importPath

def importStatement : Descent Unit := do
  let keyword ← expect "import"
  let kind ← importKind
  let path ← stringLiteral
  let _ ← expect ";"
  let file ← read
  let item : Import := ⟨path.text, kind, keyword.line, ⟨keyword.span.start, path.span.stop⟩⟩
  write { file with imports := file.imports ++ [item] }

def dialect : Descent Unit := do
  let _ ← expect "syntax"
  let _ ← expect "="
  let value ← stringLiteral
  let _ ← expect ";"
  write { ← read with dialect := some value.text }

def package : Descent Unit := do
  let _ ← expect "package"
  let name ← dottedName isRelativeName
  let _ ← expect ";"
  write { ← read with package := some name.text }

section Bodies

-- How a body in a scope is read, from behind its opening brace to its closing brace.
variable (inner : Grammar.Body → Scope → Descent Declared)

def message (owner : Scope) : Descent MessageId := do
  let keyword ← expect "message"
  let name ← identifier
  let file ← read
  let id : MessageId := ⟨file.messageTable.length⟩
  let row : Message := ⟨id, name.text, keyword.comment, keyword.line, owner, [], [], [], []⟩
  write { file with messageTable := file.messageTable ++ [row] }
  let _ ← expect "\x7b"
  let body ← inner .members (.message id)
  let file ← read
  match file.message? id with
  | none => fail .noSuchRow
  | some row =>
    let filled : Message :=
      { row with
        fields := body.fields, messages := body.messages, enums := body.enums, extensions := body.extensions }
    write { file with messageTable := file.messageTable.set id.index filled }
    return id

def modifier : Descent Cardinality := do
  match (← peek).bind Reader.cardinality? with
  | none => return .unmarked
  | some cardinality =>
    drop
    return cardinality

/-- A field behind its type. A group hands on to the scope around it all but its fields. -/
def fieldFrom (scope : Scope) (before : Declared) (comment : Option String) (cardinality : Cardinality)
    (type : String) : Descent Declared := do
  if type = "group" then
    let (name, value) ← tail false "\x7b"
    let body ← inner .members scope
    return ⟨before.fields ++ [.group ⟨comment, cardinality, name, value⟩ body.fields], before.messages ++ body.messages,
      before.enums ++ body.enums, before.extensions ++ body.extensions⟩
  else
    let (name, value) ← tail false ";"
    return { before with fields := before.fields ++ [.simple ⟨name, comment, cardinality, ⟨type, scope⟩, value⟩] }

def field (scope : Scope) (before : Declared) : Descent Declared := do
  let given ← comment
  let cardinality ← modifier
  let type ← typeName
  fieldFrom inner scope before given cardinality type.text

def extend (scope : Scope) (before : Declared) : Descent Declared := do
  let keyword ← expect "extend"
  let extendee ← typeName
  let _ ← expect "\x7b"
  let body ← inner .extension scope
  return ⟨before.fields, before.messages ++ body.messages, before.enums ++ body.enums,
    before.extensions ++ [⟨⟨extendee.text, scope⟩, keyword.comment, body.fields⟩]⟩

/-- One entry of the body of a message or group, or its closing brace. -/
def memberRound (scope : Scope) (before : Declared) : Descent (Declared ⊕ Declared) := do
  match ← peek with
  | none => unexpected .member
  | some t =>
    if t.is "\x7d" then
      drop
      return .inr before
    else if t.is ";" then
      drop
      return .inl before
    else if t.is "option" || t.is "reserved" || t.is "extensions" then
      skipStatement
      return .inl before
    else if t.is "message" then
      let id ← message inner scope
      return .inl { before with messages := before.messages ++ [id] }
    else if t.is "enum" then
      let id ← enum scope
      return .inl { before with enums := before.enums ++ [id] }
    else if t.is "extend" then return .inl (← extend inner scope before)
    else if t.is "oneof" then
      let declared ← oneof scope
      return .inl { before with fields := before.fields ++ [.oneof declared] }
    else if t.is "map" && (← peekSecond).any (·.is "<") then
      let declared ← mapField scope
      return .inl { before with fields := before.fields ++ [.map declared] }
    else if t.kind = .word then return .inl (← field inner scope before)
    else unexpected .member

/-- One entry of the body of an extension, or its closing brace. -/
def extensionRound (scope : Scope) (before : Declared) : Descent (Declared ⊕ Declared) := do
  match ← peek with
  | none => unexpected .extensionField
  | some t =>
    if t.is "\x7d" then
      drop
      return .inr before
    else if t.is ";" then
      drop
      return .inl before
    else if t.kind = .word then return .inl (← field inner scope before)
    else unexpected .extensionField

def bodyRound (body : Grammar.Body) (scope : Scope) (before : Declared) : Descent (Declared ⊕ Declared) :=
  match body with
  | .members => memberRound inner scope before
  | .extension => extensionRound inner scope before

end Bodies

/-- A body from behind its opening brace. The bodies inside it begin further on. -/
def wholeBody (body : Grammar.Body) (scope : Scope) : Descent Declared := fun s =>
  let inner (body : Grammar.Body) (scope : Scope) : Descent Declared := fun begin =>
    if _shorter : begin.tokens.length < s.tokens.length then wholeBody body scope begin else .broken .stalled
  loop (bodyRound inner body scope) .nothing s
termination_by s => s.tokens.length

/-- One statement at the top of a file, or its end. -/
def statementRound (before : Declared) : Descent (Declared ⊕ Declared) := do
  match ← peek with
  | none => return .inr before
  | some t =>
    if t.is ";" then
      drop
      return .inl before
    else if t.is "syntax" then
      dialect
      return .inl before
    else if t.is "package" then
      package
      return .inl before
    else if t.is "import" then
      importStatement
      return .inl before
    else if t.is "option" then
      skipStatement
      return .inl before
    else if t.is "message" then
      let id ← message wholeBody .file
      return .inl { before with messages := before.messages ++ [id] }
    else if t.is "enum" then
      let id ← enum .file
      return .inl { before with enums := before.enums ++ [id] }
    else if t.is "service" then
      service
      return .inl before
    else if t.is "extend" then return .inl (← extend wholeBody .file before)
    else unexpected .statement

/-- A whole file: only its messages, its enums and its extensions stand at its top. -/
def schema : Descent File := do
  let declared ← loop statementRound .nothing
  if declared.fields.isEmpty then return (← read).top declared else fail .strayFields

end Descent

end ProtoSchema
