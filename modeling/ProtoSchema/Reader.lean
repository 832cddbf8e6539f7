import ProtoSchema.Decl
import ProtoSchema.Fault
import ProtoSchema.Name
import ProtoSchema.Numeral

namespace ProtoSchema

/-- The head of a body that can hold further bodies. -/
inductive BodyHead
  | message (head : MessageHead)
  | group (head : GroupHead)
  | extend (head : ExtendHead)
deriving DecidableEq, Repr

/-- A body that has not been closed yet. -/
structure OpenBody where
  head : BodyHead
  members : List Member
deriving Repr

def OpenBody.close (body : OpenBody) : Member :=
  match body.head with
  | .message head => .message head body.members
  | .group head => .group head body.members
  | .extend head => .extend head body.members

/-- What has been read of a file: its statements and the open bodies, the innermost one first. -/
structure Site where
  statements : List Statement
  bodies : List OpenBody
deriving Repr

/-- Puts a member into the innermost open body, or into the file. -/
def Site.add (site : Site) (member : Member) : Site :=
  match site.bodies with
  | [] => { site with statements := site.statements ++ [.member member] }
  | body :: outer => { site with bodies := { body with members := body.members ++ [member] } :: outer }

def Site.addStatement (site : Site) (statement : Statement) : Site :=
  { site with statements := site.statements ++ [statement] }

def Site.push (site : Site) (head : BodyHead) : Site :=
  { site with bodies := ⟨head, []⟩ :: site.bodies }

/-- The block whose next entry is read: the innermost body of the site, or a block without bodies. -/
inductive Block
  | site
  | oneof (decl : OneofDecl)
  | enum (decl : EnumDecl)
  | service (decl : ServiceDecl)
deriving DecidableEq, Repr

/-- A declaration whose keyword has been read and whose name comes next. -/
inductive Titled
  | message (mark : Mark)
  | enum (mark : Mark)
  | oneof (comment : Option String)
  | service (mark : Mark)
deriving DecidableEq, Repr

/-- A declaration with a number, as far as it has been read before its name. -/
inductive Numbered
  | field (comment : Option String) (cardinality : Cardinality) (type : String)
  | group (comment : Option String) (cardinality : Cardinality)
  | map (comment : Option String) (key value : String)
  | choice (oneof : OneofDecl) (comment : Option String) (type : String)
  | value (enum : EnumDecl) (comment : Option String)
deriving DecidableEq, Repr

/-- A method whose signature is being read. -/
structure MethodHead where
  service : ServiceDecl
  comment : Option String
  name : String
deriving DecidableEq, Repr

/-- The side of a signature that is being read: the output comes after the input. -/
inductive Side
  | input
  | output (input : OperandDecl)
deriving DecidableEq, Repr

/-- How far the current entry has been read. Each stage says what it expects, so the first token that no file could go
on with is the one that is reported. -/
inductive Stage
  /-- At the beginning of an entry. -/
  | entry (block : Block)
  /-- In a statement that is skipped up to its semicolon, inside `depth` brackets. -/
  | skipped (depth : Nat) (block : Block)
  /-- After `syntax`. -/
  | dialectEquals
  | dialectValue
  /-- After `package`. -/
  | packageName
  /-- After `import`: the line and the offset of that keyword. -/
  | importKind (line start : Nat)
  | importPath (line start : Nat) (kind : ImportKind)
  /-- Before the semicolon of a statement. -/
  | statementEnd (statement : Statement)
  /-- After the keyword of a block. -/
  | title (titled : Titled)
  | titleOpen (titled : Titled) (name : String)
  /-- After `extend`. -/
  | extendee (comment : Option String)
  | extendOpen (head : ExtendHead)
  /-- After the cardinality of a field. -/
  | fieldType (comment : Option String) (cardinality : Cardinality)
  /-- After the word `map`, which is a type name unless an angle bracket follows. -/
  | mapWord (comment : Option String)
  | mapKey (comment : Option String)
  | mapComma (comment : Option String) (key : String)
  | mapValue (comment : Option String) (key : String)
  | mapClose (comment : Option String) (key value : String)
  /-- Before the name of a declaration with a number. -/
  | name (numbered : Numbered)
  | equals (numbered : Numbered) (name : String)
  | number (numbered : Numbered) (name : String)
  /-- After a minus sign. -/
  | negative (numbered : Numbered) (name : String)
  /-- After the number: bracketed options may follow. -/
  | numbered (numbered : Numbered) (name : String) (value : Int)
  | options (depth : Nat) (numbered : Numbered) (name : String) (value : Int)
  | finish (numbered : Numbered) (name : String) (value : Int)
  /-- After `rpc`. -/
  | method (service : ServiceDecl) (comment : Option String)
  | operandOpen (head : MethodHead) (side : Side)
  | operand (head : MethodHead) (side : Side)
  /-- After the word `stream`, which is a type name if the bracket closes behind it. -/
  | streamWord (head : MethodHead) (side : Side)
  | operandClose (head : MethodHead) (side : Side) (operand : OperandDecl)
  | returns (head : MethodHead) (input : OperandDecl)
  | methodEnd (service : ServiceDecl) (decl : MethodDecl)
  /-- In the braces of a method, which are skipped. -/
  | methodBody (depth : Nat) (service : ServiceDecl)
deriving Repr

/-- A state of the reader. -/
structure Reader where
  site : Site
  stage : Stage
deriving Repr

namespace Reader

def start : Reader :=
  ⟨⟨[], []⟩, .entry .site⟩

/-- What comes after the number of a declaration and its options: a group opens a body. -/
def terminator : Numbered → String
  | .group _ _ => "\x7b"
  | _ => ";"

/-- What can come next, as far as a single answer goes. -/
def expected (r : Reader) : Expectation :=
  match r.stage with
  | .entry .site =>
    match r.site.bodies with
    | [] => .statement
    | ⟨.extend _, _⟩ :: _ => .extensionField
    | _ => .member
  | .entry (.oneof _) => .oneofField
  | .entry (.enum _) => .enumValue
  | .entry (.service _) => .serviceEntry
  | .skipped _ _ => .literal ";"
  | .dialectEquals => .literal "="
  | .dialectValue => .stringLiteral
  | .packageName => .typeName
  | .importKind _ _ => .importPath
  | .importPath _ _ _ => .stringLiteral
  | .statementEnd _ => .literal ";"
  | .title _ => .identifier
  | .titleOpen _ _ => .literal "\x7b"
  | .extendee _ => .typeName
  | .extendOpen _ => .literal "\x7b"
  | .fieldType _ _ => .typeName
  | .mapWord _ => .identifier
  | .mapKey _ => .typeName
  | .mapComma _ _ => .literal ","
  | .mapValue _ _ => .typeName
  | .mapClose _ _ _ => .literal ">"
  | .name _ => .identifier
  | .equals _ _ => .literal "="
  | .number _ _ => .integer
  | .negative _ _ => .integer
  | .numbered numbered _ _ => .literal (terminator numbered)
  | .options _ _ _ _ => .literal "]"
  | .finish numbered _ _ => .literal (terminator numbered)
  | .method _ _ => .identifier
  | .operandOpen _ _ => .literal "("
  | .operand _ _ => .typeName
  | .streamWord _ _ => .typeName
  | .operandClose _ _ _ => .literal ")"
  | .returns _ _ => .literal "returns"
  | .methodEnd _ _ => .methodEnd
  | .methodBody _ _ => .literal "\x7d"

/-- Refuses a token for not being what is expected. -/
def refuse (r : Reader) (t : Token) : Except Fault Reader :=
  .error (.unexpected r.expected t)

/-- Goes on with the same site at another stage. -/
def go (r : Reader) (stage : Stage) : Except Fault Reader :=
  .ok { r with stage }

/-- Accepts one keyword or punctuation only. -/
def exactly (r : Reader) (text : String) (t : Token) (stage : Stage) : Except Fault Reader :=
  if t.is text then r.go stage else r.refuse t

/-- Accepts an identifier. -/
def identifier (r : Reader) (t : Token) (stage : String → Stage) : Except Fault Reader :=
  if t.kind = .word ∧ isIdentifier t.text.toList then r.go (stage t.text)
  else .error (.unexpected .identifier t)

/-- Accepts a name of the class `valid`. -/
def dottedName (r : Reader) (valid : List Char → Bool) (t : Token) (stage : String → Stage) :
    Except Fault Reader :=
  if t.kind = .word then
    if valid t.text.toList then r.go (stage t.text) else .error (.invalidTypeName t)
  else .error (.unexpected .typeName t)

def typeName (r : Reader) (t : Token) (stage : String → Stage) : Except Fault Reader :=
  r.dottedName isTypeName t stage

/-- Accepts an integer literal in range. -/
def integer (r : Reader) (negative : Bool) (t : Token) (stage : Int → Stage) : Except Fault Reader :=
  if t.kind = .word then
    match Numeral.read? negative t.text.toList with
    | some n => r.go (stage n)
    | none => .error (.invalidNumber t)
  else .error (.unexpected .integer t)

/-- The stage after the type of a field, where `group` is a keyword. -/
def afterType (comment : Option String) (cardinality : Cardinality) (type : String) : Stage :=
  if type = "group" then .name (.group comment cardinality) else .name (.field comment cardinality type)

def cardinality? (t : Token) : Option Cardinality :=
  if t.is "required" then some .required
  else if t.is "optional" then some .optional
  else if t.is "repeated" then some .repeated
  else none

/-- Reads the first token of a field of a message, group or extension. -/
def beginField (r : Reader) (t : Token) : Except Fault Reader :=
  match cardinality? t with
  | some cardinality => r.go (.fieldType t.comment cardinality)
  | none => r.typeName t (afterType t.comment .unmarked)

/-- Reads the first token of a statement of the file. -/
def beginStatement (r : Reader) (t : Token) : Except Fault Reader :=
  if t.is ";" then .ok r
  else if t.is "syntax" then r.go .dialectEquals
  else if t.is "package" then r.go .packageName
  else if t.is "import" then r.go (.importKind t.line t.span.start)
  else if t.is "option" then r.go (.skipped 0 .site)
  else if t.is "message" then r.go (.title (.message t.mark))
  else if t.is "enum" then r.go (.title (.enum t.mark))
  else if t.is "service" then r.go (.title (.service t.mark))
  else if t.is "extend" then r.go (.extendee t.comment)
  else r.refuse t

/-- Reads the first token of an entry in the body of a message or group. -/
def beginMember (r : Reader) (t : Token) : Except Fault Reader :=
  if t.is ";" then .ok r
  else if t.is "option" || t.is "reserved" || t.is "extensions" then r.go (.skipped 0 .site)
  else if t.is "message" then r.go (.title (.message t.mark))
  else if t.is "enum" then r.go (.title (.enum t.mark))
  else if t.is "extend" then r.go (.extendee t.comment)
  else if t.is "oneof" then r.go (.title (.oneof t.comment))
  else if t.is "map" then r.go (.mapWord t.comment)
  else if t.kind = .word then r.beginField t
  else r.refuse t

/-- Reads the first token of an entry in an extension. -/
def beginExtensionField (r : Reader) (t : Token) : Except Fault Reader :=
  if t.is ";" then .ok r
  else if t.kind = .word then r.beginField t
  else r.refuse t

/-- Reads the first token of an entry in the innermost open body, or of a statement of the file. -/
def beginSite (r : Reader) (t : Token) : Except Fault Reader :=
  match r.site.bodies with
  | [] => r.beginStatement t
  | body :: outer =>
    if t.is "\x7d" then .ok ⟨(Site.mk r.site.statements outer).add body.close, .entry .site⟩
    else match body.head with
      | .extend _ => r.beginExtensionField t
      | _ => r.beginMember t

def beginChoice (r : Reader) (decl : OneofDecl) (t : Token) : Except Fault Reader :=
  if t.is "\x7d" then .ok ⟨r.site.add (.oneof decl), .entry .site⟩
  else if t.is ";" then .ok r
  else if t.is "option" then r.go (.skipped 0 (.oneof decl))
  else if t.kind = .word then r.typeName t fun type => .name (.choice decl t.comment type)
  else r.refuse t

def beginValue (r : Reader) (decl : EnumDecl) (t : Token) : Except Fault Reader :=
  if t.is "\x7d" then .ok ⟨r.site.add (.enum decl), .entry .site⟩
  else if t.is ";" then .ok r
  else if t.is "option" || t.is "reserved" then r.go (.skipped 0 (.enum decl))
  else if t.kind = .word then r.identifier t (.equals (.value decl t.comment))
  else r.refuse t

def beginMethod (r : Reader) (decl : ServiceDecl) (t : Token) : Except Fault Reader :=
  if t.is "\x7d" then .ok ⟨r.site.addStatement (.service decl), .entry .site⟩
  else if t.is ";" then .ok r
  else if t.is "option" then r.go (.skipped 0 (.service decl))
  else if t.is "rpc" then r.go (.method decl t.comment)
  else r.refuse t

def beginEntry (r : Reader) (block : Block) (t : Token) : Except Fault Reader :=
  match block with
  | .site => r.beginSite t
  | .oneof decl => r.beginChoice decl t
  | .enum decl => r.beginValue decl t
  | .service decl => r.beginMethod decl t

/-- Skips one token of a statement: only a semicolon outside all brackets ends it. -/
def skip (r : Reader) (depth : Nat) (block : Block) (t : Token) : Except Fault Reader :=
  if t.is ";" && depth == 0 then r.go (.entry block)
  else if t.is "\x7b" || t.is "[" || t.is "(" || t.is "<" then r.go (.skipped (depth + 1) block)
  else if t.is "\x7d" && depth == 0 then r.refuse t
  else if t.is "\x7d" || t.is "]" || t.is ")" || t.is ">" then r.go (.skipped (depth - 1) block)
  else r.go (.skipped depth block)

/-- Opens the block whose name has been read. -/
def openTitled (r : Reader) (titled : Titled) (name : String) : Reader :=
  match titled with
  | .message mark => ⟨r.site.push (.message ⟨mark, name⟩), .entry .site⟩
  | .enum mark => ⟨r.site, .entry (.enum ⟨mark, name, []⟩)⟩
  | .oneof comment => ⟨r.site, .entry (.oneof ⟨comment, name, []⟩)⟩
  | .service mark => ⟨r.site, .entry (.service ⟨mark, name, []⟩)⟩

/-- Completes a declaration with a number. -/
def complete (r : Reader) (numbered : Numbered) (name : String) (number : Int) : Reader :=
  match numbered with
  | .field comment cardinality type => ⟨r.site.add (.field ⟨comment, cardinality, type, name, number⟩), .entry .site⟩
  | .group comment cardinality => ⟨r.site.push (.group ⟨comment, cardinality, name, number⟩), .entry .site⟩
  | .map comment key value => ⟨r.site.add (.map ⟨comment, key, value, name, number⟩), .entry .site⟩
  | .choice oneof comment type =>
    ⟨r.site, .entry (.oneof { oneof with fields := oneof.fields ++ [⟨comment, .unmarked, type, name, number⟩] })⟩
  | .value enum comment => ⟨r.site, .entry (.enum { enum with values := enum.values ++ [⟨name, number, comment⟩] })⟩

/-- Whether a minus sign may stand before the number. -/
def allowsNegative : Numbered → Bool
  | .value _ _ => true
  | _ => false

/-- Goes on after one side of a signature has been closed. -/
def closeOperand (head : MethodHead) (side : Side) (operand : OperandDecl) : Stage :=
  match side with
  | .input => .returns head operand
  | .output input => .methodEnd head.service ⟨head.comment, head.name, input, operand⟩

def addMethod (service : ServiceDecl) (decl : MethodDecl) : ServiceDecl :=
  { service with methods := service.methods ++ [decl] }

/-- Reads one token. -/
def step (r : Reader) (t : Token) : Except Fault Reader :=
  match r.stage with
  | .entry block => r.beginEntry block t
  | .skipped depth block => r.skip depth block t
  | .dialectEquals => r.exactly "=" t .dialectValue
  | .dialectValue => if t.kind = .string then r.go (.statementEnd (.dialect t.text)) else r.refuse t
  | .packageName => r.dottedName isRelativeName t fun name => .statementEnd (.package name)
  | .importKind line start =>
    if t.is "weak" then r.go (.importPath line start .weak)
    else if t.is "public" then r.go (.importPath line start .reexported)
    else if t.kind = .string then
      r.go (.statementEnd (.imports ⟨t.text, .plain, line, ⟨start, t.span.stop⟩⟩))
    else r.refuse t
  | .importPath line start kind =>
    if t.kind = .string then r.go (.statementEnd (.imports ⟨t.text, kind, line, ⟨start, t.span.stop⟩⟩))
    else r.refuse t
  | .statementEnd statement =>
    if t.is ";" then .ok ⟨r.site.addStatement statement, .entry .site⟩ else r.refuse t
  | .title titled => r.identifier t (.titleOpen titled)
  | .titleOpen titled name => if t.is "\x7b" then .ok (r.openTitled titled name) else r.refuse t
  | .extendee comment => r.typeName t fun type => .extendOpen ⟨comment, type⟩
  | .extendOpen head => if t.is "\x7b" then .ok ⟨r.site.push (.extend head), .entry .site⟩ else r.refuse t
  | .fieldType comment cardinality => r.typeName t (afterType comment cardinality)
  | .mapWord comment =>
    if t.is "<" then r.go (.mapKey comment) else r.identifier t (.equals (.field comment .unmarked "map"))
  | .mapKey comment => r.typeName t (.mapComma comment)
  | .mapComma comment key => r.exactly "," t (.mapValue comment key)
  | .mapValue comment key => r.typeName t (.mapClose comment key)
  | .mapClose comment key value => r.exactly ">" t (.name (.map comment key value))
  | .name numbered => r.identifier t (.equals numbered)
  | .equals numbered name => r.exactly "=" t (.number numbered name)
  | .number numbered name =>
    if allowsNegative numbered && t.is "-" then r.go (.negative numbered name)
    else r.integer false t (.numbered numbered name)
  | .negative numbered name => r.integer true t (.numbered numbered name)
  | .numbered numbered name value =>
    if t.is "[" then r.go (.options 1 numbered name value)
    else if t.is (terminator numbered) then .ok (r.complete numbered name value)
    else r.refuse t
  | .options depth numbered name value =>
    if t.is "[" then r.go (.options (depth + 1) numbered name value)
    else if t.is "]" then
      r.go (if depth ≤ 1 then .finish numbered name value else .options (depth - 1) numbered name value)
    else .ok r
  | .finish numbered name value =>
    if t.is (terminator numbered) then .ok (r.complete numbered name value) else r.refuse t
  | .method service comment => r.identifier t fun name => .operandOpen ⟨service, comment, name⟩ .input
  | .operandOpen head side => r.exactly "(" t (.operand head side)
  | .operand head side =>
    if t.is "stream" then r.go (.streamWord head side)
    else r.typeName t fun type => .operandClose head side ⟨type, false⟩
  | .streamWord head side =>
    if t.is ")" then r.go (closeOperand head side ⟨"stream", false⟩)
    else r.typeName t fun type => .operandClose head side ⟨type, true⟩
  | .operandClose head side operand => r.exactly ")" t (closeOperand head side operand)
  | .returns head input => r.exactly "returns" t (.operandOpen head (.output input))
  | .methodEnd service decl =>
    if t.is ";" then r.go (.entry (.service (addMethod service decl)))
    else if t.is "\x7b" then r.go (.methodBody 1 (addMethod service decl))
    else r.refuse t
  | .methodBody depth service =>
    if t.is "\x7b" then r.go (.methodBody (depth + 1) service)
    else if t.is "\x7d" then
      r.go (if depth ≤ 1 then .entry (.service service) else .methodBody (depth - 1) service)
    else .ok r

/-- The statements of a file whose tokens have all been read. -/
def finish (r : Reader) : Except Fault (List Statement) :=
  match r.stage, r.site.bodies with
  | .entry .site, [] => .ok r.site.statements
  | _, _ => .error (.unexpectedEnd r.expected)

/-- Reads tokens one after another, up to the first that is refused. -/
def run (r : Reader) : List Token → Except Fault Reader
  | [] => .ok r
  | t :: rest =>
    match r.step t with
    | .ok next => next.run rest
    | .error fault => .error fault

theorem run_append (r : Reader) (before after : List Token) :
    r.run (before ++ after) = (r.run before).bind fun next => next.run after := by
  induction before generalizing r with
  | nil => rfl
  | cons t before ih =>
    simp only [List.cons_append, run]
    split
    · exact ih _
    · rfl

end Reader

/-- The statements that a list of tokens spells. -/
def readStatements (tokens : List Token) : Except Fault (List Statement) :=
  (Reader.start.run tokens).bind Reader.finish

end ProtoSchema
