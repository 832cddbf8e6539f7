import ProtoSchema.File.Layout
import ProtoSchema.Name
import ProtoSchema.Numeral

namespace ProtoSchema

/-- Whether a token is one of some keywords or punctuation marks. -/
def Token.isAny (t : Token) (texts : List String) : Bool :=
  texts.any t.is

/-- A file in which nothing has been declared yet. -/
def File.named (name : String) : File :=
  ⟨name, none, none, [], [], [], [], [], [], []⟩

/-- The next free places in the tables of a file. -/
def File.room (file : File) : Room :=
  ⟨file.messageTable.length, file.enumTable.length⟩

/-- A file with further declarations at its top. -/
def File.add (file : File) (content : Content) : File :=
  { file with
    messages := file.messages ++ content.messages
    enums := file.enums ++ content.enums
    extensions := file.extensions ++ content.extensions
    messageTable := file.messageTable ++ content.newMessages
    enumTable := file.enumTable ++ content.newEnums }

namespace Grammar

variable {α : Type}

/-- `IDENT`. -/
def Identifier (t : Token) : Prop :=
  t.kind = .word ∧ isIdentifier t.text.toList

/-- `NAME`. -/
def DottedName (t : Token) : Prop :=
  t.kind = .word ∧ isTypeName t.text.toList

/-- `NAME` without a leading dot. -/
def RelativeName (t : Token) : Prop :=
  t.kind = .word ∧ isRelativeName t.text.toList

/-- `NUM`, which has a minus sign before it if `negative`. -/
def Literal (negative : Bool) (t : Token) (n : Int) : Prop :=
  t.kind = .word ∧ Numeral.read? negative t.text.toList = some n

/-- `NUM`, or where it may be `signed`, `['-'] NUM`. -/
inductive Number (signed : Bool) : List Token → Int → Prop
  | plain {t : Token} {n : Int} (value : Literal false t n) : Number signed [t] n
  | negative {minus t : Token} {n : Int} (allowed : signed) (sign : minus.is "-") (value : Literal true t n) :
      Number signed [minus, t] n

/-- The end of a statement that is skipped, from inside `depth` brackets up to the semicolon outside all
of them. -/
inductive Skipped : Nat → List Token → Prop
  | last {t : Token} (semicolon : t.is ";") : Skipped 0 [t]
  | opens {depth : Nat} {t : Token} {ts : List Token} (left : t.isAny ["\x7b", "[", "(", "<"])
      (rest : Skipped (depth + 1) ts) : Skipped depth (t :: ts)
  | closes {depth : Nat} {t : Token} {ts : List Token} (right : t.isAny ["\x7d", "]", ")", ">"])
      (inner : t.is "\x7d" → depth ≠ 0) (rest : Skipped (depth - 1) ts) : Skipped depth (t :: ts)
  | passes {depth : Nat} {t : Token} {ts : List Token}
      (plain : ¬ t.isAny ["\x7b", "[", "(", "<", "\x7d", "]", ")", ">"])
      (inner : t.is ";" → depth ≠ 0) (rest : Skipped depth ts) : Skipped depth (t :: ts)

/-- The end of a bracketed run of tokens, from inside `depth` brackets of its kind. -/
inductive Inside (left right : String) : Nat → List Token → Prop
  | last {depth : Nat} {t : Token} (outermost : depth ≤ 1) (closing : t.is right) : Inside left right depth [t]
  | closes {depth : Nat} {t : Token} {ts : List Token} (inner : 1 < depth) (closing : t.is right)
      (rest : Inside left right (depth - 1) ts) : Inside left right depth (t :: ts)
  | opens {depth : Nat} {t : Token} {ts : List Token} (opening : t.is left)
      (rest : Inside left right (depth + 1) ts) : Inside left right depth (t :: ts)
  | passes {depth : Nat} {t : Token} {ts : List Token} (plain : ¬ t.isAny [left, right])
      (rest : Inside left right depth ts) : Inside left right depth (t :: ts)

/-- `['[' … ']']`. -/
inductive Options : List Token → Prop
  | none : Options []
  | some {t : Token} {ts : List Token} (left : t.is "[") (rest : Inside "[" "]" 1 ts) : Options (t :: ts)

/-- `IDENT '=' NUM [OPTIONS] stop`, with the token that is the name. -/
inductive Tail (signed : Bool) (stop : String) : List Token → Token → Int → Prop
  | mk {name equals last : Token} {number options : List Token} {n : Int} (identifier : Identifier name)
      (assigns : equals.is "=") (value : Number signed number n) (ignored : Options options)
      (ends : last.is stop) : Tail signed stop (name :: equals :: (number ++ (options ++ [last]))) name n

/-- `{';' | SKIP(keywords) | entry}`. -/
inductive Entries (keywords : List String) (entry : List Token → α → Prop) : List Token → List α → Prop
  | nil : Entries keywords entry [] []
  | semicolon {t : Token} {ts : List Token} {xs : List α} (empty : t.is ";") (rest : Entries keywords entry ts xs) :
      Entries keywords entry (t :: ts) xs
  | skipped {t : Token} {us ts : List Token} {xs : List α} (keyword : t.isAny keywords) (ignored : Skipped 0 us)
      (rest : Entries keywords entry ts xs) : Entries keywords entry (t :: (us ++ ts)) xs
  | cons {t : Token} {us ts : List Token} {x : α} {xs : List α} (other : ¬ t.isAny keywords)
      (first : entry (t :: us) x) (rest : Entries keywords entry ts xs) :
      Entries keywords entry (t :: (us ++ ts)) (x :: xs)

/-- `word IDENT '{' inner '}'`, with the tokens that are the keyword and the name. -/
inductive Titled (word : String) (inner : List Token → α → Prop) : List Token → Token → Token → α → Prop
  | mk {keyword name left right : Token} {ts : List Token} {x : α} (spelled : keyword.is word)
      (identifier : Identifier name) (opens : left.is "\x7b") (body : inner ts x) (closes : right.is "\x7d") :
      Titled word inner (keyword :: name :: left :: (ts ++ [right])) keyword name x

/-- An enum value: `IDENT '=' ['-'] NUM [OPTIONS] ';'`. -/
inductive Value : List Token → EnumValue → Prop
  | mk {ts : List Token} {name : Token} {n : Int} (tail : Tail true ";" ts name n) :
      Value ts ⟨name.text, n, name.comment⟩

/-- A field of a oneof: `NAME IDENT '=' NUM [OPTIONS] ';'`. -/
inductive Choice (scope : Scope) : List Token → SimpleField → Prop
  | mk {type name : Token} {ts : List Token} {n : Int} (typed : DottedName type) (tail : Tail false ";" ts name n) :
      Choice scope (type :: ts) ⟨name.text, type.comment, .unmarked, ⟨type.text, scope⟩, n⟩

/-- `'map' '<' NAME ',' NAME '>' IDENT '=' NUM [OPTIONS] ';'`. -/
inductive MapEntry (scope : Scope) : List Token → MapField → Prop
  | mk {word left key comma value right name : Token} {ts : List Token} {n : Int} (spelled : word.is "map")
      (opens : left.is "<") (keyed : DottedName key) (separates : comma.is ",") (valued : DottedName value)
      (closes : right.is ">") (tail : Tail false ";" ts name n) :
      MapEntry scope (word :: left :: key :: comma :: value :: right :: ts)
        ⟨name.text, word.comment, ⟨key.text, scope⟩, ⟨value.text, scope⟩, n⟩

/-- `['stream'] NAME ')'`. -/
inductive Argument : List Token → OperandDecl → Prop
  | single {type right : Token} (typed : DottedName type) (closes : right.is ")") :
      Argument [type, right] ⟨type.text, false⟩
  | stream {word type right : Token} (spelled : word.is "stream") (typed : DottedName type) (closes : right.is ")") :
      Argument [word, type, right] ⟨type.text, true⟩

/-- `';' | '{' … '}'`. -/
inductive Ending : List Token → Prop
  | semicolon {t : Token} (stop : t.is ";") : Ending [t]
  | braces {t : Token} {ts : List Token} (left : t.is "\x7b") (rest : Inside "\x7b" "\x7d" 1 ts) : Ending (t :: ts)

/-- `'rpc' IDENT '(' ['stream'] NAME ')' 'returns' '(' ['stream'] NAME ')' (';' | '{' … '}')`. -/
inductive Rpc : List Token → Method → Prop
  | mk {keyword name left returns right : Token} {taken given ends : List Token} {input output : OperandDecl}
      (spelled : keyword.is "rpc") (identifier : Identifier name) (opens : left.is "(") (takes : Argument taken input)
      (between : returns.is "returns") (reopens : right.is "(") (gives : Argument given output)
      (ending : Ending ends) :
      Rpc (keyword :: name :: left :: (taken ++ returns :: right :: (given ++ ends)))
        ⟨name.text, keyword.comment, ⟨⟨input.type, .file⟩, input.stream⟩, ⟨⟨output.type, .file⟩, output.stream⟩⟩

def modifiers : List (String × Cardinality) :=
  [("required", .required), ("optional", .optional), ("repeated", .repeated)]

/-- `[modifier] NAME`, with the comment of the first token and the text of the name. -/
inductive Lead : List Token → Option String → Cardinality → String → Prop
  | unmarked {type : Token} (bare : ¬ type.isAny (modifiers.map Prod.fst)) (typed : DottedName type) :
      Lead [type] type.comment .unmarked type.text
  | marked {modifier type : Token} {word : String} {cardinality : Cardinality}
      (known : (word, cardinality) ∈ modifiers) (spelled : modifier.is word) (typed : DottedName type) :
      Lead [modifier, type] modifier.comment cardinality type.text

/-- The bodies that hold fields: that of a message or group, and that of an extension. -/
inductive Body
  | members
  | extension
deriving DecidableEq

/-- The nonterminals that contain one another. -/
inductive Part
  | declaration
  | field
  | entry (body : Body)
  | entries (body : Body)
deriving DecidableEq

/-- What tokens derive in a scope, with the tables filled up to some places: the content that they add
to the scope and the rows that they add to the tables. Where an entry can begin in several ways, its first token
decides. -/
inductive Derives : Part → Scope → Room → List Token → Content → Prop
  /-- `'message' IDENT '{' {member} '}'`. The message has its place before what is declared in it. -/
  | message {scope : Scope} {room : Room} {keyword name left right : Token} {ts : List Token} {content : Content}
      (spelled : keyword.is "message") (identifier : Identifier name) (opens : left.is "\x7b")
      (body : Derives (.entries .members) (.message ⟨room.messages⟩) ⟨room.messages + 1, room.enums⟩ ts content)
      (closes : right.is "\x7d") :
      Derives .declaration scope room (keyword :: name :: left :: (ts ++ [right]))
        ⟨[], [⟨room.messages⟩], [], [],
          ⟨⟨room.messages⟩, name.text, keyword.comment, keyword.line, scope, content.fields, content.messages,
            content.enums, content.extensions⟩ :: content.newMessages,
          content.newEnums⟩
  /-- `'enum' IDENT '{' {';' | SKIP(option | reserved) | value} '}'`. -/
  | enum {scope : Scope} {room : Room} {keyword name : Token} {ts : List Token} {values : List EnumValue}
      (block : Titled "enum" (Entries ["option", "reserved"] Value) ts keyword name values) :
      Derives .declaration scope room ts
        ⟨[], [], [⟨room.enums⟩], [], [],
          [⟨⟨room.enums⟩, name.text, keyword.comment, keyword.line, scope, values⟩]⟩
  /-- `'extend' NAME '{' {';' | field} '}'`. It keeps the fields, and hands messages and enums on. -/
  | extend {scope : Scope} {room : Room} {keyword extendee left right : Token} {ts : List Token} {content : Content}
      (spelled : keyword.is "extend") (typed : DottedName extendee) (opens : left.is "\x7b")
      (body : Derives (.entries .extension) scope room ts content) (closes : right.is "\x7d") :
      Derives .declaration scope room (keyword :: extendee :: left :: (ts ++ [right]))
        ⟨[], content.messages, content.enums, [⟨⟨extendee.text, scope⟩, keyword.comment, content.fields⟩],
          content.newMessages, content.newEnums⟩
  /-- `[modifier] NAME IDENT '=' NUM [OPTIONS] ';'`, where the name is not `group`. -/
  | simple {scope : Scope} {room : Room} {lead ts : List Token} {comment : Option String} {name : Token}
      {cardinality : Cardinality} {type : String} {n : Int} (begins : Lead lead comment cardinality type)
      (other : type ≠ "group") (tail : Tail false ";" ts name n) :
      Derives .field scope room (lead ++ ts)
        ⟨[.simple ⟨name.text, comment, cardinality, ⟨type, scope⟩, n⟩], [], [], [], [], []⟩
  /-- `[modifier] 'group' IDENT '=' NUM [OPTIONS] '{' {member} '}'`. All but its fields goes to the scope
  around it. -/
  | group {scope : Scope} {room : Room} {lead ts us : List Token} {comment : Option String} {name right : Token}
      {cardinality : Cardinality} {n : Int} {content : Content} (begins : Lead lead comment cardinality "group")
      (tail : Tail false "\x7b" ts name n) (body : Derives (.entries .members) scope room us content)
      (closes : right.is "\x7d") :
      Derives .field scope room (lead ++ (ts ++ (us ++ [right])))
        ⟨[.group ⟨comment, cardinality, name.text, n⟩ content.fields], content.messages, content.enums,
          content.extensions, content.newMessages, content.newEnums⟩
  | semicolon {body : Body} {scope : Scope} {room : Room} {t : Token} (empty : t.is ";") :
      Derives (.entry body) scope room [t] Content.empty
  | skipped {scope : Scope} {room : Room} {t : Token} {ts : List Token}
      (keyword : t.isAny ["option", "reserved", "extensions"]) (ignored : Skipped 0 ts) :
      Derives (.entry .members) scope room (t :: ts) Content.empty
  | declared {scope : Scope} {room : Room} {ts : List Token} {content : Content}
      (inner : Derives .declaration scope room ts content) : Derives (.entry .members) scope room ts content
  /-- `'oneof' IDENT '{' {';' | SKIP(option) | choice} '}'`. -/
  | oneof {scope : Scope} {room : Room} {keyword name : Token} {ts : List Token} {fields : List SimpleField}
      (block : Titled "oneof" (Entries ["option"] (Choice scope)) ts keyword name fields) :
      Derives (.entry .members) scope room ts ⟨[.oneof ⟨name.text, keyword.comment, fields⟩], [], [], [], [], []⟩
  | map {scope : Scope} {room : Room} {ts : List Token} {field : MapField} (entry : MapEntry scope ts field) :
      Derives (.entry .members) scope room ts ⟨[.map field], [], [], [], [], []⟩
  /-- A field, if its first token begins nothing else. It may be `map`, as no angle bracket can follow then. -/
  | member {scope : Scope} {room : Room} {t : Token} {ts : List Token} {content : Content}
      (other : ¬ t.isAny ["option", "reserved", "extensions", "message", "enum", "extend", "oneof"])
      (inner : Derives .field scope room (t :: ts) content) :
      Derives (.entry .members) scope room (t :: ts) content
  | extended {scope : Scope} {room : Room} {ts : List Token} {content : Content}
      (inner : Derives .field scope room ts content) : Derives (.entry .extension) scope room ts content
  | nil {body : Body} {scope : Scope} {room : Room} : Derives (.entries body) scope room [] Content.empty
  /-- Entries come one after another, each with the places that the ones before it have left free. -/
  | cons {body : Body} {scope : Scope} {room : Room} {us ts : List Token} {first rest : Content}
      (entry : Derives (.entry body) scope room us first)
      (more : Derives (.entries body) scope (first.roomAfter room) ts rest) :
      Derives (.entries body) scope room (us ++ ts) (first.append rest)

/-- `['weak' | 'public']`. -/
inductive Kind : List Token → ImportKind → Prop
  | plain : Kind [] .plain
  | weak {t : Token} (spelled : t.is "weak") : Kind [t] .weak
  | reexported {t : Token} (spelled : t.is "public") : Kind [t] .reexported

/-- A statement at the top of `file`, and the file that it leaves. -/
inductive Toplevel (file : File) : List Token → File → Prop
  | semicolon {t : Token} (empty : t.is ";") : Toplevel file [t] file
  | skipped {t : Token} {ts : List Token} (keyword : t.is "option") (ignored : Skipped 0 ts) :
      Toplevel file (t :: ts) file
  /-- `'syntax' '=' STR ';'`. -/
  | dialect {keyword equals value last : Token} (spelled : keyword.is "syntax") (assigns : equals.is "=")
      (quoted : value.kind = .string) (ends : last.is ";") :
      Toplevel file [keyword, equals, value, last] { file with dialect := some value.text }
  /-- `'package' NAME ';'`. -/
  | package {keyword name last : Token} (spelled : keyword.is "package") (named : RelativeName name)
      (ends : last.is ";") : Toplevel file [keyword, name, last] { file with package := some name.text }
  /-- `'import' ['weak' | 'public'] STR ';'`. -/
  | imports {keyword path last : Token} {ts : List Token} {kind : ImportKind} (spelled : keyword.is "import")
      (marked : Kind ts kind) (quoted : path.kind = .string) (ends : last.is ";") :
      Toplevel file (keyword :: (ts ++ [path, last]))
        { file with
          imports := file.imports ++ [⟨path.text, kind, keyword.line, ⟨keyword.span.start, path.span.stop⟩⟩] }
  /-- `'service' IDENT '{' {';' | SKIP(option) | rpc} '}'`. -/
  | service {keyword name : Token} {ts : List Token} {methods : List Method}
      (block : Titled "service" (Entries ["option"] Rpc) ts keyword name methods) :
      Toplevel file ts
        { file with services := file.services ++ [⟨name.text, keyword.comment, keyword.line, methods⟩] }
  | declared {ts : List Token} {content : Content} (inner : Derives .declaration .file file.room ts content) :
      Toplevel file ts (file.add content)

/-- What statements after one another make of a file. -/
inductive Statements : File → List Token → File → Prop
  | nil {file : File} : Statements file [] file
  | cons {file next last : File} {us ts : List Token} (first : Toplevel file us next)
      (rest : Statements next ts last) : Statements file (us ++ ts) last

/-- Whether tokens derive `file` in the grammar of schema files. -/
def Schema (name : String) (tokens : List Token) (file : File) : Prop :=
  Statements (File.named name) tokens file

end Grammar

end ProtoSchema
