import ProtoSchema.Proofs.Grammar.Outline

namespace ProtoSchema

open Grammar

/-- Lists of tokens with the files that they lead to. -/
abbrev Remainder := List Token → File → Prop

namespace Remainder

variable {α : Type}

/-- A token of a class, and what comes after it. -/
def one (p : Token → Prop) (next : Token → Remainder) : Remainder :=
  fun ts file => ∃ t rest, ts = t :: rest ∧ p t ∧ next t rest file

/-- Tokens of some form, and what comes after them. -/
def past (p : List Token → Prop) (next : Remainder) : Remainder :=
  fun ts file => ∃ us rest, ts = us ++ rest ∧ p us ∧ next rest file

/-- Tokens that have a value, and what comes after them. -/
def phrase (p : List Token → α → Prop) (next : α → Remainder) : Remainder :=
  fun ts file => ∃ us x rest, ts = us ++ rest ∧ p us x ∧ next x rest file

end Remainder

/-- The remainder of a file from the beginning of an entry on, in the bodies that are open. -/
inductive Outline.Rest : Outline → List Token → File → Prop
  | done {file : File} : Rest ⟨file, []⟩ [] file
  | statement {file next last : File} {us ts : List Token} (first : Toplevel file us next)
      (rest : Rest ⟨next, []⟩ ts last) : Rest ⟨file, []⟩ (us ++ ts) last
  | entry {file last : File} {frame : Frame} {outer : List Frame} {us ts : List Token} {content : Content}
      (first : Derives (.entry frame.head.body) frame.scope (frame.content.roomAfter frame.room) us content)
      (rest : Rest (Outline.add ⟨file, frame :: outer⟩ content) ts last) :
      Rest ⟨file, frame :: outer⟩ (us ++ ts) last
  | close {file last : File} {frame : Frame} {outer : List Frame} {t : Token} {ts : List Token}
      (closes : t.is "\x7d")
      (rest : Rest (Outline.add ⟨file, outer⟩
        (frame.head.wrap (Outline.scope ⟨file, outer⟩) (Outline.room ⟨file, outer⟩) frame.content)) ts last) :
      Rest ⟨file, frame :: outer⟩ (t :: ts) last

open Remainder
open Outline (Rest)

def Block.rest (o : Outline) : Block → Remainder
  | .site => Rest o
  | .oneof decl =>
    phrase (Entries ["option"] (Choice o.scope)) fun fields => one (·.is "\x7d") fun _ =>
      Rest (o.add (.ofField (.oneof ⟨decl.name, decl.comment, decl.fields.map (·.layout o.scope) ++ fields⟩)))
  | .enum decl =>
    phrase (Entries ["option", "reserved"] Value) fun values => one (·.is "\x7d") fun _ =>
      Rest (o.add (.ofEnum ⟨decl.mark, decl.name, decl.values ++ values⟩ ⟨o.room.enums⟩ o.scope))
  | .service decl =>
    phrase (Entries ["option"] Rpc) fun methods => one (·.is "\x7d") fun _ =>
      let service : Service :=
        ⟨decl.name, decl.mark.comment, decl.mark.line, decl.methods.map MethodDecl.layout ++ methods⟩
      Rest { o with file := { o.file with services := o.file.services ++ [service] } }

namespace Reader

variable (name : String) (site : Site)

/-- The remainder at a state that is at the beginning of an entry. -/
def settled (r : Reader) : Remainder :=
  match r.stage with
  | .entry block => block.rest (r.site.outline name)
  | _ => fun _ _ => False

def ends (statement : Statement) : Remainder :=
  one (·.is ";") fun _ => settled name ⟨site.addStatement statement, .entry .site⟩

def opens (titled : Titled) (title : String) : Remainder :=
  one (·.is "\x7b") fun _ => (openTitled ⟨site, .entry .site⟩ titled title).settled name

def extension (head : ExtendHead) : Remainder :=
  one (·.is "\x7b") fun _ => settled name ⟨site.push (.extend head), .entry .site⟩

/-- The remainder after the options of a declaration with a number. -/
def finished (numbered : Numbered) (title : String) (value : Int) : Remainder :=
  one (·.is (terminator numbered)) fun _ => (complete ⟨site, .entry .site⟩ numbered title value).settled name

def valued (numbered : Numbered) (title : String) : Remainder :=
  phrase (Number (allowsNegative numbered)) fun value => past Options (finished name site numbered title value)

def named (numbered : Numbered) : Remainder :=
  one Identifier fun title => one (·.is "=") fun _ => valued name site numbered title.text

/-- The declaration that begins with a type: `group` is a keyword there. -/
def typed (comment : Option String) (cardinality : Cardinality) (type : String) : Numbered :=
  if type = "group" then .group comment cardinality else .field comment cardinality type

def keyed (comment : Option String) (key : String) : Remainder :=
  one (·.is ",") fun _ => one DottedName fun value => one (·.is ">") fun _ =>
    named name site (.map comment key value.text)

def signed (service : ServiceDecl) (decl : MethodDecl) : Remainder :=
  past Ending ((Block.service (addMethod service decl)).rest (site.outline name))

def sided (head : MethodHead) (operand : OperandDecl) : Side → Remainder
  | .input =>
    one (·.is "returns") fun _ => one (·.is "(") fun _ => phrase Argument fun output =>
      signed name site head.service ⟨head.comment, head.name, operand, output⟩
  | .output input => signed name site head.service ⟨head.comment, head.name, input, operand⟩

def stageRest : Stage → Remainder
  | .entry block => block.rest (site.outline name)
  | .skipped depth block => past (Skipped depth) (block.rest (site.outline name))
  | .dialectEquals =>
    one (·.is "=") fun _ => one (·.kind = .string) fun value => ends name site (.dialect value.text)
  | .dialectValue => one (·.kind = .string) fun value => ends name site (.dialect value.text)
  | .packageName => one RelativeName fun package => ends name site (.package package.text)
  | .importKind line start =>
    phrase Kind fun kind => one (·.kind = .string) fun path =>
      ends name site (.imports ⟨path.text, kind, line, ⟨start, path.span.stop⟩⟩)
  | .importPath line start kind =>
    one (·.kind = .string) fun path => ends name site (.imports ⟨path.text, kind, line, ⟨start, path.span.stop⟩⟩)
  | .statementEnd statement => ends name site statement
  | .title titled => one Identifier fun title => opens name site titled title.text
  | .titleOpen titled title => opens name site titled title
  | .extendee comment => one DottedName fun type => extension name site ⟨comment, type.text⟩
  | .extendOpen head => extension name site head
  | .fieldType comment cardinality => one DottedName fun type => named name site (typed comment cardinality type.text)
  | .mapWord comment => fun ts file =>
    one (·.is "<") (fun _ => one DottedName fun key => keyed name site comment key.text) ts file ∨
      named name site (.field comment .unmarked "map") ts file
  | .mapKey comment => one DottedName fun key => keyed name site comment key.text
  | .mapComma comment key => keyed name site comment key
  | .mapValue comment key =>
    one DottedName fun value => one (·.is ">") fun _ => named name site (.map comment key value.text)
  | .mapClose comment key value => one (·.is ">") fun _ => named name site (.map comment key value)
  | .name numbered => named name site numbered
  | .equals numbered title => one (·.is "=") fun _ => valued name site numbered title
  | .number numbered title => valued name site numbered title
  | .negative numbered title => fun ts file =>
    ∃ value, one (Literal true · value) (fun _ => past Options (finished name site numbered title value)) ts file
  | .numbered numbered title value => past Options (finished name site numbered title value)
  | .options depth numbered title value => past (Inside "[" "]" depth) (finished name site numbered title value)
  | .finish numbered title value => finished name site numbered title value
  | .method service comment =>
    one Identifier fun title => one (·.is "(") fun _ => phrase Argument fun input =>
      sided name site ⟨service, comment, title.text⟩ input .input
  | .operandOpen head side => one (·.is "(") fun _ => phrase Argument fun operand => sided name site head operand side
  | .operand head side => phrase Argument fun operand => sided name site head operand side
  | .streamWord head side => fun ts file =>
    one (·.is ")") (fun _ => sided name site head ⟨"stream", false⟩ side) ts file ∨
      one DottedName (fun type => one (·.is ")") fun _ => sided name site head ⟨type.text, true⟩ side) ts file
  | .operandClose head side operand => one (·.is ")") fun _ => sided name site head operand side
  | .returns head input => sided name site head input .input
  | .methodEnd service decl => signed name site service decl
  | .methodBody depth service =>
    past (Inside "\x7b" "\x7d" depth) ((Block.service service).rest (site.outline name))

/-- The remainder of a file at a state of the reader: the derivative of the grammar by what has been read. -/
def rest (r : Reader) : Remainder :=
  stageRest name r.site r.stage

end Reader

end ProtoSchema
