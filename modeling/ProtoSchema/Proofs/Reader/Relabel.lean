import ProtoSchema.Proofs.Token.Relabel
import ProtoSchema.Reader

namespace ProtoSchema

namespace Relabel

def mark (f : Relabel) (mark : Mark) : Mark :=
  ⟨f.comment mark.comment, f.line mark.line⟩

def fieldDecl (f : Relabel) (field : FieldDecl) : FieldDecl :=
  { field with comment := f.comment field.comment }

def oneofDecl (f : Relabel) (oneof : OneofDecl) : OneofDecl :=
  { oneof with comment := f.comment oneof.comment, fields := oneof.fields.map f.fieldDecl }

def mapDecl (f : Relabel) (map : MapDecl) : MapDecl :=
  { map with comment := f.comment map.comment }

def enumValue (f : Relabel) (value : EnumValue) : EnumValue :=
  { value with comment := f.comment value.comment }

def enumDecl (f : Relabel) (enum : EnumDecl) : EnumDecl :=
  { enum with mark := f.mark enum.mark, values := enum.values.map f.enumValue }

def methodDecl (f : Relabel) (method : MethodDecl) : MethodDecl :=
  { method with comment := f.comment method.comment }

def serviceDecl (f : Relabel) (service : ServiceDecl) : ServiceDecl :=
  { service with mark := f.mark service.mark, methods := service.methods.map f.methodDecl }

def importDecl (f : Relabel) (item : Import) : Import :=
  { item with line := f.line item.line, span := f.span item.span }

def messageHead (f : Relabel) (head : MessageHead) : MessageHead :=
  { head with mark := f.mark head.mark }

def groupHead (f : Relabel) (head : GroupHead) : GroupHead :=
  { head with comment := f.comment head.comment }

def extendHead (f : Relabel) (head : ExtendHead) : ExtendHead :=
  { head with comment := f.comment head.comment }

mutual

def member (f : Relabel) : Member → Member
  | .field field => .field (f.fieldDecl field)
  | .oneof oneof => .oneof (f.oneofDecl oneof)
  | .map map => .map (f.mapDecl map)
  | .group head body => .group (f.groupHead head) (f.members body)
  | .message head body => .message (f.messageHead head) (f.members body)
  | .enum decl => .enum (f.enumDecl decl)
  | .extend head body => .extend (f.extendHead head) (f.members body)

def members (f : Relabel) : List Member → List Member
  | [] => []
  | first :: rest => f.member first :: f.members rest

end

theorem members_eq_map (f : Relabel) (body : List Member) : f.members body = body.map f.member := by
  induction body with
  | nil => rfl
  | cons first body ih => rw [members, ih, List.map_cons]

def statement (f : Relabel) : Statement → Statement
  | .dialect value => .dialect value
  | .package name => .package name
  | .imports item => .imports (f.importDecl item)
  | .service decl => .service (f.serviceDecl decl)
  | .member declared => .member (f.member declared)

def bodyHead (f : Relabel) : BodyHead → BodyHead
  | .message head => .message (f.messageHead head)
  | .group head => .group (f.groupHead head)
  | .extend head => .extend (f.extendHead head)

def openBody (f : Relabel) (body : OpenBody) : OpenBody :=
  ⟨f.bodyHead body.head, body.members.map f.member⟩

def block (f : Relabel) : Block → Block
  | .site => .site
  | .oneof decl => .oneof (f.oneofDecl decl)
  | .enum decl => .enum (f.enumDecl decl)
  | .service decl => .service (f.serviceDecl decl)

def titled (f : Relabel) : Titled → Titled
  | .message mark => .message (f.mark mark)
  | .enum mark => .enum (f.mark mark)
  | .oneof comment => .oneof (f.comment comment)
  | .service mark => .service (f.mark mark)

def numbered (f : Relabel) : Numbered → Numbered
  | .field comment cardinality type => .field (f.comment comment) cardinality type
  | .group comment cardinality => .group (f.comment comment) cardinality
  | .map comment key value => .map (f.comment comment) key value
  | .choice oneof comment type => .choice (f.oneofDecl oneof) (f.comment comment) type
  | .value enum comment => .value (f.enumDecl enum) (f.comment comment)

def methodHead (f : Relabel) (head : MethodHead) : MethodHead :=
  { head with service := f.serviceDecl head.service, comment := f.comment head.comment }

def stage (f : Relabel) : Stage → Stage
  | .entry block => .entry (f.block block)
  | .skipped depth block => .skipped depth (f.block block)
  | .dialectEquals => .dialectEquals
  | .dialectValue => .dialectValue
  | .packageName => .packageName
  | .importKind line start => .importKind (f.line line) (f.offset start)
  | .importPath line start kind => .importPath (f.line line) (f.offset start) kind
  | .statementEnd statement => .statementEnd (f.statement statement)
  | .title titled => .title (f.titled titled)
  | .titleOpen titled name => .titleOpen (f.titled titled) name
  | .extendee comment => .extendee (f.comment comment)
  | .extendOpen head => .extendOpen (f.extendHead head)
  | .fieldType comment cardinality => .fieldType (f.comment comment) cardinality
  | .mapWord comment => .mapWord (f.comment comment)
  | .mapKey comment => .mapKey (f.comment comment)
  | .mapComma comment key => .mapComma (f.comment comment) key
  | .mapValue comment key => .mapValue (f.comment comment) key
  | .mapClose comment key value => .mapClose (f.comment comment) key value
  | .name numbered => .name (f.numbered numbered)
  | .equals numbered name => .equals (f.numbered numbered) name
  | .number numbered name => .number (f.numbered numbered) name
  | .negative numbered name => .negative (f.numbered numbered) name
  | .numbered numbered name value => .numbered (f.numbered numbered) name value
  | .options depth numbered name value => .options depth (f.numbered numbered) name value
  | .finish numbered name value => .finish (f.numbered numbered) name value
  | .method service comment => .method (f.serviceDecl service) (f.comment comment)
  | .operandOpen head side => .operandOpen (f.methodHead head) side
  | .operand head side => .operand (f.methodHead head) side
  | .streamWord head side => .streamWord (f.methodHead head) side
  | .operandClose head side operand => .operandClose (f.methodHead head) side operand
  | .returns head input => .returns (f.methodHead head) input
  | .methodEnd service decl => .methodEnd (f.serviceDecl service) (f.methodDecl decl)
  | .methodBody depth service => .methodBody depth (f.serviceDecl service)

/-- What has been read with other labels, behind the statements `lead`. -/
def site (f : Relabel) (lead : List Statement) (site : Site) : Site :=
  ⟨lead ++ site.statements.map f.statement, site.bodies.map f.openBody⟩

def reader (f : Relabel) (lead : List Statement) (r : Reader) : Reader :=
  ⟨f.site lead r.site, f.stage r.stage⟩

/-- What comes of reading the same with other labels, behind the statements `lead`. -/
def outcome (f : Relabel) (lead : List Statement) (outcome : Except Fault Reader) : Except Fault Reader :=
  (outcome.map (f.reader lead)).mapError f.fault

variable (f : Relabel) (lead : List Statement) (t : Token)

@[simp] theorem outcome_ok (next : Reader) : f.outcome lead (.ok next) = .ok (f.reader lead next) := rfl

@[simp] theorem outcome_error (fault : Fault) : f.outcome lead (.error fault) = .error (f.fault fault) := rfl

@[simp] theorem outcome_ite (c : Prop) [Decidable c] (a b : Except Fault Reader) :
    f.outcome lead (if c then a else b) = if c then f.outcome lead a else f.outcome lead b :=
  apply_ite ..

section Site

variable (site : Site)

@[simp] theorem add_site (member : Member) :
    (f.site lead site).add (f.member member) = f.site lead (site.add member) := by
  obtain ⟨statements, bodies⟩ := site
  cases bodies <;> simp [Site.add, Relabel.site, openBody, statement]

@[simp] theorem addStatement_site (statement : Statement) :
    (f.site lead site).addStatement (f.statement statement) = f.site lead (site.addStatement statement) := by
  simp [Site.addStatement, Relabel.site]

@[simp] theorem push_site (head : BodyHead) :
    (f.site lead site).push (f.bodyHead head) = f.site lead (site.push head) := rfl

@[simp] theorem close_openBody (body : OpenBody) : (f.openBody body).close = f.member body.close := by
  obtain ⟨head, body⟩ := body
  cases head <;> simp [OpenBody.close, openBody, bodyHead, member, members_eq_map]

end Site

section Reader

open Reader

variable (r : Reader)

@[simp] theorem terminator_numbered (numbered : Numbered) : terminator (f.numbered numbered) = terminator numbered := by
  cases numbered <;> rfl

@[simp] theorem allowsNegative_numbered (numbered : Numbered) :
    allowsNegative (f.numbered numbered) = allowsNegative numbered := by
  cases numbered <;> rfl

@[simp] theorem expected_reader : (f.reader lead r).expected = r.expected := by
  obtain ⟨⟨statements, bodies⟩, stage⟩ := r
  cases stage with
  | entry block =>
    cases block with
    | site =>
      cases bodies with
      | nil => rfl
      | cons body outer =>
        obtain ⟨head, members⟩ := body
        cases head <;> rfl
    | oneof | enum | service => rfl
  | numbered numbered | finish numbered => exact congrArg Expectation.literal (f.terminator_numbered numbered)
  | _ => rfl

@[simp] theorem refuse_reader : (f.reader lead r).refuse (f.token t) = f.outcome lead (r.refuse t) := by
  simp [refuse, fault]

@[simp] theorem go_reader (stage : Stage) : (f.reader lead r).go (f.stage stage) = f.outcome lead (r.go stage) := rfl

@[simp] theorem exactly_reader (text : String) (stage : Stage) :
    (f.reader lead r).exactly text (f.token t) (f.stage stage) = f.outcome lead (r.exactly text t stage) := by
  simp [exactly]

theorem identifier_reader (stage : String → Stage) :
    (f.reader lead r).identifier (f.token t) (fun name => f.stage (stage name)) =
      f.outcome lead (r.identifier t stage) := by
  simp only [identifier, outcome_ite]
  rfl

theorem dottedName_reader (valid : List Char → Bool) (stage : String → Stage) :
    (f.reader lead r).dottedName valid (f.token t) (fun name => f.stage (stage name)) =
      f.outcome lead (r.dottedName valid t stage) := by
  simp only [dottedName, outcome_ite]
  rfl

theorem integer_reader (negative : Bool) (stage : Int → Stage) :
    (f.reader lead r).integer negative (f.token t) (fun value => f.stage (stage value)) =
      f.outcome lead (r.integer negative t stage) := by
  simp only [integer, outcome_ite, text_token]
  cases Numeral.read? negative t.text.toList <;> rfl

theorem stage_afterType (comment : Option String) (cardinality : Cardinality) (type : String) :
    f.stage (afterType comment cardinality type) = afterType (f.comment comment) cardinality type := by
  unfold afterType
  split <;> rfl

theorem stage_closeOperand (head : MethodHead) (side : Side) (operand : OperandDecl) :
    f.stage (closeOperand head side operand) = closeOperand (f.methodHead head) side operand := by
  cases side <;> rfl

theorem serviceDecl_addMethod (service : ServiceDecl) (decl : MethodDecl) :
    f.serviceDecl (addMethod service decl) = addMethod (f.serviceDecl service) (f.methodDecl decl) := by
  simp [addMethod, serviceDecl]

theorem beginField_reader : (f.reader lead r).beginField (f.token t) = f.outcome lead (r.beginField t) := by
  have same : cardinality? (f.token t) = cardinality? t := rfl
  unfold beginField
  rw [same]
  cases cardinality? t with
  | some cardinality => rfl
  | none =>
    have named := f.dottedName_reader lead t r isTypeName (afterType t.comment .unmarked)
    simp only [stage_afterType] at named
    exact named

theorem beginStatement_reader :
    (f.reader lead r).beginStatement (f.token t) = f.outcome lead (r.beginStatement t) := by
  simp only [beginStatement, outcome_ite, ← refuse_reader]
  rfl

theorem beginMember_reader : (f.reader lead r).beginMember (f.token t) = f.outcome lead (r.beginMember t) := by
  simp only [beginMember, outcome_ite, ← refuse_reader, ← beginField_reader]
  rfl

theorem beginExtensionField_reader :
    (f.reader lead r).beginExtensionField (f.token t) = f.outcome lead (r.beginExtensionField t) := by
  simp only [beginExtensionField, outcome_ite, ← refuse_reader, ← beginField_reader]
  rfl

theorem beginSite_reader : (f.reader lead r).beginSite (f.token t) = f.outcome lead (r.beginSite t) := by
  obtain ⟨⟨statements, bodies⟩, stage⟩ := r
  cases bodies with
  | nil => exact f.beginStatement_reader lead t _
  | cons body outer =>
    obtain ⟨head, body⟩ := body
    cases head with
    | extend head =>
      simp only [beginSite, outcome_ite, outcome_ok, reader, ← add_site, ← close_openBody,
        ← beginExtensionField_reader]
      rfl
    | message head | group head =>
      simp only [beginSite, outcome_ite, outcome_ok, reader, ← add_site, ← close_openBody, ← beginMember_reader]
      rfl

theorem beginChoice_reader (decl : OneofDecl) :
    (f.reader lead r).beginChoice (f.oneofDecl decl) (f.token t) = f.outcome lead (r.beginChoice decl t) := by
  have typed := f.dottedName_reader lead t r isTypeName fun type => .name (.choice decl t.comment type)
  simp only [beginChoice, outcome_ite, outcome_ok, reader, ← add_site, ← refuse_reader, typeName, ← typed]
  rfl

theorem beginValue_reader (decl : EnumDecl) :
    (f.reader lead r).beginValue (f.enumDecl decl) (f.token t) = f.outcome lead (r.beginValue decl t) := by
  have named := f.identifier_reader lead t r (.equals (.value decl t.comment))
  simp only [beginValue, outcome_ite, outcome_ok, reader, ← add_site, ← refuse_reader, ← named]
  rfl

theorem beginMethod_reader (decl : ServiceDecl) :
    (f.reader lead r).beginMethod (f.serviceDecl decl) (f.token t) = f.outcome lead (r.beginMethod decl t) := by
  simp only [beginMethod, outcome_ite, outcome_ok, reader, ← addStatement_site, ← refuse_reader]
  rfl

theorem skip_reader (depth : Nat) (block : Block) :
    (f.reader lead r).skip depth (f.block block) (f.token t) = f.outcome lead (r.skip depth block t) := by
  simp only [skip, outcome_ite, ← refuse_reader]
  rfl

theorem openTitled_reader (titled : Titled) (name : String) :
    (f.reader lead r).openTitled (f.titled titled) name = f.reader lead (r.openTitled titled name) := by
  cases titled <;> rfl

theorem complete_reader (numbered : Numbered) (name : String) (number : Int) :
    (f.reader lead r).complete (f.numbered numbered) name number = f.reader lead (r.complete numbered name number) := by
  cases numbered with
  | field | map =>
    simp only [complete, reader, ← add_site]
    rfl
  | group => rfl
  | choice | value =>
    simp [complete, reader, numbered, stage, block, oneofDecl, enumDecl, fieldDecl, enumValue]

/-- Reading one token with other labels. -/
theorem step_reader : (f.reader lead r).step (f.token t) = f.outcome lead (r.step t) := by
  obtain ⟨site, stage⟩ := r
  cases stage with
  | entry block =>
    cases block with
    | site => exact f.beginSite_reader lead t _
    | oneof decl => exact f.beginChoice_reader lead t _ decl
    | enum decl => exact f.beginValue_reader lead t _ decl
    | service decl => exact f.beginMethod_reader lead t _ decl
  | skipped depth block => exact f.skip_reader lead t _ depth block
  | dialectEquals => exact f.exactly_reader lead t _ "=" .dialectValue
  | packageName => exact f.dottedName_reader lead t _ isRelativeName fun name => .statementEnd (.package name)
  | dialectValue | importKind | importPath =>
    simp only [step, outcome_ite, ← refuse_reader]
    rfl
  | statementEnd statement =>
    simp only [step, outcome_ite, outcome_ok, reader, ← addStatement_site, ← refuse_reader]
    rfl
  | title titled => exact f.identifier_reader lead t _ (.titleOpen titled)
  | titleOpen titled name =>
    simp only [step, outcome_ite, outcome_ok, ← openTitled_reader, ← refuse_reader]
    rfl
  | extendee comment => exact f.dottedName_reader lead t _ isTypeName fun type => .extendOpen ⟨comment, type⟩
  | extendOpen head =>
    simp only [step, outcome_ite, outcome_ok, reader, ← push_site, ← refuse_reader]
    rfl
  | fieldType comment cardinality =>
    have named := f.dottedName_reader lead t ⟨site, .fieldType comment cardinality⟩ isTypeName
      (afterType comment cardinality)
    simp only [stage_afterType] at named
    exact named
  | mapWord comment =>
    have named := f.identifier_reader lead t ⟨site, .mapWord comment⟩ (.equals (.field comment .unmarked "map"))
    simp only [step, outcome_ite, ← named]
    rfl
  | mapKey comment => exact f.dottedName_reader lead t _ isTypeName (.mapComma comment)
  | mapComma comment key => exact f.exactly_reader lead t _ "," (.mapValue comment key)
  | mapValue comment key => exact f.dottedName_reader lead t _ isTypeName (.mapClose comment key)
  | mapClose comment key value => exact f.exactly_reader lead t _ ">" (.name (.map comment key value))
  | name numbered => exact f.identifier_reader lead t _ (.equals numbered)
  | equals numbered name => exact f.exactly_reader lead t _ "=" (.number numbered name)
  | number numbered name =>
    have plain := f.integer_reader lead t ⟨site, .number numbered name⟩ false (.numbered numbered name)
    simp only [step, outcome_ite, ← plain, ← f.allowsNegative_numbered numbered]
    rfl
  | negative numbered name => exact f.integer_reader lead t _ true (.numbered numbered name)
  | numbered numbered name value =>
    simp only [step, outcome_ite, outcome_ok, ← complete_reader, ← refuse_reader, ← f.terminator_numbered numbered]
    rfl
  | options depth numbered name value =>
    simp only [step, outcome_ite, outcome_ok, ← go_reader, apply_ite f.stage]
    rfl
  | finish numbered name value =>
    simp only [step, outcome_ite, outcome_ok, ← complete_reader, ← refuse_reader, ← f.terminator_numbered numbered]
    rfl
  | method service comment =>
    exact f.identifier_reader lead t _ fun name => .operandOpen ⟨service, comment, name⟩ .input
  | operandOpen head side => exact f.exactly_reader lead t _ "(" (.operand head side)
  | operand head side =>
    have typed := f.dottedName_reader lead t ⟨site, .operand head side⟩ isTypeName fun type =>
      .operandClose head side ⟨type, false⟩
    simp only [step, outcome_ite, typeName, ← typed]
    rfl
  | streamWord head side =>
    have typed := f.dottedName_reader lead t ⟨site, .streamWord head side⟩ isTypeName fun type =>
      .operandClose head side ⟨type, true⟩
    simp only [step, outcome_ite, typeName, ← go_reader, stage_closeOperand, ← typed]
    rfl
  | operandClose head side operand =>
    have closed := f.exactly_reader lead t ⟨site, .operandClose head side operand⟩ ")" (closeOperand head side operand)
    rw [stage_closeOperand] at closed
    exact closed
  | returns head input => exact f.exactly_reader lead t _ "returns" (.operandOpen head (.output input))
  | methodEnd service decl =>
    simp only [step, outcome_ite, ← go_reader, ← refuse_reader, stage, block, serviceDecl_addMethod]
    rfl
  | methodBody depth service =>
    simp only [step, outcome_ite, outcome_ok, ← go_reader, apply_ite f.stage]
    rfl

/-- Reading tokens with other labels, one after another. -/
theorem run_reader (tokens : List Token) :
    (f.reader lead r).run (tokens.map f.token) = f.outcome lead (r.run tokens) := by
  induction tokens generalizing r with
  | nil => rfl
  | cons t tokens ih =>
    simp only [List.map_cons, run, step_reader]
    cases r.step t with
    | ok next => exact ih next
    | error fault => rfl

theorem finish_reader : (f.reader lead r).finish =
    (r.finish.map fun statements => lead ++ statements.map f.statement).mapError f.fault := by
  have ended : (.error (.unexpectedEnd (f.reader lead r).expected) : Except Fault (List Statement)) =
      .error (.unexpectedEnd r.expected) := by rw [expected_reader]
  obtain ⟨⟨statements, bodies⟩, stage⟩ := r
  cases stage with
  | entry block =>
    cases block with
    | site =>
      cases bodies with
      | nil => rfl
      | cons body outer => exact ended
    | oneof | enum | service => exact ended
  | _ => exact ended

end Reader

end Relabel

/-- A file has ended at the beginning of a statement. -/
theorem Reader.eq_of_finish {r : Reader} {statements : List Statement} (finished : r.finish = .ok statements) :
    r = ⟨⟨statements, []⟩, .entry .site⟩ := by
  unfold finish at finished
  split at finished
  · rename_i atEntry noBody
    obtain ⟨⟨_, _⟩, _⟩ := r
    cases atEntry
    cases noBody
    cases finished
    rfl
  · cases finished

/-- Behind a whole file, the statements of another one are read as by themselves. -/
theorem readStatements_append (f : Relabel) {before : List Token} {lead : List Statement}
    (read : readStatements before = .ok lead) (tokens : List Token) :
    readStatements (before ++ tokens.map f.token) =
      ((readStatements tokens).map fun statements => lead ++ statements.map f.statement).mapError f.fault := by
  unfold readStatements at read ⊢
  rw [Reader.run_append]
  cases ran : Reader.start.run before with
  | error fault =>
    rw [ran] at read
    cases read
  | ok r =>
    rw [ran] at read
    have behind : r = f.reader lead Reader.start := by
      rw [Reader.eq_of_finish read]
      simp [Relabel.reader, Relabel.site, Reader.start, Relabel.stage, Relabel.block]
    subst behind
    simp only [Except.bind, f.run_reader]
    cases Reader.start.run tokens with
    | error fault => rfl
    | ok next => exact f.finish_reader lead next

end ProtoSchema
