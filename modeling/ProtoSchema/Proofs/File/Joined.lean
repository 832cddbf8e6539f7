import ProtoSchema.Proofs.Grammar.Outline
import ProtoSchema.Proofs.Reader.Accepts
import ProtoSchema.Proofs.Reader.Relabel
import ProtoSchema.Proofs.Token.Joined

namespace ProtoSchema

/-- The same room in tables that have some rows before. -/
def Room.past (before room : Room) : Room :=
  ⟨before.messages + room.messages, before.enums + room.enums⟩

def MessageId.past (before : Room) (id : MessageId) : MessageId :=
  ⟨before.messages + id.index⟩

def EnumId.past (before : Room) (id : EnumId) : EnumId :=
  ⟨before.enums + id.index⟩

def Scope.past (before : Room) : Scope → Scope
  | .file => .file
  | .message id => .message (id.past before)

def TypeRef.past (before : Room) (ref : TypeRef) : TypeRef :=
  { ref with scope := ref.scope.past before }

def Operand.past (before : Room) (operand : Operand) : Operand :=
  { operand with type := operand.type.past before }

namespace Relabel

def simpleField (f : Relabel) (before : Room) (field : SimpleField) : SimpleField :=
  { field with comment := f.comment field.comment, type := field.type.past before }

def oneof (f : Relabel) (before : Room) (oneof : Oneof) : Oneof :=
  { oneof with comment := f.comment oneof.comment, fields := oneof.fields.map (f.simpleField before) }

def mapField (f : Relabel) (before : Room) (field : MapField) : MapField :=
  { field with
    comment := f.comment field.comment, key := field.key.past before, value := field.value.past before }

mutual

def field (f : Relabel) (before : Room) : Field → Field
  | .simple field => .simple (f.simpleField before field)
  | .oneof oneof => .oneof (f.oneof before oneof)
  | .map field => .map (f.mapField before field)
  | .group head inner => .group (f.groupHead head) (f.fields before inner)

def fields (f : Relabel) (before : Room) : List Field → List Field
  | [] => []
  | first :: rest => f.field before first :: f.fields before rest

end

def extension (f : Relabel) (before : Room) (extension : Extension) : Extension :=
  ⟨extension.extendee.past before, f.comment extension.comment, f.fields before extension.fields⟩

def message (f : Relabel) (before : Room) (message : Message) : Message :=
  { message with
    id := message.id.past before
    comment := f.comment message.comment
    line := f.line message.line
    owner := message.owner.past before
    fields := f.fields before message.fields
    messages := message.messages.map (·.past before)
    enums := message.enums.map (·.past before)
    extensions := message.extensions.map (f.extension before) }

def enum (f : Relabel) (before : Room) (enum : Enum) : Enum :=
  { enum with
    id := enum.id.past before
    comment := f.comment enum.comment
    line := f.line enum.line
    owner := enum.owner.past before
    values := enum.values.map f.enumValue }

def method (f : Relabel) (before : Room) (method : Method) : Method :=
  { method with
    comment := f.comment method.comment, input := method.input.past before, output := method.output.past before }

def service (f : Relabel) (before : Room) (service : Service) : Service :=
  { service with
    comment := f.comment service.comment
    line := f.line service.line
    methods := service.methods.map (f.method before) }

def content (f : Relabel) (before : Room) (content : Content) : Content :=
  ⟨f.fields before content.fields, content.messages.map (·.past before), content.enums.map (·.past before),
    content.extensions.map (f.extension before), content.newMessages.map (f.message before),
    content.newEnums.map (f.enum before)⟩

/-- A file with other labels whose tables have some rows before. -/
def file (f : Relabel) (before : Room) (file : File) : File :=
  { file with
    imports := file.imports.map f.importDecl
    messages := file.messages.map (·.past before)
    enums := file.enums.map (·.past before)
    services := file.services.map (f.service before)
    extensions := file.extensions.map (f.extension before)
    messageTable := file.messageTable.map (f.message before)
    enumTable := file.enumTable.map (f.enum before) }

variable (f : Relabel) (before : Room)

@[simp] theorem fields_append (a b : List Field) : f.fields before (a ++ b) = f.fields before a ++ f.fields before b := by
  induction a with
  | nil => rfl
  | cons first a ih => simp [fields, ih]

theorem content_append (a b : Content) :
    f.content before (a.append b) = (f.content before a).append (f.content before b) := by
  simp [content, Content.append]

theorem roomAfter_content (content : Content) (room : Room) :
    (f.content before content).roomAfter (before.past room) = before.past (content.roomAfter room) := by
  simp [Content.roomAfter, Relabel.content, Room.past, Nat.add_assoc]

theorem layout_oneofDecl (scope : Scope) (oneof : OneofDecl) :
    (f.oneofDecl oneof).layout (scope.past before) = f.oneof before (oneof.layout scope) := by
  simp [OneofDecl.layout, oneofDecl, Relabel.oneof, Function.comp_def, FieldDecl.layout, fieldDecl, simpleField,
    TypeRef.past]

theorem layout_serviceDecl (service : ServiceDecl) :
    (f.serviceDecl service).layout = f.service before service.layout := by
  simp [ServiceDecl.layout, serviceDecl, Relabel.service, Function.comp_def, MethodDecl.layout, methodDecl,
    Relabel.method, OperandDecl.layout, Operand.past, TypeRef.past, Scope.past, mark]

mutual

/-- A member with other labels, laid out behind what fills the tables up to `before`. -/
theorem layout_member (scope : Scope) (room : Room) : (declared : Member) →
    (f.member declared).layout (scope.past before) (before.past room) = f.content before (declared.layout scope room)
  | .field field => rfl
  | .oneof oneof => by
    rw [member, Member.layout, layout_oneofDecl]
    rfl
  | .map map => rfl
  | .group head body => by
    rw [member, Member.layout, layoutAll_members scope room body]
    rfl
  | .message head body =>
    have inner := layoutAll_members (.message ⟨room.messages⟩) ⟨room.messages + 1, room.enums⟩ body
    congrArg (Content.asMessage (f.messageHead head) ⟨before.messages + room.messages⟩ (scope.past before)) inner
  | .enum decl => rfl
  | .extend head body => by
    rw [member, Member.layout, layoutAll_members scope room body]
    rfl

theorem layoutAll_members (scope : Scope) (room : Room) : (body : List Member) →
    layoutAll (scope.past before) (before.past room) (f.members body) = f.content before (layoutAll scope room body)
  | [] => rfl
  | first :: rest => by
    simp only [members, layoutAll, layout_member scope room first, roomAfter_content, layoutAll_members, content_append]

end

end Relabel

/-- A file and another one behind it. What may stand only once counts where it stands last. -/
def File.append (first second : File) : File :=
  { name := first.name
    package := second.package.or first.package
    dialect := second.dialect.or first.dialect
    imports := first.imports ++ second.imports
    messages := first.messages ++ second.messages
    enums := first.enums ++ second.enums
    services := first.services ++ second.services
    extensions := first.extensions ++ second.extensions
    messageTable := first.messageTable ++ second.messageTable
    enumTable := first.enumTable ++ second.enumTable }

section Statements

variable (f : Relabel) (lead statements : List Statement)

theorem filterMap_behind {α : Type} (pick : Statement → Option α) (relabel : α → α)
    (picks : ∀ statement, pick (f.statement statement) = (pick statement).map relabel) :
    (lead ++ statements.map f.statement).filterMap pick =
      lead.filterMap pick ++ (statements.filterMap pick).map relabel := by
  rw [List.filterMap_append, List.filterMap_map, List.map_filterMap]
  exact congrArg (fun picked => _ ++ statements.filterMap picked) (funext picks)

theorem lastOf_behind (pick : Statement → Option String)
    (picks : ∀ statement, pick (f.statement statement) = pick statement) :
    lastOf pick (lead ++ statements.map f.statement) = (lastOf pick statements).or (lastOf pick lead) := by
  have kept := filterMap_behind f lead statements pick id (by simpa using picks)
  rw [lastOf, kept, List.map_id, List.getLast?_append, ← lastOf, ← lastOf]

/-- The members of some statements behind others, laid out. -/
theorem layoutAll_behind : layoutAll .file ⟨0, 0⟩ ((lead ++ statements.map f.statement).filterMap Statement.member?) =
    (layoutAll .file ⟨0, 0⟩ (lead.filterMap Statement.member?)).append
      (f.content ((layoutAll .file ⟨0, 0⟩ (lead.filterMap Statement.member?)).roomAfter ⟨0, 0⟩)
        (layoutAll .file ⟨0, 0⟩ (statements.filterMap Statement.member?))) := by
  have behind (before : Room) (body : List Member) :
      layoutAll .file before (f.members body) = f.content before (layoutAll .file ⟨0, 0⟩ body) :=
    f.layoutAll_members before .file ⟨0, 0⟩ body
  rw [filterMap_behind f lead statements Statement.member? f.member (by rintro (_ | _) <;> rfl),
    layoutAll_append, ← Relabel.members_eq_map, behind]

/-- The file of some statements behind others is the file of those and, behind it, their own. -/
theorem File.ofStatements_behind (name : String) : ofStatements name (lead ++ statements.map f.statement) =
    (ofStatements name lead).append (f.file (ofStatements name lead).room (ofStatements name statements)) := by
  have imports := filterMap_behind f lead statements Statement.imported? f.importDecl (by rintro (_ | _) <;> rfl)
  have services := filterMap_behind f lead statements Statement.service? f.serviceDecl (by rintro (_ | _) <;> rfl)
  have package := lastOf_behind f lead statements Statement.package? (by rintro (_ | _) <;> rfl)
  have dialect := lastOf_behind f lead statements Statement.dialect? (by rintro (_ | _) <;> rfl)
  have room : (layoutAll .file ⟨0, 0⟩ (lead.filterMap Statement.member?)).roomAfter ⟨0, 0⟩ =
      (ofStatements name lead).room := by
    simp [File.room, ofStatements, Content.roomAfter]
  have content := layoutAll_behind f lead statements
  have serviceLayout : ServiceDecl.layout ∘ f.serviceDecl = f.service (ofStatements name lead).room ∘ ServiceDecl.layout :=
    funext fun service => f.layout_serviceDecl _ service
  rw [room] at content
  generalize (ofStatements name lead).room = room at content serviceLayout ⊢
  simp only [ofStatements, imports, services, package, dialect, content, append, Relabel.file, Content.append,
    Relabel.content, List.map_append, List.map_map, serviceLayout]

end Statements

/-- The statements of a source behind another one and an empty line. -/
theorem bind_readStatements_append {source : List Char} {tokens : List Token} {lead : List Statement}
    (scanned : scanTokens source = .ok tokens) (read : readStatements tokens = .ok lead) (other : List Char) :
    (scanTokens (source ++ ['\n', '\n'] ++ other)).bind readStatements =
      (((scanTokens other).bind readStatements).map
        fun statements => lead ++ statements.map (Relabel.behind source).statement).mapError
          (Relabel.behind source).fault := by
  rw [scanTokens_append scanned]
  cases scanTokens other with
  | error fault => rfl
  | ok others => exact readStatements_append _ read others

/-- Parsing turns a source behind another one into a file behind another one, and faults in it stay the same. -/
theorem parse_append {name first second : String} {file : File} (parsed : parse name first = .ok file) :
    parse name (first ++ "\n\n" ++ second) =
      ((parse name second).map fun other => file.append ((Relabel.behind first.toList).file file.room other)).mapError
        (Relabel.behind first.toList).syntaxError := by
  obtain ⟨tokens, scanned, derived⟩ := parse_eq_ok_iff.1 parsed
  obtain ⟨lead, read, rfl⟩ := (schema_iff_readStatements (scanTokens_lexical scanned)).1 derived
  have source : (first ++ "\n\n" ++ second).toList = first.toList ++ ['\n', '\n'] ++ second.toList := by
    rw [String.toList_append, String.toList_append]
    rfl
  unfold parse
  rw [source, bind_readStatements_append scanned read]
  cases (scanTokens second.toList).bind readStatements with
  | error fault => exact congrArg Except.error (SyntaxError.ofFault_behind ..)
  | ok statements => exact congrArg Except.ok (File.ofStatements_behind ..)

/-- A message with a comment in its row, and a comment that belongs to nothing. -/
def commented : String :=
  "message A { } // of A\n// of nothing"

def commentedFile : File :=
  { File.named "m" with
    messages := [⟨0⟩]
    messageTable := [⟨⟨0⟩, "A", some "of A", 1, .file, [], [], [], []⟩] }

/-- The message behind the empty line is the second one and gets no comment; a fault there is in the fourth line. -/
theorem parse_append_commented : parse "m" commented = .ok commentedFile ∧
    parse "m" (commented ++ "\n\n" ++ "message B { }") = .ok { commentedFile with
      messages := [⟨0⟩, ⟨1⟩]
      messageTable := commentedFile.messageTable ++ [⟨⟨1⟩, "B", none, 4, .file, [], [], [], []⟩] } ∧
    parse "m" (commented ++ "\n\n" ++ "message ;") =
      .error ⟨"m", .unexpected .identifier ⟨.symbol, ";", 4, 9, ⟨45, 46⟩, none⟩, ⟨4, 9⟩⟩ := by
  have parsed : parse "m" commented = .ok commentedFile := by
    have scanned : scanTokens commented.toList = .ok
        [⟨.word, "message", 1, 1, ⟨0, 7⟩, some "of A"⟩, ⟨.word, "A", 1, 9, ⟨8, 9⟩, some "of A"⟩,
          ⟨.symbol, "\x7b", 1, 11, ⟨10, 11⟩, some "of A"⟩, ⟨.symbol, "\x7d", 1, 13, ⟨12, 13⟩, some "of A"⟩] :=
      scanTokens_eq_ok.2 (by decide +kernel)
    rw [parse, scanned]
    rfl
  refine ⟨parsed, ?_, ?_⟩
  · have scanned : scanTokens "message B { }".toList = .ok
        [⟨.word, "message", 1, 1, ⟨0, 7⟩, none⟩, ⟨.word, "B", 1, 9, ⟨8, 9⟩, none⟩,
          ⟨.symbol, "\x7b", 1, 11, ⟨10, 11⟩, none⟩, ⟨.symbol, "\x7d", 1, 13, ⟨12, 13⟩, none⟩] :=
      scanTokens_eq_ok.2 (by decide +kernel)
    rw [parse_append parsed, parse, scanned]
    rfl
  · have scanned : scanTokens "message ;".toList = .ok
        [⟨.word, "message", 1, 1, ⟨0, 7⟩, none⟩, ⟨.symbol, ";", 1, 9, ⟨8, 9⟩, none⟩] :=
      scanTokens_eq_ok.2 (by decide +kernel)
    rw [parse_append parsed, parse, scanned]
    rfl

end ProtoSchema
