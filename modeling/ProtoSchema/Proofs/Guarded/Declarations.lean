import ProtoSchema.Proofs.Guarded.Entries
import ProtoSchema.Proofs.Grammar.Outline

namespace ProtoSchema

/-- What some content declares in the scope around it. -/
def Content.declared (content : Content) : Declared :=
  ⟨content.fields, content.messages, content.enums, content.extensions⟩

def Declared.add (before : Declared) (content : Content) : Declared :=
  ⟨before.fields ++ content.fields, before.messages ++ content.messages, before.enums ++ content.enums,
    before.extensions ++ content.extensions⟩

/-- A file with the rows that some content adds to its tables. -/
def File.rows (file : File) (content : Content) : File :=
  { file with
    messageTable := file.messageTable ++ content.newMessages
    enumTable := file.enumTable ++ content.newEnums }

theorem Content.declared_append (a b : Content) : (a.append b).declared = a.declared.add b := rfl

@[simp] theorem File.rows_empty (file : File) : file.rows .empty = file := by
  simp [rows, Content.empty]

@[simp] theorem File.rows_rows (file : File) (a b : Content) : (file.rows a).rows b = file.rows (a.append b) := by
  simp [rows, Content.append]

@[simp] theorem File.room_rows (file : File) (content : Content) :
    (file.rows content).room = content.roomAfter file.room := by
  simp [rows, room, Content.roomAfter]

/-- A keyword can be the name of a type, too. -/
theorem Reader.typeName_eq_of_is {r : Reader} {t : Token} {text : String} {g : String → Stage} (lexical : t.Lexical)
    (spelled : t.is text) (long : text.toList.length ≠ 1) (valid : isTypeName text.toList) :
    r.typeName t g = .ok ⟨r.site, g t.text⟩ := by
  have named : isTypeName t.text.toList := by rwa [(Token.is_iff.1 spelled).2]
  rw [typeName, dottedName, if_pos (lexical.word_of_is spelled long), if_pos named]
  rfl

namespace Descent

/-- A member has been read: it is there in what is declared around it, in the tables and in the site of the reader. -/
def Adds (site : Site) (scope : Scope) (file : File) (before : Declared) (member : Member) (found : Declared)
    (after : State) (next : Reader) : Prop :=
  found = before.add (member.layout scope file.room) ∧ after.file = file.rows (member.layout scope file.room) ∧
    next = ⟨site.add member, .entry .site⟩

namespace Follows

variable {s : State} {r : Reader} {site : Site} {scope : Scope} {t : Token} {rest : List Token} {file : File}

theorem choice {decl : OneofDecl}
    (step : Reader.step ⟨site, .entry (.oneof decl)⟩ t =
      Reader.typeName ⟨site, .entry (.oneof decl)⟩ t fun type => .name (.choice decl t.comment type)) :
    Follows 1 (Descent.choice scope) ⟨t :: rest, file⟩ ⟨site, .entry (.oneof decl)⟩ fun found after next =>
      after.file = file ∧ ∃ field : FieldDecl, found = field.layout scope ∧
        next = ⟨site, .entry (.oneof { decl with fields := decl.fields ++ [field] })⟩ := by
  refine comment ((dottedName (g := fun type => .name (.choice decl t.comment type)) ?_ ?_).first ?_)
  · nofun
  · rintro _ ⟨⟩
    exact step
  rintro type ⟨_, _⟩ _ ⟨-, rfl, rfl⟩
  refine (tail (.choice decl t.comment type.text)).seq ?_
  rintro ⟨name, n⟩ ⟨_, _⟩ _ ⟨rfl, rfl⟩
  exact pure ⟨rfl, ⟨t.comment, .unmarked, type.text, name, n⟩, rfl, rfl⟩

theorem choices {comment : Option String} {name : String} :
    Follows 0 (Descent.entries ["option"] (·.kind = .word) .oneofField (Descent.choice scope)) s
      ⟨site, .entry (.oneof ⟨comment, name, []⟩)⟩ fun found after next =>
        after.file = s.file ∧ ∃ fields, found = fields.map (FieldDecl.layout scope) ∧
          next = ⟨site.add (.oneof ⟨comment, name, fields⟩), .entry .site⟩ := by
  refine entries (FieldDecl.layout scope) (fun fields => .oneof ⟨comment, name, fields⟩)
    (fun fields => ⟨site.add (.oneof ⟨comment, name, fields⟩), .entry .site⟩) (by decide) (fun _ => rfl) ?_
    fun _ _ _ _ _ step => choice step
  intro fields t
  simp [Reader.step, Reader.beginEntry, Reader.beginChoice, Reader.refuse, Reader.expected, Reader.go, Token.isAny]

theorem oneof (spelled : t.is "oneof") (step : r.step t = .ok ⟨site, .title (.oneof t.comment)⟩) :
    Follows 1 (Descent.oneof scope) ⟨t :: rest, file⟩ r fun found after next =>
      ∃ decl, ∀ before, Adds site scope file before (.oneof decl)
        { before with fields := before.fields ++ [.oneof found] } after next := by
  refine (keyword spelled step).first ?_
  rintro _ _ _ ⟨rfl, rfl, rfl⟩
  refine (identifier (g := .titleOpen (.oneof t.comment)) (fun _ => rfl) fun _ _ => rfl).seq ?_
  rintro name ⟨_, _⟩ _ ⟨-, rfl, rfl⟩
  refine (expect (g := fun _ => ⟨site, .entry (.oneof ⟨t.comment, name.text, []⟩)⟩) (fun _ => rfl)
    fun _ _ => rfl).seq ?_
  rintro - ⟨_, _⟩ _ ⟨-, -, rfl, rfl⟩
  refine choices.seq ?_
  rintro _ ⟨_, _⟩ _ ⟨rfl, fields, rfl, rfl⟩
  refine pure ⟨⟨t.comment, name.text, fields⟩, fun before => ⟨?_, ?_, rfl⟩⟩
  · simp [Declared.add, Member.layout, Content.ofField, Content.empty, OneofDecl.layout]
  · simp [File.rows, Member.layout, Content.ofField, Content.empty]

theorem enumValue {decl : EnumDecl}
    (step : Reader.step ⟨site, .entry (.enum decl)⟩ t =
      Reader.identifier ⟨site, .entry (.enum decl)⟩ t (.equals (.value decl t.comment))) :
    Follows 1 Descent.enumValue ⟨t :: rest, file⟩ ⟨site, .entry (.enum decl)⟩ fun found after next =>
      after.file = file ∧ ∃ value, found = id value ∧
        next = ⟨site, .entry (.enum { decl with values := decl.values ++ [value] })⟩ := by
  refine (identifier (g := .equals (.value decl t.comment)) ?_ ?_).first ?_
  · nofun
  · rintro _ ⟨⟩
    exact step
  rintro name ⟨_, _⟩ _ ⟨tokens, rfl, rfl⟩
  obtain ⟨rfl, rfl⟩ := List.cons.inj tokens
  refine (assigned (.value decl t.comment)).seq ?_
  rintro n ⟨_, _⟩ _ ⟨rfl, rfl⟩
  exact pure ⟨rfl, ⟨t.text, n, t.comment⟩, rfl, rfl⟩

theorem enumValues {mark : Mark} {name : String} :
    Follows 0 (Descent.entries ["option", "reserved"] (·.kind = .word) .enumValue Descent.enumValue) s
      ⟨site, .entry (.enum ⟨mark, name, []⟩)⟩ fun values after next =>
        after.file = s.file ∧ next = ⟨site.add (.enum ⟨mark, name, values⟩), .entry .site⟩ := by
  refine (entries id (fun values => .enum ⟨mark, name, values⟩)
    (fun values => ⟨site.add (.enum ⟨mark, name, values⟩), .entry .site⟩) (by decide) (fun _ => rfl) ?_
    fun _ _ _ _ _ step => enumValue step).mono (Nat.le_refl _) ?_
  · intro fields t
    simp [Reader.step, Reader.beginEntry, Reader.beginValue, Reader.refuse, Reader.expected, Reader.go, Token.isAny]
  · rintro _ after _ ⟨same, values, rfl, rfl⟩
    rw [List.map_id]
    exact ⟨same, rfl⟩

theorem enum (spelled : t.is "enum") (step : r.step t = .ok ⟨site, .title (.enum t.mark)⟩) :
    Follows 1 (Descent.enum scope) ⟨t :: rest, file⟩ r fun id after next =>
      ∃ decl, ∀ before, Adds site scope file before (.enum decl)
        { before with enums := before.enums ++ [id] } after next := by
  refine (keyword spelled step).first ?_
  rintro _ _ _ ⟨rfl, rfl, rfl⟩
  refine (identifier (g := .titleOpen (.enum t.mark)) (fun _ => rfl) fun _ _ => rfl).seq ?_
  rintro name ⟨_, _⟩ _ ⟨-, rfl, rfl⟩
  refine (expect (g := fun _ => ⟨site, .entry (.enum ⟨t.mark, name.text, []⟩)⟩) (fun _ => rfl) fun _ _ => rfl).seq ?_
  rintro - ⟨_, _⟩ _ ⟨-, -, rfl, rfl⟩
  refine enumValues.seq ?_
  rintro values ⟨tokens, _⟩ _ ⟨rfl, rfl⟩
  refine read (write (pure ⟨⟨t.mark, name.text, values⟩, fun before => ⟨?_, ?_, rfl⟩⟩))
  · simp [Declared.add, Member.layout, Content.ofEnum, Content.empty, File.room]
  · simp [File.rows, Member.layout, Content.ofEnum, Content.empty, File.room, Token.mark]

theorem mapField {u : Token} (spelled : t.is "map") (opens : u.is "<")
    (step : r.step t = .ok ⟨site, .mapWord t.comment⟩) :
    Follows 1 (Descent.mapField scope) ⟨t :: u :: rest, file⟩ r fun found after next =>
      ∃ decl, ∀ before, Adds site scope file before (.map decl)
        { before with fields := before.fields ++ [.map found] } after next := by
  have begins : Reader.step ⟨site, .mapWord t.comment⟩ u = .ok ⟨site, .mapKey t.comment⟩ := by
    simp [Reader.step, opens, Reader.go]
  refine (keyword spelled step).first ?_
  rintro _ _ _ ⟨rfl, rfl, rfl⟩
  refine (keyword opens begins).seq ?_
  rintro _ _ _ ⟨rfl, rfl, rfl⟩
  refine (dottedName (g := .mapComma t.comment) (fun _ => rfl) fun _ _ => rfl).seq ?_
  rintro key ⟨_, _⟩ _ ⟨-, rfl, rfl⟩
  refine (expect (g := fun _ => ⟨site, .mapValue t.comment key.text⟩) (fun _ => rfl) fun _ _ => rfl).seq ?_
  rintro - ⟨_, _⟩ _ ⟨-, -, rfl, rfl⟩
  refine (dottedName (g := .mapClose t.comment key.text) (fun _ => rfl) fun _ _ => rfl).seq ?_
  rintro value ⟨_, _⟩ _ ⟨-, rfl, rfl⟩
  refine (expect (g := fun _ => ⟨site, .name (.map t.comment key.text value.text)⟩) (fun _ => rfl)
    fun _ _ => rfl).seq ?_
  rintro - ⟨_, _⟩ _ ⟨-, -, rfl, rfl⟩
  refine (tail (.map t.comment key.text value.text)).seq ?_
  rintro ⟨name, n⟩ ⟨_, _⟩ _ ⟨rfl, rfl⟩
  refine pure ⟨⟨t.comment, key.text, value.text, name, n⟩, fun before => ⟨?_, ?_, rfl⟩⟩
  · simp [Declared.add, Member.layout, Content.ofField, Content.empty, MapDecl.layout]
  · simp [File.rows, Member.layout, Content.ofField, Content.empty]

variable {head : MethodHead} {side : Side}

/-- The word `stream` is taken if it is not the name of the type, which the reader finds out one token later. -/
theorem stream : Follows 0 Descent.stream s ⟨site, .operand head side⟩ fun streams after next =>
    after.file = s.file ∧
      ((streams = true ∧ next = ⟨site, .streamWord head side⟩ ∧ ∀ t ∈ after.tokens.head?, t.is ")" = false) ∨
        (streams = false ∧ next = ⟨site, .operand head side⟩ ∧
          (after.tokens.head?.any (·.is "stream") && !after.tokens[1]?.any (·.is ")")) = false)) := by
  obtain ⟨tokens, file⟩ := s
  refine isNext (peekSecond ?_)
  refine ite (fun taken => ?_) fun left => pure ⟨rfl, Or.inr ⟨rfl, rfl, by simpa using left⟩⟩
  cases tokens with
  | nil => simp at taken
  | cons t rest =>
    obtain ⟨word, other⟩ : t.is "stream" = true ∧ rest.head?.any (·.is ")") = false := by
      simpa [List.head?_eq_getElem?] using taken
    have read : Reader.step ⟨site, .operand head side⟩ t = .ok ⟨site, .streamWord head side⟩ := by
      simp [Reader.step, word, Reader.go]
    refine (dropped read ⟨rfl, Or.inl ⟨rfl, rfl, fun u second => ?_⟩⟩).weaken
    rw [Option.mem_def.1 second] at other
    exact other

theorem operand : Follows 1 Descent.operand s ⟨site, .operandOpen head side⟩ fun found after next =>
    after.file = s.file ∧ ∃ decl : OperandDecl, found = decl.layout ∧
      next = ⟨site, Reader.closeOperand head side decl⟩ := by
  have closes : ∀ (type : Token) (streams : Bool) (s : State),
      Follows 0 (do let _ ← Descent.expect ")"; return (⟨⟨type.text, .file⟩, streams⟩ : Operand)) s
        ⟨site, .operandClose head side ⟨type.text, streams⟩⟩ fun found after next =>
          after.file = s.file ∧ ∃ decl : OperandDecl, found = decl.layout ∧
            next = ⟨site, Reader.closeOperand head side decl⟩ := by
    intro type streams s
    refine (expect (g := fun _ => ⟨site, Reader.closeOperand head side ⟨type.text, streams⟩⟩) (fun _ => rfl)
      fun _ _ => rfl).seq ?_
    rintro - ⟨_, _⟩ _ ⟨-, -, rfl, rfl⟩
    exact pure ⟨rfl, ⟨type.text, streams⟩, rfl, rfl⟩
  refine (expect (g := fun _ => ⟨site, .operand head side⟩) (fun _ => rfl) fun _ _ => rfl).first ?_
  rintro - ⟨_, _⟩ _ ⟨-, -, rfl, rfl⟩
  refine stream.seq ?_
  rintro streams ⟨tokens, _⟩ _ ⟨rfl, ⟨rfl, rfl, other⟩ | ⟨rfl, rfl, left⟩⟩
  · refine (dottedName (g := fun type => .operandClose head side ⟨type, true⟩) (fun _ => rfl) fun t next => ?_).seq ?_
    · simp [Reader.step, other t next]
      rfl
    · rintro type ⟨_, _⟩ _ ⟨-, rfl, rfl⟩
      exact closes type true _
  by_cases single : tokens.head?.any (·.is "stream")
  · obtain ⟨t, u, rest, rfl, word, last⟩ : ∃ t u rest, tokens = t :: u :: rest ∧ t.is "stream" ∧ u.is ")" := by
      cases tokens with
      | nil => simp at single
      | cons t rest =>
        cases rest with
        | nil => simp_all
        | cons u rest => exact ⟨t, u, rest, rfl, by simpa using single, by simp_all⟩
    refine lexical fun lexical => ?_
    refine (dottedName (g := fun _ => .streamWord head side) (fun _ => rfl) ?_).seq ?_
    · rintro _ ⟨⟩
      refine Eq.trans ?_ (Reader.typeName_eq_of_is lexical word (by decide) (by decide)).symm
      simp [Reader.step, word, Reader.go]
    · rintro type ⟨_, _⟩ _ ⟨tokens, rfl, rfl⟩
      obtain ⟨rfl, rfl⟩ := List.cons.inj tokens
      have same : Reader.answer ⟨site, .streamWord head side⟩ (u :: rest) =
          Reader.answer ⟨site, .operandClose head side ⟨t.text, false⟩⟩ (u :: rest) := by
        refine Reader.answer_congr ?_
        simp [Reader.step, last, (Token.is_iff.1 word).2, Reader.exactly, Reader.go]
      exact (closes t false _).of_answer same
  · refine (dottedName (g := fun type => .operandClose head side ⟨type, false⟩) (fun _ => rfl) fun t next => ?_).seq ?_
    · have other : t.is "stream" = false := by simpa [Option.mem_def.1 next] using single
      simp [Reader.step, other]
      rfl
    · rintro type ⟨_, _⟩ _ ⟨-, rfl, rfl⟩
      exact closes type false _

theorem methodEnd {decl : ServiceDecl} {method : MethodDecl} :
    Follows 1 Descent.methodEnd s ⟨site, .methodEnd decl method⟩ fun _ after next =>
      after.file = s.file ∧ next = ⟨site, .entry (.service (Reader.addMethod decl method))⟩ := by
  obtain ⟨tokens, file⟩ := s
  refine peek ?_
  cases tokens with
  | nil => exact ended rfl
  | cons t rest =>
    have step : Reader.step ⟨site, .methodEnd decl method⟩ t =
        if t.is ";" then .ok ⟨site, .entry (.service (Reader.addMethod decl method))⟩
        else if t.is "\x7b" then .ok ⟨site, .methodBody 1 (Reader.addMethod decl method)⟩
        else .error (.unexpected .methodEnd t) := rfl
    refine choose step (fun _ step => ?_) fun _ step => ?_
    · refine (drop step).mono (Nat.le_refl _) ?_
      rintro - _ _ ⟨rfl, rfl⟩
      exact ⟨rfl, rfl⟩
    refine choose step (fun opens step => ?_) fun _ step => refused step
    have steps : ∀ depth u, Reader.step ⟨site, .methodBody depth (Reader.addMethod decl method)⟩ u = .ok
        (if u.is "\x7b" then ⟨site, .methodBody (depth + 1) (Reader.addMethod decl method)⟩
        else if u.is "\x7d" then
          if depth ≤ 1 then ⟨site, .entry (.service (Reader.addMethod decl method))⟩
          else ⟨site, .methodBody (depth - 1) (Reader.addMethod decl method)⟩
        else ⟨site, .methodBody depth (Reader.addMethod decl method)⟩) := by
      intro depth u
      simp only [Reader.step, Reader.go]
      split
      · rfl
      split
      · split <;> rfl
      · rfl
    refine (keyword opens step).first ?_
    rintro _ _ _ ⟨rfl, rfl, rfl⟩
    exact skipInside (g := fun depth => ⟨site, .methodBody depth (Reader.addMethod decl method)⟩) (fun _ => rfl) steps

theorem method {decl : ServiceDecl} (spelled : t.is "rpc") (step : r.step t = .ok ⟨site, .method decl t.comment⟩) :
    Follows 1 Descent.method ⟨t :: rest, file⟩ r fun found after next =>
      after.file = file ∧ ∃ method : MethodDecl, found = method.layout ∧
        next = ⟨site, .entry (.service { decl with methods := decl.methods ++ [method] })⟩ := by
  refine (keyword spelled step).first ?_
  rintro _ _ _ ⟨rfl, rfl, rfl⟩
  refine (identifier (g := fun name => .operandOpen ⟨decl, t.comment, name⟩ .input) (fun _ => rfl)
    fun _ _ => rfl).seq ?_
  rintro name ⟨_, _⟩ _ ⟨-, rfl, rfl⟩
  refine operand.seq ?_
  rintro _ ⟨_, _⟩ _ ⟨rfl, input, rfl, rfl⟩
  refine (expect (g := fun _ => ⟨site, .operandOpen ⟨decl, t.comment, name.text⟩ (.output input)⟩) (fun _ => rfl)
    fun _ _ => rfl).seq ?_
  rintro - ⟨_, _⟩ _ ⟨-, -, rfl, rfl⟩
  refine operand.seq ?_
  rintro _ ⟨_, _⟩ _ ⟨rfl, output, rfl, rfl⟩
  refine methodEnd.seq ?_
  rintro - ⟨_, _⟩ _ ⟨rfl, rfl⟩
  exact pure ⟨rfl, ⟨t.comment, name.text, input, output⟩, rfl, rfl⟩

theorem methods {mark : Mark} {name : String} :
    Follows 0 (Descent.entries ["option"] (·.is "rpc") .serviceEntry Descent.method) s
      ⟨site, .entry (.service ⟨mark, name, []⟩)⟩ fun found after next =>
        after.file = s.file ∧ ∃ methods, found = methods.map MethodDecl.layout ∧
          next = ⟨site.addStatement (.service ⟨mark, name, methods⟩), .entry .site⟩ := by
  refine entries MethodDecl.layout (fun methods => .service ⟨mark, name, methods⟩)
    (fun methods => ⟨site.addStatement (.service ⟨mark, name, methods⟩), .entry .site⟩) (by decide) (fun _ => rfl) ?_
    fun methods t _ _ spelled (step : Reader.step ⟨site, .entry (.service ⟨mark, name, methods⟩)⟩ t =
      .ok ⟨site, .method ⟨mark, name, methods⟩ t.comment⟩) => method spelled step
  intro methods t
  simp [Reader.step, Reader.beginEntry, Reader.beginMethod, Reader.refuse, Reader.expected, Reader.go, Token.isAny]

theorem service (spelled : t.is "service") (step : r.step t = .ok ⟨site, .title (.service t.mark)⟩) :
    Follows 1 Descent.service ⟨t :: rest, file⟩ r fun _ after next =>
      ∃ statement : Statement, statement.member? = none ∧ after.file = statement.leave file ∧
        next = ⟨site.addStatement statement, .entry .site⟩ := by
  refine (keyword spelled step).first ?_
  rintro _ _ _ ⟨rfl, rfl, rfl⟩
  refine (identifier (g := .titleOpen (.service t.mark)) (fun _ => rfl) fun _ _ => rfl).seq ?_
  rintro name ⟨_, _⟩ _ ⟨-, rfl, rfl⟩
  refine (expect (g := fun _ => ⟨site, .entry (.service ⟨t.mark, name.text, []⟩)⟩) (fun _ => rfl) fun _ _ => rfl).seq ?_
  rintro - ⟨_, _⟩ _ ⟨-, -, rfl, rfl⟩
  refine methods.seq ?_
  rintro _ ⟨tokens, _⟩ _ ⟨rfl, methods, rfl, rfl⟩
  exact written ⟨.service ⟨t.mark, name.text, methods⟩, rfl, rfl, rfl⟩

theorem importKind {line start : Nat} : Follows 0 Descent.importKind s ⟨site, .importKind line start⟩
    fun kind after next => after.file = s.file ∧
      (after.tokens = [] → next.finish = .error (.unexpectedEnd .stringLiteral)) ∧
      ∀ t ∈ after.tokens.head?, next.step t =
        if t.kind = .string then .ok ⟨site, .statementEnd (.imports ⟨t.text, kind, line, ⟨start, t.span.stop⟩⟩)⟩
        else .error (.unexpected .stringLiteral t) := by
  obtain ⟨tokens, file⟩ := s
  refine peek ?_
  cases tokens with
  | nil => exact ended rfl
  | cons t rest =>
    have step : Reader.step ⟨site, .importKind line start⟩ t =
        if t.is "weak" then .ok ⟨site, .importPath line start .weak⟩
        else if t.is "public" then .ok ⟨site, .importPath line start .reexported⟩
        else if t.kind = .string then
          .ok ⟨site, .statementEnd (.imports ⟨t.text, .plain, line, ⟨start, t.span.stop⟩⟩)⟩
        else .error (.unexpected .importPath t) := rfl
    refine choose step (fun _ step => (dropped step ⟨rfl, fun _ => rfl, fun _ _ => rfl⟩).weaken) fun _ step => ?_
    refine choose step (fun _ step => (dropped step ⟨rfl, fun _ => rfl, fun _ _ => rfl⟩).weaken) fun _ step => ?_
    refine choose step (fun quoted step => pure ⟨rfl, nofun, ?_⟩) fun _ step => refused step
    rintro _ ⟨⟩
    rw [if_pos quoted, step]

theorem importStatement (spelled : t.is "import")
    (step : r.step t = .ok ⟨site, .importKind t.line t.span.start⟩) :
    Follows 1 Descent.importStatement ⟨t :: rest, file⟩ r fun _ after next =>
      ∃ statement : Statement, statement.member? = none ∧ after.file = statement.leave file ∧
        next = ⟨site.addStatement statement, .entry .site⟩ := by
  refine (keyword spelled step).first ?_
  rintro _ _ _ ⟨rfl, rfl, rfl⟩
  refine importKind.seq ?_
  rintro kind ⟨_, _⟩ next ⟨rfl, ends, steps⟩
  refine (stringLiteral ends steps).seq ?_
  rintro path ⟨_, _⟩ _ ⟨rfl, rfl⟩
  refine (expect (g := fun _ => ⟨site.addStatement _, .entry .site⟩) (fun _ => rfl) fun _ _ => rfl).seq ?_
  rintro - ⟨_, _⟩ _ ⟨-, -, rfl, rfl⟩
  exact written ⟨.imports ⟨path.text, kind, t.line, ⟨t.span.start, path.span.stop⟩⟩, rfl, rfl, rfl⟩

theorem dialect (spelled : t.is "syntax") (step : r.step t = .ok ⟨site, .dialectEquals⟩) :
    Follows 1 Descent.dialect ⟨t :: rest, file⟩ r fun _ after next =>
      ∃ statement : Statement, statement.member? = none ∧ after.file = statement.leave file ∧
        next = ⟨site.addStatement statement, .entry .site⟩ := by
  refine (keyword spelled step).first ?_
  rintro _ _ _ ⟨rfl, rfl, rfl⟩
  refine (expect (g := fun _ => ⟨site, .dialectValue⟩) (fun _ => rfl) fun _ _ => rfl).seq ?_
  rintro - ⟨_, _⟩ _ ⟨-, -, rfl, rfl⟩
  refine (stringLiteral (g := fun t => ⟨site, .statementEnd (.dialect t.text)⟩) (fun _ => rfl) fun _ _ => rfl).seq ?_
  rintro value ⟨_, _⟩ _ ⟨rfl, rfl⟩
  refine (expect (g := fun _ => ⟨site.addStatement _, .entry .site⟩) (fun _ => rfl) fun _ _ => rfl).seq ?_
  rintro - ⟨_, _⟩ _ ⟨-, -, rfl, rfl⟩
  exact written ⟨.dialect value.text, rfl, rfl, rfl⟩

theorem package (spelled : t.is "package") (step : r.step t = .ok ⟨site, .packageName⟩) :
    Follows 1 Descent.package ⟨t :: rest, file⟩ r fun _ after next =>
      ∃ statement : Statement, statement.member? = none ∧ after.file = statement.leave file ∧
        next = ⟨site.addStatement statement, .entry .site⟩ := by
  refine (keyword spelled step).first ?_
  rintro _ _ _ ⟨rfl, rfl, rfl⟩
  refine (dottedName (g := fun name => .statementEnd (.package name)) (fun _ => rfl) fun _ _ => rfl).seq ?_
  rintro name ⟨_, _⟩ _ ⟨-, rfl, rfl⟩
  refine (expect (g := fun _ => ⟨site.addStatement _, .entry .site⟩) (fun _ => rfl) fun _ _ => rfl).seq ?_
  rintro - ⟨_, _⟩ _ ⟨-, -, rfl, rfl⟩
  exact written ⟨.package name.text, rfl, rfl, rfl⟩

end Follows

end Descent

end ProtoSchema
