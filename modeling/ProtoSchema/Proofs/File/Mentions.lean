import ProtoSchema.Proofs.File.Children
import ProtoSchema.Proofs.File.KeywordOrder
import ProtoSchema.Proofs.Reader.Mentions

namespace ProtoSchema

/-- The references that a file keeps, of those in its source. -/
def keptTypes (mentions : List Mention) : List TypeRef :=
  (mentions.filter fun mention => mention.extensions ≤ 1).map Mention.ref

@[simp] theorem keptTypes_append (a b : List Mention) : keptTypes (a ++ b) = keptTypes a ++ keptTypes b := by
  simp [keptTypes]

@[simp] theorem keptTypes_cons (p : Position) (type : String) (rest : List Mention) :
    keptTypes (p.mention type :: rest) =
      if p.extensions ≤ 1 then ⟨type, p.scope⟩ :: keptTypes rest else keptTypes rest := by
  by_cases kept : p.extensions ≤ 1 <;> simp [keptTypes, Position.mention, kept]

@[simp] theorem keptTypes_nil : keptTypes [] = [] := rfl

theorem keptTypes_map {α : Type} (p : Position) (type : α → String) (list : List α) :
    keptTypes (list.map fun a => p.mention (type a)) =
      if p.extensions ≤ 1 then list.map fun a => ⟨type a, p.scope⟩ else [] := by
  induction list with
  | nil => simp
  | cons a list ih =>
    rw [List.map_cons, keptTypes_cons, ih]
    split <;> rfl

namespace Content

/-- The types in some content that a file keeps, when the content stands inside of some extensions of its scope. -/
def typesIn (extensions : Nat) (content : Content) : List TypeRef :=
  (if extensions ≤ 1 then Field.typesOfAll content.fields else []) ++
    (if extensions = 0 then content.extensions.flatMap Extension.types else []) ++
    content.newMessages.flatMap Message.types

theorem typesIn_append (extensions : Nat) (a b : Content) :
    (a.append b).typesIn extensions |>.Perm (a.typesIn extensions ++ b.typesIn extensions) := by
  refine List.perm_iff_count.2 fun ref => ?_
  by_cases inner : extensions ≤ 1 <;> by_cases outer : extensions = 0 <;>
    simp [typesIn, append, Field.typesOfAll_eq_flatMap, inner, outer] <;> omega

theorem typesIn_ofField (extensions : Nat) (field : Field) :
    (ofField field).typesIn extensions = if extensions ≤ 1 then field.types else [] := by
  simp [typesIn, ofField, empty, Field.typesOfAll]

theorem typesIn_asMessage (extensions : Nat) (head : MessageHead) (id : MessageId) (owner : Scope) (content : Content) :
    (content.asMessage head id owner).typesIn extensions = content.typesIn 0 := by
  simp [typesIn, asMessage, Field.typesOfAll, Message.types, Message.fieldTypes]

theorem typesIn_asExtension (extensions : Nat) (head : ExtendHead) (scope : Scope) (content : Content) :
    (content.asExtension head scope).typesIn extensions =
      (if extensions = 0 then [⟨head.extendee, scope⟩] else []) ++ content.typesIn (extensions + 1) := by
  by_cases outer : extensions = 0 <;> simp [typesIn, asExtension, Field.typesOfAll, Extension.types, outer]

theorem typesIn_asGroup (extensions : Nat) (head : GroupHead) (content : Content) :
    (content.asGroup head).typesIn extensions = content.typesIn extensions := by
  simp [typesIn, asGroup, Field.typesOfAll, Field.types]

end Content

theorem Member.length_newMessages (member : Member) (scope : Scope) (room : Room) :
    (member.layout scope room).newMessages.length = Title.messages member.titles := by
  have rows := member.titles_layout scope room .messages
  rw [Title.messages, List.countP_eq_length_filter, ← rows, Content.titles, List.length_map]

mutual

theorem Member.keptTypes_mentions {p : Position} {room : Room} (place : p.messages = room.messages) :
    (member : Member) → (keptTypes (member.mentions p)).Perm ((member.layout p.scope room).typesIn p.extensions)
  | .field field => by
    simp [Member.mentions, Member.layout, Content.typesIn_ofField, FieldDecl.layout, Field.types]
  | .oneof oneof => by
    simp [Member.mentions, OneofDecl.mentions, keptTypes_map, Member.layout, Content.typesIn_ofField,
      OneofDecl.layout, Field.types, FieldDecl.layout, Function.comp_def]
  | .map map => by
    by_cases kept : p.extensions ≤ 1 <;>
      simp [Member.mentions, Member.layout, Content.typesIn_ofField, MapDecl.layout, Field.types, kept]
  | .enum decl => by
    simp [Member.mentions, Member.layout, Content.ofEnum, Content.empty, Content.typesIn, Field.typesOfAll]
  | .group head body => by
    rw [Member.layout, Content.typesIn_asGroup]
    exact keptTypes_mentionsOfAll place body
  | .message head body => by
    have begun : (p.within (.message head)).messages = (Room.mk (room.messages + 1) room.enums).messages :=
      congrArg (· + 1) place
    have inner := keptTypes_mentionsOfAll begun body
    rw [Position.within, place] at inner
    rw [Member.layout, Content.typesIn_asMessage, Member.mentions, Position.within, place]
    exact inner
  | .extend head body => by
    have begun : (p.within (.extend head)).messages = room.messages := place
    have inner := keptTypes_mentionsOfAll begun body
    rw [Member.layout, Content.typesIn_asExtension, Member.mentions, keptTypes_append]
    refine List.Perm.append (List.Perm.of_eq ?_) inner
    by_cases outer : p.extensions = 0 <;> simp [BodyHead.mentions, Position.within, outer]

theorem keptTypes_mentionsOfAll {p : Position} {room : Room} (place : p.messages = room.messages) :
    (members : List Member) →
      (keptTypes (mentionsOfAll p members)).Perm ((layoutAll p.scope room members).typesIn p.extensions)
  | [] => by simp [mentionsOfAll, layoutAll, Content.typesIn, Content.empty, Field.typesOfAll]
  | member :: rest => by
    have first := member.keptTypes_mentions place
    have next : (p.after member.titles).messages = ((member.layout p.scope room).roomAfter room).messages := by
      rw [Position.after, Content.roomAfter, member.length_newMessages, place]
    have more := keptTypes_mentionsOfAll next rest
    rw [mentionsOfAll, keptTypes_append, layoutAll]
    exact (first.append more).trans (Content.typesIn_append _ _ _).symm

end

theorem ServiceDecl.keptTypes_mentions {p : Position} (top : p.scope = .file) (outside : p.extensions = 0)
    (decl : ServiceDecl) : keptTypes (decl.mentions p) = decl.layout.types := by
  have each (methods : List MethodDecl) : keptTypes (methods.flatMap (MethodDecl.mentions p)) =
      methods.flatMap fun method => [⟨method.input.type, .file⟩, ⟨method.output.type, .file⟩] := by
    induction methods with
    | nil => rfl
    | cons method methods ih => simp [MethodDecl.mentions, ih, top, outside]
  rw [ServiceDecl.mentions, each, Service.types, ServiceDecl.layout, List.flatMap_map]
  rfl

theorem keptTypes_mentionsOfStatements {p : Position} {room : Room} (statements : List Statement)
    (top : p.scope = .file) (outside : p.extensions = 0) (place : p.messages = room.messages) :
    (keptTypes (mentionsOfStatements p statements)).Perm
      ((layoutAll .file room (statements.filterMap Statement.member?)).typesIn 0 ++
        ((statements.filterMap Statement.service?).map ServiceDecl.layout).flatMap Service.types) := by
  induction statements generalizing p room with
  | nil => simp [mentionsOfStatements, layoutAll, Content.typesIn, Content.empty, Field.typesOfAll]
  | cons statement rest ih =>
    rw [mentionsOfStatements, keptTypes_append]
    cases statement with
    | dialect | package | imports => exact ih top outside place
    | service decl =>
      have more := ih top outside place
      rw [Statement.mentions, decl.keptTypes_mentions top outside]
      exact (more.append_left _).trans (List.perm_append_comm_assoc _ _ _)
    | member declared =>
      have first := declared.keptTypes_mentions place
      rw [top, outside] at first
      have next : (p.after declared.titles).messages = ((declared.layout .file room).roomAfter room).messages := by
        rw [Position.after, Content.roomAfter, declared.length_newMessages, place]
      have more := ih (p := p.after declared.titles) top outside next
      refine (first.append more).trans ?_
      rw [← List.append_assoc]
      exact (Content.typesIn_append _ _ _).symm.append_right _

theorem fields_layoutAll {members : List Member} (declares : ∀ member ∈ members, member.Declares) (scope : Scope)
    (room : Room) : (layoutAll scope room members).fields = [] := by
  induction members generalizing room with
  | nil => rfl
  | cons member rest ih =>
    obtain ⟨first, others⟩ := List.forall_mem_cons.1 declares
    rw [layoutAll, Content.append, ih others]
    cases member with
    | field | oneof | map | group => exact first.elim
    | message | enum | extend => rfl

theorem File.types_ofStatements (name : String) {statements : List Statement}
    (declares : ∀ statement ∈ statements, statement.Declares) :
    (ofStatements name statements).types.Perm (keptTypes (mentionsOfStatements .start statements)) := by
  have members : ∀ member ∈ statements.filterMap Statement.member?, member.Declares := by
    intro member among
    obtain ⟨statement, listed, isMember⟩ := List.mem_filterMap.1 among
    cases statement with
    | member declared =>
      obtain rfl := Option.some.inj isMember
      exact declares _ listed
    | dialect | package | imports | service => cases isMember
  have bare := fields_layoutAll members .file ⟨0, 0⟩
  have place : Position.start.messages = (Room.mk 0 0).messages := rfl
  have kept := keptTypes_mentionsOfStatements statements rfl rfl place
  refine List.Perm.trans ?_ kept.symm
  simp only [types, ofStatements, Content.typesIn, bare, Field.typesOfAll, if_true, ite_self, List.nil_append]
  exact List.perm_append_comm.append_right _

theorem mentions_of_readStatements {tokens : List Token} {statements : List Statement}
    (read : readStatements tokens = .ok statements) :
    mentions tokens = mentionsOfStatements .start statements ∧ ∀ statement ∈ statements, statement.Declares := by
  unfold readStatements at read
  cases ran : Reader.start.run tokens with
  | error fault =>
    rw [ran] at read
    cases read
  | ok r =>
    rw [ran] at read
    obtain rfl := Reader.eq_of_finish read
    refine ⟨?_, (Reader.nested_of_run ran).site.1⟩
    rw [mentions_eq, ← (Reader.mentioned_of_run ran).mentions]
    exact List.append_nil _

theorem parse_eq_ok_statements {name source : String} {file : File} (parsed : parse name source = .ok file) :
    ∃ tokens statements, tokenize name source = .ok tokens ∧ readStatements tokens = .ok statements ∧
      file = .ofStatements name statements := by
  unfold parse at parsed
  cases scanned : scanTokens source.toList with
  | error fault =>
    rw [scanned] at parsed
    cases parsed
  | ok tokens =>
    rw [scanned] at parsed
    cases read : readStatements tokens with
    | error fault =>
      simp only [Except.bind, read] at parsed
      cases parsed
    | ok statements =>
      simp only [Except.bind, read] at parsed
      exact ⟨tokens, statements, tokenize_eq_ok.2 scanned, read, (Except.ok.inj parsed).symm⟩

/-- The types of a parsed file are the references of its source in the scopes that they are written in, each of them
once, but for those inside an extension of a scope that is inside another extension of that scope. -/
theorem parse_types {name source : String} {file : File} (parsed : parse name source = .ok file) :
    ∃ tokens, tokenize name source = .ok tokens ∧ file.types.Perm (keptTypes (mentions tokens)) := by
  obtain ⟨tokens, statements, scanned, read, rfl⟩ := parse_eq_ok_statements parsed
  obtain ⟨same, declares⟩ := mentions_of_readStatements read
  exact ⟨tokens, scanned, same ▸ File.types_ofStatements name declares⟩

/-- A group in an extension, with another extension and a message inside. -/
def extendedTwice : String :=
  "extend A \x7b optional group G = 1 \x7b extend A \x7b optional A a = 2; \x7d message M \x7b A a = 3; \x7d \x7d \x7d"

theorem parse_extendedTwice : ∃ tokens file, tokenize "m" extendedTwice = .ok tokens ∧
    parse "m" extendedTwice = .ok file ∧
    mentions tokens = [⟨⟨"A", .file⟩, 1⟩, ⟨⟨"A", .file⟩, 2⟩, ⟨⟨"A", .file⟩, 2⟩, ⟨⟨"A", .message ⟨0⟩⟩, 0⟩] ∧
    file.types = [⟨"A", .message ⟨0⟩⟩, ⟨"A", .file⟩] := by
  have evaluated : ((parse "m" extendedTwice).toOption.map File.types =
    some [⟨"A", .message ⟨0⟩⟩, ⟨"A", .file⟩]) := by decide +kernel
  have evaluatedMentions : (tokenize "m" extendedTwice).toOption.map mentions =
    some [⟨⟨"A", .file⟩, 1⟩, ⟨⟨"A", .file⟩, 2⟩, ⟨⟨"A", .file⟩, 2⟩, ⟨⟨"A", .message ⟨0⟩⟩, 0⟩] := by decide +kernel
  obtain ⟨file, parsed, types⟩ := parse_of_map_toOption evaluated
  obtain ⟨tokens, -, scanned, -, -⟩ := parse_eq_ok_statements parsed
  rw [scanned] at evaluatedMentions
  exact ⟨tokens, file, scanned, parsed, Option.some.inj evaluatedMentions, types⟩

/-- Of four references, the two in the inner extension are lost. -/
theorem parse_types_extendedTwice : ∃ tokens file, tokenize "m" extendedTwice = .ok tokens ∧
    parse "m" extendedTwice = .ok file ∧ (mentions tokens).map Mention.extensions = [1, 2, 2, 0] ∧
    file.types.Perm [⟨"A", .file⟩, ⟨"A", .message ⟨0⟩⟩] := by
  obtain ⟨tokens, file, scanned, parsed, known, -⟩ := parse_extendedTwice
  obtain ⟨others, scannedAgain, kept⟩ := parse_types parsed
  rw [scanned] at scannedAgain
  obtain rfl := Except.ok.inj scannedAgain
  refine ⟨tokens, file, scanned, parsed, by rw [known]; rfl, ?_⟩
  rw [known] at kept
  exact kept

theorem extendedTwice_loses : ∃ tokens file, tokenize "m" extendedTwice = .ok tokens ∧
    parse "m" extendedTwice = .ok file ∧ ¬file.types.Perm ((mentions tokens).map Mention.ref) := by
  obtain ⟨tokens, file, scanned, parsed, known, types⟩ := parse_extendedTwice
  refine ⟨tokens, file, scanned, parsed, ?_⟩
  rw [known, types]
  decide

end ProtoSchema
