import ProtoSchema.Proofs.Grammar.Names

namespace ProtoSchema

/-- Whether some references are by names of types. -/
def TypeNamed (refs : List TypeRef) : Prop :=
  ∀ ref ∈ refs, isTypeName ref.name.toList

namespace TypeNamed

variable {refs more : List TypeRef} {ref : TypeRef}

theorem nil : TypeNamed [] :=
  List.forall_mem_nil _

theorem cons (first : isTypeName ref.name.toList) (rest : TypeNamed refs) : TypeNamed (ref :: refs) :=
  List.forall_mem_cons.2 ⟨first, rest⟩

theorem append_iff : TypeNamed (refs ++ more) ↔ TypeNamed refs ∧ TypeNamed more :=
  List.forall_mem_append

theorem append (first : TypeNamed refs) (second : TypeNamed more) : TypeNamed (refs ++ more) :=
  append_iff.2 ⟨first, second⟩

theorem flatMap {α : Type} {items : List α} {f : α → List TypeRef} (each : ∀ item ∈ items, TypeNamed (f item)) :
    TypeNamed (items.flatMap f) := by
  intro ref member
  obtain ⟨item, among, inItem⟩ := List.mem_flatMap.1 member
  exact each item among ref inItem

end TypeNamed

/-- Whether all references in some content are by names of types. -/
structure Content.TypeNamed (content : Content) : Prop where
  fields : ProtoSchema.TypeNamed (Field.typesOfAll content.fields)
  extensions : ProtoSchema.TypeNamed (content.extensions.flatMap Extension.types)
  messages : ProtoSchema.TypeNamed (content.newMessages.flatMap Message.types)

namespace Content.TypeNamed

variable {a b content : Content} {field : Field}

theorem empty : Content.empty.TypeNamed :=
  ⟨.nil, .nil, .nil⟩

theorem ofField (types : ProtoSchema.TypeNamed field.types) : (Content.ofField field).TypeNamed := by
  refine ⟨?_, .nil, .nil⟩
  simpa [Content.ofField, Field.typesOfAll] using types

theorem append (first : a.TypeNamed) (second : b.TypeNamed) : (a.append b).TypeNamed := by
  refine ⟨?_, ?_, ?_⟩
  · have fields := first.fields.append second.fields
    rwa [Field.typesOfAll_eq_flatMap, Field.typesOfAll_eq_flatMap, ← List.flatMap_append,
      ← Field.typesOfAll_eq_flatMap] at fields
  · simpa [Content.append] using first.extensions.append second.extensions
  · simpa [Content.append] using first.messages.append second.messages

end Content.TypeNamed

namespace Grammar

theorem Lead.typeNamed {ts : List Token} {comment : Option String} {cardinality : Cardinality} {type : String}
    (lead : Lead ts comment cardinality type) : isTypeName type.toList := by
  cases lead with
  | unmarked _ typed | marked _ _ typed => exact typed.2

theorem Argument.typeNamed {ts : List Token} {operand : OperandDecl} (argument : Argument ts operand) :
    isTypeName operand.type.toList := by
  cases argument with
  | single typed | stream _ typed => exact typed.2

theorem Entries.forall {α : Type} {keywords : List String} {entry : List Token → α → Prop} {ts : List Token}
    {items : List α} {p : α → Prop} (entries : Entries keywords entry ts items) (each : ∀ us x, entry us x → p x) :
    ∀ x ∈ items, p x := by
  induction entries with
  | nil => exact List.forall_mem_nil _
  | semicolon _ _ ih | skipped _ _ _ ih => exact ih
  | cons _ first _ ih => exact List.forall_mem_cons.2 ⟨each _ _ first, ih⟩

theorem Choice.typeNamed {scope : Scope} {ts : List Token} {field : SimpleField} (choice : Choice scope ts field) :
    isTypeName field.type.name.toList := by
  obtain ⟨typed, _⟩ := choice
  exact typed.2

theorem Rpc.typeNamed {ts : List Token} {method : Method} (rpc : Rpc ts method) :
    TypeNamed [method.input.type, method.output.type] := by
  cases rpc with
  | mk _ _ _ takes _ _ gives _ => exact .cons takes.typeNamed (.cons gives.typeNamed .nil)

theorem Derives.typeNamed {part : Part} {scope : Scope} {room : Room} {ts : List Token} {content : Content}
    (derives : Derives part scope room ts content) : content.TypeNamed := by
  induction derives with
  | message _ _ _ _ _ ih => exact ⟨.nil, .nil, (ih.fields.append ih.extensions).append ih.messages⟩
  | enum _ => exact ⟨.nil, .nil, .nil⟩
  | @extend scope _ _ extendee _ _ _ content _ typed _ _ _ ih =>
    have extended : TypeNamed (⟨extendee.text, scope⟩ :: Field.typesOfAll content.fields) := .cons typed.2 ih.fields
    refine ⟨.nil, ?_, ih.messages⟩
    simpa [Extension.types] using extended
  | group _ _ _ _ ih =>
    refine ⟨?_, ih.extensions, ih.messages⟩
    simpa [Field.typesOfAll, Field.types] using ih.fields
  | simple begins _ _ => exact .ofField (.cons begins.typeNamed .nil)
  | oneof block =>
    cases block with
    | mk _ _ _ body _ =>
      refine .ofField ?_
      have each := body.forall fun _ _ choice => Choice.typeNamed choice
      simpa [Field.types, TypeNamed] using each
  | map entry =>
    cases entry with
    | mk _ _ keyed _ valued _ _ => exact .ofField (.cons keyed.2 (.cons valued.2 .nil))
  | semicolon | skipped | nil => exact .empty
  | declared _ ih | member _ _ ih | extended _ ih => exact ih
  | cons _ _ first rest => exact first.append rest

theorem Toplevel.typeNamed {file next : File} {ts : List Token} (toplevel : Toplevel file ts next)
    (named : TypeNamed file.types) : TypeNamed next.types := by
  cases toplevel with
  | semicolon | skipped | dialect | imports | package => exact named
  | service block =>
    cases block with
    | mk _ _ _ body _ =>
      have each := body.forall fun _ _ rpc => Rpc.typeNamed rpc
      simpa [File.types, Service.types] using named.append (TypeNamed.flatMap each)
  | declared inner =>
    have types := inner.typeNamed
    simp only [File.types, File.add, List.flatMap_append, TypeNamed.append_iff] at named ⊢
    exact ⟨⟨⟨named.1.1, types.messages⟩, named.1.2, types.extensions⟩, named.2⟩

theorem Statements.typeNamed {file last : File} {ts : List Token} (statements : Statements file ts last)
    (named : TypeNamed file.types) : TypeNamed last.types := by
  induction statements with
  | nil => exact named
  | cons first _ ih => exact ih (first.typeNamed named)

end Grammar

theorem parse_typeNamed {name source : String} {file : File} (parsed : parse name source = .ok file) :
    TypeNamed file.types := by
  obtain ⟨tokens, -, statements⟩ := parse_eq_ok_iff.1 parsed
  exact Grammar.Statements.typeNamed statements .nil

end ProtoSchema
