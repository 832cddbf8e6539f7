import ProtoSchema.Proofs.Reader.Accepts

namespace ProtoSchema

/-- Whether the new declarations in some content are called by identifiers. -/
structure Content.WellNamed (content : Content) : Prop where
  messages : ∀ message ∈ content.newMessages, isIdentifier message.name.toList
  enums : ∀ enum ∈ content.newEnums, isIdentifier enum.name.toList

theorem Content.WellNamed.append {a b : Content} (first : a.WellNamed) (second : b.WellNamed) :
    (a.append b).WellNamed :=
  ⟨List.forall_mem_append.2 ⟨first.messages, second.messages⟩, List.forall_mem_append.2 ⟨first.enums, second.enums⟩⟩

/-- Whether the declarations of a file are called by identifiers, and its package by a relative name. -/
structure File.WellNamed (file : File) : Prop where
  messages : ∀ message ∈ file.messageTable, isIdentifier message.name.toList
  enums : ∀ enum ∈ file.enumTable, isIdentifier enum.name.toList
  package : ∀ package ∈ file.package, isRelativeName package.toList

namespace Grammar

theorem Derives.wellNamed {part : Part} {scope : Scope} {room : Room} {ts : List Token} {content : Content}
    (derives : Derives part scope room ts content) : content.WellNamed := by
  induction derives with
  | message _ identifier _ _ _ ih => exact ⟨List.forall_mem_cons.2 ⟨identifier.2, ih.messages⟩, ih.enums⟩
  | enum block =>
    cases block with
    | mk _ identifier _ _ _ => exact ⟨List.forall_mem_nil _, List.forall_mem_singleton.2 identifier.2⟩
  | extend _ _ _ _ _ ih | group _ _ _ _ ih => exact ⟨ih.messages, ih.enums⟩
  | simple | oneof | map | semicolon | skipped | nil => exact ⟨List.forall_mem_nil _, List.forall_mem_nil _⟩
  | declared _ ih | member _ _ ih | extended _ ih => exact ih
  | cons _ _ first rest => exact first.append rest

theorem Toplevel.wellNamed {file next : File} {ts : List Token} (toplevel : Toplevel file ts next)
    (named : file.WellNamed) : next.WellNamed := by
  cases toplevel with
  | semicolon | skipped | dialect | imports | service => exact ⟨named.messages, named.enums, named.package⟩
  | package _ relative _ =>
    refine ⟨named.messages, named.enums, ?_⟩
    rintro _ ⟨⟩
    exact relative.2
  | declared inner =>
    exact ⟨List.forall_mem_append.2 ⟨named.messages, inner.wellNamed.messages⟩,
      List.forall_mem_append.2 ⟨named.enums, inner.wellNamed.enums⟩, named.package⟩

theorem Statements.wellNamed {file last : File} {ts : List Token} (statements : Statements file ts last)
    (named : file.WellNamed) : last.WellNamed := by
  induction statements with
  | nil => exact named
  | cons first _ ih => exact ih (first.wellNamed named)

end Grammar

theorem parse_wellNamed {name source : String} {file : File} (parsed : parse name source = .ok file) :
    file.WellNamed := by
  obtain ⟨tokens, -, statements⟩ := parse_eq_ok_iff.1 parsed
  exact Grammar.Statements.wellNamed statements ⟨List.forall_mem_nil _, List.forall_mem_nil _, by simp [File.named]⟩

end ProtoSchema
