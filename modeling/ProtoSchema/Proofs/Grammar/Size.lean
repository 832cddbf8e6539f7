import ProtoSchema.Proofs.Reader.Accepts

namespace ProtoSchema

/-- The number of references to types in some content. -/
def Content.uses (content : Content) : Nat :=
  (content.newMessages.flatMap Message.types).length + (content.extensions.flatMap Extension.types).length +
    (Field.typesOfAll content.fields).length

/-- The number of imports of a file and of its references to types. -/
def File.size (file : File) : Nat :=
  file.imports.length + file.types.length

namespace Content

@[simp] theorem uses_empty : empty.uses = 0 := rfl

@[simp] theorem uses_append (a b : Content) : (a.append b).uses = a.uses + b.uses := by
  simp only [uses, append, Field.typesOfAll_eq_flatMap, List.flatMap_append, List.length_append]
  omega

end Content

theorem File.size_add (file : File) (content : Content) (bare : content.fields = []) :
    (file.add content).size = file.size + content.uses := by
  simp only [size, types, add, Content.uses, bare, Field.typesOfAll, List.flatMap_append, List.length_append,
    List.length_nil]
  omega

theorem Service.length_types (service : Service) : service.types.length = service.methods.length * 2 := by
  rw [types]
  induction service.methods with
  | nil => rfl
  | cons method methods ih =>
    rw [List.flatMap_cons, List.length_append, ih, List.length_cons]
    simp only [List.length_cons, List.length_nil]
    omega

namespace Grammar

/-- Entries of at least `cost` tokens each are no more than fit into the tokens. -/
theorem Entries.length_mul_le {α : Type} {keywords : List String} {entry : List Token → α → Prop} {ts : List Token}
    {xs : List α} (entries : Entries keywords entry ts xs) (cost : Nat)
    (costs : ∀ us x, entry us x → cost ≤ us.length) : xs.length * cost ≤ ts.length := by
  induction entries with
  | nil => simp
  | semicolon _ _ ih => exact Nat.le_trans ih (Nat.le_succ _)
  | skipped _ _ _ ih =>
    simp only [List.length_cons, List.length_append]
    omega
  | cons _ first _ ih =>
    have one := costs _ _ first
    simp only [List.length_cons, List.length_append, Nat.succ_mul] at one ⊢
    omega

theorem Choice.one_le {scope : Scope} {ts : List Token} {field : SimpleField} (choice : Choice scope ts field) :
    1 ≤ ts.length := by
  cases choice
  simp

theorem Rpc.two_le {ts : List Token} {method : Method} (rpc : Rpc ts method) : 2 ≤ ts.length := by
  cases rpc
  simp

theorem Lead.one_le {ts : List Token} {comment : Option String} {cardinality : Cardinality} {type : String}
    (lead : Lead ts comment cardinality type) : 1 ≤ ts.length := by
  cases lead <;> simp

/-- What tokens derive refers to no more types than there are tokens. -/
theorem Derives.uses_le {part : Part} {scope : Scope} {room : Room} {ts : List Token} {content : Content}
    (derives : Derives part scope room ts content) : content.uses ≤ ts.length := by
  induction derives with
  | message _ _ _ _ _ ih =>
    simp only [Content.uses, Message.types, Message.fieldTypes, Field.typesOfAll, List.flatMap_cons, List.flatMap_nil,
      List.length_append, List.length_cons, List.length_nil] at ih ⊢
    omega
  | enum => simp [Content.uses, Field.typesOfAll]
  | extend _ _ _ _ _ ih =>
    -- The extended type is one more, and what extensions inside it refer to is dropped.
    simp only [Content.uses, Extension.types, Field.typesOfAll, List.flatMap_cons, List.flatMap_nil, List.append_nil,
      List.length_append, List.length_cons, List.length_nil] at ih ⊢
    omega
  | simple begins =>
    have one := begins.one_le
    simp only [Content.uses, Field.types, Field.typesOfAll, List.flatMap_nil, List.append_nil, List.length_append,
      List.length_cons, List.length_nil]
    omega
  | group _ _ _ _ ih =>
    simp only [Content.uses, Field.types, Field.typesOfAll, List.append_nil, List.length_append] at ih ⊢
    omega
  | oneof block =>
    cases block with
    | mk _ _ _ body _ =>
      have choices := body.length_mul_le 1 fun _ _ => Choice.one_le
      simp only [Content.uses, Field.types, Field.typesOfAll, List.flatMap_nil, List.append_nil, List.length_append,
        List.length_map, List.length_cons, List.length_nil]
      omega
  | map entry =>
    cases entry
    simp [Content.uses, Field.types, Field.typesOfAll]
  | semicolon | skipped | nil => simp
  | declared _ ih | member _ _ ih | extended _ ih => exact ih
  | cons _ _ first rest =>
    simp only [Content.uses_append, List.length_append]
    omega

/-- A declaration leaves no fields at the top of a file. -/
theorem Derives.fields_eq_nil {scope : Scope} {room : Room} {ts : List Token} {content : Content}
    (derives : Derives .declaration scope room ts content) : content.fields = [] := by
  cases derives <;> rfl

theorem Toplevel.size_le {file next : File} {ts : List Token} (toplevel : Toplevel file ts next) :
    next.size ≤ file.size + ts.length := by
  cases toplevel with
  | semicolon | skipped | dialect | package => exact Nat.le_add_right _ _
  | imports =>
    simp only [File.size, File.types, List.length_append, List.length_cons, List.length_nil]
    omega
  | service block =>
    cases block with
    | mk _ _ _ body _ =>
      have rpcs := body.length_mul_le 2 fun _ _ => Rpc.two_le
      simp only [File.size, File.types, List.flatMap_append, List.flatMap_cons, List.flatMap_nil, List.append_nil,
        List.length_append, List.length_cons, List.length_nil, Service.length_types]
      omega
  | declared inner =>
    rw [File.size_add _ _ inner.fields_eq_nil]
    exact Nat.add_le_add_left inner.uses_le _

theorem Statements.size_le {file last : File} {ts : List Token} (statements : Statements file ts last) :
    last.size ≤ file.size + ts.length := by
  induction statements with
  | nil => exact Nat.le_add_right _ _
  | cons first _ ih =>
    have one := first.size_le
    rw [List.length_append]
    omega

end Grammar

theorem Tiles.length_le {before source : List Char} {tokens : List Token} (tiles : Tiles before source tokens) :
    tokens.length ≤ Text.byteLength source := by
  induction tiles with
  | done => simp
  | token _ _ some _ _ ih =>
    have positive := byteLength_pos some
    simp only [List.length_cons, Text.byteLength_append]
    omega

theorem Text.byteLength_toList (text : String) : byteLength text.toList = text.utf8ByteSize := by
  have whole (chars : List Char) : byteLength chars = (String.ofList chars).utf8ByteSize := by
    induction chars with
    | nil => rfl
    | cons c chars ih => rw [byteLength, ih, String.ofList_cons, String.utf8ByteSize_append, String.utf8ByteSize_singleton]
  rw [whole, String.ofList_toList]

/-- A file has no more imports and references to types than its source has bytes. -/
theorem size_le_of_parse {name source : String} {file : File} (parsed : parse name source = .ok file) :
    file.size ≤ source.utf8ByteSize := by
  obtain ⟨tokens, scanned, statements⟩ := parse_eq_ok_iff.1 parsed
  calc
    file.size ≤ (File.named name).size + tokens.length := Grammar.Statements.size_le statements
    _ = tokens.length := Nat.zero_add _
    _ ≤ Text.byteLength source.toList := (scanTokens_tiles scanned).length_le
    _ = source.utf8ByteSize := Text.byteLength_toList source

/-- The name under which a source is parsed shows nowhere but in the name of its file. -/
theorem parse_rename {name source : String} {file : File} (parsed : parse name source = .ok file) (other : String) :
    parse other source = .ok { file with name := other } := by
  unfold parse at parsed ⊢
  cases read : (scanTokens source.toList).bind readStatements with
  | error fault =>
    rw [read] at parsed
    contradiction
  | ok statements =>
    rw [read] at parsed
    obtain rfl := Except.ok.inj parsed
    rfl

end ProtoSchema
