import ProtoSchema.Proofs.File.Alike
import ProtoSchema.Proofs.Token.Returns

namespace ProtoSchema

open Text (withReturns byteLength)

section Places

@[simp] theorem Relabel.unspan_comment (comment : Option String) : unspan.comment comment = comment := rfl

@[simp] theorem Relabel.unspan_line (line : Nat) : unspan.line line = line := rfl

@[simp] theorem Operand.past_zero (operand : Operand) : operand.past ⟨0, 0⟩ = operand := by
  simp [past]

@[simp] theorem Relabel.unspan_simpleField : unspan.simpleField ⟨0, 0⟩ = id := by
  funext field
  simp [simpleField]

mutual

theorem Relabel.unspan_field : (field : Field) → unspan.field ⟨0, 0⟩ field = field
  | .simple field => by simp [Relabel.field]
  | .oneof choice => by simp [Relabel.field, Relabel.oneof]
  | .map field => by simp [Relabel.field, mapField]
  | .group head fields => by simp [Relabel.field, groupHead, unspan_fields fields]

theorem Relabel.unspan_fields : (fields : List Field) → unspan.fields ⟨0, 0⟩ fields = fields
  | [] => rfl
  | first :: rest => by rw [Relabel.fields, unspan_field first, unspan_fields rest]

end

@[simp] theorem Relabel.unspan_extension : unspan.extension ⟨0, 0⟩ = id := by
  funext extension
  simp [Relabel.extension, unspan_fields]

@[simp] theorem Relabel.unspan_message : unspan.message ⟨0, 0⟩ = id := by
  funext message
  simp [Relabel.message, unspan_fields]

@[simp] theorem Relabel.unspan_enumValue : unspan.enumValue = id := rfl

@[simp] theorem Relabel.unspan_enum : unspan.enum ⟨0, 0⟩ = id := by
  funext enum
  simp [Relabel.enum]

@[simp] theorem Relabel.unspan_method : unspan.method ⟨0, 0⟩ = id := by
  funext method
  simp [Relabel.method]

@[simp] theorem Relabel.unspan_service : unspan.service ⟨0, 0⟩ = id := by
  funext service
  simp [Relabel.service]

/-- Only the imports of a file keep spans. -/
theorem Relabel.unspan_file (file : File) :
    unspan.file ⟨0, 0⟩ file = { file with imports := file.imports.map unspan.importDecl } := by
  simp [Relabel.file]

end Places

/-- Files that are the same without the spans of their imports. -/
theorem File.eq_of_unspan {a b : File} (same : Relabel.unspan.file ⟨0, 0⟩ a = Relabel.unspan.file ⟨0, 0⟩ b) :
    b = { a with imports := b.imports } ∧
      List.Forall₂ (fun i j => j = { i with span := j.span }) a.imports b.imports := by
  rw [Relabel.unspan_file, Relabel.unspan_file] at same
  obtain ⟨name, package, dialect, imports, messages, enums, services, extensions, messageTable, enumTable⟩ := a
  obtain ⟨rfl, rfl, rfl, sameImports, rfl, rfl, rfl, rfl, rfl, rfl⟩ := File.mk.inj same
  refine ⟨rfl, (map_eq_map_iff_forall₂.1 sameImports).imp fun i j sameImport => ?_⟩
  obtain ⟨path, kind, line, span⟩ := i
  obtain ⟨rfl, rfl, rfl, -⟩ := Import.mk.inj sameImport
  rfl

theorem Relabel.erase_unspan (fault : Fault) : erase.fault (unspan.fault fault) = erase.fault fault := by
  cases fault <;> rfl

/-- Alike faults are both at the end, or both at the token of one number. -/
theorem Fault.Alike.span? {ts us : List Token} {f g : Fault} (alike : Fault.Alike ts us f g) :
    f.span? = none ∧ g.span? = none ∨ ∃ (k : Nat) (t u : Token), ts[k]? = some t ∧ us[k]? = some u ∧
      f.span? = some t.span ∧ g.span? = some u.span := by
  cases alike with
  | unexpectedEnd => exact Or.inl ⟨rfl, rfl⟩
  | unexpected first second | invalidTypeName first second | invalidNumber first second =>
    exact Or.inr ⟨_, _, _, first, second, rfl, rfl⟩

section Errors

variable {name : String} {source : List Char} {ts us : List Token} {f g : Fault}

/-- Alike faults are reported in the same line and column. -/
theorem Fault.Alike.position_ofFault (alike : Fault.Alike ts us f g) (scanned : scanTokens source = .ok ts)
    (other : scanTokens (withReturns source) = .ok us)
    (same : List.Forall₂ (fun t u => u = { t with span := u.span }) ts us) :
    (SyntaxError.ofFault name source f).position = (SyntaxError.ofFault name (withReturns source) g).position := by
  unfold SyntaxError.ofFault
  rcases alike.span? with ⟨first, second⟩ | ⟨k, t, u, first, second, start, start'⟩
  · rw [first, second]
    exact (Text.locate_byteLength_withReturns source).symm
  · obtain ⟨inside, rfl⟩ := List.getElem?_eq_some_iff.1 first
    obtain ⟨inside', rfl⟩ := List.getElem?_eq_some_iff.1 second
    have here := scanTokens_locate scanned (List.getElem_mem inside)
    have there := scanTokens_locate other (List.getElem_mem inside')
    have token : us[k] = { ts[k] with span := us[k].span } := same.get inside inside'
    have position : (⟨us[k].line, us[k].column⟩ : Text.Position) = ⟨ts[k].line, ts[k].column⟩ := by rw [token]
    rw [start, start']
    exact here.trans (position.symm.trans there.symm)

end Errors

/-- Carriage returns before its newlines change neither the tokens of a source nor what it is parsed into, but for
spans, nor the words and the place of an error. A string literal holds a newline just when its content does. -/
theorem parse_withReturns {name source : String} {tokens : List Token} (scanned : tokenize name source = .ok tokens)
    (within : ∀ t ∈ tokens, t.kind = .string → '\n' ∉ t.text.toList) :
    ∃ others, tokenize name (String.ofList (withReturns source.toList)) = .ok others ∧
      List.Forall₂ (fun t u => u = { t with span := u.span }) tokens others ∧
      ((∃ a b, parse name source = .ok a ∧ parse name (String.ofList (withReturns source.toList)) = .ok b ∧
          b = { a with imports := b.imports } ∧
          List.Forall₂ (fun i j => j = { i with span := j.span }) a.imports b.imports) ∨
        ∃ e f, parse name source = .error e ∧ parse name (String.ofList (withReturns source.toList)) = .error f ∧
          e.message = f.message ∧ e.position = f.position) := by
  have scannedChars := tokenize_eq_ok.1 scanned
  obtain ⟨others, scannedToo, same⟩ := scanTokens_withReturns scannedChars within
  have chars : (String.ofList (withReturns source.toList)).toList = withReturns source.toList := String.toList_ofList
  have scannedOther : tokenize name (String.ofList (withReturns source.toList)) = .ok others := by
    rw [tokenize_eq_ok, chars]
    exact scannedToo
  have unspanned : tokens.map Relabel.unspan.token = others.map Relabel.unspan.token :=
    map_eq_map_iff_forall₂.2 (same.imp fun _ _ => Token.unspan_eq_iff.2)
  have spelled : tokens.map Token.spelling = others.map Token.spelling := by
    refine map_eq_map_iff_forall₂.2 (same.imp fun t u other => ?_)
    rw [other]
    rfl
  refine ⟨others, scannedOther, same, ?_⟩
  rw [parse_of_tokenize scanned, parse_of_tokenize scannedOther, chars]
  rcases Relabel.unspan.readFile_same name unspanned with
    ⟨a, b, first, second, files⟩ | ⟨f, g, first, second, faults⟩
  · rw [first, second]
    exact Or.inl ⟨a, b, rfl, rfl, File.eq_of_unspan files⟩
  · have erased : Relabel.erase.fault f = Relabel.erase.fault g := by
      rw [← Relabel.erase_unspan, faults, Relabel.erase_unspan]
    have alike := Fault.alike spelled first second erased
    rw [first, second]
    exact Or.inr ⟨_, _, rfl, rfl, alike.message_eq, alike.position_ofFault scannedChars scannedToo same⟩

/-- A source with comments in two lines above an import. -/
def commentedImport : String :=
  "/* one\n * two */ // three\nimport \"a\";"

/-- The comments lose the carriage returns, and the import stays in the third line. -/
theorem parse_withReturns_commentedImport :
    (∃ tokens, tokenize "m" (String.ofList (withReturns commentedImport.toList)) = .ok tokens ∧
      tokens.map (fun t => (t.text, t.line, t.column, t.comment)) =
        [("import", 3, 1, some "one\ntwo\nthree"), ("a", 3, 8, some "one\ntwo\nthree"),
          (";", 3, 11, some "one\ntwo\nthree")]) ∧
      ∃ file, parse "m" (String.ofList (withReturns commentedImport.toList)) = .ok file ∧
        file.imports.map (fun i => (i.path, i.kind, i.line)) = [("a", .plain, 3)] := by
  have scanned : scanTokens commentedImport.toList = .ok
      [⟨.word, "import", 3, 1, ⟨26, 32⟩, some "one\ntwo\nthree"⟩,
        ⟨.string, "a", 3, 8, ⟨33, 36⟩, some "one\ntwo\nthree"⟩,
        ⟨.symbol, ";", 3, 11, ⟨36, 37⟩, some "one\ntwo\nthree"⟩] :=
    scanTokens_eq_ok.2 (by decide +kernel)
  have parsed : parse "m" commentedImport =
      .ok { File.named "m" with imports := [⟨"a", .plain, 3, ⟨26, 36⟩⟩] } := by
    rw [parse, scanned]
    rfl
  obtain ⟨others, scannedToo, same, ⟨a, b, first, second, -, imports⟩ | ⟨e, f, failed, -⟩⟩ :=
    parse_withReturns (tokenize_eq_ok.2 scanned) (by decide)
  · refine ⟨⟨others, scannedToo, ?_⟩, b, second, ?_⟩
    · exact (map_eq_map_iff_forall₂.2 (same.imp fun t u other => by rw [other])).symm
    · obtain rfl := Except.ok.inj (parsed.symm.trans first)
      exact (map_eq_map_iff_forall₂.2 (imports.imp fun i j other => by rw [other])).symm
  · rw [parsed] at failed
    cases failed

end ProtoSchema
