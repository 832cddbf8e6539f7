import ProtoSchema.Proofs.File.Alike
import ProtoSchema.Proofs.Grammar.Size
import ProtoSchema.Proofs.Token.Positions

namespace ProtoSchema

open Text (bytes coordinates)

variable {name source : String} {tokens : List Token} {t : Token} {fault : Fault} {error : SyntaxError}

theorem SyntaxError.position_ofFault (name source : String) (fault : Fault) :
    (ofFault name source.toList fault).position = .fromZero
      (coordinates (bytes source.toList) ((fault.span?.map Span.start).getD source.utf8ByteSize)) := by
  rw [← Guarded.locate_eq_coordinates, ← Text.byteLength_toList]
  rfl

/-- Every error is a fault that has been placed in the source. -/
theorem exists_ofFault (failed : tokenize name source = .error error ∨ parse name source = .error error) :
    ∃ fault, error = .ofFault name source.toList fault := by
  rcases failed with failed | failed
  · unfold tokenize at failed
    cases scanned : scanTokens source.toList with
    | ok tokens =>
      rw [scanned] at failed
      cases failed
    | error fault =>
      rw [scanned] at failed
      exact ⟨fault, (Except.error.inj failed).symm⟩
  · unfold parse at failed
    cases read : (scanTokens source.toList).bind readStatements with
    | ok statements =>
      rw [read] at failed
      cases failed
    | error fault =>
      rw [read] at failed
      exact ⟨fault, (Except.error.inj failed).symm⟩

theorem Fault.At.span?_eq (here : fault.At t) : fault.span? = some t.span := by
  rcases here with ⟨_, rfl⟩ | rfl | rfl <;> rfl

/-- A fault quotes its token as it is displayed, and an invalid type name as it is. -/
theorem Fault.At.found?_eq (here : fault.At t) :
    fault.found? = some (if fault = .invalidTypeName t then t.text else t.display) := by
  rcases here with ⟨_, rfl⟩ | rfl | rfl <;> simp [Fault.found?]

/-- A fault of the grammar is at a token, unless the source ends too early. -/
theorem exists_at_of_span? {span : Span} (rejected : readFile name tokens = .error fault)
    (marked : fault.span? = some span) : ∃ t ∈ tokens, fault.At t := by
  by_cases viable : Viable name tokens
  · obtain ⟨expected, rfl⟩ := unexpectedEnd_of_viable viable rejected
    cases marked
  · obtain ⟨k, stops⟩ := StopsAt.exists_of_not_viable viable
    have inside := stops.lt_length
    exact ⟨tokens[k], List.getElem_mem inside, stops.fault_at rejected inside⟩

theorem isScan_of_scanTokens {source : List Char} (refused : scanTokens source = .error fault) : fault.isScan := by
  simp only [scanTokens] at refused
  cases found : (Scan.read source).fault with
  | none =>
    rw [found] at refused
    cases refused
  | some stopped =>
    rw [found] at refused
    obtain rfl := Except.error.inj refused
    rfl

/-- An error of the grammar is that of reading the tokens of the source. -/
theorem exists_tokens_of_parse_error (failed : parse name source = .error error)
    (grammar : error.fault.isScan = false) : ∃ tokens, tokenize name source = .ok tokens ∧
      readFile name tokens = .error error.fault ∧ error = .ofFault name source.toList error.fault := by
  cases scanned : scanTokens source.toList with
  | error fault =>
    rw [parse, scanned] at failed
    obtain rfl := Except.error.inj failed
    exact absurd (isScan_of_scanTokens scanned) (by simpa [SyntaxError.ofFault] using grammar)
  | ok tokens =>
    have tokenized : tokenize name source = .ok tokens := tokenize_eq_ok.2 scanned
    rw [parse_of_tokenize tokenized] at failed
    cases read : readFile name tokens with
    | ok file =>
      rw [read] at failed
      cases failed
    | error fault =>
      rw [read] at failed
      obtain rfl := Except.error.inj failed
      exact ⟨tokens, tokenized, read, rfl⟩

/-- Looking an offset up in the table of lines gives the number of newlines before it and its distance from the last of
them. Tokens and errors show these, counted from 1, so that the tokens of a source ascend in them. An error stands where
its span begins, or at the end of the source if it has none; one of the grammar with a span stands at a token, which it
quotes. -/
theorem positions_exact (name source : String) :
    (∀ offset, Guarded.lineColumn (Guarded.lineStarts 0 source.toList) offset =
        .ok (coordinates source.toUTF8.data.toList offset) ∧
      Text.locate source.toList offset = .fromZero (coordinates source.toUTF8.data.toList offset)) ∧
    (∀ tokens, tokenize name source = .ok tokens →
      (∀ t ∈ tokens, t.position = .fromZero (coordinates source.toUTF8.data.toList t.span.start)) ∧
      tokens.Pairwise fun t u => toLex (t.line, t.column) < toLex (u.line, u.column)) ∧
    (∀ error, tokenize name source = .error error ∨ parse name source = .error error →
      error.position = .fromZero (coordinates source.toUTF8.data.toList
        ((error.fault.span?.map Span.start).getD source.utf8ByteSize))) ∧
    ∀ error span, parse name source = .error error → error.fault.isScan = false → error.fault.span? = some span →
      ∃ tokens t, tokenize name source = .ok tokens ∧ t ∈ tokens ∧ t.span = span ∧ error.position = t.position ∧
        error.fault.found? = some (if error.fault = .invalidTypeName t then t.text else t.display) := by
  rw [Text.toUTF8_eq_bytes]
  refine ⟨?_, ?_, ?_, ?_⟩
  · intro offset
    exact ⟨Guarded.lineColumn_eq_coordinates source.toList offset, Guarded.locate_eq_coordinates source.toList offset⟩
  · intro tokens scanned
    have scannedChars := tokenize_eq_ok.1 scanned
    exact ⟨fun t => scanTokens_position scannedChars, scanTokens_ascend scannedChars⟩
  · intro error failed
    obtain ⟨fault, rfl⟩ := exists_ofFault failed
    exact SyntaxError.position_ofFault name source fault
  · intro error span failed grammar marked
    obtain ⟨tokens, scanned, rejected, placed⟩ := exists_tokens_of_parse_error failed grammar
    obtain ⟨t, member, here⟩ := exists_at_of_span? rejected marked
    obtain rfl := Option.some.inj (here.span?_eq.symm.trans marked)
    refine ⟨tokens, t, scanned, member, rfl, ?_, here.found?_eq⟩
    rw [placed, SyntaxError.position_ofFault, marked, scanTokens_position (tokenize_eq_ok.1 scanned) member]
    rfl

/-- An import behind an empty line: its path has a letter of two bytes and a newline, and no semicolon follows. -/
def importAcrossLines : String :=
  "\nimport \"é\n\" x"

/-- The word is refused in the third line, in which the path ends. -/
theorem positions_exact_acrossLines : ∃ tokens error, tokenize "m" importAcrossLines = .ok tokens ∧
    tokens.map Token.position = [⟨2, 1⟩, ⟨2, 8⟩, ⟨3, 3⟩] ∧
    tokens.map (fun t => coordinates importAcrossLines.toUTF8.data.toList t.span.start) = [(1, 0), (1, 7), (2, 2)] ∧
    parse "m" importAcrossLines = .error error ∧ error.fault.isScan = false ∧
    error.fault.span? = some ⟨14, 15⟩ ∧ error.fault.found? = some "x" ∧ error.position = ⟨3, 3⟩ ∧
    error.position = .fromZero (coordinates importAcrossLines.toUTF8.data.toList 14) := by
  have scanned : scanTokens importAcrossLines.toList = .ok
      [⟨.word, "import", 2, 1, ⟨1, 7⟩, none⟩, ⟨.string, "é\n", 2, 8, ⟨8, 13⟩, none⟩,
        ⟨.word, "x", 3, 3, ⟨14, 15⟩, none⟩] :=
    scanTokens_eq_ok.2 (by decide +kernel)
  have tokenized : tokenize "m" importAcrossLines = .ok _ := tokenize_eq_ok.2 scanned
  have failed : parse "m" importAcrossLines = .error (.ofFault "m" importAcrossLines.toList
      (.unexpected (.literal ";") ⟨.word, "x", 3, 3, ⟨14, 15⟩, none⟩)) := by
    rw [parse, scanned]
    rfl
  obtain ⟨-, ofTokens, ofErrors, ofGrammar⟩ := positions_exact "m" importAcrossLines
  obtain ⟨places, -⟩ := ofTokens _ tokenized
  obtain ⟨others, t, again, member, span, position, quoted⟩ := ofGrammar _ ⟨14, 15⟩ failed rfl rfl
  obtain rfl := Except.ok.inj (again.symm.trans tokenized)
  obtain rfl : t = ⟨.word, "x", 3, 3, ⟨14, 15⟩, none⟩ := by
    simp only [List.mem_cons, List.not_mem_nil, or_false] at member
    rcases member with rfl | rfl | rfl
    · cases span
    · cases span
    · rfl
  refine ⟨_, _, tokenized, rfl, ?_, failed, rfl, rfl, quoted, position, ofErrors _ (Or.inr failed)⟩
  refine List.map_injective_iff.2 (fun _ _ => Text.Position.fromZero_inj.1) ?_
  rw [List.map_map]
  exact List.map_congr_left fun t member => (places t member).symm

end ProtoSchema
