import ProtoSchema.Proofs.Token.Exact
import ProtoSchema.Proofs.Token.Relabel

namespace ProtoSchema

namespace Text

namespace Place

/-- The same place in a text with some lines and some bytes before it. -/
def past (lines bytes : Nat) (place : Place) : Place :=
  ⟨lines + place.line, bytes + place.lineStart, bytes + place.offset⟩

theorem next_past (lines bytes : Nat) (place : Place) (c : Char) :
    (place.past lines bytes).next c = (place.next c).past lines bytes := by
  unfold next past
  split <;> simp [Nat.add_assoc]

theorem after_past (lines bytes : Nat) (place : Place) (text : List Char) :
    (place.past lines bytes).after text = (place.after text).past lines bytes := by
  induction text generalizing place with
  | nil => rfl
  | cons c text ih =>
    simp only [after, List.foldl_cons, next_past] at ih ⊢
    exact ih (place.next c)

theorem line_after (place : Place) (text : List Char) : (place.after text).line = place.line + text.count '\n' := by
  induction text generalizing place with
  | nil => rfl
  | cons c text ih =>
    have one : (place.next c).line = place.line + if c = '\n' then 1 else 0 := by
      unfold next
      split <;> rfl
    rw [after, List.foldl_cons, ← after, ih, one, List.count_cons]
    simp only [beq_iff_eq]
    omega

theorem positionOf_past (lines bytes : Nat) (place : Place) (offset : Nat) :
    (place.past lines bytes).positionOf (bytes + offset) =
      (Relabel.shift lines bytes).position (place.positionOf offset) := by
  simp only [positionOf, past, Relabel.position, Relabel.shift, Nat.add_sub_add_left]
  rfl

theorem seek_past (lines bytes offset : Nat) (place : Place) (text : List Char) :
    (place.past lines bytes).seek (bytes + offset) text = (place.seek offset text).past lines bytes := by
  induction text generalizing place with
  | nil => rfl
  | cons c text ih =>
    have same : bytes + place.offset + c.utf8Size ≤ bytes + offset ↔ place.offset + c.utf8Size ≤ offset := by omega
    simp only [seek, next_past, ih]
    split
    next within => rw [if_pos (same.1 within)]
    next beyond => rw [if_neg (mt same.2 beyond)]

/-- An offset that is not in the first text is looked for behind it. -/
theorem seek_append {place : Place} {offset : Nat} {before : List Char} (behind : (place.after before).offset ≤ offset)
    (text : List Char) : place.seek offset (before ++ text) = (place.after before).seek offset text := by
  induction before generalizing place with
  | nil => rfl
  | cons c before ih =>
    have here : place.offset + c.utf8Size ≤ offset := by
      rw [offset_after, byteLength] at behind
      omega
    rw [List.cons_append, seek, if_pos here]
    exact ih behind

end Place

/-- The place behind the first part of a source is found by its offset. -/
theorem locate_after (before text : List Char) :
    locate (before ++ text) (Place.start.after before).offset = (Place.start.after before).position := by
  rw [locate, Place.seek_append (Nat.le_refl _)]
  cases text with
  | nil => rfl
  | cons c text =>
    have beyond : ¬(Place.start.after before).offset + c.utf8Size ≤ (Place.start.after before).offset :=
      Nat.not_le.2 (Nat.lt_add_of_pos_right c.utf8Size_pos)
    rw [Place.seek, if_neg beyond]
    rfl

end Text

open Text (Place byteLength)

/-- The labels of what stands behind a text and an empty line. -/
def Relabel.behind (text : List Char) : Relabel :=
  shift (text.count '\n' + 2) (byteLength text + 2)

theorem Text.Place.after_emptyLine (text : List Char) :
    Place.start.after (text ++ ['\n', '\n']) = Place.start.past (text.count '\n' + 2) (byteLength text + 2) := by
  have line := Place.line_after Place.start text
  have offset := Place.offset_after Place.start text
  rw [Place.after_append]
  generalize Place.start.after text = place at line offset
  obtain ⟨_, _, _⟩ := place
  simp_all [Place.after, Place.next, Place.start, Place.past]
  rfl

/-- Behind a text and an empty line, a position is that in the other text, some lines further on. -/
theorem Text.locate_behind (before text : List Char) (offset : Nat) :
    locate (before ++ ['\n', '\n'] ++ text) ((Relabel.behind before).offset offset) =
      (Relabel.behind before).position (locate text offset) := by
  have start := Place.after_emptyLine before
  have behind : (Place.start.after (before ++ ['\n', '\n'])).offset ≤ (Relabel.behind before).offset offset := by
    rw [start]
    exact Nat.le_add_right _ _
  rw [locate, Place.seek_append behind, start, Relabel.behind, Relabel.shift, Place.seek_past, Place.positionOf_past]
  rfl

/-- The end of a source is where a fault without a span is reported. -/
theorem SyntaxError.ofFault_behind (name : String) (before text : List Char) (fault : Fault) :
    ofFault name (before ++ ['\n', '\n'] ++ text) ((Relabel.behind before).fault fault) =
      (Relabel.behind before).syntaxError (ofFault name text fault) := by
  have offset : (((Relabel.behind before).fault fault).span?.map Span.start).getD
      (byteLength (before ++ ['\n', '\n'] ++ text)) =
        (Relabel.behind before).offset ((fault.span?.map Span.start).getD (byteLength text)) := by
    rw [Relabel.start?_fault]
    cases fault.span? with
    | none =>
      simp only [Text.byteLength_append]
      rfl
    | some span => rfl
  unfold ofFault
  rw [offset]
  simp only [Text.locate_behind, Relabel.syntaxError]

/-- A newline behind the text does not make a complete lexeme longer. -/
theorem Lexeme.Complete.append_newline {lexeme : Lexeme} {after : List Char} (complete : lexeme.Complete after)
    (text : List Char) : lexeme.Complete (after ++ '\n' :: text) := by
  have next (p : Char → Prop) (newline : p '\n') (first : ∀ c ∈ after.head?, p c) :
      ∀ c ∈ (after ++ '\n' :: text).head?, p c := by
    cases after with
    | nil => simpa using newline
    | cons c after => exact first
  cases lexeme with
  | space | word =>
    obtain ⟨some, within, ends⟩ := complete
    exact ⟨some, within, next _ (by decide) ends⟩
  | lineComment body => exact ⟨complete.1, next _ rfl complete.2⟩
  | newline | symbol | string | blockComment => exact complete

/-- A source without a fault, an empty line and another source fall into the lexemes of both. -/
theorem Segments.append {source : List Char} {lexemes : List Lexeme} (segments : Segments source lexemes none)
    {other : List Char} {others : List Lexeme} {fault : Option ScanFault} (rest : Segments other others fault) :
    Segments (source ++ ['\n', '\n'] ++ other) (lexemes ++ [.newline, .newline] ++ others) fault := by
  generalize whole : (none : Option ScanFault) = faultless at segments
  induction segments with
  | done =>
    have newline {after : List Char} : Lexeme.newline.Complete after := trivial
    exact .cons newline (.cons newline rest)
  | fault => cases whole
  | @cons lexeme after _ _ complete _ ih =>
    have first := complete.append_newline ('\n' :: other)
    have more := Segments.cons (by simpa using first) (ih whole)
    simpa using more

/-- A row whose tokens stand elsewhere. -/
def Row.relabel (f : Relabel) (row : Row) : Row :=
  { row with tokens := row.tokens.map f.token }

section Shifted

variable (lines bytes : Nat)

theorem Lexeme.tokenAt?_past (place : Place) (lexeme : Lexeme) :
    lexeme.tokenAt? (place.past lines bytes) = (lexeme.tokenAt? place).map (Relabel.shift lines bytes).token := by
  have position : (place.past lines bytes).position = (Relabel.shift lines bytes).position place.position :=
    Place.positionOf_past ..
  unfold tokenAt?
  rw [position, Place.after_past]
  cases lexeme.token? <;> rfl

theorem Row.finish_shift (row : Row) :
    (row.relabel (Relabel.shift lines bytes)).finish = row.finish.map (Relabel.shift lines bytes).token := by
  simp [finish, relabel, Function.comp_def, Relabel.token, Relabel.shift]

/-- The tokens of a source that begins further on. -/
theorem tokensFrom_past (place : Place) (row : Row) (lexemes : List Lexeme) :
    tokensFrom (place.past lines bytes) (row.relabel (Relabel.shift lines bytes)) lexemes =
      (tokensFrom place row lexemes).map (Relabel.shift lines bytes).token := by
  induction lexemes generalizing place row with
  | nil => exact row.finish_shift lines bytes
  | cons lexeme rest ih =>
    have empty : (row.relabel (Relabel.shift lines bytes)).tokens.isEmpty = row.tokens.isEmpty := by
      simp [Row.relabel]
    simp only [tokensFrom, empty, Place.after_past, Lexeme.tokenAt?_past, Row.finish_shift]
    split
    · split
      · exact ih _ row.skip
      · rw [List.map_append]
        exact congrArg _ (ih _ (Row.start []))
    · cases lexeme.tokenAt? place with
      | some token => exact ih _ ⟨row.comment, token :: row.tokens, false⟩
      | none =>
        cases lexeme.comment? with
        | some text => exact ih _ ⟨row.comment ++ text, row.tokens, false⟩
        | none => exact ih _ row

end Shifted

/-- No comment passes an empty line. -/
theorem tokensFrom_emptyLine (place : Place) (row : Row) (lexemes others : List Lexeme) :
    tokensFrom place row (lexemes ++ [.newline, .newline] ++ others) = tokensFrom place row lexemes ++
      tokensFrom (place.after (lexemes.flatMap Lexeme.source ++ ['\n', '\n'])) (Row.start []) others := by
  induction lexemes generalizing place row with
  | nil =>
    -- The first newline ends the row, the second one ends a row that is blank.
    obtain ⟨comment, tokens, blank⟩ := row
    cases tokens with
    | nil => simp [tokensFrom, Row.skip, Row.start, Row.finish, Lexeme.source, ← Place.after_append]
    | cons token tokens => simp [tokensFrom, Row.skip, Row.start, Lexeme.source, ← Place.after_append]
  | cons lexeme rest ih =>
    simp only [List.cons_append, List.flatMap_cons, tokensFrom, List.append_assoc, Place.after_append] at ih ⊢
    split
    · split
      · exact ih _ row.skip
      · rw [ih]
        simp
    · cases lexeme.tokenAt? place with
      | some token => exact ih _ ⟨row.comment, token :: row.tokens, false⟩
      | none =>
        cases lexeme.comment? with
        | some text => exact ih _ ⟨row.comment ++ text, row.tokens, false⟩
        | none => exact ih _ row

namespace Scan

variable {source : List Char} (faultless : (read source).fault = none) (other : List Char)

include faultless

theorem covered_eq : (read source).covered = source := by
  obtain ⟨rest, covered, complete⟩ := covered_read source
  rwa [complete.1 faultless, List.append_nil] at covered

theorem read_append : read (source ++ ['\n', '\n'] ++ other) =
    ⟨(read source).lexemes ++ [.newline, .newline] ++ (read other).lexemes, (read other).fault⟩ := by
  have first := Segments.of_read source
  rw [faultless] at first
  exact segments_iff.1 (first.append (Segments.of_read other))

theorem covered_append :
    (read (source ++ ['\n', '\n'] ++ other)).covered = source ++ ['\n', '\n'] ++ (read other).covered := by
  have first := covered_eq faultless
  rw [covered] at first
  rw [read_append faultless, covered, List.flatMap_append, List.flatMap_append, first]
  rfl

theorem tokens_append : (read (source ++ ['\n', '\n'] ++ other)).tokens =
    (read source).tokens ++ (read other).tokens.map (Relabel.behind source).token := by
  rw [tokens, read_append faultless, tokensFrom_emptyLine, ← covered, covered_eq faultless, Place.after_emptyLine]
  exact congrArg _ (tokensFrom_past _ _ Place.start (Row.start []) _)

end Scan

/-- The tokens of a source and an empty line with another source behind it. -/
theorem scanTokens_append {source : List Char} {tokens : List Token} (scanned : scanTokens source = .ok tokens)
    (other : List Char) : scanTokens (source ++ ['\n', '\n'] ++ other) =
      ((scanTokens other).map fun others => tokens ++ others.map (Relabel.behind source).token).mapError
        (Relabel.behind source).fault := by
  obtain ⟨faultless, rfl⟩ := scanTokens_eq_ok.1 scanned
  have fault : (Scan.read (source ++ ['\n', '\n'] ++ other)).fault = (Scan.read other).fault := by
    rw [Scan.read_append faultless]
  simp only [scanTokens, Scan.covered_append faultless, Scan.tokens_append faultless, fault, Text.byteLength_append]
  cases (Scan.read other).fault <;> rfl

end ProtoSchema
