import ProtoSchema.Proofs.Token.Joined

namespace ProtoSchema

open Text (byteLength Place)

namespace Lexeme

variable {place : Place} {lexemes : List Lexeme}

/-- What is complete before more text is complete before less of it. -/
theorem Complete.of_append {lexeme : Lexeme} {after more : List Char} (complete : lexeme.Complete (after ++ more)) :
    lexeme.Complete after := by
  have next (p : Char → Prop) (first : ∀ c ∈ (after ++ more).head?, p c) : ∀ c ∈ after.head?, p c := by
    cases after with
    | nil => simp
    | cons c after => exact first
  cases lexeme with
  | space text => exact ⟨complete.1, complete.2.1, next _ complete.2.2⟩
  | newline => trivial
  | word text => exact ⟨complete.1, complete.2.1, next _ complete.2.2⟩
  | lineComment body => exact ⟨complete.1, next _ complete.2⟩
  | symbol | string | blockComment => exact complete

theorem tokensAt_append (place : Place) (first second : List Lexeme) :
    tokensAt place (first ++ second) = tokensAt place first ++ tokensAt (place.after (first.flatMap source)) second := by
  induction first generalizing place with
  | nil => rfl
  | cons lexeme first ih => simp [tokensAt, ih, Place.after_append]

/-- The same lexemes say the same wherever they stand. -/
theorem spellings_tokensAt (place other : Place) (lexemes : List Lexeme) :
    (tokensAt place lexemes).map Token.spelling = (tokensAt other lexemes).map Token.spelling := by
  induction lexemes generalizing place other with
  | nil => rfl
  | cons lexeme rest ih =>
    have same := ih (place.after lexeme.source) (other.after lexeme.source)
    cases lexeme <;> simpa [tokensAt, tokenAt?, token?, Token.spelling] using same

/-- The lexeme that one of the tokens is, with what comes before and behind it. -/
theorem exists_of_tokensAt {front back : List Token} {t : Token} (split : tokensAt place lexemes = front ++ t :: back) :
    ∃ before lexeme after, lexemes = before ++ lexeme :: after ∧ tokensAt place before = front ∧
      lexeme.tokenAt? (place.after (before.flatMap source)) = some t ∧
      tokensAt ((place.after (before.flatMap source)).after lexeme.source) after = back := by
  induction lexemes generalizing place front with
  | nil => simp [tokensAt] at split
  | cons lexeme rest ih =>
    rw [tokensAt] at split
    cases found : lexeme.tokenAt? place with
    | none =>
      rw [found] at split
      obtain ⟨before, first, after, rfl, same, token, behind⟩ := ih split
      refine ⟨lexeme :: before, first, after, rfl, ?_, ?_, ?_⟩
      · rw [tokensAt, found, same]
        rfl
      · rwa [List.flatMap_cons, Place.after_append]
      · rwa [List.flatMap_cons, Place.after_append]
    | some u =>
      rw [found] at split
      cases front with
      | nil =>
        obtain ⟨rfl, behind⟩ := List.cons.inj split
        exact ⟨[], lexeme, rest, rfl, rfl, found, behind⟩
      | cons v front =>
        obtain ⟨rfl, later⟩ := List.cons.inj split
        obtain ⟨before, first, after, rfl, same, token, behind⟩ := ih later
        refine ⟨lexeme :: before, first, after, rfl, ?_, ?_, ?_⟩
        · rw [tokensAt, found, same]
          rfl
        · rwa [List.flatMap_cons, Place.after_append]
        · rwa [List.flatMap_cons, Place.after_append]

theorem place_of_tokenAt? {lexeme : Lexeme} {t : Token} (found : lexeme.tokenAt? place = some t) :
    t.line = place.line + 1 ∧ t.span = ⟨place.offset, (place.after lexeme.source).offset⟩ := by
  obtain ⟨pair, -, rfl⟩ := Option.map_eq_some_iff.1 found
  exact ⟨rfl, rfl⟩

theorem position_of_tokenAt? {lexeme : Lexeme} {t : Token} (found : lexeme.tokenAt? place = some t) :
    place.position = ⟨t.line, t.column⟩ := by
  obtain ⟨pair, -, rfl⟩ := Option.map_eq_some_iff.1 found
  rfl

end Lexeme

theorem Segments.drop {source : List Char} {lexemes rest : List Lexeme} {fault : Option ScanFault}
    (segments : Segments source (lexemes ++ rest) fault) :
    ∃ text, source = lexemes.flatMap Lexeme.source ++ text ∧ Segments text rest fault := by
  induction lexemes generalizing source with
  | nil => exact ⟨source, rfl, segments⟩
  | cons lexeme lexemes ih =>
    cases segments with
    | cons complete later =>
      obtain ⟨text, rfl, behind⟩ := ih later
      exact ⟨text, by simp, behind⟩

theorem Segments.take {source : List Char} {lexemes rest : List Lexeme} {fault : Option ScanFault}
    (segments : Segments source (lexemes ++ rest) fault) : Segments (lexemes.flatMap Lexeme.source) lexemes none := by
  induction lexemes generalizing source with
  | nil => exact .done
  | cons lexeme lexemes ih =>
    cases segments with
    | cons complete later =>
      obtain ⟨text, rfl, -⟩ := later.drop
      exact .cons complete.of_append (ih later)

/-- Neither comments nor places matter for what the tokens of some lexemes say. -/
theorem Scan.spelling_tokens (scan : Scan) (place : Place) :
    scan.tokens.map Token.spelling = (Lexeme.tokensAt place scan.lexemes).map Token.spelling := by
  have bare := congrArg (List.map Token.spelling) (tokensFrom_bare Place.start (Row.start []) scan.lexemes)
  rw [List.map_map] at bare
  rw [Scan.tokens, Lexeme.spellings_tokensAt place Place.start]
  exact bare

/-- A token stands where its span begins. -/
theorem scanTokens_locate {source : List Char} {tokens : List Token} {t : Token}
    (scanned : scanTokens source = .ok tokens) (member : t ∈ tokens) :
    Text.locate source t.span.start = ⟨t.line, t.column⟩ := by
  obtain ⟨faultless, rfl⟩ := scanTokens_eq_ok.1 scanned
  have whole := Segments.of_read source
  have bare := tokensFrom_bare Place.start (Row.start []) (Scan.read source).lexemes
  obtain ⟨front, back, split⟩ := List.append_of_mem (List.mem_map_of_mem member)
  rw [← Scan.tokens, split] at bare
  generalize (Scan.read source).lexemes = lexemes at whole bare
  obtain ⟨before, lexeme, after, rfl, -, found, -⟩ := Lexeme.exists_of_tokensAt bare.symm
  obtain ⟨text, rfl, -⟩ := whole.drop
  have start : t.span.start = (Place.start.after (before.flatMap Lexeme.source)).offset :=
    congrArg Span.start (Lexeme.place_of_tokenAt? found).2
  have position := Lexeme.position_of_tokenAt? found
  rw [start, Text.locate_after, position]
  rfl

/-- The text of a source from one of its tokens to another has just these tokens and those between them. -/
theorem scanTokens_slice {source : List Char} {front inner back : List Token} {first last : Token}
    (scanned : scanTokens source = .ok (front ++ first :: (inner ++ last :: back))) :
    ∃ before text after tokens, source = before ++ text ++ after ∧ first.span.start = byteLength before ∧
      first.line = before.count '\n' + 1 ∧ last.span.stop = byteLength (before ++ text) ∧
      scanTokens text = .ok tokens ∧
      tokens.map Token.spelling = (first :: (inner ++ [last])).map Token.spelling := by
  obtain ⟨faultless, same⟩ := scanTokens_eq_ok.1 scanned
  have whole := Segments.of_read source
  have bare := tokensFrom_bare Place.start (Row.start []) (Scan.read source).lexemes
  rw [faultless] at whole
  rw [← Scan.tokens, same, List.map_append, List.map_cons, List.map_append, List.map_cons] at bare
  generalize (Scan.read source).lexemes = lexemes at whole bare
  obtain ⟨before, opening, later, rfl, -, opens, behind⟩ := Lexeme.exists_of_tokensAt bare.symm
  obtain ⟨middle, closing, after, rfl, inside, closes, -⟩ := Lexeme.exists_of_tokensAt behind
  obtain ⟨line, start⟩ := Lexeme.place_of_tokenAt? opens
  obtain ⟨-, stop⟩ := Lexeme.place_of_tokenAt? closes
  -- The lexemes of the slice are those of the source there, as each is still as long as it can be with less behind it.
  have regroup : opening :: (middle ++ closing :: after) = (opening :: (middle ++ [closing])) ++ after := by simp
  rw [regroup] at whole
  obtain ⟨text, same, cut⟩ := whole.drop
  obtain ⟨rest, rfl, -⟩ := cut.drop
  have read := segments_iff.1 cut.take
  have scannedSlice : scanTokens ((opening :: (middle ++ [closing])).flatMap Lexeme.source) = .ok _ :=
    scanTokens_eq_ok.2 ⟨by rw [read], rfl⟩
  refine ⟨before.flatMap Lexeme.source, _, rest, _, by rw [same, List.append_assoc], ?_, ?_, ?_, scannedSlice, ?_⟩
  · rw [show first.span = _ from start, Place.offset_after]
    exact Nat.zero_add _
  · rw [show first.line = _ from line, Place.line_after]
    exact congrArg (· + 1) (Nat.zero_add _)
  · rw [show last.span = _ from stop]
    simp only [Place.offset_after, Text.byteLength_append, List.flatMap_cons, List.flatMap_append, List.flatMap_nil,
      List.append_nil, Place.start]
    omega
  · have inSource : Lexeme.tokensAt (Place.start.after (before.flatMap Lexeme.source)) (opening :: (middle ++ [closing])) =
        (first :: (inner ++ [last])).map Token.bare := by
      rw [Lexeme.tokensAt, opens, Lexeme.tokensAt_append, inside, Lexeme.tokensAt, closes, List.map_cons, List.map_append]
      rfl
    rw [Scan.spelling_tokens _ (Place.start.after (before.flatMap Lexeme.source)), read, inSource, List.map_map]
    rfl

end ProtoSchema
