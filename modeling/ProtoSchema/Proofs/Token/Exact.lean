import ProtoSchema.Parse
import ProtoSchema.Proofs.Token.Lexical
import ProtoSchema.Proofs.Token.Segments

namespace ProtoSchema

open Text (byteLength Place)

/-- A body of a string literal and its content: a backslash stands for the character behind it. -/
inductive Unescaped : List Char → List Char → Prop
  | nil : Unescaped [] []
  | escaped {c : Char} {body content : List Char} (rest : Unescaped body content) :
      Unescaped ('\\' :: c :: body) (c :: content)
  | plain {c : Char} {body content : List Char} (bare : c ≠ '\\') (rest : Unescaped body content) :
      Unescaped (c :: body) (c :: content)

theorem Quoted.unescape {quote : Char} {body : List Char} (quoted : Quoted quote body) :
    Unescaped body (unescape body) := by
  induction quoted with
  | nil => exact .nil
  | escaped _ ih => exact .escaped ih
  | plain bare _ _ ih =>
    rw [ProtoSchema.unescape]
    · exact .plain bare ih
    · rintro d rest same rfl
      exact bare same

/-- Whether `text` spells a token when it stands between `before` and `after`. -/
def Token.Spelled (t : Token) (before text after : List Char) : Prop :=
  match t.kind with
  | .word => t.text.toList = text ∧ text ≠ [] ∧ (∀ c ∈ text, isWordChar c) ∧
      (∀ c ∈ before.getLast?, ¬ isWordChar c) ∧ ∀ c ∈ after.head?, ¬ isWordChar c
  | .symbol => t.text.toList = text ∧ ∃ c, text = [c] ∧ isSymbol c ∧ c.utf8Size = 1
  | .string => ∃ quote body, isQuote quote ∧ Quoted quote body ∧ text = quote :: (body ++ [quote]) ∧
      Unescaped body t.text.toList

/-- What can lie between tokens when `after` comes behind it: spaces, newlines, and comments that are
complete. A line comment goes on to a newline or to the end of the source. -/
inductive Filler (after : List Char) : List Char → Prop
  | nil : Filler after []
  | space {c : Char} {text : List Char} (blank : isSpace c ∨ c = '\n') (rest : Filler after text) :
      Filler after (c :: text)
  | line {body text : List Char} (within : '\n' ∉ body) (ends : ∀ c ∈ (text ++ after).head?, c = '\n')
      (rest : Filler after text) : Filler after ('/' :: '/' :: (body ++ text))
  | block {body text : List Char} (within : ¬ ['*', '/'] <:+: body) (rest : Filler after text) :
      Filler after ('/' :: '*' :: (body ++ '*' :: '/' :: text))

/-- Fillers and tokens that take turns, behind what has come before. -/
inductive Tiles : List Char → List Char → List Token → Prop
  | done {before gap : List Char} (filler : Filler [] gap) : Tiles before gap []
  | token {before gap text after : List Char} {t : Token} {tokens : List Token} (filler : Filler (text ++ after) gap)
      (span : t.span = ⟨byteLength (before ++ gap), byteLength (before ++ gap ++ text)⟩) (some : text ≠ [])
      (spelled : t.Spelled (before ++ gap) text after) (rest : Tiles (before ++ gap ++ text) after tokens) :
      Tiles before (gap ++ (text ++ after)) (t :: tokens)

/-- The spans before, between and behind some tokens, from `start` to `stop`. -/
def gaps (start stop : Nat) : List Token → List Span
  | [] => [⟨start, stop⟩]
  | t :: rest => ⟨start, t.span.start⟩ :: gaps t.span.stop stop rest

/-- Tokens that are slices of a source, in order, with nothing but fillers around them. -/
structure Exact (source : List Char) (tokens : List Token) : Prop where
  slice : ∀ t ∈ tokens, ∃ before text after, source = before ++ text ++ after ∧
    t.span = ⟨byteLength before, byteLength (before ++ text)⟩ ∧ t.span.start < t.span.stop ∧
    t.Spelled before text after
  apart : tokens.Pairwise fun a b => a.span.stop ≤ b.span.start
  filled : ∀ gap ∈ gaps 0 (byteLength source) tokens, ∃ before text after, source = before ++ text ++ after ∧
    gap = ⟨byteLength before, byteLength (before ++ text)⟩ ∧ Filler after text

theorem byteLength_pos {text : List Char} (some : text ≠ []) : 0 < byteLength text := by
  cases text with
  | nil => exact absurd rfl some
  | cons c text =>
    have positive := c.utf8Size_pos
    simp only [byteLength]
    omega

namespace Tiles

variable {before source : List Char} {tokens : List Token}

theorem slice (tiles : Tiles before source tokens) : ∀ t ∈ tokens, ∃ front text after,
    before ++ source = front ++ text ++ after ∧ t.span = ⟨byteLength front, byteLength (front ++ text)⟩ ∧
      t.span.start < t.span.stop ∧ t.Spelled front text after := by
  induction tiles with
  | done => simp
  | @token before gap text after t tokens _ span some spelled _ ih =>
    intro u member
    rcases List.mem_cons.1 member with rfl | later
    · have positive := byteLength_pos some
      refine ⟨before ++ gap, text, after, by simp, span, ?_, spelled⟩
      rw [span]
      simp only [Text.byteLength_append]
      omega
    · obtain ⟨front, slice, back, whole, rest⟩ := ih u later
      exact ⟨front, slice, back, by rw [← whole]; simp, rest⟩

theorem start_le (tiles : Tiles before source tokens) : ∀ t ∈ tokens, byteLength before ≤ t.span.start := by
  induction tiles with
  | done => simp
  | @token before gap text after t tokens _ span _ _ _ ih =>
    intro u member
    rcases List.mem_cons.1 member with rfl | later
    · simp [span]
    · have bound := ih u later
      simp only [Text.byteLength_append] at bound
      omega

theorem apart (tiles : Tiles before source tokens) : tokens.Pairwise fun a b => a.span.stop ≤ b.span.start := by
  induction tiles with
  | done => exact .nil
  | token _ span _ _ rest ih =>
    refine .cons ?_ ih
    intro u later
    rw [span]
    exact rest.start_le u later

theorem filled (tiles : Tiles before source tokens) :
    ∀ gap ∈ gaps (byteLength before) (byteLength (before ++ source)) tokens, ∃ front text after,
      before ++ source = front ++ text ++ after ∧ gap = ⟨byteLength front, byteLength (front ++ text)⟩ ∧
        Filler after text := by
  induction tiles with
  | @done before gap filler =>
    intro span member
    obtain rfl := List.mem_singleton.1 member
    exact ⟨before, gap, [], by simp, rfl, filler⟩
  | @token before gap text after t tokens filler span _ _ _ ih =>
    intro found member
    rcases List.mem_cons.1 member with rfl | later
    · exact ⟨before, gap, text ++ after, by simp, by rw [span], filler⟩
    · rw [span] at later
      have whole : before ++ (gap ++ (text ++ after)) = before ++ gap ++ text ++ after := by simp
      rw [whole] at later ⊢
      exact ih found later

theorem exact (tiles : Tiles [] source tokens) : Exact source tokens :=
  ⟨tiles.slice, tiles.apart, tiles.filled⟩

theorem first {text after : List Char} {t : Token} {place : Place} (here : place.offset = byteLength before)
    (span : t.span = ⟨place.offset, (place.after text).offset⟩) (some : text ≠ [])
    (spelled : t.Spelled before text after) (rest : Tiles (before ++ text) after tokens) :
    Tiles before (text ++ after) (t :: tokens) := by
  rw [Place.offset_after, here, ← Text.byteLength_append] at span
  refine @Tiles.token before [] text after t tokens .nil ?_ some ?_ ?_
  · simpa using span
  · simpa using spelled
  · simpa using rest

/-- More filler before what falls into tiles. -/
theorem prepend {more : List Char} (tiles : Tiles (before ++ more) source tokens)
    (extend : ∀ gap after, source = gap ++ after → Filler after gap → Filler after (more ++ gap)) :
    Tiles before (more ++ source) tokens := by
  cases tiles with
  | done filler => exact .done (extend _ [] (by simp) filler)
  | @token _ gap text after t tokens filler span some spelled rest =>
    rw [← List.append_assoc]
    refine .token (extend _ _ rfl filler) ?_ some ?_ ?_
    · simpa using span
    · simpa using spelled
    · simpa using rest

end Tiles

namespace Lexeme

/-- The tokens that lexemes from a place on are, still without comments. -/
def tokensAt (place : Place) : List Lexeme → List Token
  | [] => []
  | lexeme :: rest => (lexeme.tokenAt? place).toList ++ tokensAt (place.after lexeme.source) rest

theorem Complete.source_ne_nil {lexeme : Lexeme} {after : List Char} (complete : lexeme.Complete after) :
    lexeme.source ≠ [] := by
  cases lexeme with
  | space | word => exact complete.1
  | newline | symbol | string | lineComment | blockComment => simp [source]

/-- No two words meet: behind a lexeme that ends with a word character comes none. -/
theorem Complete.not_word_after {lexeme : Lexeme} {after : List Char} {c : Char} (complete : lexeme.Complete after)
    (last : c ∈ lexeme.source.getLast?) (word : isWordChar c) : ∀ d ∈ after.head?, ¬ isWordChar d := by
  obtain ⟨space, newline, symbol, quote, slash, -⟩ := isWordChar_iff.1 word
  cases lexeme with
  | space text => exact absurd (complete.2.1 c (List.mem_of_getLast? last)) (by simp [space])
  | newline =>
    obtain rfl : '\n' = c := by simpa [source] using last
    exact absurd rfl newline
  | word text => exact complete.2.2
  | symbol d =>
    obtain rfl : d = c := by simpa [source] using last
    exact absurd complete (by simp [Complete, symbol])
  | string d body =>
    have ends : (d :: body ++ [d]).getLast? = some d := List.getLast?_concat
    obtain rfl : d = c := Option.some.inj (ends.symm.trans last)
    exact absurd complete.1 (by simp [quote])
  | lineComment body =>
    intro d first worded
    obtain rfl := complete.2 d first
    exact absurd worded (by decide)
  | blockComment body =>
    have ends : ('/' :: '*' :: body ++ ['*'] ++ ['/']).getLast? = some '/' := List.getLast?_concat
    have same : ('/' :: '*' :: body ++ ['*'] ++ ['/']) = (Lexeme.blockComment body).source := by simp [source]
    rw [same] at ends
    exact absurd (Option.some.inj (last.symm.trans ends)) slash

end Lexeme

theorem Filler.spaces {after text gap : List Char} (all : ∀ c ∈ text, isSpace c) (filler : Filler after gap) :
    Filler after (text ++ gap) := by
  induction text with
  | nil => exact filler
  | cons c text ih =>
    exact .space (Or.inl (all c (List.mem_cons_self ..))) (ih fun d member => all d (List.mem_cons_of_mem _ member))

theorem symbol_one_byte {c : Char} (symbol : isSymbol c) : c.utf8Size = 1 := by
  have each : "()\x7b\x7d<>[]=+-,;".toList.all fun c => c.utf8Size == 1 := by decide
  simpa using List.all_eq_true.1 each c (List.contains_iff_mem.1 symbol)

theorem tiles_of_segments {before source : List Char} {lexemes : List Lexeme} {place : Place}
    (segments : Segments source lexemes none) (here : place.offset = byteLength before)
    (apart : ∀ c ∈ before.getLast?, isWordChar c → ∀ d ∈ source.head?, ¬ isWordChar d) :
    Tiles before source (Lexeme.tokensAt place lexemes) := by
  generalize faultless : (none : Option ScanFault) = fault at segments
  induction segments generalizing before place with
  | done => exact .done .nil
  | fault => cases faultless
  | @cons lexeme after lexemes fault complete rest ih =>
    have there : (place.after lexeme.source).offset = byteLength (before ++ lexeme.source) := by
      rw [Place.offset_after, here, Text.byteLength_append]
    have later : Tiles (before ++ lexeme.source) after (Lexeme.tokensAt (place.after lexeme.source) lexemes) := by
      refine ih there ?_ faultless
      intro c last word
      obtain ⟨d, ends⟩ := Option.ne_none_iff_exists'.1 (mt List.getLast?_eq_none_iff.1 complete.source_ne_nil)
      rw [List.getLast?_append, ends] at last
      exact complete.not_word_after (ends.trans last) word
    cases lexeme with
    | space text => exact later.prepend fun _ _ _ filler => filler.spaces complete.2.1
    | newline => exact later.prepend fun _ _ _ filler => .space (Or.inr rfl) filler
    | lineComment body =>
      refine later.prepend fun gap behind same filler => .line complete.1 ?_ filler
      rw [← same]
      exact complete.2
    | blockComment body =>
      refine later.prepend fun gap behind same filler => ?_
      have block := Filler.block complete filler
      simpa [Lexeme.source] using block
    | word text =>
      refine .first here rfl complete.1 ⟨String.toList_ofList, complete.1, complete.2.1, ?_, complete.2.2⟩ later
      intro c last word
      cases text with
      | nil => exact absurd rfl complete.1
      | cons d text => exact apart c last word d rfl (complete.2.1 d (List.mem_cons_self ..))
    | symbol c =>
      exact .first here rfl complete.source_ne_nil
        ⟨String.toList_ofList, c, rfl, complete, symbol_one_byte complete⟩ later
    | string quote body =>
      refine .first here rfl complete.source_ne_nil ⟨quote, body, complete.1, complete.2, rfl, ?_⟩ later
      show Unescaped body (String.ofList (unescape body)).toList
      rw [String.toList_ofList]
      exact complete.2.unescape

/-- What a token says, wherever it stands. -/
def Token.spelling (t : Token) : TokenKind × String :=
  (t.kind, t.text)

def Token.bare (t : Token) : Token :=
  { t with comment := none }

theorem Row.finish_bare (row : Row) : row.finish.map Token.bare = row.tokens.reverse.map Token.bare := by
  simp only [Row.finish, List.map_map]
  rfl

theorem Lexeme.tokenAt?_bare {place : Place} {lexeme : Lexeme} {t : Token} (found : lexeme.tokenAt? place = some t) :
    t.bare = t := by
  obtain ⟨pair, -, rfl⟩ := Option.map_eq_some_iff.1 found
  rfl

/-- Comments apart, the tokens of a row and those of the lexemes behind it are all that come. -/
theorem tokensFrom_bare (place : Place) (row : Row) (lexemes : List Lexeme) :
    (tokensFrom place row lexemes).map Token.bare =
      row.tokens.reverse.map Token.bare ++ Lexeme.tokensAt place lexemes := by
  induction lexemes generalizing place row with
  | nil => simp [tokensFrom, Lexeme.tokensAt, row.finish_bare]
  | cons lexeme rest ih =>
    simp only [tokensFrom, Lexeme.tokensAt]
    split
    · rename_i newline
      have none : Lexeme.tokenAt? place .newline = none := rfl
      subst newline
      split
      · rename_i empty
        rw [List.isEmpty_iff.1 empty, ih, none]
        rfl
      · rw [List.map_append, row.finish_bare, ih, none]
        rfl
    · split
      · rename_i token found
        rw [ih, found]
        simp [Lexeme.tokenAt?_bare found]
      · rename_i none _
        rw [ih, none]
        rfl
      · rename_i none _
        rw [ih, none]
        rfl

theorem Tiles.of_bare {before source : List Char} {tokens : List Token}
    (tiles : Tiles before source (tokens.map Token.bare)) : Tiles before source tokens := by
  induction tokens generalizing before source with
  | nil => exact tiles
  | cons t tokens ih =>
    cases tiles with
    | token filler span some spelled rest => exact .token filler span some spelled (ih rest)

theorem scanTokens_eq_ok {source : List Char} {tokens : List Token} : scanTokens source = .ok tokens ↔
    (Scan.read source).fault = none ∧ (Scan.read source).tokens = tokens := by
  simp only [scanTokens]
  cases (Scan.read source).fault <;> simp

theorem tokenize_eq_ok {name source : String} {tokens : List Token} :
    tokenize name source = .ok tokens ↔ scanTokens source.toList = .ok tokens := by
  unfold tokenize
  cases scanTokens source.toList <;> constructor <;> intro same <;> cases same
  all_goals rfl

theorem scanTokens_tiles {source : List Char} {tokens : List Token} (scanned : scanTokens source = .ok tokens) :
    Tiles [] source tokens := by
  obtain ⟨faultless, rfl⟩ := scanTokens_eq_ok.1 scanned
  have segments := Segments.of_read source
  rw [faultless] at segments
  have tiles : Tiles [] source (Lexeme.tokensAt Place.start _) := tiles_of_segments segments rfl (by simp)
  apply Tiles.of_bare
  rw [Scan.tokens, tokensFrom_bare]
  exact tiles

theorem Segments.split {source : List Char} {lexemes : List Lexeme} {fault : ScanFault}
    (segments : Segments source lexemes (some fault)) :
    ∃ shown after, source = lexemes.flatMap Lexeme.source ++ (shown ++ after) ∧ fault.Shows shown after := by
  generalize faulty : some fault = outcome at segments
  induction segments with
  | done => cases faulty
  | @fault other shown after shows =>
    cases faulty
    exact ⟨shown, after, rfl, shows⟩
  | cons _ _ ih =>
    obtain ⟨shown, after, rfl, shows⟩ := ih faulty
    exact ⟨shown, after, by simp, shows⟩

theorem ScanFault.Shows.width_eq {fault : ScanFault} {shown after : List Char} (shows : fault.Shows shown after) :
    byteLength shown = fault.width := by
  cases shows with
  | backslash => rfl
  | comment => rfl
  | @string quote _ opens =>
    obtain rfl | rfl : quote = '"' ∨ quote = '\'' := by simpa [isQuote] using opens
    · rfl
    · rfl
  | block => rfl

theorem Token.Spelled.lexical {t : Token} {before text after : List Char} (spelled : t.Spelled before text after) :
    t.Lexical := by
  unfold Token.Spelled at spelled
  constructor
  · intro word
    rw [word] at spelled
    obtain ⟨same, some, all, -⟩ := spelled
    rw [same]
    exact ⟨some, List.all_eq_true.2 all⟩
  · intro symbol
    rw [symbol] at spelled
    obtain ⟨same, c, rfl, symbol, -⟩ := spelled
    rw [same]
    exact ⟨rfl, by simpa using symbol⟩

theorem scanTokens_lexical {source : List Char} {tokens : List Token} (scanned : scanTokens source = .ok tokens) :
    ∀ t ∈ tokens, t.Lexical := by
  intro t member
  obtain ⟨_, _, _, _, _, _, spelled⟩ := (scanTokens_tiles scanned).slice t member
  exact spelled.lexical

theorem scanTokens_starts_ascend {source : List Char} {tokens : List Token}
    (scanned : scanTokens source = .ok tokens) : tokens.Pairwise fun t u => t.span.start < u.span.start := by
  have tiles := scanTokens_tiles scanned
  refine tiles.apart.imp_of_mem ?_
  intro t u first _ apart
  obtain ⟨_, _, _, _, _, wide, _⟩ := tiles.slice t first
  exact Nat.lt_of_lt_of_le wide apart

/-- No two tokens of a source stand at one place. -/
theorem scanTokens_spans_nodup {source : List Char} {tokens : List Token} (scanned : scanTokens source = .ok tokens) :
    (tokens.map Token.span).Nodup := by
  refine List.pairwise_map.2 ((scanTokens_starts_ascend scanned).imp fun before same => ?_)
  rw [same] at before
  exact Nat.lt_irrefl _ before

/-- A source falls into lexemes in one way. If they reach to its end, its tokens are exact and lose
nothing; else the error is the fault behind them, and points at the characters that show it. -/
theorem scanTokens_lossless (source : List Char) : ∃ lexemes fault,
    (∀ others other, Segments source others other ↔ others = lexemes ∧ other = fault) ∧
      (fault = none → ∃ tokens, scanTokens source = .ok tokens ∧ Exact source tokens) ∧
      ∀ stopped, fault = some stopped → ∃ shown after,
        source = lexemes.flatMap Lexeme.source ++ (shown ++ after) ∧ stopped.Shows shown after ∧
          ∃ error, scanTokens source = .error error ∧
            error = .scan stopped (byteLength (lexemes.flatMap Lexeme.source)) ∧
            error.span? = some ⟨byteLength (lexemes.flatMap Lexeme.source),
              byteLength (lexemes.flatMap Lexeme.source ++ shown)⟩ := by
  refine ⟨(Scan.read source).lexemes, (Scan.read source).fault, ?_, ?_, ?_⟩
  · intro others other
    rw [segments_iff]
    constructor
    · intro read
      rw [read]
      exact ⟨rfl, rfl⟩
    · rintro ⟨rfl, rfl⟩
      rfl
  · intro faultless
    have scanned : scanTokens source = .ok (Scan.read source).tokens := scanTokens_eq_ok.2 ⟨faultless, rfl⟩
    exact ⟨_, scanned, (scanTokens_tiles scanned).exact⟩
  · intro stopped faulty
    have segments := Segments.of_read source
    rw [faulty] at segments
    obtain ⟨shown, after, whole, shows⟩ := segments.split
    refine ⟨shown, after, whole, shows, _, ?_, rfl, ?_⟩
    · simp only [scanTokens, faulty]
      rfl
    · rw [Fault.span?, Text.byteLength_append, shows.width_eq]

end ProtoSchema
