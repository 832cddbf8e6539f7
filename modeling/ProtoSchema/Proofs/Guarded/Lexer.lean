import ProtoSchema.Parse
import ProtoSchema.Proofs.Guarded.Lines
import ProtoSchema.Proofs.Token.Joined

namespace ProtoSchema

open Text (Place byteLength)

namespace Guarded

/-- The rules for lexemes. -/
inductive Rule
  | space
  | newline
  | symbol
  | quote
  | word
  | lineComment
  | commentOpen
deriving DecidableEq, Repr

/-- The rule for what begins with `c` and goes on in `text`, if there is one. -/
def Rule.for? (c : Char) (text : List Char) : Option Rule :=
  if isSpace c then some .space
  else if c = '\n' then some .newline
  else if isSymbol c then some .symbol
  else if isQuote c then some .quote
  else if isWordChar c then some .word
  else if c = '/' then
    if text.head? = some '/' then some .lineComment else if text.head? = some '*' then some .commentOpen else none
  else none

/-- What a rule matches behind the first character, and what is left. -/
def Rule.cut (rule : Rule) (text : List Char) : List Char × List Char :=
  match rule with
  | .space => (text.takeWhile isSpace, text.dropWhile isSpace)
  | .word => (text.takeWhile isWordChar, text.dropWhile isWordChar)
  | .lineComment => (text.takeWhile (· != '\n'), text.dropWhile (· != '\n'))
  | .commentOpen => (text.take 1, text.drop 1)
  | .newline | .symbol | .quote => ([], text)

/-- What a rule makes of the slice that it matches and of what is left behind it. -/
def Rule.apply (rule : Rule) (slice left : List Char) : Except Breach (Except ScanFault (Lexeme × List Char)) :=
  match rule with
  | .space => return .ok (.space slice, left)
  | .newline => return .ok (.newline, left)
  | .word => return .ok (.word slice, left)
  | .symbol =>
    match slice with
    | [c] => return .ok (.symbol c, left)
    | _ => .error .unknownLexeme
  | .quote =>
    match slice with
    | [] => .error .noQuote
    | mark :: _ =>
      match splitQuote mark left with
      | some (body, rest) => return .ok (.string mark body, rest)
      | none => return .error .unterminatedString
  | .lineComment =>
    match slice with
    | '/' :: '/' :: body => return .ok (.lineComment body, left)
    | _ => .error .noSlashes
  | .commentOpen =>
    match splitCommentEnd left with
    | some (body, rest) => return .ok (.blockComment body, rest)
    | none => return .error .unterminatedComment

/-- The fault at a character at which no lexeme begins. -/
def invalidLexeme : List Char → Except Breach ScanFault
  | '\\' :: _ => return .strayBackslash
  | '/' :: _ => return .brokenComment
  | _ => .error .unknownLexeme

def readLexeme (c : Char) (text : List Char) : Except Breach (Except ScanFault (Lexeme × List Char)) :=
  match Rule.for? c text with
  | some rule => rule.apply (c :: (rule.cut text).1) (rule.cut text).2
  | none => do return .error (← invalidLexeme [c])

/-- A slash begins a comment or nothing. -/
theorem readLexeme_slash (text : List Char) : readLexeme '/' text = .ok (Lexeme.read '/' text) := by
  have space : ¬isSpace '/' := by decide
  have newline : '/' ≠ '\n' := by decide
  have symbol : ¬isSymbol '/' := by decide
  have quote : ¬isQuote '/' := by decide
  have word : ¬isWordChar '/' := by decide
  have rule : Rule.for? '/' text = if text.head? = some '/' then some .lineComment
      else if text.head? = some '*' then some .commentOpen else none := by
    rw [Rule.for?, if_neg space, if_neg newline, if_neg symbol, if_neg quote, if_neg word, if_pos rfl]
  rw [readLexeme, rule]
  unfold Lexeme.read
  rw [if_neg space, if_neg newline, if_neg symbol, if_neg quote, if_pos rfl]
  cases text with
  | nil => rfl
  | cons d text =>
    by_cases line : d = '/'
    · subst line
      rfl
    by_cases block : d = '*'
    · subst block
      rw [if_neg (by simp), if_pos List.head?_cons]
      show Rule.apply .commentOpen _ text = .ok (match splitCommentEnd text with
        | some (body, rest) => .ok (.blockComment body, rest)
        | none => .error .unterminatedComment)
      rw [Rule.apply]
      cases splitCommentEnd text <;> rfl
    · rw [if_neg (by simpa using line), if_neg (by simpa using block)]
      show Except.ok (Except.error ScanFault.brokenComment) = _
      split
      · rename_i same
        exact absurd (List.cons.inj same).1 line
      · rename_i same
        exact absurd (List.cons.inj same).1 block
      · rfl

/-- The rule that is chosen for a character fits it, and only a backslash or a slash is left without a rule. -/
theorem readLexeme_eq (c : Char) (text : List Char) : readLexeme c text = .ok (Lexeme.read c text) := by
  by_cases slash : c = '/'
  · rw [slash]
    exact readLexeme_slash text
  unfold readLexeme Rule.for? Lexeme.read
  by_cases space : isSpace c
  · rw [if_pos space, if_pos space]
    rfl
  rw [if_neg space, if_neg space]
  by_cases newline : c = '\n'
  · rw [if_pos newline, if_pos newline]
    rfl
  rw [if_neg newline, if_neg newline]
  by_cases symbol : isSymbol c
  · rw [if_pos symbol, if_pos symbol]
    rfl
  rw [if_neg symbol, if_neg symbol]
  by_cases quote : isQuote c
  · rw [if_pos quote, if_pos quote]
    simp only [Rule.apply, Rule.cut]
    cases splitQuote c text <;> rfl
  rw [if_neg quote, if_neg quote, if_neg slash, if_neg slash]
  by_cases backslash : c = '\\'
  · rw [backslash]
    rfl
  · have word : isWordChar c :=
      isWordChar_iff.2 ⟨by simpa using space, newline, by simpa using symbol, by simpa using quote, slash, backslash⟩
    rw [if_pos word, if_neg backslash]
    rfl

/-- A source on its way into tokens: the offset of what is left, the tokens so far, and of the current row the text of
its comments, the places of its tokens, and whether nothing but spaces has come. -/
structure Lexing where
  offset : Nat
  tokens : List Token
  comment : List Char
  pending : List Nat
  blank : Bool

namespace Lexing

def start : Lexing :=
  ⟨0, [], [], [], true⟩

/-- Gives a comment to the tokens at some places. -/
def giveTo (comment : String) (tokens : List Token) : List Nat → Except Breach (List Token)
  | [] => return tokens
  | index :: rest =>
    match tokens[index]? with
    | some token => giveTo comment (tokens.set index { token with comment := some comment }) rest
    | none => .error .noSuchToken

/-- Gives the comment of the row, if there is any, to the tokens of the row. -/
def flush (l : Lexing) : Except Breach Lexing := do
  let comment := Text.trim l.comment
  let tokens ← if comment.isEmpty then pure l.tokens else giveTo (String.ofList comment) l.tokens l.pending
  return { l with tokens, comment := [], pending := [] }

def newline (l : Lexing) : Except Breach Lexing := do
  let ended ← if l.pending.isEmpty then pure { l with comment := if l.blank then [] else l.comment } else l.flush
  return { ended with blank := true }

def finish (l : Lexing) : Except Breach (List Token) :=
  if l.pending.isEmpty then return l.tokens else return (← l.flush).tokens

/-- Adds a token of a source whose lines begin at `starts`. It ends at `stop`. -/
def push (starts : List Nat) (stop : Nat) (kind : TokenKind) (text : List Char) (l : Lexing) :
    Except Breach Lexing := do
  let ⟨line, column⟩ ← locate starts l.offset
  let token : Token := { kind, text := String.ofList text, line, column, span := ⟨l.offset, stop⟩, comment := none }
  return { l with tokens := l.tokens ++ [token], pending := l.pending ++ [l.tokens.length], blank := false }

/-- Goes past a lexeme. -/
def take (starts : List Nat) (l : Lexing) (lexeme : Lexeme) : Except Breach Lexing := do
  let stop := l.offset + byteLength lexeme.source
  let taken ← if lexeme = .newline then l.newline
    else match lexeme.token?, lexeme.comment? with
      | some (kind, text), _ => l.push starts stop kind text
      | none, some text => pure { l with comment := l.comment ++ text, blank := false }
      | none, none => pure l
  return { taken with offset := stop }

/-- Reads what is left of a source, of which each lexeme takes some. -/
def run (starts : List Nat) (l : Lexing) (source : List Char) : Except Breach (Except Fault (List Token)) :=
  match source with
  | [] => return .ok (← l.finish)
  | c :: text =>
    match readLexeme c text with
    | .error breach => .error breach
    | .ok (.error fault) => .ok (.error (.scan fault l.offset))
    | .ok (.ok (lexeme, rest)) =>
      if _shorter : rest.length < (c :: text).length then
        match l.take starts lexeme with
        | .error breach => .error breach
        | .ok taken => taken.run starts rest
      else .error .stalled
termination_by source.length
decreasing_by exact _shorter

/-- At `place`, behind the tokens `done` of the rows before it. -/
def within (done : List Token) (place : Place) (row : Row) : Lexing :=
  ⟨place.offset, done ++ row.tokens.reverse, row.comment, List.range' done.length row.tokens.length, row.blank⟩

theorem giveTo_pending (comment : String) (done tokens : List Token) :
    giveTo comment (done ++ tokens) (List.range' done.length tokens.length) =
      .ok (done ++ tokens.map fun token => { token with comment := some comment }) := by
  induction tokens generalizing done with
  | nil => rfl
  | cons token tokens ih =>
    have next := ih (done ++ [{ token with comment := some comment }])
    simp only [List.length_append, List.length_singleton, List.append_assoc, List.singleton_append] at next
    rw [List.length_cons, List.range'_succ, giveTo]
    simpa using next

variable {done : List Token} {place : Place} {row : Row}

/-- Every token that waits for the comment of its row is there. -/
theorem flush_within (bare : ∀ t ∈ row.tokens, t.comment = none) :
    (within done place row).flush = .ok ⟨place.offset, done ++ row.finish, [], [], row.blank⟩ := by
  have given := giveTo_pending (String.ofList (Text.trim row.comment)) done row.tokens.reverse
  have comment : (within done place row).comment = row.comment := rfl
  rw [List.length_reverse] at given
  rw [flush, Row.finish, comment]
  by_cases silent : (Text.trim row.comment).isEmpty
  · have same : row.tokens.reverse.map (fun token : Token => { token with comment := none }) = row.tokens.reverse := by
      rw [List.map_congr_left (g := id), List.map_id]
      intro token member
      rw [← bare token (List.mem_reverse.1 member)]
      rfl
    rw [if_pos silent, if_pos silent, same]
    rfl
  · rw [if_neg silent, if_neg silent, within, given]
    rfl

theorem pending_within : (within done place row).pending.isEmpty = row.tokens.isEmpty := by
  rw [Bool.eq_iff_iff]
  simp [within]

theorem finish_within (bare : ∀ t ∈ row.tokens, t.comment = none) :
    (within done place row).finish = .ok (done ++ row.finish) := by
  rw [finish, pending_within, flush_within bare]
  split
  · rename_i empty
    simp only [within, Row.finish, List.isEmpty_iff.1 empty, List.reverse_nil, List.map_nil, List.append_nil]
    rfl
  · rfl

theorem newline_within (bare : ∀ t ∈ row.tokens, t.comment = none) :
    (within done place row).newline = .ok (if row.tokens.isEmpty then within done place row.skip
      else within (done ++ row.finish) place (Row.start [])) := by
  rw [newline, pending_within, flush_within bare]
  split
  · rename_i empty
    simp only [within, Row.skip, Row.start, List.isEmpty_iff.1 empty]
    rfl
  · simp only [within, Row.start, List.reverse_nil, List.append_nil]
    rfl

/-- A token waits for the comment at the place that it gets. -/
theorem push_within {source : List Char} (here : Text.locate source place.offset = place.position) (stop : Nat)
    (kind : TokenKind) (text : List Char) :
    (within done place row).push (lineStarts 0 source) stop kind text =
      .ok (within done place ⟨row.comment, ⟨kind, String.ofList text, place.position.line, place.position.column,
        ⟨place.offset, stop⟩, none⟩ :: row.tokens, false⟩) := by
  have offset : (within done place row).offset = place.offset := rfl
  rw [push, offset, locate_eq, here]
  simp [within, List.range'_concat]

/-- A lexeme leads on to the tokens of the rows that it ends and to the row that it leaves. -/
theorem take_within {source : List Char} (here : Text.locate source place.offset = place.position)
    (bare : ∀ t ∈ row.tokens, t.comment = none) (done : List Token) (lexeme : Lexeme) :
    ∃ ended next, (within done place row).take (lineStarts 0 source) lexeme =
        .ok (within (done ++ ended) (place.after lexeme.source) next) ∧
      (∀ t ∈ next.tokens, t.comment = none) ∧
      ∀ rest, tokensFrom place row (lexeme :: rest) = ended ++ tokensFrom (place.after lexeme.source) next rest := by
  have stop := Place.offset_after place lexeme.source
  have moved (done : List Token) (row : Row) :
      { within done place row with offset := place.offset + byteLength lexeme.source } =
        within done (place.after lexeme.source) row := by
    rw [← stop]
    rfl
  simp only [take, tokensFrom, Lexeme.tokenAt?]
  by_cases newline : lexeme = .newline
  · simp only [if_pos newline, newline_within bare]
    by_cases empty : row.tokens.isEmpty
    · refine ⟨[], row.skip, ?_, List.forall_mem_nil _, fun rest => by rw [if_pos empty]; rfl⟩
      rw [if_pos empty, List.append_nil, ← moved]
      rfl
    · refine ⟨row.finish, Row.start [], ?_, List.forall_mem_nil _, fun rest => by rw [if_neg empty]⟩
      rw [if_neg empty, ← moved]
      rfl
  · simp only [if_neg newline]
    cases token : lexeme.token? with
    | some found =>
      obtain ⟨kind, text⟩ := found
      refine ⟨[], _, ?_, ?_, fun rest => rfl⟩
      · rw [List.append_nil, ← moved, stop]
        simp only [push_within here]
        rfl
      · exact List.forall_mem_cons.2 ⟨rfl, bare⟩
    | none =>
      cases comment : lexeme.comment? with
      | some text =>
        refine ⟨[], ⟨row.comment ++ text, row.tokens, false⟩, ?_, bare, fun rest => rfl⟩
        rw [List.append_nil, ← moved]
        rfl
      | none =>
        refine ⟨[], row, ?_, bare, fun rest => rfl⟩
        rw [List.append_nil, ← moved]
        rfl

/-- Behind `before`, what is left of a source falls into the tokens that its lexemes give. -/
theorem run_within (done : List Token) (row : Row) (before source : List Char)
    (bare : ∀ t ∈ row.tokens, t.comment = none) :
    (within done (Place.start.after before) row).run (lineStarts 0 (before ++ source)) source =
      .ok (match (Scan.read source).fault with
        | some fault => .error (.scan fault (byteLength (before ++ (Scan.read source).covered)))
        | none => .ok (done ++ tokensFrom (Place.start.after before) row (Scan.read source).lexemes)) := by
  fun_induction Scan.read source generalizing before done row with
  | case1 =>
    rw [run, finish_within bare]
    rfl
  | case2 c text fault read =>
    have offset : (Place.start.after before).offset = byteLength before := by
      rw [Place.offset_after]
      exact Nat.zero_add _
    rw [run, readLexeme_eq, read]
    simp [within, Scan.covered, offset]
  | case3 c text lexeme rest read scan =>
    rename_i ih
    have shorter := Lexeme.length_lt_of_read read
    obtain ⟨ended, next, taken, nextBare, tokens⟩ :=
      take_within (Text.locate_after before (c :: text)) bare done lexeme
    have further := ih (done ++ ended) next (before ++ lexeme.source) nextBare
    rw [Place.after_append, List.append_assoc, Lexeme.read_source read] at further
    rw [run, readLexeme_eq, read]
    simp only [dif_pos shorter, taken, further, tokens, Scan.covered, List.flatMap_cons, List.append_assoc, scan]

end Lexing

/-- The tokens of a source, or the fault at the first character at which no lexeme begins. -/
def scanTokens (source : List Char) : Except Breach (Except Fault (List Token)) :=
  Lexing.start.run (lineStarts 0 source) source

theorem scanTokens_eq (source : List Char) : scanTokens source = .ok (ProtoSchema.scanTokens source) :=
  Lexing.run_within [] (Row.start []) [] source (List.forall_mem_nil _)

end Guarded

end ProtoSchema
