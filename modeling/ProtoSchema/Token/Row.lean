import ProtoSchema.Text.Blank
import ProtoSchema.Token.Basic
import ProtoSchema.Token.Lexeme

namespace ProtoSchema

/-- The text of one line inside a block comment: a star at its beginning is decoration. -/
def cleanBlockLine (line : List Char) : List Char :=
  match Text.trim line with
  | '*' :: text => Text.trimStart text
  | text => text

/-- The text that a comment adds to the comment of its row, one line after another. -/
def Lexeme.comment? : Lexeme → Option (List Char)
  | .lineComment body => some (Text.trim body ++ ['\n'])
  | .blockComment body =>
    some ((Text.lines (Text.dropTrailing (· == '*') body)).flatMap fun line => cleanBlockLine line ++ ['\n'])
  | _ => none

/-- The kind and text of the token that a lexeme is. -/
def Lexeme.token? : Lexeme → Option (TokenKind × List Char)
  | .word text => some (.word, text)
  | .symbol c => some (.symbol, [c])
  | .string _ body => some (.string, unescape body)
  | _ => none

/-- The token that a lexeme at a place is, still without a comment. -/
def Lexeme.tokenAt? (place : Text.Place) (lexeme : Lexeme) : Option Token :=
  lexeme.token?.map fun (kind, text) =>
    let position := place.position
    { kind, text := String.ofList text, line := position.line, column := position.column,
      span := ⟨place.offset, (place.after lexeme.source).offset⟩, comment := none }

/-- What has been read of the current row: its tokens, the last one first, the comments that belong
to it, and whether nothing but spaces has come so far. -/
structure Row where
  comment : List Char
  tokens : List Token
  blank : Bool

def Row.start (comment : List Char) : Row :=
  ⟨comment, [], true⟩

/-- The tokens of the row, each with the comment of the row. -/
def Row.finish (row : Row) : List Token :=
  let comment := Text.trim row.comment
  let given := if comment.isEmpty then none else some (String.ofList comment)
  row.tokens.reverse.map fun token => { token with comment := given }

/-- The row after the end of one that held no token. It gets the comments of that row, unless the row was empty. -/
def Row.skip (row : Row) : Row :=
  Row.start (if row.blank then [] else row.comment)

/-- The tokens of the lexemes that begin at a place, when `row` has been read before them. -/
def tokensFrom (place : Text.Place) (row : Row) : List Lexeme → List Token
  | [] => row.finish
  | lexeme :: rest =>
    let next := place.after lexeme.source
    if lexeme = .newline then
      if row.tokens.isEmpty then tokensFrom next row.skip rest
      else row.finish ++ tokensFrom next (Row.start []) rest
    else match lexeme.tokenAt? place, lexeme.comment? with
      | some token, _ => tokensFrom next ⟨row.comment, token :: row.tokens, false⟩ rest
      | none, some text => tokensFrom next ⟨row.comment ++ text, row.tokens, false⟩ rest
      | none, none => tokensFrom next row rest

/-- The tokens of the part of a source that its lexemes cover. -/
def Scan.tokens (scan : Scan) : List Token :=
  tokensFrom Text.Place.start (Row.start []) scan.lexemes

end ProtoSchema
