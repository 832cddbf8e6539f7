import ProtoSchema.Text.Escape

namespace ProtoSchema

inductive TokenKind
  | word
  | symbol
  | string
deriving DecidableEq, Repr

/-- The bytes of a source from `start` up to, but not including, `stop`. -/
structure Span where
  start : Nat
  stop : Nat
deriving DecidableEq, Repr

/-- A token. The text of a string literal is its content, without quotes and with escapes taken literally. -/
structure Token where
  kind : TokenKind
  text : String
  line : Nat
  column : Nat
  span : Span
  comment : Option String
deriving DecidableEq, Repr

/-- Whether a token is the given keyword or punctuation. A string literal is neither. -/
def Token.is (t : Token) (text : String) : Bool :=
  t.kind != .string && t.text == text

/-- The form of a token in messages: words and symbols as they are, string literals quoted anew. -/
def Token.display (t : Token) : String :=
  match t.kind with
  | .string => String.ofList (Text.display t.text.toList)
  | _ => t.text

end ProtoSchema
