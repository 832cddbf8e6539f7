import ProtoSchema.File.Layout
import ProtoSchema.Reader
import ProtoSchema.Token.Row

namespace ProtoSchema

/-- The tokens of a source, or the fault at the first character at which no lexeme begins. -/
def scanTokens (source : List Char) : Except Fault (List Token) :=
  let scan := Scan.read source
  match scan.fault with
  | some fault => .error (.scan fault (Text.byteLength scan.covered))
  | none => .ok scan.tokens

/-- The tokens of the file `name` with the text `source`. -/
def tokenize (name source : String) : Except SyntaxError (List Token) :=
  (scanTokens source.toList).mapError (SyntaxError.ofFault name source.toList)

/-- Reads the file `name` with the text `source`. A text that does not fall into tokens is refused before
its grammar is looked at. -/
def parse (name source : String) : Except SyntaxError File :=
  (((scanTokens source.toList).bind readStatements).mapError (SyntaxError.ofFault name source.toList)).map
    (File.ofStatements name)

end ProtoSchema
