import ProtoSchema.Text.Lines
import ProtoSchema.Token.Basic
import ProtoSchema.Token.Lexeme

namespace ProtoSchema

/-- What the grammar allows at a place. -/
inductive Expectation
  | statement
  | importPath
  | member
  | oneofField
  | extensionField
  | enumValue
  | serviceEntry
  | methodEnd
  | identifier
  | typeName
  | integer
  | stringLiteral
  | literal (text : String)
deriving DecidableEq, Repr

def Expectation.text : Expectation → String
  | .statement => "'syntax', 'package', 'import', 'option', 'message', 'enum', 'service', 'extend' or ';'"
  | .importPath => "a string literal, 'public' or 'weak'"
  | .member => "a message field, oneof, 'message', 'enum', 'extend', 'option', 'reserved' or '\x7d'"
  | .oneofField => "a oneof field, 'option' or '\x7d'"
  | .extensionField => "an extension field or '\x7d'"
  | .enumValue => "an enum value, 'option', 'reserved' or '\x7d'"
  | .serviceEntry => "'rpc', 'option', ';' or '\x7d'"
  | .methodEnd => "';' or '\x7b'"
  | .identifier => "an identifier"
  | .typeName => "a type name"
  | .integer => "an integer"
  | .stringLiteral => "a string literal"
  | .literal text => "'" ++ text ++ "'"

/-- The first fault of a source. Those of the grammar carry the token at which they show. -/
inductive Fault
  | scan (fault : ScanFault) (offset : Nat)
  | unexpected (expected : Expectation) (found : Token)
  | unexpectedEnd (expected : Expectation)
  | invalidTypeName (token : Token)
  | invalidNumber (token : Token)
deriving DecidableEq, Repr

def ScanFault.message : ScanFault → String
  | .strayBackslash => "backslashes are only allowed inside string literals"
  | .brokenComment => "expected '/' or '*' after '/'"
  | .unterminatedString => "unterminated string"
  | .unterminatedComment => "unterminated block comment"

/-- The words at the mark that a report puts under a scan fault. -/
def ScanFault.label : ScanFault → String
  | .strayBackslash => "found here"
  | .brokenComment => "found here"
  | .unterminatedString => "string starts here"
  | .unterminatedComment => "comment starts here"

namespace Fault

def message : Fault → String
  | .scan fault _ => fault.message
  | .unexpected expected found => "expected " ++ expected.text ++ ", but found '" ++ found.display ++ "'"
  | .unexpectedEnd expected => "expected " ++ expected.text ++ ", but reached end of file"
  | .invalidTypeName token => "invalid type name '" ++ token.text ++ "'"
  | .invalidNumber token => "invalid number '" ++ token.display ++ "'"

def isScan : Fault → Bool
  | .scan _ _ => true
  | _ => false

/-- The bytes that a fault points at; the end of the file is no place in it. -/
def span? : Fault → Option Span
  | .scan fault offset => some ⟨offset, offset + fault.width⟩
  | .unexpected _ found => some found.span
  | .unexpectedEnd _ => none
  | .invalidTypeName token => some token.span
  | .invalidNumber token => some token.span

/-- The text that did not fit the grammar. -/
def found? : Fault → Option String
  | .unexpected _ found => some found.display
  | .invalidTypeName token => some token.text
  | .invalidNumber token => some token.display
  | _ => none

def help? : Fault → Option String
  | .scan .brokenComment _ => some "comments must start with '//' or '/*'"
  | .invalidTypeName _ =>
    some ("type names are identifiers separated by '.', " ++
      "optionally starting with '.' where a fully-qualified name is allowed")
  | _ => none

/-- The words at the mark that a report puts under the span of a fault. -/
def label : Fault → String
  | .scan fault _ => fault.label
  | .invalidTypeName _ => "defined here"
  | .invalidNumber _ => "defined here"
  | _ => "found here"

end Fault

/-- A mark in a report: some words under a run of bytes. -/
structure Label where
  text : String
  span : Span
deriving DecidableEq, Repr

/-- The fault of a named file with its position. -/
structure SyntaxError where
  file : String
  fault : Fault
  position : Text.Position
deriving DecidableEq, Repr

namespace SyntaxError

/-- Places a fault in its file. A fault without a span stands at the end of the source. -/
def ofFault (file : String) (source : List Char) (fault : Fault) : SyntaxError :=
  let offset := (fault.span?.map Span.start).getD (Text.byteLength source)
  ⟨file, fault, Text.locate source offset⟩

def message (e : SyntaxError) : String :=
  e.fault.message

/-- The error on one line with its place, as in `a.proto:1:4: unterminated string`. -/
def describe (e : SyntaxError) : String :=
  e.file ++ ":" ++ toString e.position.line ++ ":" ++ toString e.position.column ++ ": " ++ e.message

def labels (e : SyntaxError) : List Label :=
  (e.fault.span?.map fun span => ⟨e.fault.label, span⟩).toList

end SyntaxError

end ProtoSchema
