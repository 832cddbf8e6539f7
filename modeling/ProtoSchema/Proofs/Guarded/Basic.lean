import ProtoSchema.Fault
import ProtoSchema.File.Basic
import ProtoSchema.Name
import ProtoSchema.Numeral

namespace ProtoSchema

/-- What must not happen, whatever the source is: something that is taken for granted does not hold where it is relied
on. -/
inductive Breach
  /-- No lexeme begins at a character that is neither a backslash nor a slash. -/
  | unknownLexeme
  /-- A string literal that does not begin with a quote. -/
  | noQuote
  /-- A comment that does not begin with two slashes. -/
  | noSlashes
  /-- A comment is given to a token that is not there. -/
  | noSuchToken
  /-- A token is taken where none is left. -/
  | noTokenLeft
  /-- A call or a round of a loop that begins where the one before it began. -/
  | stalled
  /-- A number without a counterpart below zero. -/
  | overflow
  /-- A line that is not in the table of lines, or that begins behind what is in it. -/
  | noSuchLine
  /-- A declaration that is not in its table. -/
  | noSuchRow
  /-- Fields at the top of a file. -/
  | strayFields
  /-- More messages around a place than there are in the file. -/
  | endless
deriving DecidableEq, Repr

/-- A part of the grammar: it takes tokens and adds to the file, unless the source is refused. -/
structure Descent.State where
  tokens : List Token
  file : File

inductive Descent.Outcome (α : Type)
  | ok (a : α) (after : Descent.State)
  | refused (fault : Fault)
  | broken (breach : Breach)

def Descent (α : Type) : Type :=
  Descent.State → Descent.Outcome α

namespace Descent

variable {α β : Type}

instance : Monad Descent where
  pure a := fun s => .ok a s
  bind first next := fun s =>
    match first s with
    | .ok a after => next a after
    | .refused fault => .refused fault
    | .broken breach => .broken breach

@[simp] theorem pure_apply (a : α) (s : State) : (pure a : Descent α) s = .ok a s := rfl

@[simp] theorem bind_apply (first : Descent α) (next : α → Descent β) (s : State) :
    (first >>= next) s = match first s with
      | .ok a after => next a after
      | .refused fault => .refused fault
      | .broken breach => .broken breach := rfl

def refuse (fault : Fault) : Descent α :=
  fun _ => .refused fault

def fail (breach : Breach) : Descent α :=
  fun _ => .broken breach

def read : Descent File :=
  fun s => .ok s.file s

def write (file : File) : Descent Unit :=
  fun s => .ok () { s with file }

/-- The next token, which is not taken. -/
def peek : Descent (Option Token) :=
  fun s => .ok s.tokens.head? s

/-- The token behind the next one. -/
def peekSecond : Descent (Option Token) :=
  fun s => .ok s.tokens[1]? s

/-- Takes a token that is relied on to be there. -/
def bump : Descent Token := fun s =>
  match s.tokens with
  | [] => .broken .noTokenLeft
  | t :: rest => .ok t { s with tokens := rest }

/-- Takes a token that has been looked at. -/
def drop : Descent Unit := do
  let _ ← bump
  return ()

/-- Refuses what comes next for not being what is expected. -/
def unexpected (expected : Expectation) : Descent α := do
  match ← peek with
  | some t => refuse (.unexpected expected t)
  | none => refuse (.unexpectedEnd expected)

/-- Takes a token of some kind only. -/
def takeIf (accepts : Token → Bool) (expected : Expectation) : Descent Token := do
  match ← peek with
  | some t => if accepts t then bump else unexpected expected
  | none => unexpected expected

def expect (text : String) : Descent Token :=
  takeIf (·.is text) (.literal text)

def isNext (text : String) : Descent Bool := do
  return (← peek).any (·.is text)

def identifier : Descent Token :=
  takeIf (fun t => t.kind = .word ∧ isIdentifier t.text.toList) .identifier

def stringLiteral : Descent Token :=
  takeIf (·.kind = .string) .stringLiteral

/-- A name of the class `valid`. -/
def dottedName (valid : List Char → Bool) : Descent Token := do
  let name ← takeIf (·.kind = .word) .typeName
  if valid name.text.toList then return name else refuse (.invalidTypeName name)

def typeName : Descent Token :=
  dottedName isTypeName

/-- Goes on from `b` in rounds, each of which gives what the next one begins with or the result. -/
def loop (round : β → Descent (β ⊕ α)) (b : β) : Descent α := fun s =>
  match round b s with
  | .ok (.inl next) after =>
    if _shorter : after.tokens.length < s.tokens.length then loop round next after else .broken .stalled
  | .ok (.inr a) after => .ok a after
  | .refused fault => .refused fault
  | .broken breach => .broken breach
termination_by s => s.tokens.length

end Descent

end ProtoSchema
