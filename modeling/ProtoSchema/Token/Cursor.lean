import ProtoSchema.Token.Basic

namespace ProtoSchema

/-- Tokens with the index of the next one and that of the one handed out last, whose comment and line can be asked for
afterwards. -/
structure Cursor where
  tokens : List Token
  position : Nat
  latest : Option Nat

def Cursor.ofTokens (tokens : List Token) : Cursor :=
  ⟨tokens, 0, none⟩

def Cursor.get? (c : Cursor) (index : Nat) : Option Token :=
  c.tokens[index]?

/-- The token `n` places after the next one. -/
def Cursor.peekNth? (c : Cursor) (n : Nat) : Option Token :=
  c.get? (c.position + n)

def Cursor.hasNext (c : Cursor) : Bool :=
  c.position < c.tokens.length

/-- Hands out the next token and stays before it. -/
def Cursor.peek (c : Cursor) : Option Token × Cursor :=
  match c.get? c.position with
  | some token => (some token, { c with latest := some c.position })
  | none => (none, c)

/-- Hands out the next token and moves past it. -/
def Cursor.next (c : Cursor) : Option Token × Cursor :=
  match c.get? c.position with
  | some token => (some token, { c with position := c.position + 1, latest := some c.position })
  | none => (none, c)

/-- The token that was handed out last. -/
def Cursor.latest? (c : Cursor) : Option Token :=
  c.latest.bind c.get?

def Cursor.comment? (c : Cursor) : Option String :=
  c.latest?.bind Token.comment

def Cursor.line? (c : Cursor) : Option Nat :=
  c.latest?.map Token.line

end ProtoSchema
