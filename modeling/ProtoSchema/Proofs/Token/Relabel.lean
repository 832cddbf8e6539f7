import ProtoSchema.Fault

namespace ProtoSchema

/-- Other comments and other places for what has been read. -/
structure Relabel where
  comment : Option String → Option String
  line : Nat → Nat
  column : Nat → Nat
  offset : Nat → Nat

namespace Relabel

def span (f : Relabel) (span : Span) : Span :=
  ⟨f.offset span.start, f.offset span.stop⟩

def token (f : Relabel) (t : Token) : Token :=
  { t with line := f.line t.line, column := f.column t.column, span := f.span t.span, comment := f.comment t.comment }

/-- The same fault, of the same kind and with the same texts, at another place. -/
def fault (f : Relabel) : Fault → Fault
  | .scan fault offset => .scan fault (f.offset offset)
  | .unexpected expected found => .unexpected expected (f.token found)
  | .unexpectedEnd expected => .unexpectedEnd expected
  | .invalidTypeName token => .invalidTypeName (f.token token)
  | .invalidNumber token => .invalidNumber (f.token token)

def position (f : Relabel) (position : Text.Position) : Text.Position :=
  ⟨f.line position.line, f.column position.column⟩

def syntaxError (f : Relabel) (e : SyntaxError) : SyntaxError :=
  { e with fault := f.fault e.fault, position := f.position e.position }

/-- The labels of what stands some lines and some bytes further on. -/
def shift (lines bytes : Nat) : Relabel :=
  ⟨id, (lines + ·), id, (bytes + ·)⟩

variable (f : Relabel) (t : Token)

@[simp] theorem text_token : (f.token t).text = t.text := rfl

@[simp] theorem is_token (text : String) : (f.token t).is text = t.is text := rfl

/-- No label shows in the message of a fault. -/
@[simp] theorem message_fault (fault : Fault) : (f.fault fault).message = fault.message := by
  cases fault <;> rfl

theorem start?_fault (fault : Fault) :
    (f.fault fault).span?.map Span.start = (fault.span?.map Span.start).map f.offset := by
  cases fault <;> rfl

end Relabel

end ProtoSchema
