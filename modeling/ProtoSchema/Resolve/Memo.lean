import ProtoSchema.Resolve
import ProtoSchema.Text.Escape

namespace ProtoSchema

/-- A reference, with what it means if that has been looked up before. -/
structure MemoRef where
  ref : TypeRef
  known : Option Meaning
deriving DecidableEq, Repr

namespace MemoRef

def fresh (ref : TypeRef) : MemoRef :=
  ⟨ref, none⟩

/-- What the reference means: what it meant when it was first looked up, or else what it means in `file`. -/
def resolve (file : File) (memo : MemoRef) : Meaning × MemoRef :=
  match memo.known with
  | some meaning => (meaning, memo)
  | none =>
    let meaning := memo.ref.resolve file
    (meaning, { memo with known := some meaning })

/-- The kind of the reference. A scalar type is not looked up for it. -/
def kind (file : File) (memo : MemoRef) : RefKind × MemoRef :=
  if memo.ref.isScalar then (.scalar, memo)
  else
    let (meaning, memo) := memo.resolve file
    (memo.ref.kindOf meaning, memo)

end MemoRef

/-- The references of a file, in order. -/
abbrev Memo := List MemoRef

def File.memo (file : File) : Memo :=
  file.types.map MemoRef.fresh

namespace Memo

def known? (memo : Memo) (index : Nat) : Option Meaning :=
  memo[index]?.bind MemoRef.known

/-- Runs an action on the reference at a place, which no other reference takes notice of. -/
def act (memo : Memo) (index : Nat) (action : MemoRef → α × MemoRef) : Option α × Memo :=
  match memo[index]? with
  | none => (none, memo)
  | some ref =>
    let (answer, ref) := action ref
    (some answer, memo.set index ref)

def resolve (memo : Memo) (file : File) (index : Nat) : Option Meaning × Memo :=
  memo.act index (MemoRef.resolve file)

def kind (memo : Memo) (file : File) (index : Nat) : Option RefKind × Memo :=
  memo.act index (MemoRef.kind file)

end Memo

def Scope.describe : Scope → String
  | .file => "File"
  | .message id => "Message(MessageId(" ++ toString id.index ++ "))"

/-- A reference on one line for a programmer, as in `Type { name: "A", scope: File, .. }`. -/
def TypeRef.describe (ref : TypeRef) : String :=
  "Type \x7b name: " ++ Text.quoted ref.name ++ ", scope: " ++ ref.scope.describe ++ ", .. \x7d"

end ProtoSchema
