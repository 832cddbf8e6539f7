import ProtoSchema.Proofs.Search.Replay

namespace ProtoSchema

/-- A message with a field of a type that is declared in it, and one of a scalar type. -/
def innerNamed : String :=
  "message M { A a = 1; int32 n = 2; message A {} }"

end ProtoSchema
