import ProtoSchema.Proofs.Guarded.LineSearch
import ProtoSchema.Proofs.Token.Slices

namespace ProtoSchema

open Text (bytes coordinates)

variable {source : List Char} {tokens : List Token} {t : Token}

def Token.position (t : Token) : Text.Position :=
  ⟨t.line, t.column⟩

theorem scanTokens_position (scanned : scanTokens source = .ok tokens) (member : t ∈ tokens) :
    t.position = .fromZero (coordinates (bytes source) t.span.start) := by
  rw [← Guarded.locate_eq_coordinates]
  exact (scanTokens_locate scanned member).symm

theorem scanTokens_ascend (scanned : scanTokens source = .ok tokens) :
    tokens.Pairwise fun t u => toLex (t.line, t.column) < toLex (u.line, u.column) := by
  refine (scanTokens_starts_ascend scanned).imp_of_mem ?_
  intro t u first second before
  have less := Text.coordinates_strictMono (bytes source) before
  obtain ⟨line, column⟩ := Text.Position.mk.inj (scanTokens_position scanned first)
  obtain ⟨line', column'⟩ := Text.Position.mk.inj (scanTokens_position scanned second)
  rw [line, column, line', column']
  simpa [Prod.Lex.toLex_lt_toLex] using less

/-- The tokens of a source are in lines that do not go down. -/
theorem scanTokens_lines (scanned : scanTokens source = .ok tokens) :
    tokens.Pairwise fun t u => t.line ≤ u.line := by
  refine (scanTokens_ascend scanned).imp fun less => ?_
  rcases Prod.Lex.toLex_lt_toLex.1 less with below | ⟨same, -⟩
  · exact Nat.le_of_lt below
  · exact Nat.le_of_eq same

end ProtoSchema
