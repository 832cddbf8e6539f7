import ProtoSchema.Token.Basic
import ProtoSchema.Token.Lexeme

namespace ProtoSchema.Token

/-- Whether kind and text of a token are ones that a source can give. -/
def Lexical (t : Token) : Prop :=
  (t.kind = .word → t.text.toList ≠ [] ∧ t.text.toList.all isWordChar) ∧
    (t.kind = .symbol → t.text.toList.length = 1 ∧ t.text.toList.all isSymbol)

instance (t : Token) : Decidable t.Lexical :=
  inferInstanceAs (Decidable (_ ∧ _))

theorem is_iff {t : Token} {text : String} : t.is text ↔ t.kind ≠ .string ∧ t.text = text := by
  simp [Token.is]

theorem is_eq {t : Token} {a : String} (spelled : t.is a) (b : String) : t.is b = (a == b) := by
  obtain ⟨literal, rfl⟩ := is_iff.1 spelled
  simp [Token.is, literal]

theorem is_inj {t : Token} {a b : String} (one : t.is a) (other : t.is b) : a = b := by
  rw [← (is_iff.1 one).2, ← (is_iff.1 other).2]

theorem Lexical.word_of_is {t : Token} {text : String} (lexical : t.Lexical) (spelled : t.is text)
    (long : text.toList.length ≠ 1) : t.kind = .word := by
  obtain ⟨literal, rfl⟩ := is_iff.1 spelled
  cases kind : t.kind with
  | word => rfl
  | symbol => exact absurd (lexical.2 kind).1 long
  | string => exact absurd kind literal

theorem Lexical.not_word_of_is {t : Token} {text : String} (lexical : t.Lexical) (spelled : t.is text)
    (symbol : text.toList.all isWordChar = false) : t.kind ≠ .word := by
  intro word
  have chars := (lexical.1 word).2
  rw [(is_iff.1 spelled).2, symbol] at chars
  cases chars

end ProtoSchema.Token
