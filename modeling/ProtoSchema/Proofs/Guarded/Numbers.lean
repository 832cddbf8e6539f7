import ProtoSchema.Proofs.Guarded.Follows

namespace ProtoSchema

namespace Numeral

variable {text : List Char}

/-- Whether some characters hold no sign. -/
def Unsigned (text : List Char) : Prop :=
  ∀ c ∈ text, c ≠ '-' ∧ c ≠ '+'

theorem signed?_eq (base : Nat) (unsigned : Unsigned text) :
    signed? base text = ((ofDigits? base text).map Int.ofNat).filter fits64 := by
  unfold signed?
  split
  · exact absurd rfl (unsigned '-' List.mem_cons_self).1
  · exact absurd rfl (unsigned '+' List.mem_cons_self).2
  · rfl

theorem isDigit_of_digit? {c : Char} {d : Nat} (value : digit? c = some d) (small : d < 10) : c.isDigit := by
  unfold digit? at value
  split at value
  · rename_i decimal
    simpa [Char.isDigit, Char.le_def, and_comm] using decimal
  · split at value
    · obtain rfl := Option.some.inj value
      omega
    · split at value
      · obtain rfl := Option.some.inj value
        omega
      · cases value

theorem all_isDigit_of_extend? {value m : Nat} (extended : extend? 10 value text = some m) :
    text.all Char.isDigit := by
  induction text generalizing value with
  | nil => rfl
  | cons c digits ih =>
    unfold extend? at extended
    cases isDigit : digit? c with
    | none => simp [isDigit] at extended
    | some d =>
      by_cases small : d < 10
      · simp only [isDigit, small, if_true] at extended
        rw [List.all_cons, isDigit_of_digit? isDigit small, ih extended]
        rfl
      · simp [isDigit, small] at extended

theorem ofDigits?_eq_none (other : ¬text.all Char.isDigit) : ofDigits? 10 text = none := by
  unfold ofDigits?
  split
  · rfl
  · cases extended : extend? 10 0 text with
    | none => rfl
    | some m => exact absurd (all_isDigit_of_extend? extended) other

theorem literal?_eq (unsigned : Unsigned text) :
    literal? text = ((magnitude? text).map Int.ofNat).filter fits64 := by
  unfold literal?
  split
  · exact signed?_eq 16 fun c member => unsigned c (by simp [member])
  · exact signed?_eq 16 fun c member => unsigned c (by simp [member])
  · rename_i noHex noHexEither
    rw [magnitude?.eq_3 _ _ noHex noHexEither]
    exact signed?_eq 8 fun c member => unsigned c (List.mem_cons_of_mem _ member)
  · rename_i noHex noHexEither noOctal
    rw [magnitude?.eq_4 _ noHex noHexEither noOctal]
    split
    · exact signed?_eq 10 unsigned
    · rename_i other
      rw [ofDigits?_eq_none other]
      rfl

theorem nonneg_of_literal? (unsigned : Unsigned text) {m : Int} (value : literal? text = some m) : 0 ≤ m := by
  rw [literal?_eq unsigned, Option.filter_eq_some_iff, Option.map_eq_some_iff] at value
  obtain ⟨⟨magnitude, -, rfl⟩, -⟩ := value
  exact Int.natCast_nonneg magnitude

/-- A literal of more than 64 bits is out of the range of the numbers in declarations, too. -/
theorem read?_eq (negative : Bool) (unsigned : Unsigned text) : read? negative text =
    (literal? text).bind fun m =>
      if inRange (if negative then -m else m) then some (if negative then -m else m) else none := by
  rw [literal?_eq unsigned, read?]
  cases magnitude? text with
  | none => rfl
  | some m =>
    by_cases fits : fits64 m
    · simp [Option.filter, fits]
    · have outside : inRange (if negative then -(m : Int) else m) = false := by
        have large : 9223372036854775808 ≤ m := by
          simp [fits64, least64] at fits
          omega
        cases negative <;> simp [inRange] <;> omega
      simp [Option.filter, fits, outside]

end Numeral

theorem Token.Lexical.unsigned {t : Token} (lexical : t.Lexical) (word : t.kind = .word) :
    Numeral.Unsigned t.text.toList := by
  intro c member
  have wordChar := List.all_eq_true.1 (lexical.1 word).2 c member
  constructor <;> rintro rfl <;> exact absurd wordChar (by decide)

namespace Descent

/-- A word is read as the number that it is a literal of. That number has a counterpart below zero. -/
theorem magnitude_of_word {t : Token} (lexical : t.Lexical) (word : t.kind = .word) (negative : Bool)
    (rest : List Token) (file : File) : magnitude negative ⟨t :: rest, file⟩ =
      match Numeral.read? negative t.text.toList with
      | some n => .ok n ⟨rest, file⟩
      | none => .refused (.invalidNumber t) := by
  have unsigned := lexical.unsigned word
  rw [Numeral.read?_eq negative unsigned]
  cases value : Numeral.literal? t.text.toList with
  | none => simp [magnitude, takeIf, peek, bump, refuse, word, value]
  | some m =>
    have sign := Numeral.nonneg_of_literal? unsigned value
    have negated : m ≠ Numeral.least64 := by
      rintro rfl
      exact absurd sign (by decide)
    rw [Option.bind_some]
    cases negative <;>
      simp only [magnitude, takeIf, peek, bump, negate, word, value, negated, bind_apply, pure_apply, List.head?_cons,
        decide_true, if_true, if_false, Bool.false_eq_true] <;>
      split <;> rfl

namespace Follows

variable {s : State} {r : Reader} {site : Site}

/-- The value of a literal has a counterpart below zero. -/
theorem magnitude {negative : Bool} {g : Int → Stage}
    (ends : s.tokens = [] → r.finish = .error (.unexpectedEnd .integer))
    (steps : ∀ t ∈ s.tokens.head?, r.step t = r.integer negative t g) :
    Follows 1 (Descent.magnitude negative) s r fun n after next => after.file = s.file ∧ next = ⟨r.site, g n⟩ := by
  refine single (fun _ empty => ⟨_, rfl, ends empty⟩) ?_
  obtain ⟨tokens, file⟩ := s
  rintro t rest rfl lexical
  have step := steps t rfl
  unfold Reader.integer at step
  by_cases word : t.kind = .word
  · rw [magnitude_of_word lexical word]
    cases read : Numeral.read? negative t.text.toList with
    | none =>
      simp only [read, word, if_true] at step
      exact Or.inr ⟨_, rfl, step⟩
    | some n =>
      simp only [read, word, if_true] at step
      exact Or.inl ⟨_, _, rfl, step, rfl, rfl⟩
  · simp only [word, if_false] at step
    exact Or.inr ⟨_, by simp [Descent.magnitude, Descent.takeIf, Descent.peek, Descent.unexpected, refuse, word], step⟩

end Follows

end Descent

end ProtoSchema
