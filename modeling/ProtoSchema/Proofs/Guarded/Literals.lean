import Mathlib.Data.Nat.Digits.Defs
import Mathlib.Tactic.Ring
import ProtoSchema.Proofs.Guarded.Numbers

namespace ProtoSchema

namespace Numeral

variable {base value v : Nat} {text : List Char} {n : Int}

/-- Whether a character is the digit for `d`. Letters may be small or large. -/
def IsDigit (c : Char) (d : Nat) : Prop :=
  "0123456789abcdef".toList[d]? = some c ∨ "0123456789ABCDEF".toList[d]? = some c

instance (c : Char) (d : Nat) : Decidable (IsDigit c d) :=
  inferInstanceAs (Decidable (_ ∨ _))

/-- Whether `text` is digits of a base, at least one and the most significant first, which have the value `v`. -/
def Spells (base : Nat) (text : List Char) (v : Nat) : Prop :=
  text ≠ [] ∧ ∃ digits, List.Forall₂ IsDigit text digits ∧ (∀ d ∈ digits, d < base) ∧
    v = Nat.ofDigits base digits.reverse

/-- Whether `text` is an integer literal without a sign that has the value `v`. -/
inductive Literal : List Char → Nat → Prop
  | hexadecimal {mark : Char} {digits : List Char} {v : Nat} (marked : mark = 'x' ∨ mark = 'X')
      (spells : Spells 16 digits v) : Literal ('0' :: mark :: digits) v
  | octal {digits : List Char} {v : Nat} (spells : Spells 8 digits v) : Literal ('0' :: digits) v
  | zero : Literal ['0'] 0
  | decimal {digits : List Char} {v : Nat} (first : digits.head? ≠ some '0') (spells : Spells 10 digits v) :
      Literal digits v

/-- Whether `n` is the number that a literal stands for, behind a minus sign if `negative`, and has 32 bits. -/
def Denotes (negative : Bool) (text : List Char) (n : Int) : Prop :=
  ∃ v : Nat, Literal text v ∧ n = (if negative then -(v : Int) else v) ∧ -2 ^ 31 ≤ n ∧ n ≤ 2 ^ 31 - 1

theorem isDigit_of_digit?_eq {c : Char} {d : Nat} (found : digit? c = some d) : IsDigit c d := by
  have each : ∀ code < 103, ∀ d ∈ digit? (Char.ofNat code), IsDigit (Char.ofNat code) d := by decide
  have bound : c.toNat < 103 := by
    unfold digit? at found
    split at found
    next range =>
      have upper : c.toNat ≤ '9'.toNat := range.2
      have nine : '9'.toNat = 57 := rfl
      omega
    · split at found
      next range =>
        have upper : c.toNat ≤ 'f'.toNat := range.2
        have last : 'f'.toNat = 102 := rfl
        omega
      · split at found
        next range =>
          have upper : c.toNat ≤ 'F'.toNat := range.2
          have last : 'F'.toNat = 70 := rfl
          omega
        · cases found
  have here := each c.toNat bound d
  rw [Char.ofNat_toNat] at here
  exact here found

theorem digit?_eq_some_iff {c : Char} {d : Nat} : digit? c = some d ↔ IsDigit c d := by
  refine ⟨isDigit_of_digit?_eq, ?_⟩
  have small : ∀ d < 16, "0123456789abcdef".toList[d]?.bind digit? = some d := by decide
  have large : ∀ d < 16, "0123456789ABCDEF".toList[d]?.bind digit? = some d := by decide
  rintro (found | found)
  · have bound : d < "0123456789abcdef".toList.length := (List.getElem?_eq_some_iff.1 found).1
    have here := small d bound
    rwa [found] at here
  · have bound : d < "0123456789ABCDEF".toList.length := (List.getElem?_eq_some_iff.1 found).1
    have here := large d bound
    rwa [found] at here

/-- Digits that are appended to a number are those of a base, and each of them moves the number up by one place. -/
theorem extend?_eq_some_iff : extend? base value text = some v ↔
    ∃ digits, List.Forall₂ IsDigit text digits ∧ (∀ d ∈ digits, d < base) ∧
      v = Nat.ofDigits base digits.reverse + base ^ digits.length * value := by
  induction text generalizing value with
  | nil =>
    rw [extend?, Option.some.injEq]
    constructor
    · rintro rfl
      exact ⟨[], .nil, nofun, by simp⟩
    · rintro ⟨_, spelled, -, rfl⟩
      cases spelled
      simp
  | cons c text ih =>
    have place (digits : List Nat) (d : Nat) :
        Nat.ofDigits base (d :: digits).reverse + base ^ (d :: digits).length * value =
          Nat.ofDigits base digits.reverse + base ^ digits.length * (value * base + d) := by
      rw [List.reverse_cons, Nat.ofDigits_append, Nat.ofDigits_singleton, List.length_reverse, List.length_cons,
        pow_succ]
      ring
    unfold extend?
    constructor
    · intro extended
      cases isDigit : digit? c with
      | none => simp [isDigit] at extended
      | some d =>
        by_cases small : d < base
        · simp only [isDigit, small, if_true] at extended
          obtain ⟨digits, spelled, below, rfl⟩ := ih.1 extended
          refine ⟨d :: digits, .cons (digit?_eq_some_iff.1 isDigit) spelled, ?_, (place digits d).symm⟩
          exact List.forall_mem_cons.2 ⟨small, below⟩
        · simp [isDigit, small] at extended
    · rintro ⟨_, spelled, below, rfl⟩
      cases spelled with
      | @cons _ d _ digits isDigit spelled =>
        obtain ⟨small, below⟩ := List.forall_mem_cons.1 below
        rw [digit?_eq_some_iff.2 isDigit]
        simp only [small, if_true]
        exact ih.2 ⟨digits, spelled, below, place digits d⟩

theorem ofDigits?_eq_some_iff : ofDigits? base text = some v ↔ Spells base text v := by
  unfold ofDigits? Spells
  cases text with
  | nil => simp
  | cons c text => simp [extend?_eq_some_iff]

theorem magnitude?_eq_some_iff : magnitude? text = some v ↔ Literal text v := by
  constructor
  · intro found
    unfold magnitude? at found
    split at found
    · exact .hexadecimal (Or.inl rfl) (ofDigits?_eq_some_iff.1 found)
    · exact .hexadecimal (Or.inr rfl) (ofDigits?_eq_some_iff.1 found)
    · exact .octal (ofDigits?_eq_some_iff.1 found)
    · rename_i noHex noHexEither noOctal
      cases text with
      | nil => cases found
      | cons c digits =>
        by_cases zero : c = '0'
        · subst zero
          cases digits with
          | nil =>
            obtain rfl : 0 = v := Option.some.inj found
            exact .zero
          | cons c digits => exact absurd rfl (noOctal c digits)
        · exact .decimal (by simpa using zero) (ofDigits?_eq_some_iff.1 found)
  · intro literal
    cases literal with
    | hexadecimal marked spells =>
      rcases marked with rfl | rfl <;> exact ofDigits?_eq_some_iff.2 spells
    | @octal digits _ spells =>
      have found := ofDigits?_eq_some_iff.2 spells
      cases digits with
      | nil => exact absurd rfl spells.1
      | cons c digits =>
        -- the marks of the other base are no digits
        have noHex {mark : Char} (none : digit? mark = none) : c ≠ mark := by
          rintro rfl
          simp [ofDigits?, extend?, none] at found
        rw [magnitude?.eq_3 c digits (noHex (by decide)) (noHex (by decide))]
        exact found
    | zero => rfl
    | decimal first spells =>
      have found := ofDigits?_eq_some_iff.2 spells
      unfold magnitude?
      split
      · exact absurd rfl first
      · exact absurd rfl first
      · exact absurd rfl first
      · exact found

theorem inRange_iff : inRange n ↔ -2 ^ 31 ≤ n ∧ n ≤ 2 ^ 31 - 1 := by
  simp only [inRange, Bool.and_eq_true, decide_eq_true_eq]
  omega

theorem read?_eq_some_iff {negative : Bool} : read? negative text = some n ↔ Denotes negative text n := by
  unfold read? Denotes
  rw [Option.bind_eq_some_iff]
  constructor
  · rintro ⟨v, magnitude, ranged⟩
    obtain ⟨within, rfl⟩ : inRange (if negative then -(v : Int) else v) ∧ (if negative then -(v : Int) else v) = n := by
      simpa only [Option.ite_none_right_eq_some, Option.some.injEq] using ranged
    exact ⟨v, magnitude?_eq_some_iff.1 magnitude, rfl, inRange_iff.1 within⟩
  · rintro ⟨v, literal, rfl, within⟩
    refine ⟨v, magnitude?_eq_some_iff.2 literal, ?_⟩
    exact if_pos (inRange_iff.2 within)

theorem read?_eq_none_iff {negative : Bool} : read? negative text = none ↔ ∀ n, ¬Denotes negative text n := by
  rw [Option.eq_none_iff_forall_ne_some]
  exact forall_congr' fun n => not_congr read?_eq_some_iff

/-- The literals of 2 ^ 31, whatever their base, stand for a number behind a minus sign only. -/
theorem denotes_of_literal_limit (literal : Literal text (2 ^ 31)) :
    Denotes true text (-2 ^ 31) ∧ ∀ n, ¬Denotes false text n := by
  refine ⟨⟨2 ^ 31, literal, by norm_num, le_refl _, by norm_num⟩, ?_⟩
  rintro n ⟨v, other, rfl, -, small⟩
  have same : some v = some (2 ^ 31) := by
    rw [← magnitude?_eq_some_iff.2 other, magnitude?_eq_some_iff.2 literal]
  obtain rfl := Option.some.inj same
  norm_num at small

end Numeral

open Numeral (Denotes Literal)
open Reader (allowsNegative)

section Numbers

variable {t : Token} {minus : Option Token}

/-- A word that stands where a number may be below zero is no minus sign. -/
theorem Token.Lexical.not_minus (lexical : t.Lexical) (word : t.kind = .word) : t.is "-" = false := by
  cases spelled : t.is "-" with
  | false => rfl
  | true => exact absurd word (lexical.not_word_of_is spelled (by decide))

theorem Descent.number_of_word (lexical : t.Lexical) (word : t.kind = .word) (spelled : ∀ m ∈ minus, m.is "-")
    {signed : Bool} (allowed : minus.isSome → signed) (rest : List Token) (file : File) :
    number signed ⟨minus.toList ++ t :: rest, file⟩ = magnitude minus.isSome ⟨t :: rest, file⟩ := by
  cases minus with
  | some m =>
    obtain rfl : signed = true := allowed rfl
    simp [number, eat, isNext, peek, drop, bump, spelled m rfl]
  | none =>
    cases signed <;> simp [number, eat, isNext, peek, lexical.not_minus word]

theorem Reader.run_number_of_word (lexical : t.Lexical) (word : t.kind = .word) (spelled : ∀ m ∈ minus, m.is "-")
    {numbered : Numbered} (allowed : minus.isSome → allowsNegative numbered) (site : Site) (name : String) :
    run ⟨site, .number numbered name⟩ (minus.toList ++ [t]) =
      match Numeral.read? minus.isSome t.text.toList with
      | some n => .ok ⟨site, .numbered numbered name n⟩
      | none => .error (.invalidNumber t) := by
  cases minus with
  | some m =>
    have signed := allowed rfl
    cases read : Numeral.read? true t.text.toList <;>
      simp [run, step, go, integer, signed, spelled m rfl, word, read]
  | none =>
    cases read : Numeral.read? false t.text.toList <;>
      simp [run, step, go, integer, lexical.not_minus word, word, read]

/-- A word behind a minus sign, where one is allowed, or without one is read as the number that it denotes as a
literal, by recursive descent and token by token. A word that denotes none is refused with its text and its span. No
negation on the way is out of range, and 2 ^ 31 is read behind a minus sign only, whatever its base. -/
theorem readNumber_exact (lexical : t.Lexical) (word : t.kind = .word) (spelled : ∀ m ∈ minus, m.is "-") :
    (∀ signed : Bool, (minus.isSome → signed) → ∀ rest file,
      (∀ n after, Descent.number signed ⟨minus.toList ++ t :: rest, file⟩ = .ok n after ↔
        Denotes minus.isSome t.text.toList n ∧ after = ⟨rest, file⟩) ∧
      ((∀ n, ¬Denotes minus.isSome t.text.toList n) →
        Descent.number signed ⟨minus.toList ++ t :: rest, file⟩ = .refused (.invalidNumber t))) ∧
    (∀ numbered, (minus.isSome → allowsNegative numbered) → ∀ site name,
      (∀ next, Reader.run ⟨site, .number numbered name⟩ (minus.toList ++ [t]) = .ok next ↔
        ∃ n, Denotes minus.isSome t.text.toList n ∧ next = ⟨site, .numbered numbered name n⟩) ∧
      ((∀ n, ¬Denotes minus.isSome t.text.toList n) →
        Reader.run ⟨site, .number numbered name⟩ (minus.toList ++ [t]) = .error (.invalidNumber t))) ∧
    (Fault.invalidNumber t).found? = some t.text ∧ (Fault.invalidNumber t).span? = some t.span ∧
    (∀ m, Numeral.literal? t.text.toList = some m → Descent.negate m = pure (-m)) ∧
    (Literal t.text.toList (2 ^ 31) →
      Denotes true t.text.toList (-2 ^ 31) ∧ ∀ n, ¬Denotes false t.text.toList n) := by
  refine ⟨?_, ?_, ?_, rfl, ?_, Numeral.denotes_of_literal_limit⟩
  · intro signed allowed rest file
    rw [Descent.number_of_word lexical word spelled allowed, Descent.magnitude_of_word lexical word,
      ← Numeral.read?_eq_none_iff]
    refine ⟨fun n after => ?_, fun none => by rw [none]⟩
    rw [← Numeral.read?_eq_some_iff]
    cases Numeral.read? minus.isSome t.text.toList <;> simp [eq_comm]
  · intro numbered allowed site name
    rw [Reader.run_number_of_word lexical word spelled allowed, ← Numeral.read?_eq_none_iff]
    refine ⟨fun next => ?_, fun none => by rw [none]⟩
    simp only [← Numeral.read?_eq_some_iff]
    cases Numeral.read? minus.isSome t.text.toList <;> simp [eq_comm]
  · simp [Fault.found?, Token.display, word]
  · intro m value
    have sign := Numeral.nonneg_of_literal? (lexical.unsigned word) value
    refine if_neg ?_
    rintro rfl
    exact absurd sign (by decide)

end Numbers

/-- A word by itself. -/
def Token.ofWord (text : String) : Token :=
  ⟨.word, text, 1, 1, ⟨0, text.utf8ByteSize⟩, none⟩

/-- A minus sign by itself. -/
def Token.minus : Token :=
  ⟨.symbol, "-", 1, 1, ⟨0, 1⟩, none⟩

/-- Before the number of the first value of an enum. -/
def beforeValue : Reader :=
  ⟨⟨[], []⟩, .number (.value ⟨⟨none, 1⟩, "E", []⟩ none) "LOW"⟩

/-- 2 ^ 31 with a minus sign in octal and in hexadecimal digits, and without one in decimal digits. -/
theorem readNumber_limit :
    (Token.ofWord "00020000000000").Lexical ∧ (Token.ofWord "0X80000000").Lexical ∧
    (Token.ofWord "2147483648").Lexical ∧ Token.minus.is "-" ∧
    Descent.number true ⟨[.minus, .ofWord "00020000000000"], .named "m"⟩ = .ok (-2147483648) ⟨[], .named "m"⟩ ∧
    beforeValue.run [.minus, .ofWord "0X80000000"] =
      .ok ⟨⟨[], []⟩, .numbered (.value ⟨⟨none, 1⟩, "E", []⟩ none) "LOW" (-2147483648)⟩ ∧
    beforeValue.run [.ofWord "2147483648"] = .error (.invalidNumber (.ofWord "2147483648")) := by
  have octal : (Token.ofWord "00020000000000").Lexical := by decide
  have hexadecimal : (Token.ofWord "0X80000000").Lexical := by decide
  have decimal : (Token.ofWord "2147483648").Lexical := by decide
  have spelled : ∀ m ∈ some Token.minus, m.is "-" := by decide
  have denoted : ∀ text ∈ ["00020000000000", "0X80000000"], Denotes true text.toList (-2147483648) := by
    intro text member
    have each : ∀ text ∈ ["00020000000000", "0X80000000"],
        Numeral.read? true text.toList = some (-2147483648) := by decide +kernel
    exact Numeral.read?_eq_some_iff.1 (each text member)
  have undenoted : ∀ n, ¬Denotes false "2147483648".toList n :=
    Numeral.read?_eq_none_iff.1 (by decide +kernel)
  obtain ⟨descent, -⟩ := readNumber_exact octal rfl spelled
  obtain ⟨-, signed, -⟩ := readNumber_exact hexadecimal rfl spelled
  have unsigned : ∀ m ∈ (none : Option Token), m.is "-" := by simp
  obtain ⟨-, unmarked, -⟩ := readNumber_exact decimal rfl unsigned
  refine ⟨octal, hexadecimal, decimal, rfl, ?_, ?_, ?_⟩
  · exact ((descent true (fun _ => rfl) [] (.named "m")).1 _ _).2 ⟨denoted "00020000000000" (by simp), rfl⟩
  · exact ((signed _ (fun _ => rfl) ⟨[], []⟩ "LOW").1 _).2 ⟨_, denoted "0X80000000" (by simp), rfl⟩
  · exact (unmarked _ nofun ⟨[], []⟩ "LOW").2 undenoted

end ProtoSchema
