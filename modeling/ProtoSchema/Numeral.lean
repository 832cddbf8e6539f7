namespace ProtoSchema.Numeral

/-- The value of a digit in bases up to sixteen. -/
def digit? (c : Char) : Option Nat :=
  if '0' ≤ c ∧ c ≤ '9' then some (c.toNat - '0'.toNat)
  else if 'a' ≤ c ∧ c ≤ 'f' then some (c.toNat - 'a'.toNat + 10)
  else if 'A' ≤ c ∧ c ≤ 'F' then some (c.toNat - 'A'.toNat + 10)
  else none

/-- Appends digits to a number whose value so far is `value`. -/
def extend? (base value : Nat) : List Char → Option Nat
  | [] => some value
  | c :: digits =>
    match digit? c with
    | some d => if d < base then extend? base (value * base + d) digits else none
    | none => none

/-- The value of one or more digits. -/
def ofDigits? (base : Nat) (digits : List Char) : Option Nat :=
  if digits.isEmpty then none else extend? base 0 digits

/-- The value of an integer literal without a sign: decimal, octal after a leading `0`, or hexadecimal after `0x`. -/
def magnitude? : List Char → Option Nat
  | '0' :: 'x' :: digits => ofDigits? 16 digits
  | '0' :: 'X' :: digits => ofDigits? 16 digits
  | '0' :: c :: digits => ofDigits? 8 (c :: digits)
  | digits => ofDigits? 10 digits

/-- The numbers of 32 bits with a sign. -/
def inRange (n : Int) : Bool :=
  -2147483648 ≤ n && n ≤ 2147483647

/-- The number that a literal stands for, after a minus sign if `negative`. -/
def read? (negative : Bool) (literal : List Char) : Option Int :=
  (magnitude? literal).bind fun m =>
    let n : Int := if negative then -(m : Int) else m
    if inRange n then some n else none

end ProtoSchema.Numeral
