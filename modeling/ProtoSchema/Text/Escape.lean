import ProtoSchema.Text.Combining
import ProtoSchema.Text.Invisible

namespace ProtoSchema.Text

/-- A character by its number in lower case hexadecimal, as in `\u{e9}`. -/
def numbered (c : Char) : List Char :=
  ['\\', 'u', '\x7b'] ++ Nat.toDigits 16 c.toNat ++ ['\x7d']

/-- The displayed form of one character of a string literal. -/
def displayChar (c : Char) : List Char :=
  match c with
  | '\t' => ['\\', 't']
  | '\r' => ['\\', 'r']
  | '\n' => ['\\', 'n']
  | '\'' => ['\\', '\'']
  | '"' => ['\\', '"']
  | '\\' => ['\\', '\\']
  | c => if ' ' ≤ c ∧ c ≤ '~' then [c] else numbered c

/-- The content of a string literal between double quotes, in printable ASCII only. -/
def display (content : List Char) : List Char :=
  '"' :: content.flatMap displayChar ++ ['"']

/-- The quoted form of one character: a character that shows nothing, or only a mark on its neighbour, is
written by number. -/
def quoteChar (c : Char) : List Char :=
  match c with
  | '\t' => ['\\', 't']
  | '\r' => ['\\', 'r']
  | '\n' => ['\\', 'n']
  | '\x00' => ['\\', '0']
  | '"' => ['\\', '"']
  | '\\' => ['\\', '\\']
  | c => if isCombining c || isInvisible c then numbered c else [c]

theorem quoteChar_of_printable_ascii {c : Char} (low : ' ' ≤ c) (high : c ≤ '~') (quote : c ≠ '"')
    (backslash : c ≠ '\\') : quoteChar c = [c] := by
  unfold quoteChar
  split
  · exact absurd low (by decide)
  · exact absurd low (by decide)
  · exact absurd low (by decide)
  · exact absurd low (by decide)
  · exact absurd rfl quote
  · exact absurd rfl backslash
  · rw [isCombining_of_ascii high, isInvisible_of_printable_ascii low high]
    rfl

/-- A text between double quotes, for messages meant for a programmer. -/
def quoted (text : String) : String :=
  String.ofList ('"' :: text.toList.flatMap quoteChar ++ ['"'])

end ProtoSchema.Text
