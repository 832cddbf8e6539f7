import ProtoSchema.Text.Lines

namespace ProtoSchema

/-- The characters between tokens that neither end a line nor belong to a comment. -/
def isSpace (c : Char) : Bool :=
  c == '\t' || c == '\x0b' || c == '\x0c' || c == '\r' || c == ' '

/-- The characters that are tokens by themselves. -/
def isSymbol (c : Char) : Bool :=
  "()\x7b\x7d<>[]=+-,;".toList.contains c

def isQuote (c : Char) : Bool :=
  c == '"' || c == '\''

def isWordChar (c : Char) : Bool :=
  !(isSpace c || c == '\n' || isSymbol c || isQuote c || c == '/' || c == '\\')

inductive Lexeme
  | space (text : List Char)
  | newline
  | word (text : List Char)
  | symbol (c : Char)
  | string (quote : Char) (body : List Char)
  | lineComment (body : List Char)
  | blockComment (body : List Char)
deriving DecidableEq, Repr

/-- The characters of the source that a lexeme was read from. -/
def Lexeme.source : Lexeme → List Char
  | .space text => text
  | .newline => ['\n']
  | .word text => text
  | .symbol c => [c]
  | .string quote body => quote :: body ++ [quote]
  | .lineComment body => '/' :: '/' :: body
  | .blockComment body => '/' :: '*' :: body ++ ['*', '/']

/-- The reasons for which no lexeme begins at a character. -/
inductive ScanFault
  | strayBackslash
  | brokenComment
  | unterminatedString
  | unterminatedComment
deriving DecidableEq, Repr

/-- The number of bytes that a fault points at. -/
def ScanFault.width : ScanFault → Nat
  | .unterminatedComment => 2
  | _ => 1

/-- The text up to the first unescaped `quote`, and what follows that quote. -/
def splitQuote (quote : Char) : List Char → Option (List Char × List Char)
  | [] => none
  | '\\' :: [] => none
  | '\\' :: c :: text => (splitQuote quote text).map fun (body, rest) => ('\\' :: c :: body, rest)
  | c :: text =>
    if c = quote then some ([], text)
    else (splitQuote quote text).map fun (body, rest) => (c :: body, rest)

/-- The text up to the first `*/`, and what follows it. -/
def splitCommentEnd : List Char → Option (List Char × List Char)
  | [] => none
  | '*' :: '/' :: text => some ([], text)
  | c :: text => (splitCommentEnd text).map fun (body, rest) => (c :: body, rest)

/-- The content of a string literal: a backslash stands for the character after it. -/
def unescape : List Char → List Char
  | '\\' :: c :: body => c :: unescape body
  | c :: body => c :: unescape body
  | [] => []

/-- Reads the lexeme that begins with `c` and goes on in `text`. -/
def Lexeme.read (c : Char) (text : List Char) : Except ScanFault (Lexeme × List Char) :=
  if isSpace c then .ok (.space (c :: text.takeWhile isSpace), text.dropWhile isSpace)
  else if c = '\n' then .ok (.newline, text)
  else if isSymbol c then .ok (.symbol c, text)
  else if isQuote c then
    match splitQuote c text with
    | some (body, rest) => .ok (.string c body, rest)
    | none => .error .unterminatedString
  else if c = '/' then
    match text with
    | '/' :: text => .ok (.lineComment (text.takeWhile (· != '\n')), text.dropWhile (· != '\n'))
    | '*' :: text =>
      match splitCommentEnd text with
      | some (body, rest) => .ok (.blockComment body, rest)
      | none => .error .unterminatedComment
    | _ => .error .brokenComment
  else if c = '\\' then .error .strayBackslash
  else .ok (.word (c :: text.takeWhile isWordChar), text.dropWhile isWordChar)

theorem splitQuote_eq_append {quote : Char} {text body rest : List Char}
    (found : splitQuote quote text = some (body, rest)) : text = body ++ quote :: rest := by
  fun_induction splitQuote quote text generalizing body with
  | case1 => contradiction
  | case2 => contradiction
  | case3 c text ih =>
    obtain ⟨⟨inner, after⟩, split, same⟩ := Option.map_eq_some_iff.1 found
    simp only [Prod.mk.injEq] at same
    obtain ⟨rfl, rfl⟩ := same
    rw [ih split]
    rfl
  | case4 text => simp_all
  | case5 c text _ _ _ ih =>
    obtain ⟨⟨inner, after⟩, split, same⟩ := Option.map_eq_some_iff.1 found
    simp only [Prod.mk.injEq] at same
    obtain ⟨rfl, rfl⟩ := same
    rw [ih split]
    rfl

theorem splitCommentEnd_eq_append {text body rest : List Char}
    (found : splitCommentEnd text = some (body, rest)) : text = body ++ '*' :: '/' :: rest := by
  fun_induction splitCommentEnd text generalizing body with
  | case1 => contradiction
  | case2 => simp_all
  | case3 c text _ ih =>
    obtain ⟨⟨inner, after⟩, split, same⟩ := Option.map_eq_some_iff.1 found
    simp only [Prod.mk.injEq] at same
    obtain ⟨rfl, rfl⟩ := same
    rw [ih split]
    rfl

/-- A lexeme and what follows it are the text that it was read from. -/
theorem Lexeme.read_source {c : Char} {text rest : List Char} {lexeme : Lexeme}
    (ok : Lexeme.read c text = .ok (lexeme, rest)) : lexeme.source ++ rest = c :: text := by
  unfold Lexeme.read at ok
  repeat' split at ok
  all_goals first | contradiction | skip
  all_goals
    simp only [Except.ok.injEq, Prod.mk.injEq] at ok
    obtain ⟨rfl, rfl⟩ := ok
    simp_all [Lexeme.source, List.takeWhile_append_dropWhile]
  · rename_i found
    simp [splitQuote_eq_append found]
  · rename_i found
    simp [splitCommentEnd_eq_append found]

theorem Lexeme.source_ne_nil_of_read {c : Char} {text rest : List Char} {lexeme : Lexeme}
    (ok : Lexeme.read c text = .ok (lexeme, rest)) : lexeme.source ≠ [] := by
  unfold Lexeme.read at ok
  repeat' split at ok
  all_goals first | contradiction | skip
  all_goals
    simp only [Except.ok.injEq, Prod.mk.injEq] at ok
    obtain ⟨rfl, rfl⟩ := ok
    simp [Lexeme.source]

theorem Lexeme.length_lt_of_read {c : Char} {text rest : List Char} {lexeme : Lexeme}
    (ok : Lexeme.read c text = .ok (lexeme, rest)) : rest.length < (c :: text).length := by
  have whole := congrArg List.length (Lexeme.read_source ok)
  have some := List.length_pos_iff.2 (Lexeme.source_ne_nil_of_read ok)
  rw [List.length_append] at whole
  omega

/-- The lexemes of a source, and the fault at the character, if any, at which no lexeme begins. -/
structure Scan where
  lexemes : List Lexeme
  fault : Option ScanFault
deriving DecidableEq, Repr

/-- Reads lexemes until the source ends or no lexeme begins. -/
def Scan.read (source : List Char) : Scan :=
  match source with
  | [] => ⟨[], none⟩
  | c :: text =>
    match _read : Lexeme.read c text with
    | .error fault => ⟨[], some fault⟩
    | .ok (lexeme, rest) =>
      let scan := Scan.read rest
      ⟨lexeme :: scan.lexemes, scan.fault⟩
termination_by source.length
decreasing_by exact Lexeme.length_lt_of_read _read

/-- The part of the source that the lexemes cover. -/
def Scan.covered (scan : Scan) : List Char :=
  scan.lexemes.flatMap Lexeme.source

theorem Scan.covered_read (source : List Char) :
    ∃ rest, (Scan.read source).covered ++ rest = source ∧ ((Scan.read source).fault = none ↔ rest = []) := by
  fun_induction Scan.read source with
  | case1 => exact ⟨[], rfl, by simp⟩
  | case2 c text => exact ⟨c :: text, rfl, by simp⟩
  | case3 c text lexeme rest ok scan ih =>
    obtain ⟨after, whole, faultless⟩ := ih
    refine ⟨after, ?_, faultless⟩
    rw [← Lexeme.read_source ok, ← whole]
    simp [Scan.covered, scan]

end ProtoSchema
