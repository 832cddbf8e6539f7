import ProtoSchema.Proofs.Reader.Step
import ProtoSchema.Proofs.Token.Exact

namespace ProtoSchema

open Grammar Remainder
open Outline (Rest)

variable {name : String} {ts tokens : List Token} {file last : File}

def readFile (name : String) (tokens : List Token) : Except Fault File :=
  (readStatements tokens).map (File.ofStatements name)

theorem rest_iff_statements : Rest ⟨file, []⟩ ts last ↔ Statements file ts last := by
  constructor
  · intro rest
    generalize top : (⟨file, []⟩ : Outline) = o at rest
    induction rest generalizing file with
    | done =>
      cases top
      exact .nil
    | statement first _ ih =>
      cases top
      exact .cons first (ih rfl)
    | entry | close => cases top
  · intro statements
    induction statements with
    | nil => exact .done
    | cons first _ ih => exact .statement first ih

namespace Reader

/-- What the reader makes of some tokens is what the grammar demanded. -/
theorem rest_iff_run (r : Reader) (lexical : ∀ t ∈ ts, t.Lexical) : r.rest name ts last ↔
    ∃ statements, (r.run ts).bind finish = .ok statements ∧ File.ofStatements name statements = last := by
  induction ts generalizing r with
  | nil => exact r.rest_nil
  | cons t ts ih =>
    have here := lexical t (List.mem_cons_self ..)
    have later (t' : Token) (member : t' ∈ ts) : t'.Lexical := lexical t' (List.mem_cons_of_mem _ member)
    rw [r.rest_cons here, run]
    cases r.step t with
    | ok next => simp [ih next later]
    | error fault => simp [Except.bind]

end Reader

theorem readFile_eq_ok : readFile name tokens = .ok file ↔
    ∃ statements, readStatements tokens = .ok statements ∧ File.ofStatements name statements = file := by
  unfold readFile
  cases readStatements tokens <;> simp [Except.map]

theorem schema_iff_readStatements (lexical : ∀ t ∈ tokens, t.Lexical) : Schema name tokens file ↔
    ∃ statements, readStatements tokens = .ok statements ∧ File.ofStatements name statements = file := by
  have start : Reader.start.rest name tokens file ↔ Schema name tokens file := rest_iff_statements
  rw [← start, Reader.rest_iff_run _ lexical]
  rfl

/-- The reader accepts exactly the grammar, and makes exactly the derived file. -/
theorem readFile_iff_schema (lexical : ∀ t ∈ tokens, t.Lexical) :
    readFile name tokens = .ok file ↔ Schema name tokens file := by
  rw [readFile_eq_ok, schema_iff_readStatements lexical]

/-- A token at the beginning of a source, without a comment. -/
def Token.plain (kind : TokenKind) (text : String) : Token :=
  ⟨kind, text, 1, 1, ⟨0, text.utf8ByteSize⟩, none⟩

/-- `message M { map map = 1; group G = 2 { message N { } enum E { X = 0; } } extend N { E e = 3; } }`. -/
def hoistedTokens : List Token :=
  let word := Token.plain .word
  let symbol := Token.plain .symbol
  [word "message", word "M", symbol "\x7b", word "map", word "map", symbol "=", word "1", symbol ";", word "group",
    word "G", symbol "=", word "2", symbol "\x7b", word "message", word "N", symbol "\x7b", symbol "\x7d",
    word "enum", word "E", symbol "\x7b", word "X", symbol "=", word "0", symbol ";", symbol "\x7d", symbol "\x7d",
    word "extend", word "N", symbol "\x7b", word "E", word "e", symbol "=", word "3", symbol ";", symbol "\x7d",
    symbol "\x7d"]

def hoistedFile : File :=
  let outer : Message :=
    { id := ⟨0⟩, name := "M", comment := none, line := 1, owner := .file
      fields := [.simple ⟨"map", none, .unmarked, ⟨"map", .message ⟨0⟩⟩, 1⟩, .group ⟨none, .unmarked, "G", 2⟩ []]
      messages := [⟨1⟩], enums := [⟨0⟩]
      extensions := [⟨⟨"N", .message ⟨0⟩⟩, none, [.simple ⟨"e", none, .unmarked, ⟨"E", .message ⟨0⟩⟩, 3⟩]⟩] }
  let inner : Message :=
    { id := ⟨1⟩, name := "N", comment := none, line := 1, owner := .message ⟨0⟩
      fields := [], messages := [], enums := [], extensions := [] }
  let enum : Enum := ⟨⟨0⟩, "E", none, 1, .message ⟨0⟩, [⟨"X", 0, none⟩]⟩
  { File.named "m" with messages := [⟨0⟩], messageTable := [outer, inner], enumTable := [enum] }

/-- The first `map` is the name of a type, and what is declared in the group belongs to the message around it, as the
extension does. -/
theorem schema_hoisted : (∀ t ∈ hoistedTokens, t.Lexical) ∧ Schema "m" hoistedTokens hoistedFile := by
  have lexical : ∀ t ∈ hoistedTokens, t.Lexical := by decide
  exact ⟨lexical, (readFile_iff_schema lexical).1 rfl⟩

/-- A text parses as a file if its tokens derive it. -/
theorem parse_eq_ok_iff {source : String} : parse name source = .ok file ↔
    ∃ tokens, scanTokens source.toList = .ok tokens ∧ Schema name tokens file := by
  unfold parse
  cases scanned : scanTokens source.toList with
  | error fault =>
    constructor
    · intro parsed
      cases parsed
    · rintro ⟨tokens, found, -⟩
      cases found
  | ok tokens =>
    simp only [Except.bind, Except.ok.injEq, exists_eq_left', schema_iff_readStatements (scanTokens_lexical scanned)]
    cases readStatements tokens with
    | error fault =>
      constructor
      · intro parsed
        cases parsed
      · rintro ⟨statements, found, -⟩
        cases found
    | ok statements =>
      simp only [Except.ok.injEq, exists_eq_left']
      constructor
      · intro parsed
        exact Except.ok.inj parsed
      · rintro rfl
        rfl

end ProtoSchema
