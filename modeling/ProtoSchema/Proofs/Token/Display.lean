import Mathlib.Tactic.SplitIfs
import ProtoSchema.Proofs.Token.Rows

namespace ProtoSchema

open Text (Place displayChar numbered)

/-- Whether a character is displayed as itself, or behind a backslash. -/
def Text.isPrintable (c : Char) : Bool :=
  ' ' ≤ c && c ≤ '~'

/-- What a character of a string literal is read as once it has been displayed. -/
def Text.retoldChar (c : Char) : List Char :=
  if isPrintable c then [c]
  else if c = '\t' then ['t']
  else if c = '\n' then ['n']
  else if c = '\r' then ['r']
  else ['u', '\x7b'] ++ Nat.toDigits 16 c.toNat ++ ['\x7d']

open Text (isPrintable retoldChar)

/-- Whether a token is what the displayed form of another one is read as. -/
structure Token.Retold (t again : Token) : Prop where
  kind : again.kind = t.kind
  comment : again.comment = none
  literal : t.kind ≠ .string → again.text = t.text
  content : t.kind = .string → again.text.toList = t.text.toList.flatMap retoldChar
  same : t.kind = .string → (again.text = t.text ↔ ∀ c ∈ t.text.toList, isPrintable c)

variable {c : Char} {text rest content : List Char} {t : Token} {tokens : List Token} {lexemes : List Lexeme}

theorem displayChar_eq : displayChar c =
    if c = '\t' then ['\\', 't'] else if c = '\r' then ['\\', 'r'] else if c = '\n' then ['\\', 'n']
    else if c = '\'' then ['\\', '\''] else if c = '"' then ['\\', '"'] else if c = '\\' then ['\\', '\\']
    else if isPrintable c then [c] else numbered c := by
  unfold displayChar
  split
  · rfl
  · rfl
  · rfl
  · rfl
  · rfl
  · rfl
  · simp_all [isPrintable]

theorem mem_toDigits {n : Nat} (member : c ∈ Nat.toDigits 16 n) : ∃ digit < 16, c = Nat.digitChar digit := by
  induction n using Nat.strongRecOn with
  | ind n ih =>
    rw [Nat.toDigits_eq_if (by decide)] at member
    split at member
    · rename_i small
      exact ⟨n, small, List.mem_singleton.1 member⟩
    · rename_i large
      rcases List.mem_append.1 member with higher | last
      · exact ih (n / 16) (by omega) higher
      · exact ⟨n % 16, Nat.mod_lt n (by decide), List.mem_singleton.1 last⟩

/-- A hexadecimal number is spelled without quotes and backslashes. -/
theorem plain_toDigits {n : Nat} (member : c ∈ Nat.toDigits 16 n) : c ≠ '\\' ∧ c ≠ '"' := by
  have each : ∀ digit < 16, Nat.digitChar digit ≠ '\\' ∧ Nat.digitChar digit ≠ '"' := by decide
  obtain ⟨digit, small, rfl⟩ := mem_toDigits member
  exact each digit small

theorem unescape_plain (plain : ∀ c ∈ text, c ≠ '\\') : unescape (text ++ rest) = text ++ unescape rest := by
  induction text with
  | nil => rfl
  | cons c text ih =>
    obtain ⟨first, others⟩ := List.forall_mem_cons.1 plain
    rw [List.cons_append, unescape, ih others, List.cons_append]
    rintro d tail rfl
    exact absurd rfl first

theorem Quoted.plain_append {quote : Char} (plain : ∀ c ∈ text, c ≠ '\\' ∧ c ≠ quote) (quoted : Quoted quote rest) :
    Quoted quote (text ++ rest) := by
  induction text with
  | nil => exact quoted
  | cons c text ih =>
    obtain ⟨first, others⟩ := List.forall_mem_cons.1 plain
    exact .plain first.1 first.2 (ih others)

/-- A character is displayed as itself, or with a backslash before what it is read as. -/
theorem displayChar_cases (c : Char) :
    (∃ first tail, displayChar c = '\\' :: first :: tail ∧ retoldChar c = first :: tail ∧
      ∀ d ∈ tail, d ≠ '\\' ∧ d ≠ '"') ∨
    (c ≠ '\\' ∧ c ≠ '"' ∧ displayChar c = [c] ∧ retoldChar c = [c]) := by
  rw [displayChar_eq]
  split_ifs with tab carriage newline single quote backslash printable
  · subst tab
    exact Or.inl ⟨'t', [], rfl, rfl, by simp⟩
  · subst carriage
    exact Or.inl ⟨'r', [], rfl, rfl, by simp⟩
  · subst newline
    exact Or.inl ⟨'n', [], rfl, rfl, by simp⟩
  · subst single
    exact Or.inl ⟨'\'', [], rfl, rfl, by simp⟩
  · subst quote
    exact Or.inl ⟨'"', [], rfl, rfl, by simp⟩
  · subst backslash
    exact Or.inl ⟨'\\', [], rfl, rfl, by simp⟩
  · exact Or.inr ⟨backslash, quote, rfl, by simp [retoldChar, printable]⟩
  · refine Or.inl ⟨'u', '\x7b' :: (Nat.toDigits 16 c.toNat ++ ['\x7d']), rfl, ?_, ?_⟩
    · simp [retoldChar, printable, tab, newline, carriage]
    · intro d member
      simp only [List.mem_cons, List.mem_append, List.not_mem_nil, or_false] at member
      rcases member with rfl | digit | rfl
      · decide
      · exact plain_toDigits digit
      · decide

theorem unescape_display : unescape (content.flatMap displayChar) = content.flatMap retoldChar := by
  induction content with
  | nil => rfl
  | cons c content ih =>
    rw [List.flatMap_cons, List.flatMap_cons, ← ih]
    rcases displayChar_cases c with ⟨first, tail, shown, read, plain⟩ | ⟨bare, -, shown, read⟩
    · rw [shown, read, List.cons_append, List.cons_append, unescape, unescape_plain fun d member => (plain d member).1]
      rfl
    · rw [shown, read]
      exact unescape_plain (by simpa using bare)

theorem quoted_display : Quoted '"' (content.flatMap displayChar) := by
  induction content with
  | nil => exact .nil
  | cons c content ih =>
    rw [List.flatMap_cons]
    rcases displayChar_cases c with ⟨first, tail, shown, -, plain⟩ | ⟨bare, other, shown, -⟩
    · rw [shown]
      exact .escaped (.plain_append plain ih)
    · rw [shown]
      exact .plain bare other ih

/-- What begins the reading of a character that is not printable stands for another character. -/
theorem head_retoldChar (other : isPrintable c = false) : ∀ d ∈ (retoldChar c).head?, isPrintable d := by
  unfold retoldChar
  split_ifs <;> simp_all <;> decide

/-- Only printable characters are read as themselves. -/
theorem flatMap_retoldChar_eq : content.flatMap retoldChar = content ↔ ∀ c ∈ content, isPrintable c := by
  induction content with
  | nil => simp
  | cons c content ih =>
    rw [List.flatMap_cons, List.forall_mem_cons, ← ih]
    cases printable : isPrintable c with
    | true => simp [retoldChar, printable]
    | false =>
      have begins := head_retoldChar printable
      have some : retoldChar c ≠ [] := by
        unfold retoldChar
        split_ifs <;> simp
      obtain ⟨first, tail, read⟩ := List.exists_cons_of_ne_nil some
      rw [read] at begins ⊢
      simp only [List.cons_append, List.cons.injEq, Bool.false_eq_true, false_and, iff_false]
      rintro ⟨rfl, -⟩
      rw [begins first rfl] at printable
      cases printable

/-- The kind and text that a displayed token is read as. -/
def Token.redisplayed (t : Token) : TokenKind × List Char :=
  (t.kind, if t.kind = .string then t.text.toList.flatMap retoldChar else t.text.toList)

/-- A lexeme that is the displayed form of a token, whatever stands behind a space after it. -/
structure Lexeme.Displays (lexeme : Lexeme) (t : Token) : Prop where
  source : lexeme.source = t.display.toList
  token : lexeme.token? = some t.redisplayed
  first : ∀ c ∈ lexeme.source.head?, ¬ isSpace c
  complete : ∀ after, (∀ c ∈ after.head?, c = ' ') → lexeme.Complete after

theorem Token.Lexical.exists_displays (lexical : t.Lexical) : ∃ lexeme : Lexeme, lexeme.Displays t := by
  obtain ⟨word, symbol⟩ := lexical
  cases kind : t.kind with
  | word =>
    obtain ⟨some, chars⟩ := word kind
    rw [List.all_eq_true] at chars
    refine ⟨.word t.text.toList, ?_, ?_, ?_, ?_⟩
    · simp [Lexeme.source, display, kind]
    · simp [Lexeme.token?, redisplayed, kind]
    · intro c first
      simp [(isWordChar_iff.1 (chars c (List.mem_of_mem_head? first))).1]
    · intro after space
      refine ⟨some, chars, fun c first => ?_⟩
      rw [space c first]
      decide
  | symbol =>
    obtain ⟨single, chars⟩ := symbol kind
    obtain ⟨c, only⟩ := List.length_eq_one_iff.1 single
    rw [List.all_eq_true, only] at chars
    have spelled : isSymbol c := chars c (List.mem_singleton_self c)
    refine ⟨.symbol c, ?_, ?_, ?_, ?_⟩
    · simp [Lexeme.source, display, kind, only]
    · simp [Lexeme.token?, redisplayed, kind, only]
    · simp [Lexeme.source, (not_space_of_symbol spelled).1]
    · exact fun _ _ => spelled
  | string =>
    refine ⟨.string '"' (t.text.toList.flatMap displayChar), ?_, ?_, ?_, ?_⟩
    · simp [Lexeme.source, display, kind, Text.display]
    · simp [Lexeme.token?, redisplayed, kind, unescape_display]
    · simp [Lexeme.source, isSpace]
    · exact fun _ _ => ⟨by decide, quoted_display⟩

/-- A text that falls into lexemes of the given kinds and texts, all of one row without a comment. -/
structure PlainRow (text : List Char) (lexemes : List Lexeme) (spelled : List (TokenKind × List Char)) : Prop where
  segments : Segments text lexemes none
  first : ∀ c ∈ text.head?, ¬ isSpace c
  tokens : lexemes.filterMap Lexeme.token? = spelled
  row : Lexeme.newline ∉ lexemes
  bare : ∀ lexeme ∈ lexemes, lexeme.comment? = none

theorem Lexeme.Displays.plain {lexeme : Lexeme} (displays : lexeme.Displays t) :
    lexeme ≠ .newline ∧ lexeme.comment? = none := by
  have token := displays.token
  cases lexeme with
  | word | symbol | string => exact ⟨nofun, rfl⟩
  | space | newline | lineComment | blockComment => cases token

/-- A displayed token before what is read after a space. -/
theorem PlainRow.cons {lexeme : Lexeme} {spelled : List (TokenKind × List Char)} (displays : lexeme.Displays t)
    (row : PlainRow rest lexemes spelled) :
    PlainRow (t.display.toList ++ [' '] ++ rest) (lexeme :: .space [' '] :: lexemes) (t.redisplayed :: spelled) := by
  obtain ⟨notNewline, noComment⟩ := displays.plain
  have blank : ∀ c ∈ [' '], isSpace c := by
    intro c member
    rw [List.mem_singleton.1 member]
    rfl
  have space : (Lexeme.space [' ']).Complete rest := ⟨List.cons_ne_nil _ _, blank, row.first⟩
  have complete : lexeme.Complete ([' '] ++ rest) := displays.complete _ fun c first => (Option.some.inj first).symm
  refine ⟨?_, ?_, ?_, ?_, ?_⟩
  · rw [← displays.source, List.append_assoc]
    exact .cons complete (.cons space row.segments)
  · intro c first
    refine displays.first c ?_
    rw [← displays.source, List.append_assoc, List.head?_append_of_ne_nil _ complete.source_ne_nil] at first
    exact first
  · rw [List.filterMap_cons, displays.token, List.filterMap_cons, ← row.tokens]
    rfl
  · simp [notNewline.symm, row.row]
  · exact List.forall_mem_cons.2 ⟨noComment, List.forall_mem_cons.2 ⟨rfl, row.bare⟩⟩

theorem PlainRow.single {lexeme : Lexeme} (displays : lexeme.Displays t) :
    PlainRow t.display.toList [lexeme] [t.redisplayed] := by
  obtain ⟨notNewline, noComment⟩ := displays.plain
  refine ⟨?_, ?_, ?_, ?_, ?_⟩
  · rw [← displays.source, ← List.append_nil lexeme.source]
    exact .cons (displays.complete [] (by simp)) .done
  · rw [← displays.source]
    exact displays.first
  · simp [displays.token]
  · simpa using notNewline.symm
  · simpa using noComment

/-- Displayed tokens with single spaces between them are read one after another. -/
theorem exists_plainRow_display (lexical : ∀ t ∈ tokens, t.Lexical) : ∃ lexemes,
    PlainRow ([' '].intercalate (tokens.map fun t => t.display.toList)) lexemes (tokens.map Token.redisplayed) := by
  induction tokens with
  | nil => exact ⟨[], .done, by simp, rfl, by simp, by simp⟩
  | cons t tokens ih =>
    obtain ⟨here, others⟩ := List.forall_mem_cons.1 lexical
    obtain ⟨lexeme, displays⟩ := here.exists_displays
    cases tokens with
    | nil =>
      rw [List.map_singleton, List.intercalate_singleton]
      exact ⟨[lexeme], .single displays⟩
    | cons u tokens =>
      obtain ⟨lexemes, row⟩ := ih others
      rw [List.map_cons, List.map_cons, List.intercalate_cons_cons]
      exact ⟨lexeme :: .space [' '] :: lexemes, .cons displays row⟩

/-- The tokens of such a row have no comment. -/
theorem PlainRow.scanTokens {spelled : List (TokenKind × List Char)} (row : PlainRow text lexemes spelled) :
    ∃ tokens, ProtoSchema.scanTokens text = .ok tokens ∧ (tokens.map fun t => (t.kind, t.text.toList)) = spelled ∧
      ∀ t ∈ tokens, t.comment = none := by
  have read := segments_iff.1 row.segments
  have nothing : Lexeme.commentText lexemes = [] := by
    rw [Lexeme.commentText, List.flatMap_eq_nil_iff]
    intro lexeme member
    rw [row.bare lexeme member]
    rfl
  have scanned : tokensFrom Place.start (Row.start []) lexemes =
      (Lexeme.tokensAt Place.start lexemes).map fun t => { t with comment := none } := by
    have whole : tokensFrom Place.start ⟨[], [], true⟩ (lexemes ++ []) = _ := tokensFrom_row row.row []
    have blank : Text.trim [] = [] := rfl
    rw [List.append_nil] at whole
    rw [Row.start, whole]
    simp [tokensFrom, Row.finish, nothing, blank]
  refine ⟨tokensFrom Place.start (Row.start []) lexemes, scanTokens_eq_ok.2 (by rw [read]; exact ⟨rfl, rfl⟩), ?_, ?_⟩
  · rw [scanned, List.map_map, ← row.tokens, map_tokensAt Place.start]
    rfl
  · rw [scanned]
    simp

theorem Token.retold_of_redisplayed {again : Token} (same : t.redisplayed = (again.kind, again.text.toList))
    (comment : again.comment = none) : t.Retold again := by
  obtain ⟨kind, text⟩ := Prod.mk.inj same
  refine ⟨kind.symm, comment, fun other => ?_, fun string => ?_, fun string => ?_⟩
  · rw [if_neg other] at text
    exact (String.toList_inj.1 text).symm
  · rw [if_pos string] at text
    exact text.symm
  · rw [if_pos string] at text
    rw [← String.toList_inj, ← text, flatMap_retoldChar_eq]

/-- The tokens of a source, displayed with single spaces between them, are read as just as many tokens of the
same kinds. All but the string literals with other than printable characters are the same again. -/
theorem tokenize_display {name source : String} (scanned : tokenize name source = .ok tokens) :
    ∃ again, tokenize name (String.intercalate " " (tokens.map Token.display)) = .ok again ∧
      List.Forall₂ Token.Retold tokens again := by
  obtain ⟨lexemes, row⟩ := exists_plainRow_display (scanTokens_lexical (tokenize_eq_ok.1 scanned))
  obtain ⟨again, read, spelled, bare⟩ := row.scanTokens
  refine ⟨again, ?_, ?_⟩
  · rw [tokenize_eq_ok, String.toList_intercalate, List.map_map]
    exact read
  · have alike : List.Forall₂ (fun t u => t.redisplayed = (u.kind, u.text.toList)) tokens again := by
      have equal : List.Forall₂ (· = ·) (tokens.map Token.redisplayed) (again.map fun u => (u.kind, u.text.toList)) := by
        rw [List.forall₂_eq_eq_eq, spelled]
      exact List.forall₂_map_right_iff.1 (List.forall₂_map_left_iff.1 equal)
    rw [List.forall₂_iff_get] at alike ⊢
    exact ⟨alike.1, fun k here there =>
      Token.retold_of_redisplayed (alike.2 k here there) (bare _ (List.get_mem again ⟨k, there⟩))⟩

/-- `x = 'a\'` with a tab and an accented letter behind it, and a comment. -/
def accentedSource : String :=
  "x = 'a\\'\té'; // note"

def accentedTokens : List Token :=
  [⟨.word, "x", 1, 1, ⟨0, 1⟩, some "note"⟩, ⟨.symbol, "=", 1, 3, ⟨2, 3⟩, some "note"⟩,
    ⟨.string, "a'\té", 1, 5, ⟨4, 12⟩, some "note"⟩, ⟨.symbol, ";", 1, 13, ⟨12, 13⟩, some "note"⟩]

/-- The tab comes back as `t` and the letter by its number, while the quote comes back as itself. -/
theorem tokenize_display_accented : tokenize "m" accentedSource = .ok accentedTokens ∧
    String.intercalate " " (accentedTokens.map Token.display) = "x = \"a\\'\\t\\u\x7be9\x7d\" ;" ∧
    ∃ again, tokenize "m" (String.intercalate " " (accentedTokens.map Token.display)) = .ok again ∧
      List.Forall₂ Token.Retold accentedTokens again := by
  have scanned : tokenize "m" accentedSource = .ok accentedTokens :=
    tokenize_eq_ok.2 (scanTokens_eq_ok.2 (by decide +kernel))
  exact ⟨scanned, by decide +kernel, tokenize_display scanned⟩

end ProtoSchema
