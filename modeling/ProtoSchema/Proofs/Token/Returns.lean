import Mathlib.Data.List.Forall2
import Mathlib.Data.List.Induction
import ProtoSchema.Proofs.Text.Trim
import ProtoSchema.Proofs.Token.Slices

namespace ProtoSchema

theorem map_eq_map_iff_forall₂ {α β : Type} {f : α → β} {a b : List α} :
    a.map f = b.map f ↔ List.Forall₂ (fun x y => f x = f y) a b := by
  rw [← List.forall₂_eq_eq_eq, List.forall₂_map_left_iff, List.forall₂_map_right_iff]

namespace Text

variable {text : List Char}

/-- A text with a carriage return before each newline. -/
def withReturns (text : List Char) : List Char :=
  text.flatMap fun c => if c = '\n' then ['\r', '\n'] else [c]

theorem withReturns_append (a b : List Char) : withReturns (a ++ b) = withReturns a ++ withReturns b :=
  List.flatMap_append

theorem withReturns_newline (text : List Char) : withReturns ('\n' :: text) = '\r' :: '\n' :: withReturns text := rfl

theorem withReturns_cons {c : Char} (other : c ≠ '\n') (text : List Char) :
    withReturns (c :: text) = c :: withReturns text := by
  rw [withReturns, List.flatMap_cons, if_neg other]
  rfl

/-- Nothing changes in a text without newlines. -/
theorem withReturns_eq_self (within : '\n' ∉ text) : withReturns text = text := by
  induction text with
  | nil => rfl
  | cons c text ih =>
    rw [List.mem_cons, not_or] at within
    rw [withReturns_cons (Ne.symm within.1), ih within.2]

/-- A text still begins with what it began with, or with a carriage return. -/
theorem head?_withReturns {c : Char} (first : c ∈ (withReturns text).head?) :
    c ∈ text.head? ∨ c = '\r' ∧ text.head? = some '\n' := by
  cases text with
  | nil => cases first
  | cons d text =>
    by_cases newline : d = '\n'
    · subst newline
      exact Or.inr ⟨(Option.some.inj first).symm, rfl⟩
    · rw [withReturns_cons newline] at first
      exact Or.inl first

theorem getLast?_withReturns (text : List Char) : (withReturns text).getLast? = text.getLast? := by
  cases text using List.reverseRecOn with
  | nil => rfl
  | append_singleton text c =>
    rw [withReturns_append, List.getLast?_append, List.getLast?_concat]
    by_cases newline : c = '\n'
    · subst newline
      rfl
    · rw [withReturns_cons newline]
      rfl

/-- A line may have got a carriage return at its end. -/
inductive Returned : List Char → List Char → Prop
  | same {line : List Char} : Returned line line
  | returned {line : List Char} : Returned line (line ++ ['\r'])

theorem Returned.cons {line other : List Char} (maybe : Returned line other) (c : Char) :
    Returned (c :: line) (c :: other) := by
  cases maybe with
  | same => exact .same
  | returned => exact .returned

theorem forall₂_lines_withReturns (text : List Char) :
    List.Forall₂ Returned (lines text) (lines (withReturns text)) := by
  induction text with
  | nil => exact .nil
  | cons c text ih =>
    by_cases newline : c = '\n'
    · subst newline
      exact .cons .returned ih
    · rw [withReturns_cons newline, lines, lines, if_neg newline, if_neg newline]
      generalize lines text = before, lines (withReturns text) = after at ih
      cases ih with
      | nil => exact .cons .same .nil
      | cons first rest => exact .cons (first.cons c) rest

theorem trim_append_of_blank {more : List Char} (blank : ∀ c ∈ more, isBlank c) : trim (text ++ more) = trim text := by
  obtain ⟨lead, trail, whole, leading, trailing, ends⟩ := trimmed_iff.2 (rfl : trim text = trim text)
  refine trimmed_iff.1 ⟨lead, trail ++ more, by conv_lhs => rw [whole, List.append_assoc], leading, ?_, ends⟩
  exact fun c member => (List.mem_append.1 member).elim (trailing c) (blank c)

theorem dropTrailing_withReturns {inClass : Char → Bool} (newline : inClass '\n' = false) (text : List Char) :
    dropTrailing inClass (withReturns text) = withReturns (dropTrailing inClass text) := by
  obtain ⟨trail, whole, within, ends⟩ := dropTrailing_eq_iff.1 (rfl : dropTrailing inClass text = _)
  refine dropTrailing_eq_iff.2 ⟨trail, ?_, within, by rwa [getLast?_withReturns]⟩
  have bare : '\n' ∉ trail := fun member => by simpa [newline] using within _ member
  conv_lhs => rw [whole, withReturns_append, withReturns_eq_self bare]

/-- Whether two places are in the same line and equally far behind its beginning. -/
def Place.Level (p q : Place) : Prop :=
  p.line = q.line ∧ p.offset + q.lineStart = q.offset + p.lineStart

namespace Place.Level

variable {p q : Place}

theorem position_eq (level : p.Level q) : p.position = q.position := by
  obtain ⟨line, distance⟩ := level
  rw [position, position, positionOf, positionOf, line]
  exact congrArg (Position.mk _ ∘ (· + 1)) (by omega)

theorem next {c : Char} (level : p.Level q) (other : c ≠ '\n') : (p.next c).Level (q.next c) := by
  obtain ⟨line, distance⟩ := level
  unfold Place.next
  rw [if_neg other, if_neg other]
  exact ⟨line, by dsimp only; omega⟩

/-- What comes behind a newline is at the beginning of its line. -/
theorem newline (line : p.line = q.line) : (p.next '\n').Level (q.next '\n') :=
  ⟨congrArg (· + 1) line, Nat.add_comm ..⟩

theorem after (level : p.Level q) (text : List Char) : (p.after text).Level (q.after (withReturns text)) := by
  induction text generalizing p q with
  | nil => exact level
  | cons c text ih =>
    by_cases same : c = '\n'
    · subst same
      exact ih (newline level.1)
    · rw [withReturns_cons same]
      exact ih (level.next same)

end Place.Level

end Text

open Text (Place withReturns)

/-- Takes the span off a token. -/
def Relabel.unspan : Relabel :=
  ⟨id, id, id, fun _ => 0⟩

theorem isSpace_return : ∀ c ∈ ['\r'], isSpace c :=
  List.forall_mem_singleton.2 rfl

theorem isBlank_of_isSpace {c : Char} (space : isSpace c = true) : Text.isBlank c = true := by
  simp only [isSpace, Bool.or_eq_true, beq_iff_eq] at space
  rcases space with (((rfl | rfl) | rfl) | rfl) | rfl <;> rfl

theorem cleanBlockLine_returned {line other : List Char} (maybe : Text.Returned line other) :
    cleanBlockLine other = cleanBlockLine line := by
  cases maybe with
  | same => rfl
  | returned => rw [cleanBlockLine, cleanBlockLine, Text.trim_append_of_blank (List.forall_mem_singleton.2 rfl)]

namespace Lexeme

theorem comment?_lineComment_append {body more : List Char} (spaces : ∀ c ∈ more, isSpace c) :
    (lineComment (body ++ more)).comment? = (lineComment body).comment? := by
  rw [comment?, comment?, Text.trim_append_of_blank fun c member => isBlank_of_isSpace (spaces c member)]

/-- A carriage return at the end of a line of a block comment is trimmed off. -/
theorem comment?_blockComment_withReturns (body : List Char) :
    (blockComment (withReturns body)).comment? = (blockComment body).comment? := by
  have cleaned (text : List Char) :
      (Text.lines text).map cleanBlockLine = (Text.lines (withReturns text)).map cleanBlockLine :=
    map_eq_map_iff_forall₂.2 <|
      (Text.forall₂_lines_withReturns text).imp fun _ _ maybe => (cleanBlockLine_returned maybe).symm
  have joined (lines : List (List Char)) : lines.flatMap (fun line => cleanBlockLine line ++ ['\n']) =
      (lines.map cleanBlockLine).flatMap (· ++ ['\n']) := by rw [List.flatMap_map]
  rw [comment?, comment?, Text.dropTrailing_withReturns rfl, joined, joined, ← cleaned]

/-- No end of a comment comes about. -/
theorem commentEnd_infix_withReturns {text : List Char} (ends : ['*', '/'] <:+: withReturns text) :
    ['*', '/'] <:+: text := by
  induction text with
  | nil => exact ends
  | cons c text ih =>
    by_cases newline : c = '\n'
    · subst newline
      rw [Text.withReturns_newline, commentEnd_infix_cons, commentEnd_infix_cons] at ends
      exact commentEnd_infix_cons.2 (Or.inr (ih (by simpa using ends)))
    · rw [Text.withReturns_cons newline, commentEnd_infix_cons] at ends
      refine commentEnd_infix_cons.2 (ends.imp (fun ⟨star, starts⟩ => ⟨star, ?_⟩) ih)
      obtain ⟨rest, whole⟩ := starts
      have first : '/' ∈ (withReturns text).head? := by rw [← whole]; rfl
      rcases Text.head?_withReturns first with here | ⟨carriage, -⟩
      · obtain ⟨rest, rfl⟩ := List.head?_eq_some_iff.1 here
        exact ⟨rest, rfl⟩
      · cases carriage

/-- What does not go on with a carriage return or a newline does not go on either if its newline has got a carriage
return. -/
theorem stops_withReturns {p : Char → Bool} (bare : p '\r' = false) {after : List Char}
    (stop : ∀ c ∈ after.head?, ¬ p c) : ∀ c ∈ (withReturns after).head?, ¬ p c := by
  intro c first
  rcases Text.head?_withReturns first with here | ⟨rfl, -⟩
  · exact stop c here
  · simp [bare]

end Lexeme

/-- Lexemes from two places that are level give the same tokens but for their spans, if the rows do that have been read
before them. -/
def SameTokens (lexemes others : List Lexeme) : Prop :=
  ∀ (p q : Place) (row row' : Row), p.Level q → row.relabel .unspan = row'.relabel .unspan →
    (tokensFrom p row lexemes).map Relabel.unspan.token = (tokensFrom q row' others).map Relabel.unspan.token

/-- Spaces are passed over. -/
theorem tokensFrom_space (place : Place) (row : Row) (text : List Char) (rest : List Lexeme) :
    tokensFrom place row (.space text :: rest) = tokensFrom (place.after text) row rest := by
  simp [tokensFrom, Lexeme.tokenAt?, Lexeme.token?, Lexeme.comment?, Lexeme.source]

/-- Spaces at the end of a line comment are no part of what it says. -/
theorem tokensFrom_lineComment_append {place : Place} {row : Row} {body more : List Char} {rest : List Lexeme}
    (spaces : ∀ c ∈ more, isSpace c) : tokensFrom place row (.lineComment (body ++ more) :: rest) =
      tokensFrom place row (.lineComment body :: .space more :: rest) := by
  have source : (Lexeme.lineComment (body ++ more)).source = (Lexeme.lineComment body).source ++ more := by
    simp [Lexeme.source]
  have comment : (Lexeme.lineComment (body ++ more)).comment? = (Lexeme.lineComment body).comment? :=
    Lexeme.comment?_lineComment_append spaces
  have other (body : List Char) : Lexeme.lineComment body ≠ .newline := by simp
  rw [tokensFrom, tokensFrom, if_neg (other _), if_neg (other _), source, comment, Place.after_append]
  simp only [Lexeme.comment?, tokensFrom_space]
  rfl

theorem Row.finish_unspan (row : Row) : row.finish.map Relabel.unspan.token = (row.relabel .unspan).finish := by
  simp [finish, relabel, Function.comp_def, Relabel.token, Relabel.unspan]

theorem Lexeme.tokenAt?_unspan {p q : Place} (level : p.Level q) {lexeme other : Lexeme}
    (same : lexeme.token? = other.token?) :
    (lexeme.tokenAt? p).map Relabel.unspan.token = (other.tokenAt? q).map Relabel.unspan.token := by
  simp only [tokenAt?, same, level.position_eq, Option.map_map]
  rfl

namespace SameTokens

variable {lexemes others : List Lexeme}

theorem nil : SameTokens [] [] := by
  intro p q row row' _ same
  rw [tokensFrom, tokensFrom, Row.finish_unspan, Row.finish_unspan, same]

/-- A newline makes places in one line level. -/
theorem newline (rest : SameTokens lexemes others) {p q : Place} {row row' : Row} (line : p.line = q.line)
    (same : row.relabel .unspan = row'.relabel .unspan) :
    (tokensFrom p row (.newline :: lexemes)).map Relabel.unspan.token =
      (tokensFrom q row' (.newline :: others)).map Relabel.unspan.token := by
  obtain ⟨comment, tokens, blank⟩ := row
  obtain ⟨comment', tokens', blank'⟩ := row'
  have finish : (Row.finish ⟨comment, tokens, blank⟩).map Relabel.unspan.token =
      (Row.finish ⟨comment', tokens', blank'⟩).map Relabel.unspan.token := by
    rw [Row.finish_unspan, Row.finish_unspan, same]
  obtain ⟨rfl, sameTokens, rfl⟩ := Row.mk.inj same
  have empty : tokens.isEmpty = tokens'.isEmpty := by
    rw [← List.isEmpty_map, sameTokens, List.isEmpty_map]
  have level : (p.after Lexeme.newline.source).Level (q.after Lexeme.newline.source) := .newline line
  rw [tokensFrom, tokensFrom, if_pos rfl, if_pos rfl]
  dsimp only
  rw [empty]
  split
  · exact rest _ _ _ _ level rfl
  · rw [List.map_append, List.map_append, finish, rest _ _ _ _ level rfl]

/-- Two lexemes that mean the same before lexemes that give the same tokens. -/
theorem cons {lexeme other : Lexeme} (some : lexeme ≠ .newline) (some' : other ≠ .newline)
    (source : other.source = withReturns lexeme.source) (token : lexeme.token? = other.token?)
    (comment : lexeme.comment? = other.comment?) (rest : SameTokens lexemes others) :
    SameTokens (lexeme :: lexemes) (other :: others) := by
  intro p q row row' level same
  have further := source ▸ level.after lexeme.source
  have tokenAt := Lexeme.tokenAt?_unspan level token
  obtain ⟨sameComment, sameTokens, blank⟩ := Row.mk.inj same
  rw [tokensFrom, tokensFrom, if_neg some, if_neg some', ← comment]
  cases one : lexeme.tokenAt? p with
  | some t =>
    rw [one] at tokenAt
    obtain ⟨u, two, tokens⟩ := Option.map_eq_some_iff.1 tokenAt.symm
    rw [two]
    refine rest _ _ _ _ further ?_
    simp [Row.relabel, sameComment, sameTokens, tokens]
  | none =>
    rw [one] at tokenAt
    rw [Option.map_eq_none_iff.1 tokenAt.symm]
    cases lexeme.comment? with
    | some text =>
      refine rest _ _ _ _ further ?_
      simp [Row.relabel, sameComment, sameTokens]
    | none => exact rest _ _ _ _ further same

theorem cons_self {lexeme : Lexeme} (bare : '\n' ∉ lexeme.source) (rest : SameTokens lexemes others) :
    SameTokens (lexeme :: lexemes) (lexeme :: others) := by
  have some : lexeme ≠ .newline := by
    rintro rfl
    exact bare (List.mem_singleton_self _)
  exact cons some some (Text.withReturns_eq_self bare).symm rfl rfl rest

end SameTokens

/-- The first lexeme of a source is the one that is read there. -/
theorem Segments.first {c : Char} {text : List Char} {lexemes : List Lexeme}
    (segments : Segments (c :: text) lexemes none) : ∃ lexeme after rest, lexemes = lexeme :: rest ∧
      Lexeme.read c text = .ok (lexeme, after) ∧ lexeme.Complete after ∧ Segments after rest none := by
  generalize whole : c :: text = source, faultless : (none : Option ScanFault) = fault at segments
  cases segments with
  | done => cases whole
  | fault => cases faultless
  | cons complete rest =>
    obtain ⟨d, more, split, read⟩ := Lexeme.read_of_complete complete
    obtain ⟨rfl, rfl⟩ := List.cons.inj (whole.trans split)
    exact ⟨_, _, _, rfl, read, complete, faultless ▸ rest⟩

/-- Spaces before a source belong to its first lexeme if that is a space, and else are one by themselves. -/
theorem Segments.space {text source : List Char} {lexemes : List Lexeme} (some : text ≠ [])
    (spaces : ∀ c ∈ text, isSpace c) (segments : Segments source lexemes none) :
    ∃ others, Segments (text ++ source) others none ∧
      ∀ place row, tokensFrom place row others = tokensFrom (place.after text) row lexemes := by
  by_cases stop : ∀ c ∈ source.head?, ¬ isSpace c
  · have complete : (Lexeme.space text).Complete source := ⟨some, spaces, stop⟩
    exact ⟨_, .cons complete segments, fun _ _ => tokensFrom_space ..⟩
  · obtain ⟨c, first, space⟩ : ∃ c ∈ source.head?, isSpace c := by simpa using stop
    obtain ⟨source, rfl⟩ := List.head?_eq_some_iff.1 first
    obtain ⟨lexeme, after, rest, rfl, read, complete, segments⟩ := segments.first
    unfold Lexeme.read at read
    rw [if_pos space] at read
    obtain ⟨rfl, rfl⟩ := Prod.mk.inj (Except.ok.inj read)
    obtain ⟨-, within, ends⟩ := complete
    have joined : (Lexeme.space (text ++ c :: source.takeWhile isSpace)).Complete (source.dropWhile isSpace) :=
      ⟨by simp, fun d member => (List.mem_append.1 member).elim (spaces d) (within d), ends⟩
    have whole := Segments.cons joined segments
    rw [Lexeme.source, List.append_assoc, List.cons_append, List.takeWhile_append_dropWhile] at whole
    refine ⟨_, whole, fun place row => ?_⟩
    rw [tokensFrom_space, tokensFrom_space, Place.after_append]

/-- A carriage return before a newline is a lexeme by itself. -/
theorem Segments.of_return {after : List Char} {lexemes : List Lexeme}
    (segments : Segments ('\r' :: '\n' :: after) lexemes none) :
    ∃ rest, lexemes = .space ['\r'] :: rest ∧ Segments ('\n' :: after) rest none := by
  obtain ⟨lexeme, later, rest, rfl, read, -, segments⟩ := segments.first
  cases read
  exact ⟨rest, rfl, segments⟩

section Steps

variable {after : List Char} {lexemes others : List Lexeme}

/-- The source of a lexeme and what comes behind it, with carriage returns before the newlines, give its token and the
tokens behind it. -/
def Lexeme.KeepsTokens (lexeme : Lexeme) (after : List Char) (lexemes : List Lexeme) : Prop :=
  ∃ all, Segments (withReturns lexeme.source ++ withReturns after) all none ∧ SameTokens (lexeme :: lexemes) all

variable (later : Segments (withReturns after) others none) (same : SameTokens lexemes others)

include later same

namespace Lexeme

/-- Nothing happens to a lexeme without newlines that the characters behind it still end. -/
theorem keepsTokens_of_bare {lexeme : Lexeme} (bare : '\n' ∉ lexeme.source)
    (complete : lexeme.Complete (withReturns after)) : lexeme.KeepsTokens after lexemes := by
  unfold KeepsTokens
  rw [Text.withReturns_eq_self bare]
  exact ⟨_, .cons complete later, same.cons_self bare⟩

/-- The carriage return before a newline is a space. -/
theorem keepsTokens_newline : newline.KeepsTokens after lexemes := by
  have complete : newline.Complete (withReturns after) := trivial
  obtain ⟨all, whole, passed⟩ := Segments.space (List.cons_ne_nil _ _) isSpace_return (.cons complete later)
  refine ⟨all, whole, fun p q row row' level sameRow => ?_⟩
  rw [passed]
  exact same.newline (level.1.trans (by rw [Place.line_after]; rfl)) sameRow

/-- Spaces before a newline go on with its carriage return. -/
theorem keepsTokens_space {text : List Char} (some : text ≠ []) (spaces : ∀ c ∈ text, isSpace c) :
    (space text).KeepsTokens after lexemes := by
  have bare : '\n' ∉ text := fun member => absurd (spaces _ member) (by decide)
  have unchanged := Text.withReturns_eq_self bare
  obtain ⟨all, whole, passed⟩ := later.space some spaces
  unfold KeepsTokens
  rw [source, unchanged]
  refine ⟨all, whole, fun p q row row' level sameRow => ?_⟩
  rw [passed, tokensFrom_space]
  have further := level.after text
  rw [unchanged] at further
  exact same _ _ _ _ further sameRow

/-- A line comment goes on with the carriage return before its newline. -/
theorem keepsTokens_lineComment {body : List Char} (complete : (lineComment body).Complete after) :
    (lineComment body).KeepsTokens after lexemes := by
  obtain ⟨bare, stop⟩ := complete
  have bareSource : '\n' ∉ (lineComment body).source := by simpa [source] using bare
  cases after with
  | nil => exact keepsTokens_of_bare later same bareSource ⟨bare, by simp [withReturns]⟩
  | cons c after =>
    obtain rfl : c = '\n' := stop c rfl
    obtain ⟨rest, rfl, behind⟩ := Segments.of_return later
    have longer : (lineComment (body ++ ['\r'])).Complete ('\n' :: withReturns after) :=
      ⟨by simpa using bare, fun c first => (Option.some.inj first).symm⟩
    have whole := Segments.cons longer behind
    unfold KeepsTokens
    rw [Text.withReturns_eq_self bareSource, Text.withReturns_newline]
    refine ⟨_, by simpa [source] using whole, fun p q row row' level sameRow => ?_⟩
    rw [tokensFrom_lineComment_append isSpace_return]
    exact same.cons_self bareSource p q row row' level sameRow

/-- Within a block comment, carriage returns are trimmed off the lines. -/
theorem keepsTokens_blockComment {body : List Char} (complete : (blockComment body).Complete after) :
    (blockComment body).KeepsTokens after lexemes := by
  have returned : (blockComment (withReturns body)).source = withReturns (blockComment body).source := by
    rw [source, source, Text.withReturns_append]
    rfl
  have longer : (blockComment (withReturns body)).Complete (withReturns after) :=
    mt commentEnd_infix_withReturns complete
  unfold KeepsTokens
  rw [← returned]
  exact ⟨_, .cons longer later,
    .cons (by simp) (by simp) returned rfl (comment?_blockComment_withReturns body).symm same⟩

theorem keepsTokens {lexeme : Lexeme} (complete : lexeme.Complete after)
    (within : ∀ quote body, lexeme = .string quote body → '\n' ∉ body) : lexeme.KeepsTokens after lexemes := by
  cases lexeme with
  | newline => exact keepsTokens_newline later same
  | space text => exact keepsTokens_space later same complete.1 complete.2.1
  | lineComment body => exact keepsTokens_lineComment later same complete
  | blockComment body => exact keepsTokens_blockComment later same complete
  | word text =>
    obtain ⟨some, chars, stop⟩ := complete
    have bare : '\n' ∉ text := fun member => absurd (chars _ member) (by decide)
    exact keepsTokens_of_bare later same bare ⟨some, chars, stops_withReturns (by decide) stop⟩
  | symbol c =>
    have bare : '\n' ∉ [c] := by
      rw [List.mem_singleton]
      exact (not_space_of_symbol complete).2.symm
    exact keepsTokens_of_bare later same bare complete
  | string quote body =>
    have bare : '\n' ∉ (string quote body).source := by
      have opens := (not_space_of_quote complete.1).2.1
      simp [source, opens.symm, within quote body rfl]
    exact keepsTokens_of_bare later same bare complete

end Lexeme

end Steps

/-- A source that falls into lexemes does so with carriage returns before its newlines, and into the same tokens. -/
theorem Segments.withReturns {source : List Char} {lexemes : List Lexeme} (segments : Segments source lexemes none)
    (within : ∀ quote body, .string quote body ∈ lexemes → '\n' ∉ body) :
    ∃ others, Segments (Text.withReturns source) others none ∧ SameTokens lexemes others := by
  generalize faultless : (none : Option ScanFault) = fault at segments
  induction segments with
  | done => exact ⟨[], faultless ▸ .done, .nil⟩
  | fault => cases faultless
  | @cons lexeme after lexemes _ complete rest ih =>
    have first quote body (string : lexeme = .string quote body) : '\n' ∉ body :=
      within quote body (string ▸ List.mem_cons_self)
    obtain ⟨others, later, same⟩ :=
      ih (fun quote body member => within quote body (List.mem_cons_of_mem _ member)) faultless
    subst faultless
    rw [Text.withReturns_append]
    exact Lexeme.keepsTokens later same complete first

/-- Neither are newlines escaped away, nor does an escape stand for one. -/
theorem newline_mem_unescape {body : List Char} : '\n' ∈ unescape body ↔ '\n' ∈ body := by
  fun_induction unescape body with
  | case1 c body ih => simp [ih]
  | case2 c body _ ih => simp [ih]
  | case3 => rfl

/-- A string literal is one of the tokens. -/
theorem Scan.exists_token_of_string {scan : Scan} {quote : Char} {body : List Char}
    (member : .string quote body ∈ scan.lexemes) :
    ∃ t ∈ scan.tokens, t.kind = .string ∧ t.text.toList = unescape body := by
  obtain ⟨before, after, split⟩ := List.append_of_mem member
  have spellings := scan.spelling_tokens Place.start
  rw [split, Lexeme.tokensAt_append, List.map_append] at spellings
  have one : (TokenKind.string, String.ofList (unescape body)) ∈ scan.tokens.map Token.spelling := by
    rw [spellings]
    exact List.mem_append_right _ List.mem_cons_self
  obtain ⟨t, token, spelling⟩ := List.mem_map.1 one
  obtain ⟨kind, text⟩ := Prod.mk.inj spelling
  exact ⟨t, token, kind, by rw [text, String.toList_ofList]⟩

theorem Token.unspan_eq_iff {t u : Token} :
    Relabel.unspan.token t = Relabel.unspan.token u ↔ u = { t with span := u.span } := by
  cases t
  cases u
  simp [Relabel.token, Relabel.unspan, Relabel.span, eq_comm]

/-- The tokens of a source are the same but for their spans with a carriage return before each newline, as long as no
string literal holds one. -/
theorem scanTokens_withReturns {source : List Char} {tokens : List Token} (scanned : scanTokens source = .ok tokens)
    (within : ∀ t ∈ tokens, t.kind = .string → '\n' ∉ t.text.toList) :
    ∃ others, scanTokens (withReturns source) = .ok others ∧
      List.Forall₂ (fun t u => u = { t with span := u.span }) tokens others := by
  obtain ⟨faultless, rfl⟩ := scanTokens_eq_ok.1 scanned
  have segments := Segments.of_read source
  rw [faultless] at segments
  obtain ⟨others, whole, same⟩ := segments.withReturns (by
    intro quote body member newline
    obtain ⟨t, token, kind, text⟩ := Scan.exists_token_of_string member
    rw [← newline_mem_unescape, ← text] at newline
    exact within t token kind newline)
  have read := segments_iff.1 whole
  refine ⟨_, scanTokens_eq_ok.2 ⟨by rw [read], rfl⟩, ?_⟩
  have level : Place.start.Level Place.start := ⟨rfl, rfl⟩
  have tokens := map_eq_map_iff_forall₂.1 (same _ _ (Row.start []) (Row.start []) level rfl)
  rw [Scan.tokens, Scan.tokens, read]
  exact tokens.imp fun _ _ => Token.unspan_eq_iff.1

/-- Where a source ends. -/
theorem Text.locate_byteLength (source : List Char) :
    locate source (byteLength source) = (Place.start.after source).position := by
  have behind := locate_after source []
  rwa [List.append_nil, Place.offset_after, Place.start, Nat.zero_add] at behind

/-- A source ends in the same line and column with a carriage return before each newline. -/
theorem Text.locate_byteLength_withReturns (source : List Char) :
    locate (withReturns source) (byteLength (withReturns source)) = locate source (byteLength source) := by
  have level : Place.start.Level Place.start := ⟨rfl, rfl⟩
  rw [locate_byteLength, locate_byteLength]
  exact (level.after source).position_eq.symm

end ProtoSchema
