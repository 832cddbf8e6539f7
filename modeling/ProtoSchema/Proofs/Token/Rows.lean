import Mathlib.Data.List.Forall2
import Mathlib.Data.List.Induction
import ProtoSchema.Proofs.Text.Dotted
import ProtoSchema.Proofs.Text.Trim
import ProtoSchema.Proofs.Token.Exact

namespace ProtoSchema

open Text (Place Trimmed)

/-- The text that a line of a block comment adds: the line without the blanks around it, without a star at its
beginning and the blanks behind that star. -/
inductive LineCleaned (line : List Char) : List Char → Prop
  | starred {gap text : List Char} (trimmed : Trimmed line ('*' :: (gap ++ text))) (blank : ∀ c ∈ gap, Text.isBlank c)
      (ends : ∀ c ∈ text.head?, ¬ Text.isBlank c) : LineCleaned line text
  | plain {text : List Char} (trimmed : Trimmed line text) (bare : ∀ c ∈ text.head?, c ≠ '*') : LineCleaned line text

/-- The text that a comment adds to the comment of its row. -/
inductive Lexeme.Cleaned : Lexeme → List Char → Prop
  | line {body text : List Char} (trimmed : Trimmed body text) : Cleaned (.lineComment body) (text ++ ['\n'])
  | block {content stars : List Char} {texts : List (List Char)} (trailing : ∀ c ∈ stars, c = '*')
      (ends : ∀ c ∈ content.getLast?, c ≠ '*') (lines : List.Forall₂ LineCleaned (Text.lines content) texts) :
      Cleaned (.blockComment (content ++ stars)) (texts.flatMap (· ++ ['\n']))

theorem lineCleaned_iff {line text : List Char} : LineCleaned line text ↔ cleanBlockLine line = text := by
  constructor
  · rintro (⟨trimmed, blank, ends⟩ | ⟨trimmed, bare⟩)
    · rw [cleanBlockLine, Text.trimmed_iff.1 trimmed]
      exact Text.dropWhile_eq_iff.2 ⟨_, rfl, blank, ends⟩
    · rw [cleanBlockLine, Text.trimmed_iff.1 trimmed]
      split
      · exact absurd rfl (bare '*' rfl)
      · rfl
  · rintro rfl
    have trimmed : Trimmed line (Text.trim line) := Text.trimmed_iff.2 rfl
    unfold cleanBlockLine
    split
    · rename_i text starred
      obtain ⟨gap, whole, blank, ends⟩ := Text.dropWhile_eq_iff.1 (rfl : text.dropWhile Text.isBlank = _)
      rw [starred, whole] at trimmed
      exact .starred trimmed blank ends
    · rename_i bare
      refine .plain trimmed ?_
      intro c first same
      obtain ⟨rest, whole⟩ := List.head?_eq_some_iff.1 first
      exact bare rest (same ▸ whole)

theorem forall₂_lineCleaned {lines texts : List (List Char)} :
    List.Forall₂ LineCleaned lines texts ↔ lines.map cleanBlockLine = texts := by
  rw [← List.forall₂_eq_eq_eq, List.forall₂_map_left_iff]
  exact ⟨.imp fun _ _ => lineCleaned_iff.1, .imp fun _ _ => lineCleaned_iff.2⟩

namespace Lexeme

variable {lexeme : Lexeme} {lexemes : List Lexeme}

def isToken : Lexeme → Bool
  | .word _ | .symbol _ | .string _ _ => true
  | _ => false

def isComment : Lexeme → Bool
  | .lineComment _ | .blockComment _ => true
  | _ => false

theorem cleaned_iff {text : List Char} : lexeme.Cleaned text ↔ lexeme.comment? = some text := by
  constructor
  · rintro (trimmed | ⟨trailing, ends, lines⟩)
    · rw [comment?, Text.trimmed_iff.1 trimmed]
    · rename_i content stars texts
      have bare : Text.dropTrailing (· == '*') (content ++ stars) = content :=
        Text.dropTrailing_eq_iff.2 ⟨stars, rfl, by simpa using trailing, by simpa using ends⟩
      rw [comment?, bare, ← forall₂_lineCleaned.1 lines, List.flatMap_map]
  · intro cleaned
    cases lexeme with
    | lineComment body =>
      cases cleaned
      exact .line (Text.trimmed_iff.2 rfl)
    | blockComment body =>
      obtain ⟨stars, whole, trailing, ends⟩ :=
        Text.dropTrailing_eq_iff.1 (rfl : Text.dropTrailing (· == '*') body = _)
      have block := Cleaned.block (by simpa using trailing) (by simpa using ends) (forall₂_lineCleaned.2 rfl)
      rw [← whole, List.flatMap_map] at block
      cases cleaned
      exact block
    | _ => cases cleaned

/-- The texts of the comments in a row, put together. -/
def commentText (row : List Lexeme) : List Char :=
  row.flatMap fun lexeme => lexeme.comment?.getD []

theorem commentText_append (row other : List Lexeme) :
    commentText (row ++ other) = commentText row ++ commentText other :=
  List.flatMap_append

theorem commentText_flatten (rows : List (List Lexeme)) : commentText rows.flatten = rows.flatMap commentText := by
  induction rows with
  | nil => rfl
  | cons row rows ih => rw [List.flatten_cons, commentText_append, ih, List.flatMap_cons]

/-- The comments of a row are those that can be cleaned, and their texts make up the comment text of the row. -/
theorem exists_cleaned (row : List Lexeme) :
    ∃ texts, List.Forall₂ Cleaned (row.filter isComment) texts ∧ texts.flatten = commentText row := by
  induction row with
  | nil => exact ⟨[], .nil, rfl⟩
  | cons lexeme row ih =>
    obtain ⟨texts, cleaned, whole⟩ := ih
    cases found : lexeme.comment? with
    | some text =>
      have comment : lexeme.isComment := by cases lexeme <;> first | rfl | cases found
      refine ⟨text :: texts, ?_, ?_⟩
      · rw [List.filter_cons_of_pos comment]
        exact .cons (cleaned_iff.2 found) cleaned
      · simp [commentText, found, whole]
    | none =>
      have other : lexeme.isComment = false := by cases lexeme <;> first | rfl | cases found
      refine ⟨texts, ?_, ?_⟩
      · rwa [List.filter_cons_of_neg (by simp [other])]
      · simp [commentText, found, whole]

end Lexeme

open Lexeme

/-- Whether a row holds comments and no tokens. -/
def commentOnly (row : List Lexeme) : Bool :=
  row.any isComment && !row.any isToken

/-- Whether the tokens of `row` get the comments of `run` and `row`: the rows of `run` hold comments and no tokens,
come right before `row`, and are as many of that kind as there are. -/
structure Collects (rows front run : List (List Lexeme)) (row : List Lexeme) (back : List (List Lexeme)) : Prop where
  whole : rows = front ++ run ++ row :: back
  token : row.any isToken
  comments : ∀ other ∈ run, commentOnly other
  maximal : ∀ other ∈ front.getLast?, ¬ commentOnly other

/-- Whether tokens, in one group for each row, have the comments that their rows give them. -/
structure Attributed (rows : List (List Lexeme)) (groups : List (List Token)) : Prop where
  /-- The tokens of a row are its lexemes that are tokens. -/
  tokens : List.Forall₂ (fun row group => row.filterMap Lexeme.token? = group.map fun t => (t.kind, t.text.toList))
    rows groups
  /-- All tokens of a row have its own comments behind those of the rows that it collects. -/
  comment : ∀ front run row back, Collects rows front run row back → ∃ group texts core,
    groups[front.length + run.length]? = some group ∧
      List.Forall₂ Cleaned ((run.flatten ++ row).filter isComment) texts ∧ Trimmed texts.flatten core ∧
      ∀ t ∈ group, t.comment = if core.isEmpty then none else some (String.ofList core)
  /-- Every row with tokens collects some rows before it, if only none. -/
  collected : ∀ before row back, rows = before ++ row :: back → row.any isToken →
    ∃ front run, before = front ++ run ∧ Collects rows front run row back
  /-- No row is collected by two rows. -/
  apart : ∀ front run row back front' run' row' back', Collects rows front run row back →
    Collects rows front' run' row' back' → front.length + run.length < front'.length + run'.length →
    front.length + run.length < front'.length
  /-- No row behind the last one with tokens is collected. -/
  trailing : ∀ before after, rows = before ++ after → (∀ row ∈ after, ¬ row.any isToken) →
    ∀ front run row back, Collects rows front run row back → front.length + run.length < before.length

/-- The comment of a row before it is trimmed, as tokens get it. -/
def givenComment (text : List Char) : Option String :=
  let core := Text.trim text
  if core.isEmpty then none else some (String.ofList core)

/-- The comments that a row leaves for the next one, when those in `lent` have been left for it. -/
def lend (lent : List Char) (row : List Lexeme) : List Char :=
  if commentOnly row then lent ++ commentText row else []

/-- The tokens of each row, when the comments in `lent` have been left for the first one. -/
def groupsFrom (place : Place) (lent : List Char) : List (List Lexeme) → List (List Token)
  | [] => []
  | row :: rest =>
    ((tokensAt place row).map fun t => { t with comment := givenComment (lent ++ commentText row) }) ::
      groupsFrom ((place.after (row.flatMap Lexeme.source)).next '\n') (lend lent row) rest

/-- Reading a part of a row. -/
theorem tokensFrom_row {place : Place} {comment : List Char} {tokens : List Token} {blank : Bool} {row : List Lexeme}
    (within : Lexeme.newline ∉ row) (rest : List Lexeme) :
    tokensFrom place ⟨comment, tokens, blank⟩ (row ++ rest) =
      tokensFrom (place.after (row.flatMap Lexeme.source))
        ⟨comment ++ commentText row, (tokensAt place row).reverse ++ tokens,
          blank && !row.any isComment && !row.any isToken⟩ rest := by
  induction row generalizing place comment tokens blank with
  | nil => simp [commentText, tokensAt, Place.after]
  | cons lexeme row ih =>
    rw [List.mem_cons, not_or] at within
    obtain ⟨other, later⟩ := within
    rw [List.cons_append, tokensFrom, if_neg (Ne.symm other), List.flatMap_cons, Place.after_append]
    cases lexeme with
    | newline => exact absurd rfl other
    | space | word | symbol | string | lineComment | blockComment =>
      simp [tokenAt?, token?, comment?, isComment, isToken, commentText, tokensAt, ih later]

theorem tokensAt_eq_nil {place : Place} {row : List Lexeme} :
    (tokensAt place row).isEmpty = !row.any isToken := by
  induction row generalizing place with
  | nil => rfl
  | cons lexeme row ih =>
    cases lexeme <;> simp [tokensAt, tokenAt?, token?, isToken, ih]

/-- The tokens of a source are those of its rows. -/
theorem tokensFrom_intercalate {place : Place} {lent : List Char} {rows : List (List Lexeme)} (some : rows ≠ [])
    (within : ∀ row ∈ rows, Lexeme.newline ∉ row) :
    tokensFrom place (Row.start lent) ([Lexeme.newline].intercalate rows) = (groupsFrom place lent rows).flatten := by
  induction rows generalizing place lent with
  | nil => exact absurd rfl some
  | cons row rest ih =>
    obtain ⟨first, others⟩ := List.forall_mem_cons.1 within
    have start (tail : List Lexeme) : tokensFrom place (Row.start lent) (row ++ tail) =
        tokensFrom (place.after (row.flatMap source)) ⟨lent ++ commentText row, (tokensAt place row).reverse,
          !row.any isComment && !row.any isToken⟩ tail := by
      rw [Row.start, tokensFrom_row first tail, List.append_nil, Bool.true_and]
    cases rest with
    | nil =>
      have last := start []
      rw [List.append_nil] at last
      rw [List.intercalate_singleton, last]
      simp [groupsFrom, tokensFrom, Row.finish, givenComment]
    | cons next rest =>
      have later (lent : List Char) := @ih ((place.after (row.flatMap source)).next '\n') lent (List.cons_ne_nil _ _) others
      have newline (place : Place) : place.after Lexeme.newline.source = place.next '\n' := rfl
      rw [List.intercalate_cons_cons, List.append_assoc, start, List.singleton_append, tokensFrom, if_pos rfl,
        groupsFrom, List.flatten_cons, ← later, newline, List.isEmpty_reverse, tokensAt_eq_nil]
      cases found : row.any isToken with
      | true => simp [Row.finish, givenComment, lend, commentOnly, found]
      | false =>
        have empty : (tokensAt place row).isEmpty = !row.any isToken := tokensAt_eq_nil
        have none : tokensAt place row = [] := by simpa [found] using empty
        cases held : row.any isComment <;> simp [Row.skip, lend, commentOnly, found, held, none]

theorem length_groupsFrom (place : Place) (lent : List Char) (rows : List (List Lexeme)) :
    (groupsFrom place lent rows).length = rows.length := by
  induction rows generalizing place lent with
  | nil => rfl
  | cons row rows ih => rw [groupsFrom, List.length_cons, List.length_cons, ih]

theorem groupsFrom_append (place : Place) (lent : List Char) (before rows : List (List Lexeme)) :
    ∃ next, groupsFrom place lent (before ++ rows) =
      groupsFrom place lent before ++ groupsFrom next (before.foldl lend lent) rows := by
  induction before generalizing place lent with
  | nil => exact ⟨place, rfl⟩
  | cons row before ih =>
    obtain ⟨next, same⟩ := ih ((place.after (row.flatMap source)).next '\n') (lend lent row)
    exact ⟨next, by rw [List.cons_append, groupsFrom, same]; rfl⟩

theorem map_tokensAt (place : Place) (row : List Lexeme) :
    row.filterMap Lexeme.token? = (tokensAt place row).map fun t => (t.kind, t.text.toList) := by
  induction row generalizing place with
  | nil => rfl
  | cons lexeme row ih =>
    cases lexeme <;> simp [tokensAt, tokenAt?, token?, List.filterMap_cons, ← ih]

theorem groupsFrom_tokens (place : Place) (lent : List Char) (rows : List (List Lexeme)) :
    List.Forall₂ (fun row group => row.filterMap Lexeme.token? = group.map fun t => (t.kind, t.text.toList)) rows
      (groupsFrom place lent rows) := by
  induction rows generalizing place lent with
  | nil => exact .nil
  | cons row rows ih =>
    refine .cons ?_ (ih ..)
    rw [List.map_map]
    exact map_tokensAt place row

theorem foldl_lend {run : List (List Lexeme)} (lent : List Char) (comments : ∀ row ∈ run, commentOnly row) :
    run.foldl lend lent = lent ++ run.flatMap commentText := by
  induction run generalizing lent with
  | nil => simp
  | cons row run ih =>
    obtain ⟨first, others⟩ := List.forall_mem_cons.1 comments
    rw [List.foldl_cons, ih _ others, lend, if_pos first, List.flatMap_cons, List.append_assoc]

/-- What comes before the rows that a row collects lends nothing to them. -/
theorem foldl_lend_eq_nil {front : List (List Lexeme)} (maximal : ∀ row ∈ front.getLast?, ¬ commentOnly row) :
    front.foldl lend [] = [] := by
  induction front using List.reverseRecOn with
  | nil => rfl
  | append_singleton front row _ =>
    have other := maximal row List.getLast?_concat
    rw [List.foldl_append, List.foldl_cons, List.foldl_nil, lend, if_neg other]

/-- Some rows before a row can be told apart into those that it collects and those before them. -/
theorem exists_collected (before : List (List Lexeme)) : ∃ front run, before = front ++ run ∧
    (∀ row ∈ run, commentOnly row) ∧ ∀ row ∈ front.getLast?, ¬ commentOnly row := by
  induction before using List.reverseRecOn with
  | nil => exact ⟨[], [], rfl, nofun, nofun⟩
  | append_singleton before row ih =>
    by_cases comments : commentOnly row
    · obtain ⟨front, run, rfl, others, maximal⟩ := ih
      refine ⟨front, run ++ [row], List.append_assoc .., ?_, maximal⟩
      intro other member
      rcases List.mem_append.1 member with inRun | last
      · exact others other inRun
      · rwa [List.mem_singleton.1 last]
    · refine ⟨before ++ [row], [], (List.append_nil _).symm, nofun, ?_⟩
      intro other last
      rw [List.getLast?_concat] at last
      rwa [← Option.some.inj last]

namespace Collects

variable {rows front run back front' run' back' : List (List Lexeme)} {row row' : List Lexeme}

theorem getElem? (collects : Collects rows front run row back) : rows[front.length + run.length]? = some row := by
  rw [collects.whole, ← List.length_append, List.getElem?_append_right (Nat.le_refl _), Nat.sub_self]
  rfl

theorem apart (first : Collects rows front run row back) (second : Collects rows front' run' row' back')
    (before : front.length + run.length < front'.length + run'.length) : front.length + run.length < front'.length := by
  by_contra beyond
  have here := first.getElem?
  rw [second.whole, List.append_assoc, List.getElem?_append_right (by omega),
    List.getElem?_append_left (by omega)] at here
  have comments := second.comments row (List.mem_of_getElem? here)
  simp [commentOnly, first.token] at comments

theorem trailing {before after : List (List Lexeme)} (collects : Collects rows front run row back)
    (whole : rows = before ++ after) (without : ∀ row ∈ after, ¬ row.any isToken) :
    front.length + run.length < before.length := by
  by_contra beyond
  have here := collects.getElem?
  rw [whole, List.getElem?_append_right (by omega)] at here
  exact without row (List.mem_of_getElem? here) collects.token

end Collects

theorem attributed_groupsFrom (place : Place) (rows : List (List Lexeme)) :
    Attributed rows (groupsFrom place [] rows) where
  tokens := groupsFrom_tokens place [] rows
  comment front run row back collects := by
    obtain ⟨next, same⟩ := groupsFrom_append place [] (front ++ run) (row :: back)
    rw [List.foldl_append, foldl_lend_eq_nil collects.maximal, foldl_lend [] collects.comments, List.nil_append,
      ← collects.whole] at same
    obtain ⟨texts, cleaned, joined⟩ := exists_cleaned (run.flatten ++ row)
    have text : run.flatMap commentText ++ commentText row = texts.flatten := by
      rw [joined, commentText_append, commentText_flatten]
    have length : front.length + run.length = (groupsFrom place [] (front ++ run)).length := by
      rw [length_groupsFrom, List.length_append]
    have here : (groupsFrom place [] rows)[front.length + run.length]? =
        some ((tokensAt next row).map fun t => { t with comment := givenComment texts.flatten }) := by
      rw [same, length, List.getElem?_append_right (Nat.le_refl _), Nat.sub_self, ← text]
      rfl
    refine ⟨_, texts, _, here, cleaned, Text.trimmed_iff.2 rfl, ?_⟩
    intro t member
    obtain ⟨bare, -, rfl⟩ := List.mem_map.1 member
    rfl
  collected before row back whole token := by
    obtain ⟨front, run, rfl, comments, maximal⟩ := exists_collected before
    exact ⟨front, run, rfl, whole, token, comments, maximal⟩
  apart _ _ _ _ _ _ _ _ := Collects.apart
  trailing _ _ whole without _ _ _ _ collects := collects.trailing whole without

/-- The tokens of a source, row by row, have the comments that the rows give them. -/
theorem scanTokens_comments {source : List Char} {tokens : List Token} (scanned : scanTokens source = .ok tokens) :
    ∃ lexemes groups, Segments source lexemes none ∧ groups.flatten = tokens ∧
      Attributed (lexemes.splitOn .newline) groups := by
  obtain ⟨faultless, rfl⟩ := scanTokens_eq_ok.1 scanned
  have segments := Segments.of_read source
  rw [faultless] at segments
  refine ⟨_, _, segments, ?_, attributed_groupsFrom Place.start _⟩
  rw [← tokensFrom_intercalate (List.splitOn_ne_nil _ _) fun row member => Text.not_mem_of_mem_splitOn member,
    List.intercalate_splitOn]
  rfl

/-- A comment that an empty row cuts off, two rows that hold comments only, and a comment in the row of a token. -/
def rowed : List Char :=
  "// lost\n\n// of A\n/* and\n * more **/\nA // here\nB".toList

theorem scanTokens_comments_rowed : ∃ tokens lexemes groups, scanTokens rowed = .ok tokens ∧
    tokens.map Token.comment = [some "of A\nand\nmore\nhere", none] ∧ Segments rowed lexemes none ∧
    groups.flatten = tokens ∧ Attributed (lexemes.splitOn .newline) groups := by
  have scanned : scanTokens rowed = .ok
      [⟨.word, "A", 6, 1, ⟨36, 37⟩, some "of A\nand\nmore\nhere"⟩, ⟨.word, "B", 7, 1, ⟨46, 47⟩, none⟩] :=
    scanTokens_eq_ok.2 (by decide +kernel)
  obtain ⟨lexemes, groups, segments, whole, attributed⟩ := scanTokens_comments scanned
  exact ⟨_, lexemes, groups, scanned, rfl, segments, whole, attributed⟩

end ProtoSchema
