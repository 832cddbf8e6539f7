import ProtoSchema.Token.Lexeme

namespace ProtoSchema

/-- The bodies of string literals: no quote in them is left unescaped. -/
inductive Quoted (quote : Char) : List Char → Prop
  | nil : Quoted quote []
  | escaped {c : Char} {body : List Char} (rest : Quoted quote body) : Quoted quote ('\\' :: c :: body)
  | plain {c : Char} {body : List Char} (bare : c ≠ '\\') (other : c ≠ quote) (rest : Quoted quote body) :
      Quoted quote (c :: body)

/-- Whether a lexeme is complete when `after` is what comes behind it. -/
def Lexeme.Complete (after : List Char) : Lexeme → Prop
  | .space text => text ≠ [] ∧ (∀ c ∈ text, isSpace c) ∧ ∀ c ∈ after.head?, ¬ isSpace c
  | .newline => True
  | .word text => text ≠ [] ∧ (∀ c ∈ text, isWordChar c) ∧ ∀ c ∈ after.head?, ¬ isWordChar c
  | .symbol c => isSymbol c
  | .string quote body => isQuote quote ∧ Quoted quote body
  | .lineComment body => '\n' ∉ body ∧ ∀ c ∈ after.head?, c = '\n'
  | .blockComment body => ¬ ['*', '/'] <:+: body

/-- A fault with the characters that show it and what comes behind them. -/
inductive ScanFault.Shows : ScanFault → List Char → List Char → Prop
  | backslash {after : List Char} : Shows .strayBackslash ['\\'] after
  | comment {after : List Char} (other : ∀ c ∈ after.head?, c ≠ '/' ∧ c ≠ '*') : Shows .brokenComment ['/'] after
  | string {quote : Char} {after : List Char} (opens : isQuote quote)
      (endless : ∀ body rest, Quoted quote body → after ≠ body ++ quote :: rest) :
      Shows .unterminatedString [quote] after
  | block {after : List Char} (endless : ¬ ['*', '/'] <:+: after) : Shows .unterminatedComment ['/', '*'] after

/-- A source falls into complete lexemes up to its end, or up to a fault. -/
inductive Segments : List Char → List Lexeme → Option ScanFault → Prop
  | done : Segments [] [] none
  | fault {fault : ScanFault} {shown after : List Char} (shows : fault.Shows shown after) :
      Segments (shown ++ after) [] (some fault)
  | cons {lexeme : Lexeme} {after : List Char} {lexemes : List Lexeme} {fault : Option ScanFault}
      (complete : lexeme.Complete after) (rest : Segments after lexemes fault) :
      Segments (lexeme.source ++ after) (lexeme :: lexemes) fault

section Splitting

variable {quote : Char} {text body rest : List Char}

theorem splitQuote_of_quoted (bare : quote ≠ '\\') (quoted : Quoted quote body) :
    splitQuote quote (body ++ quote :: rest) = some (body, rest) := by
  induction quoted with
  | nil => simp [splitQuote, bare]
  | escaped _ ih => simp [splitQuote, ih]
  | plain bare other _ ih => simp [splitQuote, bare, other, ih]

theorem quoted_of_splitQuote (found : splitQuote quote text = some (body, rest)) : Quoted quote body := by
  fun_induction splitQuote quote text generalizing body with
  | case1 => cases found
  | case2 => cases found
  | case3 c text ih =>
    obtain ⟨⟨inner, after⟩, split, same⟩ := Option.map_eq_some_iff.1 found
    cases same
    exact .escaped (ih split)
  | case4 text =>
    cases found
    exact .nil
  | case5 c text lone bare other ih =>
    obtain ⟨⟨inner, after⟩, split, same⟩ := Option.map_eq_some_iff.1 found
    cases same
    refine .plain ?_ other (ih split)
    rintro rfl
    cases text with
    | nil => exact lone rfl rfl
    | cons c text => exact bare c text rfl rfl

/-- Where the two characters that end a comment occur first. -/
theorem commentEnd_infix_cons {c : Char} :
    ['*', '/'] <:+: c :: text ↔ c = '*' ∧ ['/'] <+: text ∨ ['*', '/'] <:+: text := by
  rw [List.infix_cons_iff, List.cons_prefix_cons, eq_comm]

theorem splitCommentEnd_of_append (first : ¬ ['*', '/'] <:+: body) :
    splitCommentEnd (body ++ '*' :: '/' :: rest) = some (body, rest) := by
  induction body with
  | nil => rfl
  | cons c body ih =>
    rw [commentEnd_infix_cons, not_or] at first
    have inner := ih first.2
    rw [List.cons_append]
    unfold splitCommentEnd
    split
    · contradiction
    · rename_i text same
      cases body with
      | nil => cases same
      | cons d body =>
        cases same
        exact absurd ⟨rfl, by simp⟩ first.1
    · rename_i same
      cases same
      rw [inner]
      rfl

theorem not_infix_of_splitCommentEnd (found : splitCommentEnd text = some (body, rest)) :
    ¬ ['*', '/'] <:+: body := by
  fun_induction splitCommentEnd text generalizing body with
  | case1 => cases found
  | case2 text =>
    cases found
    simp
  | case3 c text later ih =>
    obtain ⟨⟨inner, after⟩, split, same⟩ := Option.map_eq_some_iff.1 found
    cases same
    rw [commentEnd_infix_cons]
    rintro (⟨rfl, starts⟩ | inside)
    · obtain ⟨tail, rfl⟩ := starts
      have whole := splitCommentEnd_eq_append split
      rw [List.append_assoc] at whole
      exact later _ rfl whole
    · exact ih split inside

theorem not_infix_of_splitCommentEnd_eq_none (endless : splitCommentEnd text = none) : ¬ ['*', '/'] <:+: text := by
  fun_induction splitCommentEnd text with
  | case1 => simp
  | case2 => cases endless
  | case3 c text later ih =>
    rw [commentEnd_infix_cons]
    rintro (⟨rfl, starts⟩ | inside)
    · obtain ⟨tail, rfl⟩ := starts
      exact later _ rfl rfl
    · exact ih (Option.map_eq_none_iff.1 endless) inside

end Splitting

theorem takeWhile_eq {p : Char → Bool} {text after : List Char} (all : ∀ c ∈ text, p c) (stop : ∀ c ∈ after.head?, ¬ p c) :
    (text ++ after).takeWhile p = text ∧ (text ++ after).dropWhile p = after := by
  rw [List.takeWhile_append_of_pos all, List.dropWhile_append_of_pos all]
  cases after with
  | nil => simp
  | cons c after => simp [stop c rfl]

theorem not_head_dropWhile (p : Char → Bool) (text : List Char) : ∀ c ∈ (text.dropWhile p).head?, ¬ p c := by
  intro c first
  have stop := List.head?_dropWhile_not p text
  rw [Option.mem_def.1 first] at stop
  simpa using stop

theorem isWordChar_iff {c : Char} : isWordChar c ↔
    isSpace c = false ∧ c ≠ '\n' ∧ isSymbol c = false ∧ isQuote c = false ∧ c ≠ '/' ∧ c ≠ '\\' := by
  simp [isWordChar, and_assoc]

/-- Each symbol is one of the cases of `isSymbol` only. -/
theorem not_space_of_symbol {c : Char} (symbol : isSymbol c) : isSpace c = false ∧ c ≠ '\n' := by
  have each : "()\x7b\x7d<>[]=+-,;".toList.all fun c => !isSpace c && c != '\n' := by decide
  simpa using List.all_eq_true.1 each c (List.contains_iff_mem.1 symbol)

theorem not_space_of_quote {c : Char} (quote : isQuote c) : isSpace c = false ∧ c ≠ '\n' ∧ isSymbol c = false := by
  obtain rfl | rfl : c = '"' ∨ c = '\'' := by simpa [isQuote] using quote
  · decide
  · decide

namespace Lexeme

variable {c : Char} {text after : List Char} {lexeme : Lexeme} {fault : ScanFault}

theorem mem_takeWhile_run {p : Char → Bool} (first : p c) : ∀ d ∈ c :: text.takeWhile p, p d := by
  have rest := List.all_eq_true.1 (List.all_takeWhile (p := p) (l := text))
  intro d member
  rcases List.mem_cons.1 member with rfl | later
  · exact first
  · exact rest d later

theorem complete_of_read (read : Lexeme.read c text = .ok (lexeme, after)) : lexeme.Complete after := by
  unfold Lexeme.read at read
  by_cases space : isSpace c
  · rw [if_pos space] at read
    cases read
    exact ⟨by simp, mem_takeWhile_run space, not_head_dropWhile _ _⟩
  rw [if_neg space] at read
  by_cases newline : c = '\n'
  · rw [if_pos newline] at read
    cases read
    trivial
  rw [if_neg newline] at read
  by_cases symbol : isSymbol c
  · rw [if_pos symbol] at read
    cases read
    exact symbol
  rw [if_neg symbol] at read
  by_cases quote : isQuote c
  · rw [if_pos quote] at read
    split at read
    · rename_i split
      cases read
      exact ⟨quote, quoted_of_splitQuote split⟩
    · cases read
  rw [if_neg quote] at read
  by_cases slash : c = '/'
  · rw [if_pos slash] at read
    split at read
    · cases read
      rename_i text
      refine ⟨?_, by simpa using not_head_dropWhile (· != '\n') text⟩
      intro member
      have all := List.all_eq_true.1 (List.all_takeWhile (p := (· != '\n')) (l := text)) '\n' member
      simp at all
    · split at read
      · rename_i split
        cases read
        exact not_infix_of_splitCommentEnd split
      · cases read
    · cases read
  rw [if_neg slash] at read
  by_cases backslash : c = '\\'
  · rw [if_pos backslash] at read
    cases read
  · rw [if_neg backslash] at read
    cases read
    have word : isWordChar c := isWordChar_iff.2 (by simp_all)
    exact ⟨by simp, mem_takeWhile_run word, not_head_dropWhile _ _⟩

theorem shows_of_read (read : Lexeme.read c text = .error fault) :
    ∃ shown after, c :: text = shown ++ after ∧ fault.Shows shown after := by
  unfold Lexeme.read at read
  split at read
  · cases read
  split at read
  · cases read
  split at read
  · cases read
  split at read
  · rename_i quote
    split at read
    · cases read
    · rename_i endless
      cases read
      refine ⟨[c], text, rfl, .string quote ?_⟩
      rintro body rest quoted rfl
      have bare : c ≠ '\\' := by
        rintro rfl
        exact absurd quote (by decide)
      rw [splitQuote_of_quoted bare quoted] at endless
      cases endless
  split at read
  · rename_i slash
    subst slash
    split at read
    · cases read
    · split at read
      · cases read
      · rename_i text _ endless
        cases read
        exact ⟨['/', '*'], text, rfl, .block (not_infix_of_splitCommentEnd_eq_none endless)⟩
    · rename_i noLine noBlock
      cases read
      refine ⟨['/'], text, rfl, .comment ?_⟩
      intro d first
      cases text with
      | nil => cases first
      | cons e text =>
        cases first
        exact ⟨fun same => noLine text (by rw [same]), fun same => noBlock text (by rw [same])⟩
  split at read
  · rename_i backslash
    cases read
    exact ⟨['\\'], text, by rw [backslash]; rfl, .backslash⟩
  · cases read

theorem read_of_complete (complete : lexeme.Complete after) :
    ∃ c text, lexeme.source ++ after = c :: text ∧ Lexeme.read c text = .ok (lexeme, after) := by
  cases lexeme with
  | space text =>
    obtain ⟨some, all, stop⟩ := complete
    cases text with
    | nil => exact absurd rfl some
    | cons c text =>
      have run := takeWhile_eq (fun d member => all d (List.mem_cons_of_mem _ member)) stop
      refine ⟨c, text ++ after, rfl, ?_⟩
      simp [Lexeme.read, all c (List.mem_cons_self ..), run]
  | newline => exact ⟨'\n', after, rfl, rfl⟩
  | word text =>
    obtain ⟨some, all, stop⟩ := complete
    cases text with
    | nil => exact absurd rfl some
    | cons c text =>
      have run := takeWhile_eq (fun d member => all d (List.mem_cons_of_mem _ member)) stop
      have first := isWordChar_iff.1 (all c (List.mem_cons_self ..))
      refine ⟨c, text ++ after, rfl, ?_⟩
      simp [Lexeme.read, first, run]
  | symbol c =>
    have other := not_space_of_symbol complete
    refine ⟨c, after, rfl, ?_⟩
    simp [Lexeme.read, other, show isSymbol c = true from complete]
  | string quote body =>
    obtain ⟨opens, quoted⟩ := complete
    have other := not_space_of_quote opens
    have bare : quote ≠ '\\' := by
      rintro rfl
      exact absurd opens (by decide)
    refine ⟨quote, body ++ quote :: after, by simp [source], ?_⟩
    simp [Lexeme.read, other, opens, splitQuote_of_quoted bare quoted]
  | lineComment body =>
    obtain ⟨within, stop⟩ := complete
    have all : ∀ d ∈ body, (d != '\n') = true := by
      intro d member
      simp only [bne_iff_ne]
      rintro rfl
      exact within member
    have run := takeWhile_eq all (by simpa using stop)
    refine ⟨'/', '/' :: (body ++ after), rfl, ?_⟩
    have slash : isSpace '/' = false ∧ isSymbol '/' = false ∧ isQuote '/' = false := by decide
    simp [Lexeme.read, slash, run]
  | blockComment body =>
    refine ⟨'/', '*' :: (body ++ '*' :: '/' :: after), by simp [source], ?_⟩
    have slash : isSpace '/' = false ∧ isSymbol '/' = false ∧ isQuote '/' = false := by decide
    simp [Lexeme.read, slash, splitCommentEnd_of_append complete]

theorem read_of_shows {shown : List Char} (shows : fault.Shows shown after) :
    ∃ c text, shown ++ after = c :: text ∧ Lexeme.read c text = .error fault := by
  have slash : isSpace '/' = false ∧ isSymbol '/' = false ∧ isQuote '/' = false := by decide
  cases shows with
  | backslash => exact ⟨'\\', after, rfl, rfl⟩
  | comment other =>
    refine ⟨'/', after, rfl, ?_⟩
    cases after with
    | nil => rfl
    | cons c after =>
      have next := other c rfl
      simp only [Lexeme.read, slash, Bool.false_eq_true, if_false, if_true]
      rw [if_neg (by decide)]
      split
      · rename_i same
        cases same
        exact absurd rfl next.1
      · rename_i same
        cases same
        exact absurd rfl next.2
      · rfl
  | @string quote _ opens endless =>
    have other := not_space_of_quote opens
    refine ⟨quote, after, rfl, ?_⟩
    have none : splitQuote quote after = none := by
      cases split : splitQuote quote after with
      | none => rfl
      | some found => exact absurd (splitQuote_eq_append split) (endless _ _ (quoted_of_splitQuote split))
    simp [Lexeme.read, other, opens, none]
  | block endless =>
    refine ⟨'/', '*' :: after, rfl, ?_⟩
    have none : splitCommentEnd after = none := by
      cases split : splitCommentEnd after with
      | none => rfl
      | some found => exact absurd ⟨found.1, found.2, by simp [splitCommentEnd_eq_append split]⟩ endless
    simp [Lexeme.read, slash, none]

end Lexeme

theorem Segments.of_read (source : List Char) : Segments source (Scan.read source).lexemes (Scan.read source).fault := by
  fun_induction Scan.read source with
  | case1 => exact .done
  | case2 c text fault read =>
    obtain ⟨shown, after, whole, shows⟩ := Lexeme.shows_of_read read
    rw [whole]
    exact .fault shows
  | case3 c text lexeme rest read scan ih =>
    rw [← Lexeme.read_source read]
    exact .cons (Lexeme.complete_of_read read) ih

/-- There is one way only in which a source falls into lexemes. -/
theorem segments_iff {source : List Char} {lexemes : List Lexeme} {fault : Option ScanFault} :
    Segments source lexemes fault ↔ Scan.read source = ⟨lexemes, fault⟩ := by
  constructor
  · intro segments
    induction segments with
    | done => simp [Scan.read]
    | fault shows =>
      obtain ⟨c, text, whole, read⟩ := Lexeme.read_of_shows shows
      rw [whole, Scan.read]
      split
      · rename_i found
        rw [read] at found
        cases found
        rfl
      · rename_i found
        rw [read] at found
        cases found
    | cons complete _ ih =>
      obtain ⟨c, text, whole, read⟩ := Lexeme.read_of_complete complete
      rw [whole, Scan.read]
      split
      · rename_i found
        rw [read] at found
        cases found
      · rename_i found
        rw [read] at found
        cases found
        rw [ih]
  · intro read
    have segments := Segments.of_read source
    rwa [read] at segments

end ProtoSchema
