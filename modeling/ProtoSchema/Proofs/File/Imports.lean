import ProtoSchema.Proofs.Reader.Accepts
import ProtoSchema.Proofs.Token.Slices

namespace ProtoSchema

open Grammar
open Text (byteLength)

/-- The keyword behind `import`, if there is one. -/
def ImportKind.keyword? : ImportKind → Option String
  | .plain => none
  | .weak => some "weak"
  | .reexported => some "public"

/-- What the tokens of an import statement say, up to the path. -/
def Import.spelling (item : Import) : List (TokenKind × String) :=
  (.word, "import") :: (item.kind.keyword?.toList.map (Prod.mk .word) ++ [(.string, item.path)])

/-- Whether an import marks its statement in the text of its file: the text at its span has the tokens of the statement
and no others, and its line is the one on which that text begins. -/
def Import.Marks (item : Import) (source : List Char) : Prop :=
  ∃ before text after tokens, source = before ++ text ++ after ∧
    item.span = ⟨byteLength before, byteLength (before ++ text)⟩ ∧ item.line = before.count '\n' + 1 ∧
    scanTokens text = .ok tokens ∧ tokens.map Token.spelling = item.spelling

/-- Whether an import begins and ends before another one begins. -/
def Import.Before (item later : Import) : Prop :=
  item.span.start < item.span.stop ∧ item.span.stop ≤ later.span.start

namespace Grammar

variable {file next last : File} {ts us : List Token} {items : List Import}

/-- The imports that statements among some tokens make, in their order. -/
inductive States : List Token → List Import → Prop
  | nil {ts : List Token} : States ts []
  | skip {us ts : List Token} {items : List Import} (rest : States ts items) : States (us ++ ts) items
  | item {keyword path : Token} {marks ts : List Token} {kind : ImportKind} {items : List Import}
      (spelled : keyword.is "import") (marked : Kind marks kind) (quoted : path.kind = .string)
      (rest : States ts items) :
      States (keyword :: (marks ++ path :: ts))
        (⟨path.text, kind, keyword.line, ⟨keyword.span.start, path.span.stop⟩⟩ :: items)

theorem Toplevel.states (top : Toplevel file us next) (rest : States ts items) :
    ∃ more, next.imports = file.imports ++ more ∧ States (us ++ ts) (more ++ items) := by
  cases top with
  | @imports keyword path last marks kind spelled marked quoted ends =>
    have behind : States ([last] ++ ts) items := .skip rest
    have stated := States.item spelled marked quoted behind
    exact ⟨_, rfl, by simpa using stated⟩
  | _ => exact ⟨[], by simp [File.add], rest.skip⟩

theorem Statements.states (statements : Statements file ts last) :
    ∃ items, last.imports = file.imports ++ items ∧ States ts items := by
  induction statements with
  | nil => exact ⟨[], by simp, .nil⟩
  | cons first _ ih =>
    obtain ⟨items, later, stated⟩ := ih
    obtain ⟨more, here, whole⟩ := first.states stated
    exact ⟨more ++ items, by rw [later, here, List.append_assoc], whole⟩

theorem States.start_mem (states : States ts items) :
    ∀ item ∈ items, ∃ t ∈ ts, item.span.start = t.span.start := by
  induction states with
  | nil => exact List.forall_mem_nil _
  | skip _ ih =>
    intro item member
    obtain ⟨t, there, same⟩ := ih item member
    exact ⟨t, List.mem_append_right _ there, same⟩
  | @item keyword path marks ts kind items _ _ _ _ ih =>
    intro item member
    rcases List.mem_cons.1 member with rfl | later
    · exact ⟨keyword, List.mem_cons_self, rfl⟩
    · obtain ⟨t, there, same⟩ := ih item later
      exact ⟨t, by simp [there], same⟩

/-- Statements come one behind another, as their tokens do. -/
theorem States.pairwise (states : States ts items) (apart : ts.Pairwise fun t u => t.span.stop ≤ u.span.start)
    (wide : ∀ t ∈ ts, t.span.start < t.span.stop) : items.Pairwise Import.Before := by
  induction states with
  | nil => exact .nil
  | skip _ ih =>
    exact ih (List.pairwise_append.1 apart).2.1 fun t member => wide t (List.mem_append_right _ member)
  | @item keyword path marks ts kind items _ _ _ rest ih =>
    -- The statement ends with its path, and a later one begins with a token behind that.
    obtain ⟨first, behind⟩ := List.pairwise_cons.1 apart
    obtain ⟨last, later⟩ := List.pairwise_cons.1 (List.pairwise_append.1 behind).2.1
    have here := wide keyword List.mem_cons_self
    have there := wide path (by simp)
    have between := first path (by simp)
    refine .cons ?_ (ih later fun t member => wide t (by simp [member]))
    intro item member
    obtain ⟨t, isLater, same⟩ := rest.start_mem item member
    have bound := last t isLater
    unfold Import.Before
    simp only
    omega

theorem States.exists_tokens (states : States ts items) {item : Import} (member : item ∈ items) :
    ∃ front keyword marks path back, ts = front ++ keyword :: (marks ++ path :: back) ∧ keyword.is "import" ∧
      Kind marks item.kind ∧ path.kind = .string ∧ item.path = path.text ∧ item.line = keyword.line ∧
      item.span = ⟨keyword.span.start, path.span.stop⟩ := by
  induction states with
  | nil => contradiction
  | @skip us _ _ _ ih =>
    obtain ⟨front, keyword, marks, path, back, rfl, stated⟩ := ih member
    exact ⟨us ++ front, keyword, marks, path, back, by simp, stated⟩
  | @item keyword path marks ts kind items spelled marked quoted _ ih =>
    rcases List.mem_cons.1 member with rfl | later
    · exact ⟨[], keyword, marks, path, ts, rfl, spelled, marked, quoted, rfl, rfl, rfl⟩
    · obtain ⟨front, first, others, last, back, rfl, stated⟩ := ih later
      exact ⟨keyword :: (marks ++ path :: front), first, others, last, back, by simp, stated⟩

end Grammar

/-- A keyword is a word, as no symbol is spelled with several characters. -/
theorem Token.Lexical.spelling_of_is {t : Token} {text : String} (lexical : t.Lexical) (spelled : t.is text)
    (long : text.toList.length ≠ 1) : t.spelling = (.word, text) :=
  Prod.ext (lexical.word_of_is spelled long) (Token.is_iff.1 spelled).2

theorem Grammar.Kind.map_spelling {marks : List Token} {kind : ImportKind} (marked : Kind marks kind)
    (lexical : ∀ t ∈ marks, t.Lexical) : marks.map Token.spelling = kind.keyword?.toList.map (Prod.mk .word) := by
  cases marked with
  | plain => rfl
  | weak spelled | reexported spelled =>
    have one := (lexical _ (List.mem_singleton_self _)).spelling_of_is spelled (by decide)
    exact congrArg (fun spelling => [spelling]) one

/-- Every import of a file that has been parsed marks its statement, and the imports come one behind another. -/
theorem parse_marks {name source : String} {file : File} (parsed : parse name source = .ok file) :
    (∀ item ∈ file.imports, item.Marks source.toList) ∧ file.imports.Pairwise Import.Before := by
  obtain ⟨tokens, scanned, schema⟩ := parse_eq_ok_iff.1 parsed
  obtain ⟨items, same, states⟩ := Statements.states schema
  rw [File.named, List.nil_append] at same
  rw [same]
  have tiles := scanTokens_tiles scanned
  constructor
  · intro item member
    obtain ⟨front, keyword, marks, path, back, rfl, spelled, marked, quoted, stated, line, span⟩ :=
      states.exists_tokens member
    obtain ⟨before, text, after, inner, whole, start, lines, stop, cut, told⟩ := scanTokens_slice scanned
    have lexical := scanTokens_lexical scanned
    have first := (lexical keyword (by simp)).spelling_of_is spelled (by decide)
    have between := marked.map_spelling fun t member => lexical t (by simp [member])
    have last : path.spelling = (.string, item.path) := Prod.ext quoted stated.symm
    refine ⟨before, text, after, inner, whole, by rw [span, start, stop], by rw [line, lines], cut, ?_⟩
    rw [told, List.map_cons, List.map_append, first, between, List.map_singleton, last]
    rfl
  · refine states.pairwise tiles.apart fun t member => ?_
    obtain ⟨_, _, _, _, _, wide, _⟩ := tiles.slice t member
    exact wide

end ProtoSchema
