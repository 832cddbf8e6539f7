import ProtoSchema.Proofs.Reader.Within

namespace ProtoSchema

open Grammar Remainder Token
open Outline (Rest)

namespace Reader

variable {name : String} {site : Site} {t : Token} {ts : List Token} {file : File}

theorem named_iff (numbered : Numbered) : named name site numbered ts file ↔
    ∃ us title n rest, ts = us ++ rest ∧ Tail (allowsNegative numbered) (terminator numbered) us title n ∧
      settled name (complete ⟨site, .entry .site⟩ numbered title.text n) rest file := by
  constructor
  · rintro ⟨title, _, rfl, identifier, equals, _, rfl, assigns, us, n, _, rfl, value, os, _, rfl, ignored,
      last, rest, rfl, ends, more⟩
    exact ⟨_, title, n, rest, by simp, .mk identifier assigns value ignored ends, more⟩
  · rintro ⟨_, title, n, rest, rfl, tail, more⟩
    cases tail with
    | @mk _ equals last us os _ identifier assigns value ignored ends =>
      exact ⟨title, _, rfl, identifier, equals, us ++ (os ++ last :: rest), by simp, assigns, us, n, _, rfl, value,
        os, _, rfl, ignored, last, rest, rfl, ends, more⟩

theorem rest_cons_choice (decl : OneofDecl) (lexical : t.Lexical) :
    rest name ⟨site, .entry (.oneof decl)⟩ (t :: ts) file ↔
      Leads name (beginChoice ⟨site, .entry (.oneof decl)⟩ decl t) ts file := by
  have begins (us : List Token) (x : SimpleField) : Choice (site.outline name).scope (t :: us) x → t.kind = .word := by
    rintro ⟨typed, _⟩
    exact typed.1
  simp only [rest, stageRest, Block.rest]
  rw [phrase_closed lexical begins (by decide)]
  unfold beginChoice
  by_cases right : t.is "\x7d"
  · simp [right, rest, stageRest, Block.rest, Member.layout, OneofDecl.layout]
  by_cases empty : t.is ";"
  · simp [right, empty, rest, stageRest, Block.rest]
  by_cases keyword : t.is "option"
  · simp [right, empty, keyword, isAny, stageRest, Block.rest]
  by_cases word : t.kind = .word
  · simp [right, empty, keyword, word, isAny, stageRest, named_iff]
    constructor
    · rintro ⟨us, _, vs, rfl, ⟨typed, tail⟩, more⟩
      refine ⟨typed, us, _, _, vs, rfl, tail, ?_⟩
      simpa [complete, Block.rest, FieldDecl.layout] using more
    · rintro ⟨typed, us, title, n, vs, rfl, tail, more⟩
      refine ⟨us, _, vs, rfl, .mk typed tail, ?_⟩
      simpa [complete, Block.rest, FieldDecl.layout] using more
  · simp [right, empty, keyword, word, isAny]
    rintro ⟨us, x, vs, rfl, choice, _⟩
    exact word (begins us x choice)

theorem rest_cons_value (decl : EnumDecl) (lexical : t.Lexical) :
    rest name ⟨site, .entry (.enum decl)⟩ (t :: ts) file ↔
      Leads name (beginValue ⟨site, .entry (.enum decl)⟩ decl t) ts file := by
  have begins (us : List Token) (x : EnumValue) : Value (t :: us) x → t.kind = .word := by
    rintro ⟨⟨identifier⟩⟩
    exact identifier.1
  simp only [rest, stageRest, Block.rest]
  rw [phrase_closed lexical begins (by decide)]
  unfold beginValue
  by_cases right : t.is "\x7d"
  · simp [right, rest, stageRest, Block.rest, Member.layout]
  by_cases empty : t.is ";"
  · simp [right, empty, rest, stageRest, Block.rest]
  by_cases option : t.is "option"
  · simp [right, empty, option, isAny, stageRest, Block.rest]
  by_cases reserved : t.is "reserved"
  · simp [right, empty, option, reserved, isAny, stageRest, Block.rest]
  by_cases word : t.kind = .word
  · simp only [right, empty, option, reserved, word, isAny, stageRest, leads_identifier, Bool.false_eq_true, if_false,
      Bool.or_self, if_true, List.any_cons, List.any_nil]
    have spelled : named name site (.value decl t.comment) (t :: ts) file ↔
        Identifier t ∧ one (·.is "=") (fun _ => valued name site (.value decl t.comment) t.text) ts file :=
      one_cons _ _
    rw [← spelled, named_iff]
    constructor
    · rintro ⟨us, _, vs, rfl, ⟨tail⟩, more⟩
      cases tail with
      | mk identifier assigns value ignored ends =>
        refine ⟨_, t, _, vs, rfl, .mk identifier assigns value ignored ends, ?_⟩
        simpa [complete, Block.rest] using more
    · rintro ⟨_, title, n, vs, whole, tail, more⟩
      cases tail with
      | mk identifier assigns value ignored ends =>
        cases whole
        refine ⟨_, _, vs, rfl, .mk (.mk identifier assigns value ignored ends), ?_⟩
        simpa [complete, Block.rest] using more
  · simp [right, empty, option, reserved, word, isAny]
    rintro ⟨us, x, vs, rfl, choice, _⟩
    exact word (begins us x choice)

theorem rest_cons_rpc (decl : ServiceDecl) (lexical : t.Lexical) :
    rest name ⟨site, .entry (.service decl)⟩ (t :: ts) file ↔
      Leads name (beginMethod ⟨site, .entry (.service decl)⟩ decl t) ts file := by
  have begins (us : List Token) (x : Method) : Rpc (t :: us) x → t.kind = .word := by
    rintro ⟨spelled⟩
    exact lexical.word_of_is spelled (by decide)
  simp only [rest, stageRest, Block.rest]
  rw [phrase_closed lexical begins (by decide)]
  unfold beginMethod
  by_cases right : t.is "\x7d"
  · have same : (Statement.leave (site.outline name).file (.service decl)).room = (site.outline name).file.room := rfl
    simp [right, rest, stageRest, Block.rest, site.outline_addStatement name same, Statement.leave, ServiceDecl.layout]
  by_cases empty : t.is ";"
  · simp [right, empty, rest, stageRest, Block.rest]
  by_cases option : t.is "option"
  · simp [right, empty, option, isAny, stageRest, Block.rest]
  by_cases rpc : t.is "rpc"
  · simp [right, empty, option, rpc, isAny, stageRest]
    constructor
    · rintro ⟨us, _, vs, rfl, method, more⟩
      cases method with
      | @mk _ title left returns again taken given ends input output _ identifier opens takes between reopens gives
          ending =>
        refine ⟨title, _, rfl, identifier, left, _, rfl, opens, taken, input, returns :: again :: (given ++ (ends ++ vs)),
          by simp, takes, returns, _, rfl, between, again, _, rfl, reopens, given, output, _, rfl, gives, ends, vs,
          rfl, ending, ?_⟩
        simpa [addMethod, Block.rest, MethodDecl.layout, OperandDecl.layout] using more
    · rintro ⟨title, _, rfl, identifier, _, _, rfl, opens, taken, input, _, rfl, takes, returns, _, rfl, between,
        _, _, rfl, reopens, given, output, _, rfl, gives, ends, vs, rfl, ending, more⟩
      refine ⟨_, _, vs, by simp, .mk rpc identifier opens takes between reopens gives ending, ?_⟩
      simpa [addMethod, Block.rest, MethodDecl.layout, OperandDecl.layout] using more
  · simp [right, empty, option, rpc, isAny]
    rintro ⟨us, x, vs, rfl, ⟨spelled⟩, _⟩
    exact rpc spelled

end Reader

end ProtoSchema
