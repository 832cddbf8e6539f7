import ProtoSchema.Proofs.Reader.Bodies

namespace ProtoSchema

open Grammar Remainder Token
open Outline (Rest)

variable {t : Token} {us ts : List Token} {last : File} {o : Outline}

namespace Outline

theorem follow_declaration_first (follow : o.follow .declaration t ts last) :
    t.isAny ["message", "enum", "extend"] := by
  obtain ⟨us, content, rest, rfl, derives, -⟩ := follow
  cases derives with
  | message spelled => simp [isAny, spelled]
  | enum block =>
    cases block with
    | mk spelled => simp [isAny, spelled]
  | extend spelled => simp [isAny, spelled]

theorem follow_field_word (lexical : t.Lexical) (follow : o.follow .field t ts last) : t.kind = .word := by
  obtain ⟨us, content, rest, rfl, derives, -⟩ := follow
  obtain ⟨lead, vs, comment, cardinality, type, whole, begins, -⟩ := Reader.derives_field_iff.1 derives
  cases begins with
  | unmarked bare word =>
    cases whole
    exact word.1
  | @marked _ _ text _ listed spelled =>
    cases whole
    refine lexical.word_of_is spelled ?_
    have long : ∀ entry ∈ modifiers, entry.1.toList.length ≠ 1 := by decide
    exact long _ listed

theorem not_follow_declaration (other : t.isAny ["message", "enum", "extend"] = false) :
    ¬ o.follow .declaration t ts last := by
  intro follow
  rw [follow_declaration_first follow] at other
  cases other

theorem not_follow_field (lexical : t.Lexical) (other : t.kind ≠ .word) : ¬ o.follow .field t ts last :=
  fun follow => other (follow_field_word lexical follow)

end Outline

namespace Reader

variable {name : String} {site : Site}

theorem follow_members : (site.outline name).follow (.entry .members) t ts last ↔
    t.is ";" ∧ Rest (site.outline name) ts last ∨
      t.isAny ["option", "reserved", "extensions"] ∧ past (Skipped 0) (Rest (site.outline name)) ts last ∨
      (site.outline name).follow .declaration t ts last ∨
      t.is "oneof" ∧ stageRest name site (.title (.oneof t.comment)) ts last ∨
      t.is "map" ∧ one (·.is "<") (fun _ => one DottedName fun key => keyed name site t.comment key.text) ts last ∨
      ¬ t.isAny ["option", "reserved", "extensions", "message", "enum", "extend", "oneof"] ∧
        (site.outline name).follow .field t ts last := by
  constructor
  · rintro ⟨us, content, rest, rfl, derives, more⟩
    cases derives with
    | semicolon empty => exact Or.inl ⟨empty, by simpa using more⟩
    | skipped keyword ignored => exact Or.inr (Or.inl ⟨keyword, us, rest, rfl, ignored, by simpa using more⟩)
    | declared inner => exact Or.inr (Or.inr (Or.inl ⟨us, content, rest, rfl, inner, more⟩))
    | @oneof _ _ _ title _ fields block =>
      cases block with
      | @mk _ _ left right vs _ spelled identifier opens body closes =>
        refine Or.inr (Or.inr (Or.inr (Or.inl ⟨spelled, title, _, rfl, identifier, left, _, rfl, opens, ?_⟩)))
        exact ⟨vs, fields, right :: rest, by simp, body, right, rest, rfl, closes, more⟩
    | map entry =>
      cases entry with
      | @mk _ left key comma value right title vs n spelled opens keyed separates valued closes tail =>
        refine Or.inr (Or.inr (Or.inr (Or.inr (Or.inl ⟨spelled, left, _, rfl, opens, key, _, rfl, keyed, comma, _, rfl,
          separates, value, _, rfl, valued, right, _, rfl, closes, (named_iff _).2 ?_⟩))))
        refine ⟨vs, title, n, rest, rfl, tail, ?_⟩
        simpa [complete, Block.rest, Member.layout, MapDecl.layout, Content.ofField, Content.empty] using more
    | member other inner =>
      exact Or.inr (Or.inr (Or.inr (Or.inr (Or.inr ⟨other, us, content, rest, rfl, inner, more⟩))))
  · rintro (⟨empty, more⟩ | ⟨keyword, us, rest, rfl, ignored, more⟩ | ⟨us, content, rest, rfl, inner, more⟩ |
      ⟨spelled, title, _, rfl, identifier, left, _, rfl, opens, us, fields, _, rfl, body, right, rest, rfl, closes,
        more⟩ |
      ⟨spelled, left, _, rfl, opens, key, _, rfl, keyed, comma, _, rfl, separates, value, _, rfl, valued, right, _, rfl,
        closes, named⟩ |
      ⟨other, us, content, rest, rfl, inner, more⟩)
    · exact ⟨[], _, ts, rfl, .semicolon empty, by simpa using more⟩
    · exact ⟨us, _, rest, rfl, .skipped keyword ignored, by simpa using more⟩
    · exact ⟨us, content, rest, rfl, .declared inner, more⟩
    · exact ⟨title :: left :: (us ++ [right]), _, rest, by simp, .oneof (.mk spelled identifier opens body closes), more⟩
    · obtain ⟨us, title, n, rest, rfl, tail, more⟩ := (named_iff _).1 named
      refine ⟨left :: key :: comma :: value :: right :: us, _, rest, by simp,
        .map (.mk spelled opens keyed separates valued closes tail), ?_⟩
      simpa [complete, Block.rest, Member.layout, MapDecl.layout, Content.ofField, Content.empty] using more
    · exact ⟨us, content, rest, rfl, .member other inner, more⟩

theorem leads_beginMember (lexical : t.Lexical) : (site.outline name).follow (.entry .members) t ts last ↔
    Leads name (beginMember ⟨site, .entry .site⟩ t) ts last := by
  have noDeclaration (other : t.isAny ["message", "enum", "extend"] = false) :
      ¬ (site.outline name).follow .declaration t ts last := Outline.not_follow_declaration other
  rw [follow_members]
  unfold beginMember
  by_cases empty : t.is ";"
  · have noField : ¬ (site.outline name).follow .field t ts last :=
      Outline.not_follow_field lexical (lexical.not_word_of_is empty rfl)
    simp [is_eq empty, isAny, noField, noDeclaration, rest, stageRest, Block.rest]
  by_cases option : t.is "option"
  · simp [is_eq option, isAny, noDeclaration, stageRest, Block.rest]
  by_cases reserved : t.is "reserved"
  · simp [is_eq reserved, isAny, noDeclaration, stageRest, Block.rest]
  by_cases extensions : t.is "extensions"
  · simp [is_eq extensions, isAny, noDeclaration, stageRest, Block.rest]
  by_cases message : t.is "message"
  · simp [is_eq message, isAny, follow_message message]
  by_cases enum : t.is "enum"
  · simp [is_eq enum, isAny, follow_enum enum]
  by_cases extend : t.is "extend"
  · simp [is_eq extend, isAny, follow_extend extend]
  by_cases oneof : t.is "oneof"
  · simp [is_eq oneof, isAny, noDeclaration]
  by_cases map : t.is "map"
  · have text := (is_iff.1 map).2
    have word : DottedName t := ⟨lexical.word_of_is map (by decide), by rw [text]; rfl⟩
    simp [is_eq map, isAny, noDeclaration, follow_field (.entry .site), beginField, cardinality?, afterType_eq, typed,
      text, word, stageRest]
  by_cases word : t.kind = .word
  · simp [empty, option, reserved, extensions, message, enum, extend, oneof, map, word, isAny, noDeclaration,
      follow_field (.entry .site)]
  · have noField : ¬ (site.outline name).follow .field t ts last := Outline.not_follow_field lexical word
    simp [empty, option, reserved, extensions, message, enum, extend, oneof, map, word, isAny, noDeclaration, noField]

theorem leads_beginExtensionField (lexical : t.Lexical) : (site.outline name).follow (.entry .extension) t ts last ↔
    Leads name (beginExtensionField ⟨site, .entry .site⟩ t) ts last := by
  have unfolded : (site.outline name).follow (.entry .extension) t ts last ↔
      t.is ";" ∧ Rest (site.outline name) ts last ∨ (site.outline name).follow .field t ts last := by
    constructor
    · rintro ⟨us, content, rest, rfl, derives, more⟩
      cases derives with
      | semicolon empty => exact Or.inl ⟨empty, by simpa using more⟩
      | extended inner => exact Or.inr ⟨us, content, rest, rfl, inner, more⟩
    · rintro (⟨empty, more⟩ | ⟨us, content, rest, rfl, inner, more⟩)
      · exact ⟨[], _, ts, rfl, .semicolon empty, by simpa using more⟩
      · exact ⟨us, content, rest, rfl, .extended inner, more⟩
  rw [unfolded]
  unfold beginExtensionField
  by_cases empty : t.is ";"
  · have noField : ¬ (site.outline name).follow .field t ts last :=
      Outline.not_follow_field lexical (lexical.not_word_of_is empty rfl)
    simp [empty, noField, rest, stageRest, Block.rest]
  by_cases word : t.kind = .word
  · simp [empty, word, follow_field (.entry .site)]
  · have noField : ¬ (site.outline name).follow .field t ts last := Outline.not_follow_field lexical word
    simp [empty, word, noField]

theorem not_follow_entry {body : Body} (lexical : t.Lexical) (right : t.is "\x7d") :
    ¬ (site.outline name).follow (.entry body) t ts last := by
  have symbol : t.kind ≠ .word := lexical.not_word_of_is right rfl
  cases body with
  | members =>
    rw [leads_beginMember lexical]
    simp [beginMember, is_eq right, symbol]
  | extension =>
    rw [leads_beginExtensionField lexical]
    simp [beginExtensionField, is_eq right, symbol]

theorem rest_cons_body (lexical : t.Lexical) (statements : List Statement) (body : OpenBody) (outer : List OpenBody) :
    rest name ⟨⟨statements, body :: outer⟩, .entry .site⟩ (t :: ts) last ↔
      Leads name (beginSite ⟨⟨statements, body :: outer⟩, .entry .site⟩ t) ts last := by
  have closed : ((Site.mk statements outer).add body.close).outline name =
      ((Site.mk statements outer).outline name).add (body.close.layout _ _) :=
    Site.outline_add name _ _
  have opened : (Site.mk statements (body :: outer)).outline name =
      (((Site.mk statements outer).outline name).push body.head).add (layoutAll _ _ body.members) := rfl
  rw [Outline.add_push] at opened
  have split : Rest ((Site.mk statements (body :: outer)).outline name) (t :: ts) last ↔
      t.is "\x7d" ∧ Rest (((Site.mk statements outer).add body.close).outline name) ts last ∨
        ((Site.mk statements (body :: outer)).outline name).follow (.entry body.head.body) t ts last := by
    rw [closed, body.layout_close, opened]
    exact rest_frame
  show Rest ((Site.mk statements (body :: outer)).outline name) (t :: ts) last ↔ _
  rw [split]
  unfold beginSite
  by_cases right : t.is "\x7d"
  · simp [right, not_follow_entry lexical right, rest, stageRest, Block.rest]
  · obtain ⟨head, members⟩ := body
    cases head with
    | message | group => simp [right, BodyHead.body, leads_beginMember lexical]
    | extend => simp [right, BodyHead.body, leads_beginExtensionField lexical]

theorem follow_toplevel (statements : List Statement) :
    Rest ((Site.mk statements []).outline name) (t :: ts) last ↔
      t.is ";" ∧ Rest ((Site.mk statements []).outline name) ts last ∨
        t.is "option" ∧ past (Skipped 0) (Rest ((Site.mk statements []).outline name)) ts last ∨
        t.is "syntax" ∧ stageRest name ⟨statements, []⟩ .dialectEquals ts last ∨
        t.is "package" ∧ stageRest name ⟨statements, []⟩ .packageName ts last ∨
        t.is "import" ∧ stageRest name ⟨statements, []⟩ (.importKind t.line t.span.start) ts last ∨
        t.is "service" ∧ stageRest name ⟨statements, []⟩ (.title (.service t.mark)) ts last ∨
        ((Site.mk statements []).outline name).follow .declaration t ts last := by
  have leaves (statement : Statement) : settled name ⟨(Site.mk statements []).addStatement statement, .entry .site⟩ =
      Rest ⟨statement.leave (File.ofStatements name statements), []⟩ := by
    rw [← File.ofStatements_append]
    rfl
  have top : (Site.mk statements []).outline name = ⟨File.ofStatements name statements, []⟩ := rfl
  rw [top, rest_top]
  simp only [stageRest, ends, leaves]
  constructor
  · rintro ⟨us, next, rest, rfl, first, more⟩
    cases first with
    | semicolon empty => exact Or.inl ⟨empty, more⟩
    | skipped keyword ignored => exact Or.inr (Or.inl ⟨keyword, us, rest, rfl, ignored, more⟩)
    | dialect spelled assigns quoted ends =>
      exact Or.inr (Or.inr (Or.inl ⟨spelled, _, _, rfl, assigns, _, _, rfl, quoted, _, _, rfl, ends, more⟩))
    | package spelled named ends =>
      exact Or.inr (Or.inr (Or.inr (Or.inl ⟨spelled, _, _, rfl, named, _, _, rfl, ends, more⟩)))
    | @imports _ path last vs kind spelled marked quoted ends =>
      exact Or.inr (Or.inr (Or.inr (Or.inr (Or.inl ⟨spelled, vs, kind, path :: last :: rest, by simp, marked, _, _, rfl,
        quoted, _, _, rfl, ends, more⟩))))
    | @service _ title _ methods block =>
      cases block with
      | @mk _ _ left right vs _ spelled identifier opens body closes =>
        refine Or.inr (Or.inr (Or.inr (Or.inr (Or.inr (Or.inl
          ⟨spelled, title, _, rfl, identifier, left, _, rfl, opens, ?_⟩)))))
        exact ⟨vs, methods, right :: rest, by simp, body, right, rest, rfl, closes, more⟩
    | declared inner => exact Or.inr (Or.inr (Or.inr (Or.inr (Or.inr (Or.inr ⟨us, _, rest, rfl, inner, more⟩)))))
  · rintro (⟨empty, more⟩ | ⟨keyword, us, rest, rfl, ignored, more⟩ |
      ⟨spelled, _, _, rfl, assigns, _, _, rfl, quoted, _, rest, rfl, ends, more⟩ |
      ⟨spelled, _, _, rfl, named, _, rest, rfl, ends, more⟩ |
      ⟨spelled, us, kind, _, rfl, marked, path, _, rfl, quoted, stop, rest, rfl, ends, more⟩ |
      ⟨spelled, title, _, rfl, identifier, left, _, rfl, opens, us, methods, _, rfl, body, right, rest, rfl, closes,
        more⟩ |
      ⟨us, content, rest, rfl, inner, more⟩)
    · exact ⟨[], _, ts, rfl, .semicolon empty, more⟩
    · exact ⟨us, _, rest, rfl, .skipped keyword ignored, more⟩
    · exact ⟨[_, _, _], _, rest, rfl, .dialect spelled assigns quoted ends, more⟩
    · exact ⟨[_, _], _, rest, rfl, .package spelled named ends, more⟩
    · exact ⟨us ++ [path, stop], _, rest, by simp, .imports spelled marked quoted ends, more⟩
    · exact ⟨title :: left :: (us ++ [right]), _, rest, by simp, .service (.mk spelled identifier opens body closes), more⟩
    · exact ⟨us, _, rest, rfl, .declared inner, more⟩

theorem rest_cons_top (statements : List Statement) :
    rest name ⟨⟨statements, []⟩, .entry .site⟩ (t :: ts) last ↔
      Leads name (beginSite ⟨⟨statements, []⟩, .entry .site⟩ t) ts last := by
  have noDeclaration (other : t.isAny ["message", "enum", "extend"] = false) :
      ¬ ((Site.mk statements []).outline name).follow .declaration t ts last := Outline.not_follow_declaration other
  show Rest ((Site.mk statements []).outline name) (t :: ts) last ↔ _
  rw [follow_toplevel]
  unfold beginSite beginStatement
  by_cases empty : t.is ";"
  · simp [is_eq empty, noDeclaration, isAny, rest, stageRest, Block.rest]
  by_cases dialect : t.is "syntax"
  · simp [is_eq dialect, noDeclaration, isAny]
  by_cases package : t.is "package"
  · simp [is_eq package, noDeclaration, isAny]
  by_cases imports : t.is "import"
  · simp [is_eq imports, noDeclaration, isAny]
  by_cases option : t.is "option"
  · simp [is_eq option, noDeclaration, isAny, stageRest, Block.rest]
  by_cases message : t.is "message"
  · simp [is_eq message, follow_message message]
  by_cases enum : t.is "enum"
  · simp [is_eq enum, follow_enum enum]
  by_cases service : t.is "service"
  · simp [is_eq service, noDeclaration, isAny]
  by_cases extend : t.is "extend"
  · simp [is_eq extend, follow_extend extend]
  · simp [empty, dialect, package, imports, option, message, enum, service, extend, noDeclaration, isAny]

/-- What the grammar demands, less its first token, is what it demands after a step of the reader. -/
theorem rest_cons (r : Reader) (lexical : t.Lexical) :
    r.rest name (t :: ts) last ↔ Leads name (r.step t) ts last := by
  obtain ⟨site, stage⟩ := r
  cases stage with
  | entry block =>
    cases block with
    | site =>
      obtain ⟨statements, bodies⟩ := site
      cases bodies with
      | nil => exact rest_cons_top statements
      | cons body outer => exact rest_cons_body lexical statements body outer
    | oneof decl => exact rest_cons_choice decl lexical
    | enum decl => exact rest_cons_value decl lexical
    | service decl => exact rest_cons_rpc decl lexical
  | skipped depth block => exact rest_cons_skipped depth block
  | importKind line start => exact rest_cons_importKind line start
  | mapWord comment => exact rest_cons_mapWord comment
  | number numbered title => exact rest_cons_number numbered title
  | numbered numbered title value => exact rest_cons_numbered numbered title value
  | options depth numbered title value => exact rest_cons_options depth numbered title value
  | operand head side => exact rest_cons_operand head side lexical
  | streamWord head side => exact rest_cons_streamWord head side
  | methodEnd service decl => exact rest_cons_methodEnd service decl
  | methodBody depth service => exact rest_cons_methodBody depth service
  | dialectValue => by_cases quoted : t.kind = .string <;> simp [rest, stageRest, step, quoted]
  | importPath line start kind => by_cases quoted : t.kind = .string <;> simp [rest, stageRest, step, quoted]
  | statementEnd statement =>
    show ends name site statement (t :: ts) last ↔ _
    by_cases stop : t.is ";" <;> simp [step, ends, stop]
    rfl
  | titleOpen titled title =>
    show opens name site titled title (t :: ts) last ↔ _
    by_cases left : t.is "\x7b" <;> simp [step, opens, left, rest_openTitled]
  | extendOpen head =>
    show extension name site head (t :: ts) last ↔ _
    by_cases left : t.is "\x7b" <;> simp [step, extension, left]
    rfl
  | finish numbered title value =>
    show finished name site numbered title value (t :: ts) last ↔ _
    by_cases stop : t.is (terminator numbered) <;> simp [step, finished, stop, rest_complete]
  | fieldType comment cardinality => simp [rest, stageRest, step, afterType_eq]
  | operandClose head side operand =>
    simp only [rest, step, leads_exactly, rest_closeOperand]
    exact one_cons _ _
  | name numbered => simp [rest, stageRest, step, named]
  | mapComma comment key => simp [rest, stageRest, step, keyed]
  | returns head input => simp [rest, stageRest, step, sided]
  | dialectEquals | packageName | title | extendee | mapKey | mapValue | mapClose | equals | negative | method
  | operandOpen => simp [rest, stageRest, step]

end Reader

end ProtoSchema
