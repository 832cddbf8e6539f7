import ProtoSchema.Proofs.Reader.Titles

namespace ProtoSchema

def Member.Declares : Member → Prop
  | .message _ _ | .enum _ | .extend _ _ => True
  | _ => False

def BodyHead.Declares : BodyHead → Prop
  | .group _ => False
  | _ => True

def Statement.Declares : Statement → Prop
  | .member declared => declared.Declares
  | _ => True

/-- Whether the outermost of some open bodies may stand at the top of a file. -/
def OutermostDeclares : List OpenBody → Prop
  | [] => True
  | [body] => body.head.Declares
  | _ :: next :: outer => OutermostDeclares (next :: outer)

def Site.Nested (site : Site) : Prop :=
  (∀ statement ∈ site.statements, statement.Declares) ∧ OutermostDeclares site.bodies

section Fits

variable (bodies : List OpenBody)

def Block.Fits : Block → Prop
  | .oneof _ => bodies ≠ []
  | .service _ => bodies = []
  | _ => True

def Titled.Fits : Titled → Prop
  | .oneof _ => bodies ≠ []
  | .service _ => bodies = []
  | _ => True

def Numbered.Fits : Numbered → Prop
  | .value _ _ => True
  | _ => bodies ≠ []

/-- A statement before its semicolon declares nothing. -/
def Statement.Fits : Statement → Prop
  | .dialect _ | .package _ | .imports _ => bodies = []
  | _ => False

/-- Whether an entry may be read inside some open bodies. -/
def Stage.Fits : Stage → Prop
  | .entry block | .skipped _ block => block.Fits bodies
  | .dialectEquals | .dialectValue | .packageName | .importKind _ _ | .importPath _ _ _ => bodies = []
  | .statementEnd statement => statement.Fits bodies
  | .title titled | .titleOpen titled _ => titled.Fits bodies
  | .extendee _ | .extendOpen _ => True
  | .fieldType _ _ | .mapWord _ | .mapKey _ | .mapComma _ _ | .mapValue _ _ | .mapClose _ _ _ => bodies ≠ []
  | .name decl | .equals decl _ | .number decl _ | .negative decl _ | .numbered decl _ _ | .options _ decl _ _
  | .finish decl _ _ => decl.Fits bodies
  | .method _ _ | .operandOpen _ _ | .operand _ _ | .streamWord _ _ | .operandClose _ _ _ | .returns _ _
  | .methodEnd _ _ | .methodBody _ _ => bodies = []

end Fits

-- The equations are made once, here, and not by each of the lemmas that unfold it.
attribute [simp] Stage.Fits.eq_1

structure Reader.Nested (r : Reader) : Prop where
  site : r.site.Nested
  stage : r.stage.Fits r.site.bodies

namespace Site.Nested

variable {site : Site}

theorem add {member : Member} (nested : site.Nested) (declares : site.bodies = [] → member.Declares) :
    (site.add member).Nested := by
  obtain ⟨statements, bodies⟩ := site
  obtain ⟨declared, outermost⟩ := nested
  cases bodies with
  | nil => exact ⟨List.forall_mem_append.2 ⟨declared, List.forall_mem_singleton.2 (declares rfl)⟩, trivial⟩
  | cons body outer => cases outer <;> exact ⟨declared, outermost⟩

theorem push {head : BodyHead} (nested : site.Nested) (declares : site.bodies = [] → head.Declares) :
    (site.push head).Nested := by
  obtain ⟨statements, bodies⟩ := site
  obtain ⟨declared, outermost⟩ := nested
  cases bodies with
  | nil => exact ⟨declared, declares rfl⟩
  | cons body outer => exact ⟨declared, outermost⟩

theorem addStatement {statement : Statement} (nested : site.Nested) (declares : statement.Declares) :
    (site.addStatement statement).Nested :=
  ⟨List.forall_mem_append.2 ⟨nested.1, List.forall_mem_singleton.2 declares⟩, nested.2⟩

theorem close {statements : List Statement} {body : OpenBody} {outer : List OpenBody}
    (nested : (Site.mk statements (body :: outer)).Nested) : ((Site.mk statements outer).add body.close).Nested := by
  obtain ⟨declared, outermost⟩ := nested
  obtain ⟨head, members⟩ := body
  cases outer with
  | nil =>
    refine add ⟨declared, trivial⟩ fun _ => ?_
    cases head with
    | message | extend => trivial
    | group => exact outermost
  | cons next outer => exact add ⟨declared, outermost⟩ nofun

end Site.Nested

namespace Reader

variable {t : Token} {site : Site} {stage next : Stage}

theorem nested_iff : Nested ⟨site, stage⟩ ↔ site.Nested ∧ stage.Fits site.bodies :=
  ⟨fun ⟨site, stage⟩ => ⟨site, stage⟩, fun ⟨site, stage⟩ => ⟨site, stage⟩⟩

theorem nested_afterType (comment : Option String) (cardinality : Cardinality) (type : String)
    (inside : site.bodies ≠ []) : (afterType comment cardinality type).Fits site.bodies := by
  unfold afterType
  split <;> exact inside

theorem nested_beginField (nested : site.Nested) (inside : site.bodies ≠ []) :
    Yields Nested (beginField ⟨site, stage⟩ t) := by
  unfold beginField
  cases cardinality? t with
  | some cardinality => exact Yields.go.2 ⟨nested, inside⟩
  | none => exact Yields.typeName ⟨nested, nested_afterType _ _ _ inside⟩

theorem nested_beginStatement (nested : site.Nested) (top : site.bodies = []) :
    Yields Nested (beginStatement ⟨site, .entry .site⟩ t) := by
  simp [beginStatement, nested_iff, nested, top, Stage.Fits, Block.Fits, Titled.Fits]

theorem nested_beginMember (nested : site.Nested) (inside : site.bodies ≠ []) :
    Yields Nested (beginMember ⟨site, .entry .site⟩ t) := by
  simp [beginMember, nested_iff, nested, inside, Stage.Fits, Block.Fits, Titled.Fits, nested_beginField]

theorem nested_beginExtensionField (nested : site.Nested) (inside : site.bodies ≠ []) :
    Yields Nested (beginExtensionField ⟨site, .entry .site⟩ t) := by
  simp [beginExtensionField, nested_iff, nested, inside, Stage.Fits, Block.Fits, nested_beginField]

theorem nested_beginSite (nested : site.Nested) : Yields Nested (beginSite ⟨site, .entry .site⟩ t) := by
  obtain ⟨statements, bodies⟩ := site
  cases bodies with
  | nil => exact nested_beginStatement nested rfl
  | cons body outer =>
    refine Yields.ite.2 ⟨fun _ => Yields.ok.2 ⟨nested.close, trivial⟩, fun _ => ?_⟩
    have inside : (Site.mk statements (body :: outer)).bodies ≠ [] := List.cons_ne_nil _ _
    split
    · exact nested_beginExtensionField nested inside
    · exact nested_beginMember nested inside

theorem nested_beginChoice {decl : OneofDecl} (nested : site.Nested) (inside : site.bodies ≠ []) :
    Yields Nested (beginChoice ⟨site, .entry (.oneof decl)⟩ decl t) := by
  have closed : (site.add (.oneof decl)).Nested := nested.add fun top => absurd top inside
  simp [beginChoice, nested_iff, nested, closed, inside, Stage.Fits, Block.Fits, Numbered.Fits]

theorem nested_beginValue {decl : EnumDecl} (nested : site.Nested) :
    Yields Nested (beginValue ⟨site, .entry (.enum decl)⟩ decl t) := by
  have closed : (site.add (.enum decl)).Nested := nested.add fun _ => trivial
  simp [beginValue, nested_iff, nested, closed, Stage.Fits, Block.Fits, Numbered.Fits]

theorem nested_beginMethod {decl : ServiceDecl} (nested : site.Nested) (top : site.bodies = []) :
    Yields Nested (beginMethod ⟨site, .entry (.service decl)⟩ decl t) := by
  have closed : (site.addStatement (.service decl)).Nested := nested.addStatement trivial
  simp [beginMethod, nested_iff, nested, closed, top, Stage.Fits, Block.Fits]

theorem nested_openTitled {titled : Titled} {name : String} (nested : site.Nested) (fits : titled.Fits site.bodies) :
    Nested (openTitled ⟨site, stage⟩ titled name) := by
  cases titled with
  | message mark => exact ⟨nested.push fun _ => trivial, trivial⟩
  | enum mark | oneof comment | service mark => exact ⟨nested, fits⟩

theorem nested_complete {numbered : Numbered} {name : String} {number : Int} (nested : site.Nested)
    (fits : numbered.Fits site.bodies) : Nested (complete ⟨site, stage⟩ numbered name number) := by
  cases numbered with
  | field | map => exact ⟨nested.add fun top => absurd top fits, trivial⟩
  | group => exact ⟨nested.push fun top => absurd top fits, trivial⟩
  | choice | value => exact ⟨nested, fits⟩

/-- Reading one token. -/
theorem nested_step (r : Reader) (t : Token) (nested : r.Nested) : Yields Nested (r.step t) := by
  obtain ⟨site, stage⟩ := r
  obtain ⟨nested, fits⟩ := nested
  cases stage with
  | entry block =>
    cases block with
    | site => exact nested_beginSite nested
    | oneof decl => exact nested_beginChoice nested fits
    | enum decl => exact nested_beginValue nested
    | service decl => exact nested_beginMethod nested fits
  | titleOpen titled name => simp [step, nested_openTitled nested fits]
  | fieldType comment cardinality => exact Yields.typeName ⟨nested, nested_afterType _ _ _ fits⟩
  | extendOpen head =>
    have opened : (site.push (.extend head)).Nested := nested.push fun _ => trivial
    simp [step, nested_iff, opened, Stage.Fits, Block.Fits]
  | statementEnd statement =>
    have declares : statement.Declares := by
      cases statement with
      | member => exact fits.elim
      | dialect | package | imports | service => trivial
    simp [step, nested_iff, nested.addStatement declares, Stage.Fits, Block.Fits]
  | numbered numbered name value => simp_all [step, nested_iff, nested_complete nested fits, Stage.Fits]
  | finish numbered name value => simp [step, nested_complete nested fits]
  | options depth numbered name value =>
    have fits : numbered.Fits site.bodies := fits
    by_cases outermost : depth ≤ 1 <;> simp [step, nested_iff, nested, fits, outermost, Stage.Fits]
  | methodBody depth service =>
    have top : site.bodies = [] := fits
    by_cases outermost : depth ≤ 1 <;> simp [step, nested_iff, nested, top, outermost, Stage.Fits, Block.Fits]
  | streamWord head side | operandClose head side =>
    cases side <;> simp_all [step, closeOperand, nested_iff, Stage.Fits]
  | skipped depth block => simp_all [step, skip, nested_iff, Stage.Fits]
  | _ => simp_all [step, nested_iff, Stage.Fits, Block.Fits, Statement.Fits, Numbered.Fits]

theorem nested_of_run {tokens : List Token} {r : Reader} (ran : start.run tokens = .ok r) : r.Nested := by
  induction tokens using List.reverseRecOn generalizing r with
  | nil =>
    cases ran
    exact ⟨⟨nofun, trivial⟩, trivial⟩
  | append_singleton tokens t ih =>
    obtain ⟨before, first, read⟩ := run_snoc ran
    exact nested_step before t (ih first) r read

end Reader

end ProtoSchema
