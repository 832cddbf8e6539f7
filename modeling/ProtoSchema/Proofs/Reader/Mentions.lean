import ProtoSchema.File.Basic
import ProtoSchema.Proofs.Reader.Nested
import ProtoSchema.Proofs.Token.Lexical

namespace ProtoSchema

/-- A reference to a type, and how many extensions of its scope it is inside of. The extended type is inside as well. -/
structure Mention where
  ref : TypeRef
  extensions : Nat
deriving DecidableEq, Repr

/-- Where a member stands: its scope, the number of messages that have been begun before it, and how many extensions of
its scope it is inside of. -/
structure Position where
  scope : Scope
  messages : Nat
  extensions : Nat
deriving DecidableEq, Repr

def Title.messages (titles : List Title) : Nat :=
  titles.countP fun title => title.table == .messages

namespace Position

/-- The top of a file, before anything is declared. -/
def start : Position :=
  ⟨.file, 0, 0⟩

/-- The position after some declarations in the same body. -/
def after (p : Position) (titles : List Title) : Position :=
  { p with messages := p.messages + Title.messages titles }

/-- The beginning of a body. The places of messages are given to them in the order of their keywords. -/
def within (p : Position) : BodyHead → Position
  | .message _ => ⟨.message ⟨p.messages⟩, p.messages + 1, 0⟩
  | .group _ => p
  | .extend _ => { p with extensions := p.extensions + 1 }

def mention (p : Position) (type : String) : Mention :=
  ⟨⟨type, p.scope⟩, p.extensions⟩

variable (p : Position)

@[simp] theorem after_nil : p.after [] = p := rfl

@[simp] theorem after_after (a b : List Title) : (p.after a).after b = p.after (a ++ b) := by
  simp [after, Title.messages, Nat.add_assoc]

@[simp] theorem mention_after (titles : List Title) : (p.after titles).mention = p.mention := rfl

end Position

section Mentions

variable (p : Position)

def OneofDecl.mentions (decl : OneofDecl) : List Mention :=
  decl.fields.map fun field => p.mention field.type

def MethodDecl.mentions (decl : MethodDecl) : List Mention :=
  [p.mention decl.input.type, p.mention decl.output.type]

def ServiceDecl.mentions (decl : ServiceDecl) : List Mention :=
  decl.methods.flatMap (MethodDecl.mentions p)

def BodyHead.mentions (head : BodyHead) : List Mention :=
  match head with
  | .extend extension => [(p.within head).mention extension.extendee]
  | _ => []

mutual

/-- The types that a member refers to, in the order they are written. -/
def Member.mentions (p : Position) : Member → List Mention
  | .field field => [p.mention field.type]
  | .oneof decl => decl.mentions p
  | .map map => [p.mention map.key, p.mention map.value]
  | .group head body => (BodyHead.group head).mentions p ++ mentionsOfAll (p.within (.group head)) body
  | .message head body => (BodyHead.message head).mentions p ++ mentionsOfAll (p.within (.message head)) body
  | .enum _ => []
  | .extend head body => (BodyHead.extend head).mentions p ++ mentionsOfAll (p.within (.extend head)) body

def mentionsOfAll (p : Position) : List Member → List Mention
  | [] => []
  | member :: rest => member.mentions p ++ mentionsOfAll (p.after member.titles) rest

end

def Statement.mentions : Statement → List Mention
  | .member declared => declared.mentions p
  | .service decl => decl.mentions p
  | _ => []

def mentionsOfStatements (p : Position) : List Statement → List Mention
  | [] => []
  | statement :: rest => statement.mentions p ++ mentionsOfStatements (p.after statement.titles) rest

def OpenBody.mentions (body : OpenBody) : List Mention :=
  body.head.mentions p ++ mentionsOfAll (p.within body.head) body.members

end Mentions

/-- Where the next member stands, behind some statements and in some open bodies. -/
def positionIn (statements : List Statement) : List OpenBody → Position
  | [] => Position.start.after (statements.flatMap Statement.titles)
  | body :: outer => ((positionIn statements outer).within body.head).after (titlesOfAll body.members)

def mentionsIn (statements : List Statement) : List OpenBody → List Mention
  | [] => mentionsOfStatements .start statements
  | body :: outer => mentionsIn statements outer ++ body.mentions (positionIn statements outer)

namespace Site

def position (site : Site) : Position :=
  positionIn site.statements site.bodies

def mentions (site : Site) : List Mention :=
  mentionsIn site.statements site.bodies

end Site

theorem mentionsOfAll_append (p : Position) (a b : List Member) :
    mentionsOfAll p (a ++ b) = mentionsOfAll p a ++ mentionsOfAll (p.after (titlesOfAll a)) b := by
  induction a generalizing p with
  | nil => rfl
  | cons member a ih => simp [mentionsOfAll, titlesOfAll, ih]

theorem mentionsOfStatements_append (p : Position) (a b : List Statement) : mentionsOfStatements p (a ++ b) =
    mentionsOfStatements p a ++ mentionsOfStatements (p.after (a.flatMap Statement.titles)) b := by
  induction a generalizing p with
  | nil => rfl
  | cons statement a ih => simp [mentionsOfStatements, ih]

namespace Site

variable (site : Site)

@[simp] theorem position_push (head : BodyHead) : (site.push head).position = site.position.within head := rfl

@[simp] theorem mentions_push (head : BodyHead) :
    (site.push head).mentions = site.mentions ++ head.mentions site.position := by
  simp [push, mentions, mentionsIn, OpenBody.mentions, mentionsOfAll, position]

@[simp] theorem mentions_add (member : Member) :
    (site.add member).mentions = site.mentions ++ member.mentions site.position := by
  obtain ⟨statements, bodies⟩ := site
  cases bodies with
  | nil => simp [add, mentions, mentionsIn, position, positionIn, mentionsOfStatements_append, mentionsOfStatements,
      Statement.mentions]
  | cons body outer => simp [add, mentions, mentionsIn, position, positionIn, OpenBody.mentions, mentionsOfAll_append,
      mentionsOfAll]

@[simp] theorem mentions_close (statements : List Statement) (body : OpenBody) (outer : List OpenBody) :
    ((Site.mk statements outer).add body.close).mentions = (Site.mk statements (body :: outer)).mentions := by
  have closed (p : Position) : body.close.mentions p = body.mentions p := by
    obtain ⟨head, members⟩ := body
    cases head <;> rfl
  rw [mentions_add, closed]
  rfl

theorem mentions_addStatement {statement : Statement} (top : site.bodies = []) :
    (site.addStatement statement).mentions = site.mentions ++ statement.mentions site.position := by
  obtain ⟨statements, bodies⟩ := site
  obtain rfl : bodies = [] := top
  simp [addStatement, mentions, mentionsIn, position, positionIn, mentionsOfStatements_append, mentionsOfStatements]

end Site

section Entry

variable (p : Position)

def Block.mentions : Block → List Mention
  | .oneof decl => decl.mentions p
  | .service decl => decl.mentions p
  | _ => []

/-- The mentions in a declaration with a number, as far as they are known before its name. -/
def Numbered.mentionsBefore : Numbered → List Mention
  | .map _ key held => [p.mention key, p.mention held]
  | .choice oneof _ _ => oneof.mentions p
  | _ => []

/-- The type that the token before the name of a declaration with a number refers to. -/
def Numbered.type? : Numbered → Option String
  | .field _ _ type | .choice _ _ type => some type
  | _ => none

def Numbered.mentions (numbered : Numbered) : List Mention :=
  numbered.mentionsBefore p ++ (numbered.type?.map p.mention).toList

def Side.mentions : Side → List Mention
  | .input => []
  | .output taken => [p.mention taken.type]

namespace Stage

/-- The mentions in the entry that is being read, but for a type that is the last token so far. -/
def mentions : Stage → List Mention
  | .entry block | .skipped _ block => block.mentions p
  | .mapValue _ key | .mapClose _ key _ => [p.mention key]
  | .name decl => decl.mentionsBefore p
  | .equals decl _ | .number decl _ | .negative decl _ | .numbered decl _ _ | .options _ decl _ _
  | .finish decl _ _ => decl.mentions p
  | .method service _ | .methodBody _ service => service.mentions p
  | .operandOpen head side | .operand head side | .streamWord head side | .operandClose head side _ =>
    head.service.mentions p ++ side.mentions p
  | .returns head input => head.service.mentions p ++ [p.mention input.type]
  | .methodEnd service decl => service.mentions p ++ decl.mentions p
  | _ => []

/-- The type that the last token refers to, when `next` is the token behind it. The words `map` and `stream` are names
of types only where they do not begin something else. -/
def type? (stage : Stage) (next : Token) : Option String :=
  match stage with
  | .mapWord _ => if next.is "<" then none else some "map"
  | .mapComma _ key => some key
  | .mapClose _ _ held => some held
  | .name decl => decl.type?
  | .extendOpen head => some head.extendee
  | .operandClose _ _ signed => some signed.type
  | .streamWord _ _ => if next.is ")" then some "stream" else none
  | _ => none

/-- Where a type stands that is the last token: the extended type of an extension is inside. -/
def position (stage : Stage) (p : Position) : Position :=
  match stage with
  | .extendOpen head => p.within (.extend head)
  | _ => p

-- The equations are made once, here, and not by each of the lemmas that unfold these.
attribute [simp] mentions.eq_1 type?.eq_1

end Stage

end Entry

namespace Reader

/-- The mentions so far, but for a type that is the last token. -/
def mentions (r : Reader) : List Mention :=
  r.site.mentions ++ r.stage.mentions r.site.position

/-- Where a type stands that is the last token. -/
def position (r : Reader) : Position :=
  r.stage.position r.site.position

/-- The mention that the last token is, when `next` is the token behind it. -/
def mention? (r : Reader) (next : Token) : Option Mention :=
  (r.stage.type? next).map r.position.mention

/-- What a step leads to: the mentions so far, and the one that the token before is; a type is called as the token. -/
structure Mentions (r : Reader) (t : Token) (next : Reader) : Prop where
  mentions : next.mentions = r.mentions ++ (r.mention? t).toList
  type : ∀ u type, next.stage.type? u = some type → type = t.text

variable {t : Token} {site : Site} {stage next : Stage}

/-- A step that stays in the site. -/
theorem mentions_stage : Mentions ⟨site, stage⟩ t ⟨site, next⟩ ↔
    next.mentions site.position =
        stage.mentions site.position ++ ((stage.type? t).map (stage.position site.position).mention).toList ∧
      ∀ u type, next.type? u = some type → type = t.text := by
  constructor
  · rintro ⟨mentions, type⟩
    exact ⟨by simpa [Reader.mentions, mention?, position] using mentions, type⟩
  · rintro ⟨mentions, type⟩
    exact ⟨by simp [Reader.mentions, mention?, position, mentions], type⟩

/-- A step that completes an entry of the site. -/
theorem mentions_site {after : Site} : Mentions ⟨site, stage⟩ t ⟨after, .entry .site⟩ ↔
    after.mentions = site.mentions ++ stage.mentions site.position ++
      ((stage.type? t).map (stage.position site.position).mention).toList := by
  constructor
  · rintro ⟨mentions, -⟩
    simpa [Reader.mentions, mention?, position, Stage.mentions, Block.mentions] using mentions
  · intro same
    exact ⟨by simp [Reader.mentions, mention?, position, Stage.mentions, Block.mentions, same], nofun⟩

theorem mentions_afterType (comment : Option String) (cardinality : Cardinality) (type : String) :
    (afterType comment cardinality type).mentions site.position = [] ∧
      ∀ u other, (afterType comment cardinality type).type? u = some other → other = type := by
  unfold afterType
  split
  · exact ⟨rfl, nofun⟩
  · refine ⟨rfl, fun u other named => ?_⟩
    exact (Option.some.inj named).symm

theorem mentions_beginField : Yields (Mentions ⟨site, .entry .site⟩ t) (beginField ⟨site, .entry .site⟩ t) := by
  unfold beginField
  cases cardinality? t with
  | some cardinality => exact Yields.go.2 (mentions_stage.2 ⟨rfl, nofun⟩)
  | none => exact Yields.typeName (mentions_stage.2 (mentions_afterType ..))

theorem mentions_beginStatement :
    Yields (Mentions ⟨site, .entry .site⟩ t) (beginStatement ⟨site, .entry .site⟩ t) := by
  simp [beginStatement, mentions_stage, Stage.mentions, Block.mentions, Stage.type?]

theorem mentions_beginMember : Yields (Mentions ⟨site, .entry .site⟩ t) (beginMember ⟨site, .entry .site⟩ t) := by
  have word : t.is "map" → t.text = "map" := fun spelled => (Token.is_iff.1 spelled).2
  simp +contextual [beginMember, mentions_stage, Stage.mentions, Block.mentions, Stage.type?, mentions_beginField, word]

theorem mentions_beginExtensionField :
    Yields (Mentions ⟨site, .entry .site⟩ t) (beginExtensionField ⟨site, .entry .site⟩ t) := by
  simp [beginExtensionField, mentions_stage, Stage.mentions, Block.mentions, Stage.type?, mentions_beginField]

theorem mentions_beginSite : Yields (Mentions ⟨site, .entry .site⟩ t) (beginSite ⟨site, .entry .site⟩ t) := by
  obtain ⟨statements, bodies⟩ := site
  cases bodies with
  | nil => exact mentions_beginStatement
  | cons body outer =>
    have closed : Mentions ⟨⟨statements, body :: outer⟩, .entry .site⟩ t
        ⟨(Site.mk statements outer).add body.close, .entry .site⟩ :=
      mentions_site.2 (by rw [Site.mentions_close]; simp [Stage.mentions, Block.mentions, Stage.type?])
    refine Yields.ite.2 ⟨fun _ => Yields.ok.2 closed, fun _ => ?_⟩
    split
    · exact mentions_beginExtensionField
    · exact mentions_beginMember

theorem mentions_beginChoice (decl : OneofDecl) :
    Yields (Mentions ⟨site, .entry (.oneof decl)⟩ t) (beginChoice ⟨site, .entry (.oneof decl)⟩ decl t) := by
  simp [beginChoice, mentions_stage, mentions_site, Stage.mentions, Block.mentions, Stage.type?,
    Numbered.mentionsBefore, Numbered.type?, Member.mentions]

theorem mentions_beginValue (decl : EnumDecl) :
    Yields (Mentions ⟨site, .entry (.enum decl)⟩ t) (beginValue ⟨site, .entry (.enum decl)⟩ decl t) := by
  simp [beginValue, mentions_stage, mentions_site, Stage.mentions, Block.mentions, Stage.type?, Numbered.mentions,
    Numbered.mentionsBefore, Numbered.type?, Member.mentions]

theorem mentions_beginMethod (decl : ServiceDecl) (top : site.bodies = []) :
    Yields (Mentions ⟨site, .entry (.service decl)⟩ t) (beginMethod ⟨site, .entry (.service decl)⟩ decl t) := by
  have closed : (site.addStatement (.service decl)).mentions = _ := site.mentions_addStatement top
  simp [beginMethod, mentions_stage, mentions_site, Stage.mentions, Block.mentions, Stage.type?, closed,
    Statement.mentions]

theorem mentions_openTitled (titled : Titled) (name : String) :
    Mentions ⟨site, .titleOpen titled name⟩ t (openTitled ⟨site, .titleOpen titled name⟩ titled name) := by
  cases titled <;>
    simp [openTitled, mentions_stage, mentions_site, Stage.mentions, Stage.type?, Block.mentions, BodyHead.mentions,
      OneofDecl.mentions, ServiceDecl.mentions]

theorem mentions_complete {numbered : Numbered} {name : String} {number : Int}
    (before : stage = .numbered numbered name number ∨ stage = .finish numbered name number) :
    Mentions ⟨site, stage⟩ t (complete ⟨site, stage⟩ numbered name number) := by
  rcases before with rfl | rfl <;> cases numbered <;>
    simp [complete, mentions_stage, mentions_site, Stage.mentions, Stage.type?, Block.mentions, Numbered.mentions,
      Numbered.mentionsBefore, Numbered.type?, BodyHead.mentions, OneofDecl.mentions, Member.mentions]

/-- Reading one token. -/
theorem mentions_step (r : Reader) (t : Token) (nested : r.Nested) : Yields (Mentions r t) (r.step t) := by
  obtain ⟨site, stage⟩ := r
  obtain ⟨-, fits⟩ := nested
  cases stage with
  | entry block =>
    cases block with
    | site => exact mentions_beginSite
    | oneof decl => exact mentions_beginChoice decl
    | enum decl => exact mentions_beginValue decl
    | service decl => exact mentions_beginMethod decl fits
  | skipped depth block => simp [step, skip, mentions_stage, Stage.mentions, Stage.type?]
  | statementEnd statement =>
    have added : (site.addStatement statement).mentions = site.mentions := by
      cases statement with
      | member | service => exact fits.elim
      | dialect | package | imports => simp [site.mentions_addStatement fits, Statement.mentions]
    simp [step, mentions_site, Stage.mentions, Stage.type?, added]
  | titleOpen titled name => simpa [step] using fun _ => mentions_openTitled titled name
  | numbered numbered name value =>
    have completed : Mentions ⟨site, .numbered numbered name value⟩ t (complete _ numbered name value) :=
      mentions_complete (Or.inl rfl)
    simp [step, mentions_stage, Stage.mentions, Stage.type?, completed]
  | finish numbered name value =>
    have completed : Mentions ⟨site, .finish numbered name value⟩ t (complete _ numbered name value) :=
      mentions_complete (Or.inr rfl)
    simp [step, completed]
  | options depth numbered name value =>
    by_cases outermost : depth ≤ 1 <;> simp [step, mentions_stage, Stage.mentions, Stage.type?, outermost]
  | methodBody depth service =>
    by_cases outermost : depth ≤ 1 <;>
      simp [step, mentions_stage, Stage.mentions, Stage.type?, Block.mentions, outermost]
  | extendOpen head => simp [step, mentions_site, Stage.mentions, Stage.type?, Stage.position, BodyHead.mentions]
  | fieldType comment cardinality => exact Yields.typeName (mentions_stage.2 (mentions_afterType ..))
  | operand head side =>
    have word : t.is "stream" → t.text = "stream" := fun spelled => (Token.is_iff.1 spelled).2
    simp +contextual [step, mentions_stage, Stage.mentions, Stage.type?, word]
  | streamWord head side =>
    cases side <;>
      simp +contextual [step, closeOperand, mentions_stage, Stage.mentions, Stage.type?, Stage.position, Side.mentions,
        MethodDecl.mentions]
  | operandClose head side =>
    cases side <;>
      simp [step, closeOperand, mentions_stage, Stage.mentions, Stage.type?, Stage.position, Side.mentions,
        MethodDecl.mentions]
  | mapWord comment =>
    simp +contextual [step, mentions_stage, Stage.mentions, Stage.type?, Stage.position, Numbered.mentions,
      Numbered.mentionsBefore, Numbered.type?]
  | _ =>
    simp [step, mentions_stage, Stage.mentions, Stage.type?, Stage.position, Block.mentions, Numbered.mentions,
      Numbered.mentionsBefore, Numbered.type?, Side.mentions, ServiceDecl.mentions, addMethod]

end Reader

/-- The mention that token number `k` is, if the reader takes it for a type. -/
def mentionAt? (tokens : List Token) (k : Nat) : Option Mention :=
  match Reader.start.run (tokens.take (k + 1)), tokens[k]?, tokens[k + 1]? with
  | .ok r, some t, some next => if (r.stage.type? next).isSome then some (r.position.mention t.text) else none
  | _, _, _ => none

/-- The references to types in a source, one token after another. -/
def mentions (tokens : List Token) : List Mention :=
  (List.range tokens.length).filterMap (mentionAt? tokens)

section Run

variable {tokens : List Token} {r next : Reader} {t : Token}

/-- Nothing stands behind the last token. -/
theorem mentions_eq (tokens : List Token) :
    mentions tokens = (List.range (tokens.length - 1)).filterMap (mentionAt? tokens) := by
  rcases List.eq_nil_or_concat' tokens with rfl | ⟨front, last, rfl⟩
  · rfl
  · have alone : mentionAt? (front ++ [last]) front.length = none := by simp [mentionAt?]
    have length : (front ++ [last]).length = front.length + 1 := by simp
    rw [mentions, length, Nat.add_sub_cancel, List.range_succ, List.filterMap_append, List.filterMap_cons, alone]
    exact List.append_nil _

theorem mentionAt?_snoc {k : Nat} (inside : k + 1 < tokens.length) :
    mentionAt? (tokens ++ [t]) k = mentionAt? tokens k := by
  unfold mentionAt?
  rw [List.take_append_of_le_length (Nat.le_of_lt inside), List.getElem?_append_left (Nat.lt_of_succ_lt inside),
    List.getElem?_append_left inside]

/-- The last of the tokens that lead to a state is what the state takes it for, once the token behind it is known. -/
theorem mentionAt?_last {k : Nat} (ran : Reader.start.run tokens = .ok r) (last : k + 1 = tokens.length)
    (named : ∀ u type, r.stage.type? u = some type → tokens.getLast?.map Token.text = some type) :
    mentionAt? (tokens ++ [t]) k = r.mention? t := by
  have inside : k < tokens.length := by omega
  have isLast : tokens.getLast? = some tokens[k] := by
    rw [List.getLast?_eq_getElem?, ← last, Nat.add_sub_cancel, List.getElem?_eq_getElem inside]
  have behind : (tokens ++ [t])[k + 1]? = some t := by rw [last, List.getElem?_concat_length]
  unfold mentionAt? Reader.mention?
  rw [List.take_append_of_le_length (Nat.le_of_eq last), last, List.take_length, ran, ← last, behind,
    List.getElem?_append_left inside, List.getElem?_eq_getElem inside]
  cases type : r.stage.type? t with
  | none => simp [type]
  | some called =>
    have same := named t called type
    rw [isLast, Option.map_some, Option.some_inj] at same
    simp [type, same]

/-- What is true at every state that a list of tokens leads to: the mentions so far are those of the tokens that have
one behind them, and a type is called as the last token. -/
structure Reader.Mentioned (tokens : List Token) (r : Reader) : Prop where
  mentions : r.mentions = (List.range (tokens.length - 1)).filterMap (mentionAt? tokens)
  type : ∀ u type, r.stage.type? u = some type → tokens.getLast?.map Token.text = some type

theorem Reader.Mentioned.step (mentioned : r.Mentioned tokens) (ran : Reader.start.run tokens = .ok r)
    (read : r.step t = .ok next) : next.Mentioned (tokens ++ [t]) := by
  obtain ⟨mentions, type⟩ := Reader.mentions_step r t (Reader.nested_of_run ran) next read
  constructor
  · rw [mentions, mentioned.mentions]
    rcases List.eq_nil_or_concat' tokens with rfl | ⟨front, last, rfl⟩
    · cases ran
      rfl
    · have earlier : ∀ k ∈ List.range front.length,
          mentionAt? (front ++ [last] ++ [t]) k = mentionAt? (front ++ [last]) k := by
        intro k inside
        have bound := List.mem_range.1 inside
        exact mentionAt?_snoc (by simpa using bound)
      have newest := mentionAt?_last (t := t) (k := front.length) ran (by simp) mentioned.type
      have before : (front ++ [last]).length - 1 = front.length := by simp
      have now : (front ++ [last] ++ [t]).length - 1 = front.length + 1 := by simp
      rw [before, now, List.range_succ, List.filterMap_append, List.filterMap_congr earlier, List.filterMap_cons, newest]
      cases r.mention? t <;> rfl
  · intro u called named
    rw [List.getLast?_concat, Option.map_some, type u called named]

theorem Reader.mentioned_of_run (ran : Reader.start.run tokens = .ok r) : r.Mentioned tokens := by
  induction tokens using List.reverseRecOn generalizing r with
  | nil =>
    cases ran
    exact ⟨rfl, nofun⟩
  | append_singleton tokens t ih =>
    obtain ⟨before, first, read⟩ := Reader.run_snoc ran
    exact (ih first).step first read

end Run

end ProtoSchema
