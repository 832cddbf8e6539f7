import Mathlib.Data.List.Forall2
import Mathlib.Data.List.Induction
import ProtoSchema.Reader

namespace ProtoSchema

/-- The two tables of a file. -/
inductive Table
  | messages
  | enums
deriving DecidableEq, Repr

/-- The keyword of the declarations in a table. -/
def Table.keyword : Table → String
  | .messages => "message"
  | .enums => "enum"

/-- What a declaration of a message or an enum begins with. -/
structure Title where
  table : Table
  mark : Mark
  name : String
deriving DecidableEq, Repr

def EnumDecl.title (decl : EnumDecl) : Title :=
  ⟨.enums, decl.mark, decl.name⟩

mutual

/-- The titles in a member, in the order they are written. -/
def Member.titles : Member → List Title
  | .field _ | .oneof _ | .map _ => []
  | .group _ body | .extend _ body => titlesOfAll body
  | .message head body => ⟨.messages, head.mark, head.name⟩ :: titlesOfAll body
  | .enum decl => [decl.title]

def titlesOfAll : List Member → List Title
  | [] => []
  | member :: rest => member.titles ++ titlesOfAll rest

end

@[simp] theorem titlesOfAll_append (a b : List Member) : titlesOfAll (a ++ b) = titlesOfAll a ++ titlesOfAll b := by
  induction a with
  | nil => rfl
  | cons member a ih => simp [titlesOfAll, ih]

def Statement.titles : Statement → List Title
  | .member declared => declared.titles
  | _ => []

def BodyHead.titles : BodyHead → List Title
  | .message head => [⟨.messages, head.mark, head.name⟩]
  | _ => []

def OpenBody.titles (body : OpenBody) : List Title :=
  body.head.titles ++ titlesOfAll body.members

/-- The titles in what has been read, the open bodies from the outermost one on. -/
def Site.titles (site : Site) : List Title :=
  site.statements.flatMap Statement.titles ++ site.bodies.reverse.flatMap OpenBody.titles

def Block.titles : Block → List Title
  | .enum decl => [decl.title]
  | _ => []

/-- The table that a declaration belongs to, and its mark. -/
def Titled.table? : Titled → Option (Table × Mark)
  | .message mark => some (.messages, mark)
  | .enum mark => some (.enums, mark)
  | _ => none

def Titled.titles (titled : Titled) (name : String) : List Title :=
  (titled.table?.map fun (table, mark) => ⟨table, mark, name⟩).toList

def Numbered.titles : Numbered → List Title
  | .value enum _ => [enum.title]
  | _ => []

namespace Stage

/-- The title in the entry that is being read, if its name has been read. -/
def titles : Stage → List Title
  | .entry block | .skipped _ block => block.titles
  | .titleOpen titled text => titled.titles text
  | .name decl | .equals decl _ | .number decl _ | .negative decl _ | .numbered decl _ _ | .options _ decl _ _
  | .finish decl _ _ => decl.titles
  | _ => []

/-- The declaration whose name comes next: its table and its mark. -/
def keyword? : Stage → Option (Table × Mark)
  | .title titled => titled.table?
  | _ => none

/-- The title that a token completes. -/
def named (stage : Stage) (t : Token) : List Title :=
  match stage with
  | .title titled => titled.titles t.text
  | _ => []

/-- Whether a statement before its semicolon, if there is one, declares no message and no enum. -/
def Plain : Stage → Prop
  | .statementEnd statement => statement.titles = []
  | _ => True

-- One equation for each kind of stage, so that simp leaves the stage of an arbitrary reader as it is.
attribute [simp] titles.eq_1 titles.eq_2 titles.eq_3 titles.eq_4 titles.eq_5 titles.eq_6 titles.eq_7 titles.eq_8
  titles.eq_9 titles.eq_10 titles.eq_11 keyword?.eq_1 keyword?.eq_2 named.eq_1 named.eq_2 Plain.eq_1 Plain.eq_2

end Stage

/-- The titles that have been read so far, in the order of their keywords. -/
def Reader.titles (r : Reader) : List Title :=
  r.site.titles ++ r.stage.titles

namespace Site

variable (site : Site)

@[simp] theorem titles_add (member : Member) : (site.add member).titles = site.titles ++ member.titles := by
  obtain ⟨statements, bodies⟩ := site
  cases bodies <;> simp [add, titles, Statement.titles, OpenBody.titles, titlesOfAll]

@[simp] theorem titles_push (head : BodyHead) : (site.push head).titles = site.titles ++ head.titles := by
  simp [push, titles, OpenBody.titles, titlesOfAll]

theorem titles_addStatement {statement : Statement} (plain : statement.titles = []) :
    (site.addStatement statement).titles = site.titles := by
  simp [addStatement, titles, plain]

@[simp] theorem titles_close (statements : List Statement) (body : OpenBody) (outer : List OpenBody) :
    ((Site.mk statements outer).add body.close).titles = (Site.mk statements (body :: outer)).titles := by
  have closed : body.close.titles = body.titles := by
    obtain ⟨head, members⟩ := body
    cases head <;> simp [OpenBody.close, OpenBody.titles, BodyHead.titles, Member.titles]
  rw [titles_add, closed]
  simp [titles]

end Site

/-- What a step leads to: the titles so far and the one that the token completes; and a keyword is the token itself. -/
structure Reader.Titles (r : Reader) (t : Token) (next : Reader) : Prop where
  titles : next.titles = r.titles ++ r.stage.named t
  keyword : ∀ table mark, next.stage.keyword? = some (table, mark) → t.is table.keyword ∧ mark = t.mark
  plain : next.stage.Plain

/-- Whether an outcome can only be a state with a property. -/
def Yields (p : Reader → Prop) (outcome : Except Fault Reader) : Prop :=
  ∀ next, outcome = .ok next → p next

namespace Yields

variable {p : Reader → Prop} {r : Reader} {t : Token}

@[simp] theorem ok {next : Reader} : Yields p (.ok next) ↔ p next := by
  simp [Yields]

@[simp] theorem error {fault : Fault} : Yields p (.error fault) := by
  intro next same
  cases same

@[simp] theorem refuse : Yields p (r.refuse t) :=
  error

@[simp] theorem go {stage : Stage} : Yields p (r.go stage) ↔ p ⟨r.site, stage⟩ :=
  ok

@[simp] theorem ite {c : Prop} [Decidable c] {a b : Except Fault Reader} :
    Yields p (if c then a else b) ↔ (c → Yields p a) ∧ (¬ c → Yields p b) := by
  split <;> simp_all

@[simp] theorem exactly {text : String} {stage : Stage} :
    Yields p (r.exactly text t stage) ↔ (t.is text → p ⟨r.site, stage⟩) := by
  simp [Reader.exactly]

@[simp] theorem identifier {stage : String → Stage} (next : p ⟨r.site, stage t.text⟩) :
    Yields p (r.identifier t stage) := by
  simp [Reader.identifier, next]

@[simp] theorem dottedName {valid : List Char → Bool} {stage : String → Stage} (next : p ⟨r.site, stage t.text⟩) :
    Yields p (r.dottedName valid t stage) := by
  simp [Reader.dottedName, next]

@[simp] theorem typeName {stage : String → Stage} (next : p ⟨r.site, stage t.text⟩) : Yields p (r.typeName t stage) :=
  dottedName next

@[simp] theorem integer {negative : Bool} {stage : Int → Stage} (next : ∀ n, p ⟨r.site, stage n⟩) :
    Yields p (r.integer negative t stage) := by
  unfold Reader.integer
  cases Numeral.read? negative t.text.toList <;> simp [next]

end Yields

namespace Reader

variable {t : Token} {site : Site} {stage next : Stage}

/-- A step that stays in the site. -/
@[simp] theorem titles_stage : Titles ⟨site, stage⟩ t ⟨site, next⟩ ↔ next.titles = stage.titles ++ stage.named t ∧
    (∀ table mark, next.keyword? = some (table, mark) → t.is table.keyword ∧ mark = t.mark) ∧ next.Plain := by
  constructor
  · rintro ⟨titles, keyword, plain⟩
    exact ⟨by simpa [Reader.titles] using titles, keyword, plain⟩
  · rintro ⟨titles, keyword, plain⟩
    exact ⟨by simp [Reader.titles, titles], keyword, plain⟩

/-- A step that completes an entry of the site. -/
theorem titles_site {after : Site} : Titles ⟨site, stage⟩ t ⟨after, .entry .site⟩ ↔
    after.titles = site.titles ++ stage.titles ++ stage.named t := by
  constructor
  · rintro ⟨titles, -, -⟩
    simpa [Reader.titles, Block.titles] using titles
  · intro same
    exact ⟨by simp [Reader.titles, Block.titles, same], nofun, trivial⟩

theorem titles_afterType (comment : Option String) (cardinality : Cardinality) (type : String) :
    (afterType comment cardinality type).titles = [] ∧
      (∀ table mark, (afterType comment cardinality type).keyword? = some (table, mark) →
        t.is table.keyword ∧ mark = t.mark) ∧ (afterType comment cardinality type).Plain := by
  unfold afterType
  split <;> exact ⟨rfl, nofun, trivial⟩

theorem titles_beginField : Yields (Titles ⟨site, .entry .site⟩ t) (beginField ⟨site, .entry .site⟩ t) := by
  unfold beginField
  cases cardinality? t with
  | some cardinality => exact Yields.go.2 (titles_stage.2 ⟨rfl, nofun, trivial⟩)
  | none => exact Yields.typeName (titles_stage.2 (titles_afterType ..))

theorem titles_beginStatement : Yields (Titles ⟨site, .entry .site⟩ t) (beginStatement ⟨site, .entry .site⟩ t) := by
  simp [beginStatement, Titled.table?, Block.titles, Table.keyword]

theorem titles_beginMember : Yields (Titles ⟨site, .entry .site⟩ t) (beginMember ⟨site, .entry .site⟩ t) := by
  simp [beginMember, Titled.table?, Block.titles, Table.keyword, titles_beginField]

theorem titles_beginExtensionField :
    Yields (Titles ⟨site, .entry .site⟩ t) (beginExtensionField ⟨site, .entry .site⟩ t) := by
  simp [beginExtensionField, Block.titles, titles_beginField]

theorem titles_beginSite : Yields (Titles ⟨site, .entry .site⟩ t) (beginSite ⟨site, .entry .site⟩ t) := by
  obtain ⟨statements, bodies⟩ := site
  cases bodies with
  | nil => exact titles_beginStatement
  | cons body outer =>
    have closed : Titles ⟨⟨statements, body :: outer⟩, .entry .site⟩ t
        ⟨(Site.mk statements outer).add body.close, .entry .site⟩ :=
      titles_site.2 (by rw [Site.titles_close]; simp [Block.titles])
    refine Yields.ite.2 ⟨fun _ => Yields.ok.2 closed, fun _ => ?_⟩
    split
    · exact titles_beginExtensionField
    · exact titles_beginMember

theorem titles_beginChoice (decl : OneofDecl) :
    Yields (Titles ⟨site, .entry (.oneof decl)⟩ t) (beginChoice ⟨site, .entry (.oneof decl)⟩ decl t) := by
  simp [beginChoice, titles_site, Block.titles, Numbered.titles, Member.titles]

theorem titles_beginValue (decl : EnumDecl) :
    Yields (Titles ⟨site, .entry (.enum decl)⟩ t) (beginValue ⟨site, .entry (.enum decl)⟩ decl t) := by
  simp [beginValue, titles_site, Block.titles, Numbered.titles, Member.titles]

theorem titles_beginMethod (decl : ServiceDecl) :
    Yields (Titles ⟨site, .entry (.service decl)⟩ t) (beginMethod ⟨site, .entry (.service decl)⟩ decl t) := by
  have closed : (site.addStatement (.service decl)).titles = site.titles := Site.titles_addStatement site rfl
  simp [beginMethod, titles_site, Block.titles, closed]

theorem titles_skip (depth : Nat) (block : Block) :
    Yields (Titles ⟨site, .skipped depth block⟩ t) (skip ⟨site, .skipped depth block⟩ depth block t) := by
  simp [skip]

theorem titles_openTitled (titled : Titled) (name : String) :
    Titles ⟨site, .titleOpen titled name⟩ t (openTitled ⟨site, .titleOpen titled name⟩ titled name) := by
  cases titled <;>
    simp [openTitled, titles_site, Block.titles, Titled.titles, Titled.table?, BodyHead.titles, EnumDecl.title]

theorem titles_complete {numbered : Numbered} {name : String} {number : Int}
    (before : stage = .numbered numbered name number ∨ stage = .finish numbered name number) :
    Titles ⟨site, stage⟩ t (complete ⟨site, stage⟩ numbered name number) := by
  rcases before with rfl | rfl <;> cases numbered <;>
    simp [complete, titles_site, Block.titles, Numbered.titles, BodyHead.titles, EnumDecl.title, Member.titles]

/-- Reading one token. -/
theorem titles_step (r : Reader) (t : Token) (plain : r.stage.Plain) : Yields (Titles r t) (r.step t) := by
  obtain ⟨site, stage⟩ := r
  cases stage with
  | entry block =>
    cases block with
    | site => exact titles_beginSite
    | oneof decl => exact titles_beginChoice decl
    | enum decl => exact titles_beginValue decl
    | service decl => exact titles_beginMethod decl
  | skipped depth block => exact titles_skip depth block
  | statementEnd statement =>
    have declares : statement.titles = [] := plain
    simp [step, titles_site, Site.titles_addStatement, declares]
  | titleOpen titled name =>
    simpa [step] using fun _ => titles_openTitled titled name
  | numbered numbered name value =>
    have completed : Titles ⟨site, .numbered numbered name value⟩ t (complete _ numbered name value) :=
      titles_complete (Or.inl rfl)
    simp [step, completed]
  | finish numbered name value =>
    have completed : Titles ⟨site, .finish numbered name value⟩ t (complete _ numbered name value) :=
      titles_complete (Or.inr rfl)
    simp [step, completed]
  | options depth numbered name value =>
    by_cases outermost : depth ≤ 1 <;>
      simp [step, outermost]
  | methodBody depth service =>
    by_cases outermost : depth ≤ 1 <;>
      simp [step, outermost, Block.titles]
  | extendOpen head => simp [step, titles_site, BodyHead.titles]
  | fieldType comment cardinality =>
    exact Yields.typeName (titles_stage.2 (titles_afterType comment cardinality t.text))
  | streamWord head side | operandClose head side =>
    cases side <;> simp [step, closeOperand]
  | dialectValue | packageName | importKind | importPath =>
    simp [step, Statement.titles]
  | title titled => simp [step]
  | _ => simp [step, Block.titles, Numbered.titles]

end Reader

/-- Whether the reader takes token number `k` for the keyword of a declaration in a table. -/
def IsKeyword (tokens : List Token) (table : Table) (k : Nat) : Prop :=
  k < tokens.length ∧
    ∃ r mark, Reader.start.run (tokens.take (k + 1)) = .ok r ∧ r.stage.keyword? = some (table, mark)

/-- Whether a title is that of the keyword at place `k` and the name behind it. -/
def Title.At (table : Table) (tokens : List Token) (k : Nat) (title : Title) : Prop :=
  ∃ keyword name, tokens[k]? = some keyword ∧ tokens[k + 1]? = some name ∧ keyword.is table.keyword ∧
    title = ⟨table, keyword.mark, name.text⟩

/-- Whether titles are those of the keywords of a table that have a token behind them, one after another. -/
def InKeywordOrder (tokens : List Token) (table : Table) (titles : List Title) : Prop :=
  ∃ places : List Nat, places.Pairwise (· < ·) ∧
    (∀ k, k ∈ places ↔ IsKeyword tokens table k ∧ k + 1 < tokens.length) ∧
    List.Forall₂ (Title.At table tokens) places titles

section Run

variable {tokens : List Token} {table : Table} {r next : Reader} {t : Token} {titles : List Title}

theorem Stage.named_eq (stage : Stage) (t : Token) :
    stage.named t = (stage.keyword?.map fun (table, mark) => ⟨table, mark, t.text⟩).toList := by
  cases stage <;> rfl

theorem Reader.run_snoc (ran : r.run (tokens ++ [t]) = .ok next) :
    ∃ before, r.run tokens = .ok before ∧ before.step t = .ok next := by
  rw [Reader.run_append] at ran
  cases first : r.run tokens with
  | error fault =>
    rw [first] at ran
    cases ran
  | ok before =>
    refine ⟨before, rfl, ?_⟩
    rw [first] at ran
    cases last : before.step t with
    | error fault => simp [Except.bind, Reader.run, last] at ran
    | ok after => simpa [Except.bind, Reader.run, last] using ran

theorem isKeyword_snoc {k : Nat} (inside : k < tokens.length) :
    IsKeyword (tokens ++ [t]) table k ↔ IsKeyword tokens table k := by
  unfold IsKeyword
  rw [List.take_append_of_le_length inside]
  simp [inside, Nat.lt_succ_of_lt inside]

/-- The last of the tokens that lead to a state is a keyword if a name comes next there. -/
theorem isKeyword_last {k : Nat} (ran : Reader.start.run tokens = .ok r) (last : k + 1 = tokens.length) :
    IsKeyword tokens table k ↔ ∃ mark, r.stage.keyword? = some (table, mark) := by
  unfold IsKeyword
  rw [last, List.take_length, ran]
  constructor
  · rintro ⟨_, _, mark, ⟨⟩, named⟩
    exact ⟨mark, named⟩
  · rintro ⟨mark, named⟩
    exact ⟨by omega, r, mark, rfl, named⟩

theorem Title.At.snoc {k : Nat} {title : Title} (here : title.At table tokens k) : title.At table (tokens ++ [t]) k := by
  obtain ⟨keyword, name, at_k, behind, spelled, same⟩ := here
  obtain ⟨first, -⟩ := List.getElem?_eq_some_iff.1 at_k
  obtain ⟨second, -⟩ := List.getElem?_eq_some_iff.1 behind
  refine ⟨keyword, name, ?_, ?_, spelled, same⟩
  · rw [List.getElem?_append_left first, at_k]
  · rw [List.getElem?_append_left second, behind]

/-- Behind anything but a keyword of the table, one more token adds nothing. -/
theorem InKeywordOrder.skip (ordered : InKeywordOrder tokens table titles) (ran : Reader.start.run tokens = .ok r)
    (other : ∀ mark, r.stage.keyword? ≠ some (table, mark)) : InKeywordOrder (tokens ++ [t]) table titles := by
  obtain ⟨places, ascending, all, spelled⟩ := ordered
  refine ⟨places, ascending, ?_, spelled.imp fun _ _ here => here.snoc⟩
  intro k
  rw [all, List.length_append, List.length_singleton]
  constructor
  · rintro ⟨keyword, inside⟩
    exact ⟨(isKeyword_snoc keyword.1).2 keyword, by omega⟩
  · rintro ⟨keyword, inside⟩
    have within : k < tokens.length := by omega
    have here := (isKeyword_snoc within).1 keyword
    refine ⟨here, ?_⟩
    by_contra beyond
    obtain ⟨mark, named⟩ := (isKeyword_last ran (by omega)).1 here
    exact other mark named

/-- Behind a keyword of the table, one more token is its name. -/
theorem InKeywordOrder.name (ordered : InKeywordOrder tokens table titles) (ran : Reader.start.run tokens = .ok r)
    {keyword : Token} (last : tokens.getLast? = some keyword) (spelled : keyword.is table.keyword)
    (named : r.stage.keyword? = some (table, keyword.mark)) :
    InKeywordOrder (tokens ++ [t]) table (titles ++ [⟨table, keyword.mark, t.text⟩]) := by
  obtain ⟨places, ascending, all, spells⟩ := ordered
  have length : tokens.length - 1 + 1 = tokens.length := by
    have some : tokens ≠ [] := by
      rintro rfl
      cases last
    have positive := List.length_pos_iff.2 some
    omega
  have at_last : tokens[tokens.length - 1]? = some keyword := by rw [← List.getLast?_eq_getElem?, last]
  refine ⟨places ++ [tokens.length - 1], ?_, ?_, ?_⟩
  · refine List.pairwise_append.2 ⟨ascending, List.pairwise_singleton .., ?_⟩
    intro k before last isLast
    obtain rfl := List.mem_singleton.1 isLast
    have inside := ((all k).1 before).2
    omega
  · intro k
    rw [List.mem_append, List.mem_singleton, all, List.length_append, List.length_singleton]
    constructor
    · rintro (⟨earlier, inside⟩ | rfl)
      · exact ⟨(isKeyword_snoc earlier.1).2 earlier, by omega⟩
      · exact ⟨(isKeyword_snoc (by omega)).2 ((isKeyword_last ran length).2 ⟨_, named⟩), by omega⟩
    · rintro ⟨isKeyword, inside⟩
      have within : k < tokens.length := by omega
      by_cases isLast : k = tokens.length - 1
      · exact Or.inr isLast
      · exact Or.inl ⟨(isKeyword_snoc within).1 isKeyword, by omega⟩
  · refine List.rel_append (spells.imp fun _ _ here => here.snoc) (.cons ?_ .nil)
    have inside : tokens.length - 1 < tokens.length := by omega
    refine ⟨keyword, t, ?_, ?_, spelled, rfl⟩
    · rw [List.getElem?_append_left inside, at_last]
    · rw [length, List.getElem?_concat_length]

/-- What is true at every state that a list of tokens leads to: the titles so far come in the order of their
keywords, and the keyword before a name is the last token. -/
structure Reader.Ordered (tokens : List Token) (r : Reader) : Prop where
  titles : ∀ table, InKeywordOrder tokens table (r.titles.filter fun title => title.table == table)
  last : ∀ table mark, r.stage.keyword? = some (table, mark) →
    ∃ keyword, tokens.getLast? = some keyword ∧ keyword.is table.keyword ∧ mark = keyword.mark
  plain : r.stage.Plain

theorem Reader.Ordered.step (ordered : r.Ordered tokens) (ran : Reader.start.run tokens = .ok r)
    (read : r.step t = .ok next) : next.Ordered (tokens ++ [t]) := by
  obtain ⟨titles, keyword, plain⟩ := Reader.titles_step r t ordered.plain next read
  refine ⟨?_, ?_, plain⟩
  · intro table
    rw [titles, List.filter_append, Stage.named_eq]
    cases begun : r.stage.keyword? with
    | none => simpa using (ordered.titles table).skip ran (by simp [begun])
    | some found =>
      obtain ⟨other, mark⟩ := found
      obtain ⟨last, isLast, spelled, rfl⟩ := ordered.last other mark begun
      by_cases same : other = table
      · subst same
        simpa using (ordered.titles other).name ran isLast spelled begun
      · simpa [same] using (ordered.titles table).skip ran (by simp [begun, same])
  · intro table mark begun
    obtain ⟨spelled, same⟩ := keyword table mark begun
    exact ⟨t, List.getLast?_concat, spelled, same⟩

theorem Reader.ordered_of_run (ran : Reader.start.run tokens = .ok r) : r.Ordered tokens := by
  induction tokens using List.reverseRecOn generalizing r with
  | nil =>
    cases ran
    exact ⟨fun table => ⟨[], .nil, by simp [IsKeyword], .nil⟩, nofun, trivial⟩
  | append_singleton tokens t ih =>
    obtain ⟨before, first, read⟩ := Reader.run_snoc ran
    exact (ih first).step first read

end Run

end ProtoSchema
