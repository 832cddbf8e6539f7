import ProtoSchema.Proofs.Reader.Accepts

namespace ProtoSchema

/-- The number of tokens that close a block which is not a body. -/
def Block.remaining : Block → Nat
  | .site => 0
  | _ => 1

/-- The number of tokens that are enough to complete the signature of a method and to close its service. -/
def Side.remaining : Side → Nat
  | .input => 6
  | .output _ => 2

/-- The number of tokens that are enough to complete an entry and to close the bodies it opens. -/
def Stage.remaining : Stage → Nat
  | .entry block => block.remaining
  | .skipped depth block => block.remaining + depth + 1
  | .statementEnd _ => 1
  | .dialectValue | .packageName | .importKind _ _ | .importPath _ _ _ => 2
  | .dialectEquals => 3
  | .titleOpen _ _ | .extendOpen _ => 2
  | .title _ | .extendee _ => 3
  | .finish _ _ _ | .numbered _ _ _ => 2
  | .options depth _ _ _ => depth + 3
  | .number _ _ | .negative _ _ => 3
  | .equals _ _ => 4
  | .name _ | .mapWord _ => 5
  | .fieldType _ _ | .mapClose _ _ _ => 6
  | .mapValue _ _ => 7
  | .mapComma _ _ => 8
  | .mapKey _ => 9
  | .methodEnd _ _ => 2
  | .methodBody depth _ => depth + 2
  | .returns _ _ => 6
  | .operandClose _ side _ | .streamWord _ side => side.remaining + 1
  | .operand _ side => side.remaining + 2
  | .operandOpen _ side => side.remaining + 3
  | .method _ _ => 10

-- The equations are made once, here, and not by each of the lemmas that unfold it.
attribute [simp] Stage.remaining.eq_1

namespace Reader

def remaining (r : Reader) : Nat :=
  r.site.bodies.length + r.stage.remaining

/-- Whether the end of the file is nearer after a token. -/
def Nears (r : Reader) (t : Token) : Prop :=
  t.Lexical ∧ ∃ next, r.step t = .ok next ∧ next.remaining < r.remaining

end Reader

@[simp] theorem Site.length_add (site : Site) (member : Member) :
    (site.add member).bodies.length = site.bodies.length := by
  unfold Site.add
  split
  next => rfl
  next _ _ open_ => simp [open_]

namespace Reader

variable {site : Site} {stage next : Stage} {t : Token}

theorem Nears.of_go (lexical : t.Lexical) (stepped : step ⟨site, stage⟩ t = .ok ⟨site, next⟩)
    (nearer : stage.remaining = next.remaining + 1) : Nears ⟨site, stage⟩ t := by
  refine ⟨lexical, _, stepped, ?_⟩
  simp only [remaining]
  omega

/-- A body or block is closed by its brace; where none is open, the file is complete. -/
theorem nears_entry {block : Block} (unfinished : ∀ statements, finish ⟨site, .entry block⟩ ≠ .ok statements) :
    Nears ⟨site, .entry block⟩ (.plain .symbol "\x7d") := by
  have lexical : (Token.plain .symbol "\x7d").Lexical := by decide
  cases block with
  | site =>
    obtain ⟨statements, bodies⟩ := site
    cases bodies with
    | nil => exact absurd rfl (unfinished statements)
    | cons body outer => exact ⟨lexical, _, rfl, by simp [remaining, Stage.remaining, Block.remaining]⟩
  | oneof decl | enum decl => exact ⟨lexical, _, rfl, by simp [remaining, Stage.remaining, Block.remaining]⟩
  | service decl =>
    exact ⟨lexical, _, rfl, by simp [remaining, Stage.remaining, Block.remaining, Site.addStatement]⟩

/-- A closing bracket ends one level of a skipped statement, whatever has opened it. -/
theorem nears_skipped {depth : Nat} {block : Block} : ∃ t, Nears ⟨site, .skipped depth block⟩ t := by
  cases depth with
  | zero => exact ⟨.plain .symbol ";", .of_go (by decide) rfl rfl⟩
  | succ depth => exact ⟨.plain .symbol ")", .of_go (by decide) rfl rfl⟩

theorem nears_statementEnd {statement : Statement} :
    Nears ⟨site, .statementEnd statement⟩ (.plain .symbol ";") := by
  refine ⟨by decide, _, rfl, ?_⟩
  simp [remaining, Stage.remaining, Block.remaining, Site.addStatement]

theorem nears_titleOpen {titled : Titled} {title : String} :
    Nears ⟨site, .titleOpen titled title⟩ (.plain .symbol "\x7b") := by
  refine ⟨by decide, _, rfl, ?_⟩
  cases titled <;> simp [openTitled, remaining, Stage.remaining, Block.remaining, Site.push]

theorem nears_extendOpen {head : ExtendHead} : Nears ⟨site, .extendOpen head⟩ (.plain .symbol "\x7b") := by
  refine ⟨by decide, _, rfl, ?_⟩
  simp [remaining, Stage.remaining, Block.remaining, Site.push]

theorem remaining_complete (r : Reader) (numbered : Numbered) (title : String) (value : Int) :
    (r.complete numbered title value).remaining ≤ r.site.bodies.length + 1 := by
  cases numbered <;> simp [complete, remaining, Stage.remaining, Block.remaining, Site.push]

/-- After its number and its options a declaration is complete, but for a body of its own. -/
theorem nears_terminator (numbered : Numbered) (title : String) (value : Int) (enough : stage.remaining = 2)
    (stepped : step ⟨site, stage⟩ (.plain .symbol (terminator numbered)) =
      .ok (complete ⟨site, stage⟩ numbered title value)) :
    Nears ⟨site, stage⟩ (.plain .symbol (terminator numbered)) := by
  have lexical : (Token.plain .symbol (terminator numbered)).Lexical := by
    unfold terminator
    split <;> decide
  have bound := remaining_complete ⟨site, stage⟩ numbered title value
  refine ⟨lexical, _, stepped, ?_⟩
  simp only [remaining] at bound ⊢
  omega

theorem nears_number {numbered : Numbered} {title : String} :
    Nears ⟨site, .number numbered title⟩ (.plain .word "1") := by
  cases numbered <;> exact .of_go (by decide) rfl rfl

theorem nears_options {depth : Nat} {numbered : Numbered} {title : String} {value : Int} :
    Nears ⟨site, .options depth numbered title value⟩ (.plain .symbol "]") := by
  refine ⟨by decide, _, rfl, ?_⟩
  split <;> simp only [remaining, Stage.remaining] <;> omega

theorem nears_methodBody {depth : Nat} {service : ServiceDecl} :
    Nears ⟨site, .methodBody depth service⟩ (.plain .symbol "\x7d") := by
  refine ⟨by decide, _, rfl, ?_⟩
  split <;> simp only [remaining, Stage.remaining, Block.remaining] <;> omega

theorem remaining_afterType {comment : Option String} {cardinality : Cardinality} {type : String} :
    (afterType comment cardinality type).remaining = 5 := by
  unfold afterType
  split <;> rfl

theorem remaining_closeOperand {head : MethodHead} {side : Side} {operand : OperandDecl} :
    (closeOperand head side operand).remaining = side.remaining := by
  cases side <;> rfl

/-- A reader that has not read a whole file can go on, and nearer to its end. -/
theorem exists_nears (r : Reader) (unfinished : ∀ statements, r.finish ≠ .ok statements) : ∃ t, r.Nears t := by
  obtain ⟨site, stage⟩ := r
  cases stage with
  | entry => exact ⟨_, nears_entry unfinished⟩
  | skipped => exact nears_skipped
  | dialectEquals | equals => exact ⟨.plain .symbol "=", .of_go (by decide) rfl rfl⟩
  | dialectValue | importKind | importPath => exact ⟨.plain .string "", .of_go (by decide) rfl rfl⟩
  | statementEnd => exact ⟨_, nears_statementEnd⟩
  | packageName | title | extendee | mapWord | mapKey | mapValue | name | method | operand =>
    exact ⟨.plain .word "a", .of_go (by decide) rfl rfl⟩
  | titleOpen => exact ⟨_, nears_titleOpen⟩
  | extendOpen => exact ⟨_, nears_extendOpen⟩
  | fieldType => exact ⟨.plain .word "a", .of_go (by decide) rfl (by rw [remaining_afterType]; rfl)⟩
  | mapComma => exact ⟨.plain .symbol ",", .of_go (by decide) rfl rfl⟩
  | mapClose => exact ⟨.plain .symbol ">", .of_go (by decide) rfl rfl⟩
  | number => exact ⟨_, nears_number⟩
  | negative => exact ⟨.plain .word "1", .of_go (by decide) rfl rfl⟩
  | numbered numbered title value | finish numbered title value =>
    exact ⟨_, nears_terminator numbered title value rfl (by cases numbered <;> rfl)⟩
  | options => exact ⟨_, nears_options⟩
  | operandOpen => exact ⟨.plain .symbol "(", .of_go (by decide) rfl rfl⟩
  | streamWord | operandClose =>
    exact ⟨.plain .symbol ")", .of_go (by decide) rfl (by rw [remaining_closeOperand]; rfl)⟩
  | returns => exact ⟨.plain .word "returns", .of_go (by decide) rfl rfl⟩
  | methodEnd => exact ⟨.plain .symbol ";", .of_go (by decide) rfl rfl⟩
  | methodBody => exact ⟨_, nears_methodBody⟩

/-- Whatever has been read, some tokens complete a file. -/
theorem exists_completion (r : Reader) : ∃ more statements, more.length ≤ r.remaining ∧ (∀ t ∈ more, t.Lexical) ∧
    (r.run more).bind finish = .ok statements := by
  -- Not on the tokens read, of which there is no bound, but on those that are still enough.
  induction bound : r.remaining using Nat.strongRecOn generalizing r with
  | ind n ih =>
    subst bound
    by_cases finished : ∃ statements, r.finish = .ok statements
    · obtain ⟨statements, finished⟩ := finished
      exact ⟨[], statements, Nat.zero_le _, by simp, finished⟩
    · obtain ⟨t, lexical, next, stepped, nearer⟩ :=
        r.exists_nears fun statements ends => finished ⟨statements, ends⟩
      obtain ⟨more, statements, short, others, complete⟩ := ih next.remaining nearer next rfl
      refine ⟨t :: more, statements, ?_, ?_, ?_⟩
      · rw [List.length_cons]
        omega
      · exact List.forall_mem_cons.2 ⟨lexical, others⟩
      · simpa only [run, stepped] using complete

end Reader

end ProtoSchema
