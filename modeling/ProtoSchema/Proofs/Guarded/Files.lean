import ProtoSchema.Proofs.Guarded.Bodies

namespace ProtoSchema

theorem File.top_rows (file : File) (before : Declared) (content : Content) :
    (file.rows content).top (before.add content) = (file.top before).add content := rfl

theorem File.top_leave (file : File) (before : Declared) {statement : Statement} (other : statement.member? = none) :
    (statement.leave file).top before = statement.leave (file.top before) := by
  cases statement with
  | member => cases other
  | _ => rfl

namespace Descent

/-- What is right between two statements of the file `name`. -/
def Between (name : String) (before : Declared) (s : State) (r : Reader) : Prop :=
  before.fields = [] ∧ ∃ statements, r = ⟨⟨statements, []⟩, .entry .site⟩ ∧
    s.file.top before = File.ofStatements name statements

namespace Between

variable {name : String} {before : Declared} {s after : State} {r : Reader} {statements : List Statement}

theorem statement {statement : Statement} (between : Between name before s ⟨⟨statements, []⟩, .entry .site⟩)
    (other : statement.member? = none) (left : after.file = statement.leave s.file) :
    Between name before after ⟨(Site.mk statements []).addStatement statement, .entry .site⟩ := by
  obtain ⟨fields, _, ⟨⟩, file⟩ := between
  refine ⟨fields, _, rfl, ?_⟩
  rw [File.ofStatements_append, ← file, left, File.top_leave s.file before other]

theorem member {member : Member} {found : Declared} {next : Reader}
    (between : Between name before s ⟨⟨statements, []⟩, .entry .site⟩)
    (adds : Adds ⟨statements, []⟩ .file s.file before member found after next)
    (fieldless : (member.layout .file s.file.room).fields = []) : Between name found after next := by
  obtain ⟨rfl, left, rfl⟩ := adds
  obtain ⟨fields, _, ⟨⟩, file⟩ := between
  refine ⟨by simp [Declared.add, fields, fieldless], _, rfl, ?_⟩
  rw [File.ofStatements_append, ← file, left, File.top_rows]
  rfl

end Between

namespace Follows

variable {s : State} {r : Reader} {before : Declared} {name : String}

theorem statementRound (between : Between name before s r) :
    Follows 0 (Descent.statementRound before) s r
      (AfterRound s (Between name) fun found after next => after.tokens = [] ∧ Between name found after next) := by
  obtain ⟨-, statements, rfl, -⟩ := id between
  obtain ⟨tokens, file⟩ := s
  refine peek ?_
  cases tokens with
  | nil => exact pure ⟨rfl, between⟩
  | cons t rest =>
    refine lexical fun lexical => ?_
    have step : Reader.step ⟨⟨statements, []⟩, .entry .site⟩ t =
      Reader.beginStatement ⟨⟨statements, []⟩, .entry .site⟩ t := rfl
    simp only [Reader.beginStatement] at step
    refine choose step (fun _ step => (dropped step ⟨Nat.lt_succ_self _, between⟩).weaken) fun _ step => ?_
    refine choose step (fun spelled step => ?_) fun _ step => ?_
    · refine (dialect spelled step).strict.seq ?_
      rintro - _ _ ⟨less, _, other, left, rfl⟩
      exact pure ⟨less, between.statement other left⟩
    refine choose step (fun spelled step => ?_) fun _ step => ?_
    · refine (package spelled step).strict.seq ?_
      rintro - _ _ ⟨less, _, other, left, rfl⟩
      exact pure ⟨less, between.statement other left⟩
    refine choose step (fun spelled step => ?_) fun _ step => ?_
    · refine (importStatement spelled step).strict.seq ?_
      rintro - _ _ ⟨less, _, other, left, rfl⟩
      exact pure ⟨less, between.statement other left⟩
    refine choose step (fun spelled step => ?_) fun _ step => ?_
    · refine (skipStatement (lexical.word_of_is spelled (by decide)) step).strict.seq ?_
      rintro - ⟨_, _⟩ _ ⟨less, rfl, rfl⟩
      exact pure ⟨less, between⟩
    refine choose step (fun spelled step => ?_) fun _ step => ?_
    · refine (message wholeBody (Nat.lt_succ_self _) spelled step).strict.seq ?_
      rintro _ _ _ ⟨less, _, _, adds⟩
      exact pure ⟨less, between.member (adds before) rfl⟩
    refine choose step (fun spelled step => ?_) fun _ step => ?_
    · refine (enum spelled step).strict.seq ?_
      rintro _ _ _ ⟨less, _, adds⟩
      exact pure ⟨less, between.member (adds before) rfl⟩
    refine choose step (fun spelled step => ?_) fun _ step => ?_
    · refine (service spelled step).strict.seq ?_
      rintro - _ _ ⟨less, _, other, left, rfl⟩
      exact pure ⟨less, between.statement other left⟩
    refine choose step (fun spelled step => ?_) fun _ step => ?_
    · refine (extend wholeBody (Nat.lt_succ_self _) spelled step).strict.seq ?_
      rintro _ _ _ ⟨less, _, _, adds⟩
      exact pure ⟨less, between.member adds rfl⟩
    exact refused step

theorem schema (tokens : List Token) (name : String) :
    Follows 0 Descent.schema ⟨tokens, File.named name⟩ Reader.start fun found after next =>
      after.tokens = [] ∧ ∃ statements, next = ⟨⟨statements, []⟩, .entry .site⟩ ∧
        found = File.ofStatements name statements := by
  have begins : Between name .nothing ⟨tokens, File.named name⟩ Reader.start := ⟨rfl, [], rfl, rfl⟩
  refine (rounds (fun _ _ _ between => statementRound between) begins).seq ?_
  rintro declared ⟨_, file⟩ _ ⟨rfl, fields, statements, rfl, top⟩
  rw [fields]
  exact read (pure ⟨rfl, statements, rfl, top⟩)

end Follows

/-- What comes of a part of the grammar, without what is left behind it. -/
def Outcome.answer {α : Type} : Outcome α → Except Breach (Except Fault α)
  | .ok a _ => .ok (.ok a)
  | .refused fault => .ok (.error fault)
  | .broken breach => .error breach

/-- For tokens that a source can give, recursive descent gives what the reader gives. -/
theorem answer_schema {tokens : List Token} (lexical : ∀ t ∈ tokens, t.Lexical) (name : String) :
    (schema ⟨tokens, File.named name⟩).answer = .ok ((readStatements tokens).map (File.ofStatements name)) := by
  have right := Follows.schema tokens name lexical
  have same : readStatements tokens = Reader.start.answer tokens := rfl
  rw [same]
  cases outcome : schema ⟨tokens, File.named name⟩ with
  | ok found after =>
    rw [outcome] at right
    obtain ⟨-, -, _, read, empty, statements, rfl, rfl⟩ := right
    rw [read, empty]
    rfl
  | refused fault =>
    rw [outcome] at right
    rw [show Reader.start.answer tokens = .error fault from right]
    rfl
  | broken breach =>
    rw [outcome] at right
    exact right.elim

end Descent

end ProtoSchema
