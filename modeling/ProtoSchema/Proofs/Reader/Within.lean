import ProtoSchema.Proofs.Reader.Unfold

namespace ProtoSchema

open Grammar Remainder Token

namespace Reader

variable {name : String} {site : Site} {t : Token} {ts : List Token} {file : File}

/-- The remainder after a step, if there is one. -/
def Leads (name : String) (outcome : Except Fault Reader) : Remainder :=
  fun ts file => ∃ next, outcome = .ok next ∧ next.rest name ts file

@[simp] theorem leads_ok (next : Reader) : Leads name (.ok next) ts file ↔ next.rest name ts file := by
  simp [Leads]

@[simp] theorem leads_error (fault : Fault) : ¬ Leads name (.error fault) ts file := by
  simp [Leads]

@[simp] theorem leads_go (r : Reader) (stage : Stage) :
    Leads name (r.go stage) ts file ↔ stageRest name r.site stage ts file :=
  leads_ok _

@[simp] theorem leads_refuse (r : Reader) : ¬ Leads name (r.refuse t) ts file :=
  leads_error _

@[simp] theorem leads_exactly (r : Reader) (text : String) (stage : Stage) :
    Leads name (r.exactly text t stage) ts file ↔ t.is text ∧ stageRest name r.site stage ts file := by
  unfold exactly
  split <;> simp_all

@[simp] theorem leads_identifier (r : Reader) (stage : String → Stage) :
    Leads name (r.identifier t stage) ts file ↔ Identifier t ∧ stageRest name r.site (stage t.text) ts file := by
  unfold identifier Identifier
  split <;> simp_all

@[simp] theorem leads_typeName (r : Reader) (stage : String → Stage) :
    Leads name (r.typeName t stage) ts file ↔ DottedName t ∧ stageRest name r.site (stage t.text) ts file := by
  unfold typeName dottedName DottedName
  split
  · split <;> simp_all
  · simp_all

@[simp] theorem leads_packageName (r : Reader) (stage : String → Stage) :
    Leads name (r.dottedName isRelativeName t stage) ts file ↔
      RelativeName t ∧ stageRest name r.site (stage t.text) ts file := by
  unfold dottedName RelativeName
  split
  · split <;> simp_all
  · simp_all

@[simp] theorem leads_integer (r : Reader) (negative : Bool) (stage : Int → Stage) :
    Leads name (r.integer negative t stage) ts file ↔
      ∃ n, Literal negative t n ∧ stageRest name r.site (stage n) ts file := by
  unfold integer Literal
  split
  · split <;> simp_all
  · simp_all

@[simp] theorem settled_entry (block : Block) :
    settled name ⟨site, .entry block⟩ = block.rest (site.outline name) := rfl

theorem rest_openTitled (stage : Stage) (titled : Titled) (title : String) :
    rest name (openTitled ⟨site, stage⟩ titled title) =
      settled name (openTitled ⟨site, .entry .site⟩ titled title) := by
  cases titled <;> rfl

theorem rest_complete (stage : Stage) (numbered : Numbered) (title : String) (value : Int) :
    rest name (complete ⟨site, stage⟩ numbered title value) =
      settled name (complete ⟨site, .entry .site⟩ numbered title value) := by
  cases numbered <;> rfl

theorem afterType_eq (comment : Option String) (cardinality : Cardinality) (type : String) :
    afterType comment cardinality type = .name (typed comment cardinality type) := by
  unfold afterType typed
  split <;> rfl

theorem rest_closeOperand (head : MethodHead) (side : Side) (operand : OperandDecl) :
    stageRest name site (closeOperand head side operand) = sided name site head operand side := by
  cases side <;> rfl

theorem not_literal_of_minus {negative : Bool} {n : Int} (minus : t.is "-") : ¬ Literal negative t n := by
  rintro ⟨_, value⟩
  rw [(is_iff.1 minus).2] at value
  cases negative <;> cases value

theorem not_identifier {text : String} (spelled : t.is text) (other : isIdentifier text.toList = false) :
    ¬ Identifier t := by
  rintro ⟨_, valid⟩
  rw [(is_iff.1 spelled).2, other] at valid
  cases valid

theorem not_dottedName {text : String} (spelled : t.is text) (other : isTypeName text.toList = false) :
    ¬ DottedName t := by
  rintro ⟨_, valid⟩
  rw [(is_iff.1 spelled).2, other] at valid
  cases valid

theorem terminator_ne (numbered : Numbered) : "[" ≠ terminator numbered := by
  cases numbered <;> simp [terminator]

theorem rest_cons_skipped (depth : Nat) (block : Block) :
    rest name ⟨site, .skipped depth block⟩ (t :: ts) file ↔
      Leads name (skip ⟨site, .skipped depth block⟩ depth block t) ts file := by
  simp only [rest, stageRest, past_skipped, skip]
  split
  · simp [stageRest]
  split
  · simp [stageRest]
  split
  · simp
  split
  · simp [stageRest]
  · simp [stageRest]

theorem rest_cons_importKind (line start : Nat) :
    rest name ⟨site, .importKind line start⟩ (t :: ts) file ↔
      Leads name (step ⟨site, .importKind line start⟩ t) ts file := by
  simp only [rest, stageRest, phrase_kind, one_cons, step]
  split
  · rename_i weak
    simp [(is_iff.1 weak).1, is_eq weak, stageRest]
  split
  · rename_i reexported
    simp [(is_iff.1 reexported).1, is_eq reexported, stageRest]
  split
  · simp_all [stageRest]
  · simp_all

theorem rest_cons_mapWord (comment : Option String) :
    rest name ⟨site, .mapWord comment⟩ (t :: ts) file ↔
      Leads name (step ⟨site, .mapWord comment⟩ t) ts file := by
  simp only [rest, stageRest, one_cons, named, step]
  split
  · rename_i left
    simp [left, not_identifier left rfl, stageRest]
  · simp_all [stageRest]

theorem rest_cons_number (numbered : Numbered) (title : String) :
    rest name ⟨site, .number numbered title⟩ (t :: ts) file ↔
      Leads name (step ⟨site, .number numbered title⟩ t) ts file := by
  simp only [rest, stageRest, valued, phrase_number, step]
  split
  · simp_all [not_literal_of_minus, stageRest]
  · simp_all [stageRest]

theorem rest_cons_numbered (numbered : Numbered) (title : String) (value : Int) :
    rest name ⟨site, .numbered numbered title value⟩ (t :: ts) file ↔
      Leads name (step ⟨site, .numbered numbered title value⟩ t) ts file := by
  simp only [rest, stageRest, past_options, finished, one_cons, step]
  split
  · rename_i left
    simp [left, is_eq left (terminator numbered), terminator_ne, stageRest, finished]
  split
  · simp_all [rest_complete]
  · simp_all

theorem rest_cons_options (depth : Nat) (numbered : Numbered) (title : String) (value : Int) :
    rest name ⟨site, .options depth numbered title value⟩ (t :: ts) file ↔
      Leads name (step ⟨site, .options depth numbered title value⟩ t) ts file := by
  simp only [rest, stageRest, past_inside (show "[" ≠ "]" by decide), step]
  split
  · simp [stageRest]
  split
  · split <;> simp [stageRest]
  · simp [rest, stageRest]

theorem rest_cons_operand (head : MethodHead) (side : Side) (lexical : t.Lexical) :
    rest name ⟨site, .operand head side⟩ (t :: ts) file ↔
      Leads name (step ⟨site, .operand head side⟩ t) ts file := by
  simp only [rest, stageRest, phrase_argument, step]
  split
  · rename_i stream
    have text := (is_iff.1 stream).2
    have dotted : DottedName t := ⟨lexical.word_of_is stream (by decide), by rw [text]; rfl⟩
    simp [stream, dotted, text, stageRest]
  · simp_all [stageRest]

theorem rest_cons_streamWord (head : MethodHead) (side : Side) :
    rest name ⟨site, .streamWord head side⟩ (t :: ts) file ↔
      Leads name (step ⟨site, .streamWord head side⟩ t) ts file := by
  simp only [rest, stageRest, one_cons, step]
  split
  · rename_i right
    simp [right, not_dottedName right rfl, rest_closeOperand]
  · simp_all [stageRest]

theorem rest_cons_methodEnd (service : ServiceDecl) (decl : MethodDecl) :
    rest name ⟨site, .methodEnd service decl⟩ (t :: ts) file ↔
      Leads name (step ⟨site, .methodEnd service decl⟩ t) ts file := by
  simp only [rest, stageRest, signed, past_ending, step]
  split
  · rename_i stop
    simp [is_eq stop, stageRest]
  split
  · simp_all [stageRest]
  · simp_all

theorem rest_cons_methodBody (depth : Nat) (service : ServiceDecl) :
    rest name ⟨site, .methodBody depth service⟩ (t :: ts) file ↔
      Leads name (step ⟨site, .methodBody depth service⟩ t) ts file := by
  simp only [rest, stageRest, past_inside (show "\x7b" ≠ "\x7d" by decide), step]
  split
  · simp [stageRest]
  split
  · split <;> simp [stageRest]
  · simp [rest, stageRest]

end Reader

end ProtoSchema
