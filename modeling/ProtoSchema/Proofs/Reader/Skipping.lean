import Mathlib.Data.List.Infix
import ProtoSchema.Proofs.Reader.FirstFault

namespace ProtoSchema

open Grammar

variable {name : String} {left right : List String} {keywords : List String}
  {t : Token} {before ts after : List Token} {site : Site} {block : Block} {r : Reader}

/-- How many brackets are open after some tokens, if those of `left` open one each and those of `right`
close one each. A string literal is no bracket. -/
def nesting (left right : List String) (ts : List Token) : Int :=
  ts.countP (·.isAny left) - ts.countP (·.isAny right)

/-- No bracket is closed before it has been opened, and none stays open. -/
structure Balanced (left right : List String) (ts : List Token) : Prop where
  opened : ∀ before, before <+: ts → 0 ≤ nesting left right before
  closed : nesting left right ts = 0

def openingBrackets : List String :=
  ["\x7b", "[", "(", "<"]

def closingBrackets : List String :=
  ["\x7d", "]", ")", ">"]

/-- Tokens with balanced brackets and no semicolon outside of them. -/
structure Unended (ts : List Token) : Prop extends Balanced openingBrackets closingBrackets ts where
  inner : ∀ before t, before ++ [t] <+: ts → t.is ";" → nesting openingBrackets closingBrackets before ≠ 0

/-- A statement of which nothing is kept: a semicolon, or what a keyword begins and the next semicolon
outside of all brackets ends. -/
inductive Discarded (keywords : List String) : List Token → Prop
  | empty {semicolon : Token} (spelled : semicolon.is ";") : Discarded keywords [semicolon]
  | headed {keyword semicolon : Token} {content : List Token} (begins : keyword.isAny keywords)
      (unended : Unended content) (ends : semicolon.is ";") :
      Discarded keywords (keyword :: (content ++ [semicolon]))

theorem balanced_iff_inits : Balanced left right ts ↔
    (∀ before ∈ ts.inits, 0 ≤ nesting left right before) ∧ nesting left right ts = 0 := by
  simp only [List.mem_inits]
  constructor
  · intro balanced
    exact ⟨balanced.opened, balanced.closed⟩
  · rintro ⟨opened, closed⟩
    exact ⟨opened, closed⟩

theorem unended_iff_inits : Unended ts ↔ Balanced openingBrackets closingBrackets ts ∧
    ∀ front ∈ ts.inits, ∀ t ∈ front.getLast?, t.is ";" →
      nesting openingBrackets closingBrackets front.dropLast ≠ 0 := by
  simp only [List.mem_inits, Option.mem_def]
  constructor
  · intro unended
    refine ⟨unended.toBalanced, fun front shorter t last => ?_⟩
    refine unended.inner front.dropLast t ?_
    rwa [List.dropLast_append_getLast? t last]
  · rintro ⟨balanced, inner⟩
    refine ⟨balanced, fun before t shorter => ?_⟩
    simpa using inner (before ++ [t]) shorter t (by simp)

instance : Decidable (Balanced left right ts) :=
  decidable_of_iff' _ balanced_iff_inits

instance : Decidable (Unended ts) :=
  decidable_of_iff' _ unended_iff_inits

/-- A pair of brackets with balanced content. -/
inductive Bracketed (left right : String) : List Token → Prop
  | mk {opening closing : Token} {content : List Token} (opens : opening.is left)
      (balanced : Balanced [left] [right] content) (closes : closing.is right) :
      Bracketed left right (opening :: (content ++ [closing]))

/-- The keywords of the statements that are discarded where the reader is, at the head of a statement. -/
def Reader.discards? (r : Reader) : Option (List String) :=
  match r.stage with
  | .entry .site =>
    match r.site.bodies with
    | [] => some ["option"]
    | body :: _ =>
      match body.head with
      | .extend _ => some []
      | _ => some ["option", "reserved", "extensions"]
  | .entry (.oneof _) => some ["option"]
  | .entry (.enum _) => some ["option", "reserved"]
  | .entry (.service _) => some ["option"]
  | _ => none

/-- Whether the number of a declaration has just been read. -/
def Reader.AfterNumber (r : Reader) : Prop :=
  ∃ numbered name value, r.stage = .numbered numbered name value

/-- Whether the signature of a method has just been read. -/
def Reader.AfterSignature (r : Reader) : Prop :=
  ∃ service decl, r.stage = .methodEnd service decl

theorem nesting_append_singleton : nesting left right (ts ++ [t]) =
    nesting left right ts + (if t.isAny left then 1 else 0) - (if t.isAny right then 1 else 0) := by
  simp only [nesting, List.countP_append, List.countP_singleton]
  split <;> split <;> omega

namespace Token

theorem isAny_iff {texts : List String} : t.isAny texts ↔ ∃ text ∈ texts, t.is text :=
  List.any_eq_true

theorem isAny_eq_false_of_disjoint (apart : ∀ text ∈ left, text ∉ right) (opens : t.isAny left) :
    t.isAny right = false := by
  obtain ⟨text, member, spelled⟩ := isAny_iff.1 opens
  rw [Bool.eq_false_iff]
  intro closes
  obtain ⟨other, among, spells⟩ := isAny_iff.1 closes
  exact apart text member (is_inj spells spelled ▸ among)

end Token

namespace Reader

/-- Stages that count brackets: they differ in the depth only. A token that `stops` is not passed over at depth 0. -/
structure Counts (site : Site) (left right : List String) (stops : Token → Prop) (stage : Nat → Stage) : Prop where
  apart : ∀ text ∈ left, text ∉ right
  opens : ∀ depth t, t.isAny left → step ⟨site, stage depth⟩ t = .ok ⟨site, stage (depth + 1)⟩
  closes : ∀ depth t, t.isAny right → step ⟨site, stage (depth + 1)⟩ t = .ok ⟨site, stage depth⟩
  passes : ∀ depth t, t.isAny left = false → t.isAny right = false → (stops t → depth ≠ 0) →
    step ⟨site, stage depth⟩ t = .ok ⟨site, stage depth⟩

/-- While brackets are counted, the stage is the number of those that are open. -/
theorem run_of_counts {stops : Token → Prop} {stage : Nat → Stage} (counts : Counts site left right stops stage)
    (opened : ∀ before, before <+: ts → 0 ≤ nesting left right before)
    (inner : ∀ before t, before ++ [t] <+: ts → stops t → nesting left right before ≠ 0) :
    run ⟨site, stage 0⟩ ts = .ok ⟨site, stage (nesting left right ts).toNat⟩ := by
  -- From the end: the number of brackets open before the last token decides what the reader does with it.
  induction ts using List.reverseRecOn with
  | nil => rfl
  | append_singleton ts t ih =>
    have front : ts <+: ts ++ [t] := List.prefix_append ts [t]
    have before := opened ts front
    have here := opened (ts ++ [t]) (List.prefix_refl _)
    rw [nesting_append_singleton] at here
    rw [run_append, ih (fun us shorter => opened us (shorter.trans front))
      (fun us u shorter => inner us u (shorter.trans front)), nesting_append_singleton]
    simp only [Except.bind, Reader.run]
    cases opening : t.isAny left with
    | true =>
      have unclosed := Token.isAny_eq_false_of_disjoint counts.apart opening
      have deeper : (nesting left right ts + 1 - 0).toNat = (nesting left right ts).toNat + 1 := by omega
      simp only [counts.opens _ t opening, unclosed, if_true, Bool.false_eq_true, if_false, deeper]
    | false =>
      cases closing : t.isAny right with
      | true =>
        obtain ⟨depth, deep⟩ : ∃ depth : Nat, nesting left right ts = depth + 1 := by
          simp only [opening, closing, Bool.false_eq_true, if_false, if_true] at here
          exact ⟨(nesting left right ts - 1).toNat, by omega⟩
        have one : ((depth : Int) + 1).toNat = depth + 1 := by omega
        have back : ((depth : Int) + 1 + 0 - 1).toNat = depth := by omega
        simp only [deep, one, back, counts.closes depth t closing, Bool.false_eq_true, if_false, if_true]
      | false =>
        have inside : stops t → (nesting left right ts).toNat ≠ 0 := by
          intro stop
          have := inner ts t (List.prefix_refl _) stop
          omega
        simp only [counts.passes _ t opening closing inside, Bool.false_eq_true, if_false, Int.add_zero, Int.sub_zero]

theorem run_of_counts_balanced {stops : Token → Prop} {stage : Nat → Stage}
    (counts : Counts site left right stops stage) (balanced : Balanced left right ts)
    (inner : ∀ before t, before ++ [t] <+: ts → stops t → nesting left right before ≠ 0) :
    run ⟨site, stage 0⟩ ts = .ok ⟨site, stage 0⟩ := by
  rw [run_of_counts counts balanced.opened inner, balanced.closed]
  rfl

theorem counts_skipped : Counts site openingBrackets closingBrackets (·.is ";") (.skipped · block) where
  apart := by decide
  opens depth t opening := by
    obtain ⟨text, member, spelled⟩ := Token.isAny_iff.1 opening
    simp only [openingBrackets, List.mem_cons, List.not_mem_nil, or_false] at member
    rcases member with rfl | rfl | rfl | rfl <;> simp [step, skip, Token.is_eq spelled, go]
  closes depth t closing := by
    obtain ⟨text, member, spelled⟩ := Token.isAny_iff.1 closing
    simp only [closingBrackets, List.mem_cons, List.not_mem_nil, or_false] at member
    rcases member with rfl | rfl | rfl | rfl <;> simp [step, skip, Token.is_eq spelled, go]
  passes depth t unopened unclosed inner := by
    simp only [openingBrackets, closingBrackets, Token.isAny, List.any_cons, List.any_nil, Bool.or_false,
      Bool.or_eq_false_iff] at unopened unclosed
    by_cases stop : t.is ";"
    · simp [step, skip, unopened, unclosed, inner stop, go]
    · simp [step, skip, unopened, unclosed, stop, go]

/-- What has to be known of a stage that counts brackets of one kind. -/
theorem counts_pair {left right : String} {stage : Nat → Stage} (apart : left ≠ right)
    (opens : ∀ depth t, t.is left → step ⟨site, stage depth⟩ t = .ok ⟨site, stage (depth + 1)⟩)
    (closes : ∀ depth t, t.is right → step ⟨site, stage (depth + 1)⟩ t = .ok ⟨site, stage depth⟩)
    (passes : ∀ depth t, t.is left = false → t.is right = false → step ⟨site, stage depth⟩ t = .ok ⟨site, stage depth⟩) :
    Counts site [left] [right] (fun _ => False) stage where
  apart := by simpa using apart
  opens depth t opening := opens depth t (by simpa [Token.isAny] using opening)
  closes depth t closing := closes depth t (by simpa [Token.isAny] using closing)
  passes depth t unopened unclosed _ :=
    passes depth t (by simpa [Token.isAny] using unopened) (by simpa [Token.isAny] using unclosed)

theorem counts_options {numbered : Numbered} {title : String} {value : Int} :
    Counts site ["["] ["]"] (fun _ => False) fun depth => .options (depth + 1) numbered title value := by
  refine counts_pair (by decide) ?_ ?_ ?_
  · intro depth t opening
    simp [step, opening, go]
  · intro depth t closing
    simp [step, Token.is_eq closing, go]
  · intro depth t unopened unclosed
    simp [step, unopened, unclosed]

theorem counts_methodBody {service : ServiceDecl} :
    Counts site ["\x7b"] ["\x7d"] (fun _ => False) fun depth => .methodBody (depth + 1) service := by
  refine counts_pair (by decide) ?_ ?_ ?_
  · intro depth t opening
    simp [step, opening, go]
  · intro depth t closing
    simp [step, Token.is_eq closing, go]
  · intro depth t unopened unclosed
    simp [step, unopened, unclosed]

theorem step_empty (discards : r.discards? = some keywords) (empty : t.is ";") : r.step t = .ok r := by
  obtain ⟨⟨statements, bodies⟩, stage⟩ := r
  cases stage with
  | entry block =>
    cases block with
    | site =>
      cases bodies with
      | nil => simp [step, beginEntry, beginSite, beginStatement, empty]
      | cons body outer =>
        cases head : body.head <;>
          simp [step, beginEntry, beginSite, head, beginExtensionField, beginMember, Token.is_eq empty]
    | _ => simp [step, beginEntry, beginChoice, beginValue, beginMethod, Token.is_eq empty]
  | _ => cases discards

theorem step_headed (discards : r.discards? = some keywords) (headed : t.isAny keywords) :
    ∃ block, r.stage = .entry block ∧ r.step t = .ok ⟨r.site, .skipped 0 block⟩ := by
  obtain ⟨⟨statements, bodies⟩, stage⟩ := r
  obtain ⟨keyword, member, spelled⟩ := Token.isAny_iff.1 headed
  cases stage with
  | entry block =>
    refine ⟨block, rfl, ?_⟩
    cases block with
    | site =>
      cases bodies with
      | nil =>
        cases discards
        cases List.mem_singleton.1 member
        simp [step, beginEntry, beginSite, beginStatement, Token.is_eq spelled, go]
      | cons body outer =>
        obtain ⟨head, members⟩ := body
        cases head with
        | extend => cases discards; cases member
        | _ =>
          cases discards
          simp only [List.mem_cons, List.not_mem_nil, or_false] at member
          rcases member with rfl | rfl | rfl <;>
            simp [step, beginEntry, beginSite, beginMember, Token.is_eq spelled, go]
    | oneof =>
      cases discards
      cases List.mem_singleton.1 member
      simp [step, beginEntry, beginChoice, Token.is_eq spelled, go]
    | enum =>
      cases discards
      simp only [List.mem_cons, List.not_mem_nil, or_false] at member
      rcases member with rfl | rfl <;> simp [step, beginEntry, beginValue, Token.is_eq spelled, go]
    | service =>
      cases discards
      cases List.mem_singleton.1 member
      simp [step, beginEntry, beginMethod, Token.is_eq spelled, go]
  | _ => cases discards

/-- A discarded statement brings the reader back to where it was. -/
theorem run_discarded (discards : r.discards? = some keywords) (discarded : Discarded keywords ts) :
    r.run ts = .ok r := by
  cases discarded with
  | empty spelled => simp [run, step_empty discards spelled]
  | @headed keyword semicolon content begins unended ends =>
    obtain ⟨block, stage, first⟩ := step_headed discards begins
    have counts : Counts r.site openingBrackets closingBrackets (·.is ";") (.skipped · block) := counts_skipped
    have passed := run_of_counts_balanced counts unended.toBalanced unended.inner
    have last : step ⟨r.site, .skipped 0 block⟩ semicolon = .ok r := by
      simp only [step, skip, ends, go, ← stage, beq_self_eq_true, Bool.and_self, if_true]
    simp [run, first, run_append, passed, last, Except.bind]

/-- Brackets bring the reader from the stage before them to the one that counts them, and from there to the next. -/
theorem run_bracketed {left right : String} {stage : Nat → Stage} {next : Reader}
    (counts : Counts r.site [left] [right] (fun _ => False) stage)
    (first : ∀ t, t.is left → r.step t = .ok ⟨r.site, stage 0⟩)
    (last : ∀ t, t.is right → step ⟨r.site, stage 0⟩ t = .ok next) (bracketed : Bracketed left right ts) :
    r.run ts = .ok next := by
  cases bracketed with
  | @mk opening closing content opens balanced closes =>
    have passed := run_of_counts_balanced counts balanced fun _ _ _ => False.elim
    simp only [run, first opening opens, run_append, passed, last closing closes, Except.bind]

/-- Options bring the reader to the end of the declaration. -/
theorem run_options {numbered : Numbered} {title : String} {value : Int}
    (number : r.stage = .numbered numbered title value) (bracketed : Bracketed "[" "]" ts) :
    r.run ts = .ok { r with stage := .finish numbered title value } := by
  have counts : Counts r.site ["["] ["]"] (fun _ => False) fun depth => .options (depth + 1) numbered title value :=
    counts_options
  refine run_bracketed counts ?_ ?_ bracketed
  · intro opening opens
    simp [step, number, opens, go]
  · intro closing closes
    simp [step, Token.is_eq closes, go]

/-- The braces of a method do what its semicolon does. -/
theorem run_methodBody {semicolon : Token} {service : ServiceDecl} {decl : MethodDecl}
    (signature : r.stage = .methodEnd service decl) (ends : semicolon.is ";") (bracketed : Bracketed "\x7b" "\x7d" ts) :
    r.run ts = r.run [semicolon] := by
  have plain : r.run [semicolon] = .ok ⟨r.site, .entry (.service (addMethod service decl))⟩ := by
    simp [run, step, signature, ends, go]
  rw [plain]
  have counts : Counts r.site ["\x7b"] ["\x7d"] (fun _ => False) fun depth =>
      .methodBody (depth + 1) (addMethod service decl) := counts_methodBody
  refine run_bracketed counts ?_ ?_ bracketed
  · intro opening opens
    simp [step, signature, Token.is_eq opens, go]
  · intro closing closes
    simp [step, Token.is_eq closes, go]

/-- After its number, a declaration that has no options goes on as after its options. -/
theorem run_finish {numbered : Numbered} {title : String} {value : Int}
    (number : r.stage = .numbered numbered title value) (bare : ∀ t ∈ after.head?, ¬ t.is "[") :
    (run { r with stage := .finish numbered title value } after).bind finish = (r.run after).bind finish := by
  cases after with
  | nil => simp [run, Except.bind, finish, expected, number]
  | cons t rest =>
    have other : ¬ t.is "[" := bare t rfl
    have same : step { r with stage := .finish numbered title value } t = r.step t := by
      simp [step, number, other, refuse, expected, complete]
    rw [run, run, same]

end Reader

/-- Nothing is kept of a discarded statement, of options and of the body of a method: where one of them can
stand, the tree of a file is the same with it and without it, and so is the fault of what is no file. -/
theorem readFile_skipping (ran : Reader.start.run before = .ok r) :
    (∀ keywords, r.discards? = some keywords → ∀ statement, Discarded keywords statement → ∀ after,
      readFile name (before ++ (statement ++ after)) = readFile name (before ++ after)) ∧
    (r.AfterNumber → ∀ options, Bracketed "[" "]" options → ∀ after, (∀ t ∈ after.head?, ¬ t.is "[") →
      readFile name (before ++ (options ++ after)) = readFile name (before ++ after)) ∧
    (r.AfterSignature → ∀ body, Bracketed "\x7b" "\x7d" body → ∀ semicolon after, semicolon.is ";" →
      readFile name (before ++ (body ++ after)) = readFile name (before ++ (semicolon :: after))) := by
  have onwards (us : List Token) : readFile name (before ++ us) =
      ((r.run us).bind Reader.finish).map (File.ofStatements name) := by
    rw [readFile_append, ran, Except.bind]
  refine ⟨?_, ?_, ?_⟩
  · intro keywords discards statement discarded after
    rw [onwards, onwards, Reader.run_append, Reader.run_discarded discards discarded, Except.bind]
  · rintro ⟨numbered, title, value, number⟩ options bracketed after bare
    rw [onwards, onwards, Reader.run_append, Reader.run_options number bracketed, Except.bind,
      Reader.run_finish number bare]
  · rintro ⟨service, decl, signature⟩ body bracketed semicolon after ends
    rw [onwards, onwards, Reader.run_append, Reader.run_methodBody signature ends bracketed,
      ← Reader.run_append, List.singleton_append]

/-- `message M {` -/
def messageTokens : List Token :=
  [.plain .word "message", .plain .word "M", .plain .symbol "\x7b"]

/-- `message M { a b = 1` -/
def fieldTokens : List Token :=
  messageTokens ++ [.plain .word "a", .plain .word "b", .plain .symbol "=", .plain .word "1"]

/-- `service S { rpc m ( a ) returns ( b )` -/
def methodTokens : List Token :=
  [.plain .word "service", .plain .word "S", .plain .symbol "\x7b", .plain .word "rpc", .plain .word "m",
    .plain .symbol "(", .plain .word "a", .plain .symbol ")", .plain .word "returns",
    .plain .symbol "(", .plain .word "b", .plain .symbol ")"]

/-- `( "};" ; >` -/
def reservedContent : List Token :=
  [.plain .symbol "(", .plain .string "\x7d;", .plain .symbol ";", .plain .symbol ">"]

/-- `x = "]" [ ]` -/
def optionsContent : List Token :=
  [.plain .word "x", .plain .symbol "=", .plain .string "]", .plain .symbol "[", .plain .symbol "]"]

/-- `option { } ] ;` -/
def methodContent : List Token :=
  [.plain .word "option", .plain .symbol "\x7b", .plain .symbol "\x7d", .plain .symbol "]", .plain .symbol ";"]

/-- Brackets need not match, and those in string literals do not count. -/
theorem readFile_skipping_members :
    readFile "m" (messageTokens ++ (.plain .word "reserved" :: (reservedContent ++ [.plain .symbol ";"]) ++
      [.plain .symbol "\x7d"])) = readFile "m" (messageTokens ++ [.plain .symbol "\x7d"]) ∧
    readFile "m" (fieldTokens ++ (.plain .symbol "[" :: (optionsContent ++ [.plain .symbol "]"]) ++
      [.plain .symbol ";", .plain .symbol "\x7d"])) =
      readFile "m" (fieldTokens ++ [.plain .symbol ";", .plain .symbol "\x7d"]) ∧
    readFile "m" (methodTokens ++ (.plain .symbol "\x7b" :: (methodContent ++ [.plain .symbol "\x7d"]) ++
      [.plain .symbol "\x7d"])) = readFile "m" (methodTokens ++ [.plain .symbol ";", .plain .symbol "\x7d"]) := by
  have inMessage : ∃ r, Reader.start.run messageTokens = .ok r ∧
      r.discards? = some ["option", "reserved", "extensions"] :=
    ⟨_, rfl, rfl⟩
  have inField : ∃ r, Reader.start.run fieldTokens = .ok r ∧ r.AfterNumber :=
    ⟨_, rfl, _, _, _, rfl⟩
  have inMethod : ∃ r, Reader.start.run methodTokens = .ok r ∧ r.AfterSignature :=
    ⟨_, rfl, _, _, rfl⟩
  obtain ⟨r, ran, discards⟩ := inMessage
  obtain ⟨r', ran', number⟩ := inField
  obtain ⟨r'', ran'', signature⟩ := inMethod
  refine ⟨?_, ?_, ?_⟩
  · exact (readFile_skipping ran).1 _ discards _ (.headed (by decide) (by decide) (by decide)) _
  · exact (readFile_skipping ran').2.1 number _ (.mk (by decide) (by decide) (by decide)) _ (by decide)
  · exact (readFile_skipping ran'').2.2 signature _ (.mk (by decide) (by decide) (by decide)) _ _ (by decide)

end ProtoSchema
