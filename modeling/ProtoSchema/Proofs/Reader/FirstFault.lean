import ProtoSchema.Proofs.Reader.Completion

namespace ProtoSchema

variable {name : String} {ts us tokens : List Token} {t u : Token} {fault : Fault} {k : Nat}

namespace Fault

/-- Whether a fault of the grammar shows at a token. -/
def At (fault : Fault) (t : Token) : Prop :=
  (∃ expected, fault = .unexpected expected t) ∨ fault = .invalidTypeName t ∨ fault = .invalidNumber t

def Marks (fault : Fault) (span : Span) : Prop :=
  ∃ t, fault.At t ∧ t.span = span

theorem At.eq (here : fault.At t) (there : fault.At u) : t = u := by
  rcases here with ⟨_, rfl⟩ | rfl | rfl
  · obtain ⟨_, same⟩ | same | same := there <;> cases same
    rfl
  · obtain ⟨_, same⟩ | same | same := there <;> cases same
    rfl
  · obtain ⟨_, same⟩ | same | same := there <;> cases same
    rfl

theorem At.ne_unexpectedEnd {expected : Expectation} (here : fault.At t) : fault ≠ .unexpectedEnd expected := by
  rcases here with ⟨_, rfl⟩ | rfl | rfl <;> nofun

end Fault

/-- Whether an outcome can only be a fault at the token that has been read last. -/
def Blames (t : Token) (outcome : Except Fault Reader) : Prop :=
  ∀ fault, outcome = .error fault → fault.At t

namespace Blames

@[simp] theorem ok {r : Reader} : Blames t (.ok r) := by
  nofun

@[simp] theorem go {r : Reader} {stage : Stage} : Blames t (r.go stage) :=
  ok

@[simp] theorem unexpected {expected : Expectation} : Blames t (.error (.unexpected expected t)) := by
  rintro _ ⟨⟩
  exact Or.inl ⟨expected, rfl⟩

@[simp] theorem refuse {r : Reader} : Blames t (r.refuse t) :=
  unexpected

@[simp] theorem ite {c : Prop} [Decidable c] {a b : Except Fault Reader} :
    Blames t (if c then a else b) ↔ (c → Blames t a) ∧ (¬ c → Blames t b) := by
  split <;> simp_all

@[simp] theorem exactly {r : Reader} {text : String} {stage : Stage} : Blames t (r.exactly text t stage) := by
  simp [Reader.exactly]

@[simp] theorem identifier {r : Reader} {stage : String → Stage} : Blames t (r.identifier t stage) := by
  simp [Reader.identifier]

@[simp] theorem dottedName {r : Reader} {valid : List Char → Bool} {stage : String → Stage} :
    Blames t (r.dottedName valid t stage) := by
  have invalid : Blames t (.error (.invalidTypeName t)) := by
    rintro _ ⟨⟩
    exact Or.inr (Or.inl rfl)
  simp [Reader.dottedName, invalid]

@[simp] theorem typeName {r : Reader} {stage : String → Stage} : Blames t (r.typeName t stage) :=
  dottedName

@[simp] theorem integer {r : Reader} {negative : Bool} {stage : Int → Stage} :
    Blames t (r.integer negative t stage) := by
  have invalid : Blames t (.error (.invalidNumber t)) := by
    rintro _ ⟨⟩
    exact Or.inr (Or.inr rfl)
  unfold Reader.integer
  cases Numeral.read? negative t.text.toList <;> simp [invalid]

@[simp] theorem beginField {r : Reader} : Blames t (r.beginField t) := by
  unfold Reader.beginField
  cases Reader.cardinality? t <;> simp

theorem beginSite {r : Reader} : Blames t (r.beginSite t) := by
  unfold Reader.beginSite
  cases r.site.bodies with
  | nil => simp [Reader.beginStatement]
  | cons body outer =>
    cases head : body.head <;> simp [head, Reader.beginExtensionField, Reader.beginMember]

theorem beginEntry {r : Reader} {block : Block} : Blames t (r.beginEntry block t) := by
  cases block with
  | site => exact beginSite
  | oneof decl => simp [Reader.beginEntry, Reader.beginChoice]
  | enum decl => simp [Reader.beginEntry, Reader.beginValue]
  | service decl => simp [Reader.beginEntry, Reader.beginMethod]

/-- Each token is refused for what it is, not for what comes after it. -/
theorem step (r : Reader) (t : Token) : Blames t (r.step t) := by
  unfold Reader.step
  cases r.stage with
  | entry block => exact beginEntry
  | _ => simp [Reader.skip]

end Blames

/-- Whether some file begins with these tokens. -/
def Viable (name : String) (tokens : List Token) : Prop :=
  ∃ more file, (∀ t ∈ more, t.Lexical) ∧ readFile name (tokens ++ more) = .ok file

/-- Whether token number `k` is the first one that no file goes on with. -/
def StopsAt (name : String) (tokens : List Token) (k : Nat) : Prop :=
  Viable name (tokens.take k) ∧ ¬ Viable name (tokens.take (k + 1))

theorem readFile_append : readFile name (ts ++ us) =
    ((Reader.start.run ts).bind fun r => (r.run us).bind Reader.finish).map (File.ofStatements name) := by
  unfold readFile readStatements
  rw [Reader.run_append]
  cases Reader.start.run ts <;> rfl

/-- A file begins with all that the reader does not refuse. -/
theorem viable_iff_run : Viable name ts ↔ ∃ r, Reader.start.run ts = .ok r := by
  constructor
  · rintro ⟨more, file, -, accepted⟩
    rw [readFile_append] at accepted
    cases ran : Reader.start.run ts with
    | ok r => exact ⟨r, rfl⟩
    | error fault =>
      rw [ran] at accepted
      cases accepted
  · rintro ⟨r, ran⟩
    obtain ⟨more, statements, -, lexical, complete⟩ := r.exists_completion
    refine ⟨more, File.ofStatements name statements, lexical, ?_⟩
    rw [readFile_append, ran]
    simp only [Except.bind] at complete ⊢
    rw [complete]
    rfl

theorem viable_nil : Viable name [] :=
  viable_iff_run.2 ⟨Reader.start, rfl⟩

theorem Viable.shorter (viable : Viable name us) (before : ts <+: us) : Viable name ts := by
  obtain ⟨after, rfl⟩ := before
  obtain ⟨r, ran⟩ := viable_iff_run.1 viable
  rw [Reader.run_append] at ran
  cases first : Reader.start.run ts with
  | ok next => exact viable_iff_run.2 ⟨next, first⟩
  | error fault =>
    rw [first] at ran
    cases ran

/-- Tokens that no file begins with are refused in one way, whatever comes after them. -/
theorem exists_error_of_not_viable (stuck : ¬ Viable name ts) : ∃ fault, Reader.start.run ts = .error fault ∧
    ∀ us, ts <+: us → readFile name us = .error fault := by
  cases ran : Reader.start.run ts with
  | ok r => exact absurd (viable_iff_run.2 ⟨r, ran⟩) stuck
  | error fault =>
    refine ⟨fault, rfl, ?_⟩
    rintro us ⟨after, rfl⟩
    rw [readFile_append, ran]
    rfl

theorem viable_iff_schema (lexical : ∀ t ∈ ts, t.Lexical) : Viable name ts ↔
    ∃ more file, (∀ t ∈ more, t.Lexical) ∧ Grammar.Schema name (ts ++ more) file := by
  have derives (more : List Token) (file : File) (others : ∀ t ∈ more, t.Lexical) :
      Grammar.Schema name (ts ++ more) file ↔ readFile name (ts ++ more) = .ok file := by
    rw [readFile_eq_ok]
    exact schema_iff_readStatements (List.forall_mem_append.2 ⟨lexical, others⟩)
  constructor
  · rintro ⟨more, file, others, accepted⟩
    exact ⟨more, file, others, (derives more file others).2 accepted⟩
  · rintro ⟨more, file, others, derived⟩
    exact ⟨more, file, others, (derives more file others).1 derived⟩

/-- A token that cannot come after others is refused itself. -/
theorem at_of_run_append (before : Viable name ts) (refused : Reader.start.run (ts ++ [t]) = .error fault) :
    fault.At t := by
  obtain ⟨r, ran⟩ := viable_iff_run.1 before
  rw [Reader.run_append, ran] at refused
  cases stepped : r.step t with
  | ok next => simp [Except.bind, Reader.run, stepped] at refused
  | error found =>
    simp only [Except.bind, Reader.run, stepped, Except.error.injEq] at refused
    exact refused ▸ Blames.step r t found stepped

namespace StopsAt

theorem lt_length (stops : StopsAt name tokens k) : k < tokens.length := by
  refine Nat.lt_of_not_le fun outside => ?_
  have all : tokens.take k = tokens := List.take_of_length_le (by omega)
  have more : tokens.take (k + 1) = tokens := List.take_of_length_le (by omega)
  have viable := stops.1
  rw [all, ← more] at viable
  exact stops.2 viable

theorem unique {j : Nat} (one : StopsAt name tokens j) (other : StopsAt name tokens k) : j = k := by
  have le {a b : Nat} (first : StopsAt name tokens a) (second : StopsAt name tokens b) : b ≤ a := by
    refine Nat.le_of_not_lt fun before => first.2 (second.1.shorter ?_)
    exact List.take_prefix_take_left (by omega)
  exact Nat.le_antisymm (le other one) (le one other)

theorem same_error (stops : StopsAt name tokens k) (rejected : readFile name tokens = .error fault)
    (before : tokens.take (k + 1) <+: us) : readFile name us = .error fault := by
  obtain ⟨found, -, same⟩ := exists_error_of_not_viable stops.2
  have here := same tokens (List.take_prefix ..)
  rw [rejected] at here
  rw [Except.error.inj here]
  exact same us before

theorem fault_at (stops : StopsAt name tokens k) (rejected : readFile name tokens = .error fault)
    (inside : k < tokens.length) : fault.At tokens[k] := by
  obtain ⟨found, refused, same⟩ := exists_error_of_not_viable stops.2
  have here := same tokens (List.take_prefix ..)
  rw [rejected] at here
  rw [Except.error.inj here]
  rw [List.take_succ_eq_append_getElem inside] at refused
  exact at_of_run_append stops.1 refused

theorem exists_of_not_viable (stuck : ¬ Viable name tokens) : ∃ k, StopsAt name tokens k := by
  have first (n : Nat) (stuck : ¬ Viable name (tokens.take n)) : ∃ k, StopsAt name tokens k := by
    -- From the empty list, which is viable, to a longer one that is not, some token makes the difference.
    induction n with
    | zero => exact absurd viable_nil stuck
    | succ n ih =>
      by_cases viable : Viable name (tokens.take n)
      · exact ⟨n, viable, stuck⟩
      · exact ih viable
  refine first tokens.length ?_
  rwa [List.take_length]

end StopsAt

theorem Reader.finish_error {r : Reader} (failed : r.finish = .error fault) :
    fault = .unexpectedEnd r.expected := by
  unfold Reader.finish at failed
  split at failed
  · cases failed
  · exact (Except.error.inj failed).symm

theorem unexpectedEnd_of_viable (viable : Viable name tokens) (rejected : readFile name tokens = .error fault) :
    ∃ expected, fault = .unexpectedEnd expected := by
  obtain ⟨r, ran⟩ := viable_iff_run.1 viable
  unfold readFile readStatements at rejected
  rw [ran] at rejected
  cases ended : r.finish with
  | ok statements =>
    simp only [Except.bind, ended] at rejected
    cases rejected
  | error found =>
    simp only [Except.bind, ended] at rejected
    obtain rfl := Except.error.inj rejected
    exact ⟨r.expected, Reader.finish_error ended⟩

theorem unexpectedEnd_iff_viable (rejected : readFile name tokens = .error fault) :
    (∃ expected, fault = .unexpectedEnd expected) ↔ Viable name tokens := by
  refine ⟨?_, fun viable => unexpectedEnd_of_viable viable rejected⟩
  rintro ⟨expected, atEnd⟩
  refine Classical.byContradiction fun stuck => ?_
  obtain ⟨k, stops⟩ := StopsAt.exists_of_not_viable stuck
  exact (stops.fault_at rejected stops.lt_length).ne_unexpectedEnd atEnd

theorem marks_iff_stopsAt {span : Span} (rejected : readFile name tokens = .error fault) :
    fault.Marks span ↔ ∃ k, ∃ inside : k < tokens.length, tokens[k].span = span ∧ StopsAt name tokens k := by
  constructor
  · rintro ⟨t, shown, rfl⟩
    have stuck : ¬ Viable name tokens := by
      intro viable
      obtain ⟨expected, atEnd⟩ := unexpectedEnd_of_viable viable rejected
      exact shown.ne_unexpectedEnd atEnd
    obtain ⟨k, stops⟩ := StopsAt.exists_of_not_viable stuck
    have inside := stops.lt_length
    have same := (stops.fault_at rejected inside).eq shown
    exact ⟨k, inside, by rw [same], stops⟩
  · rintro ⟨k, inside, rfl, stops⟩
    exact ⟨tokens[k], stops.fault_at rejected inside, rfl⟩

/-- A list of tokens that is refused ends too early exactly if a file begins with it. Otherwise the fault
shows at the first token that no file goes on with, and it is the same whatever comes after that token. -/
theorem readFile_fault_first (rejected : readFile name tokens = .error fault) :
    ((∃ expected, fault = .unexpectedEnd expected) ↔ Viable name tokens) ∧
    (∀ span, fault.Marks span ↔ ∃ k, ∃ inside : k < tokens.length, tokens[k].span = span ∧ StopsAt name tokens k) ∧
    ((tokens.map Token.span).Nodup → ∀ k (inside : k < tokens.length),
      fault.Marks tokens[k].span ↔ StopsAt name tokens k) ∧
    ∀ k, StopsAt name tokens k → ∀ us, tokens.take (k + 1) <+: us → readFile name us = .error fault := by
  refine ⟨unexpectedEnd_iff_viable rejected, fun _ => marks_iff_stopsAt rejected, ?_,
    fun k stops us before => stops.same_error rejected before⟩
  intro apart k inside
  rw [marks_iff_stopsAt rejected]
  constructor
  · rintro ⟨j, within, same, stops⟩
    have equal : j = k := by
      refine (List.getElem?_inj (by simpa using within) apart).1 ?_
      simp [within, inside, same]
    exact equal ▸ stops
  · intro stops
    exact ⟨k, inside, rfl, stops⟩

/-- `message M { int32 x = y ; }`. -/
def misnumberedTokens : List Token :=
  [⟨.word, "message", 1, 1, ⟨0, 7⟩, none⟩, ⟨.word, "M", 1, 9, ⟨8, 9⟩, none⟩, ⟨.symbol, "\x7b", 1, 11, ⟨10, 11⟩, none⟩,
    ⟨.word, "int32", 1, 13, ⟨12, 17⟩, none⟩, ⟨.word, "x", 1, 19, ⟨18, 19⟩, none⟩, ⟨.symbol, "=", 1, 21, ⟨20, 21⟩, none⟩,
    ⟨.word, "y", 1, 23, ⟨22, 23⟩, none⟩, ⟨.symbol, ";", 1, 25, ⟨24, 25⟩, none⟩, ⟨.symbol, "\x7d", 1, 27, ⟨26, 27⟩, none⟩]

/-- Some file begins with the tokens up to the equals sign, but none goes on with a word that is no number. -/
theorem stopsAt_misnumbered :
    readFile "m" misnumberedTokens = .error (.invalidNumber ⟨.word, "y", 1, 23, ⟨22, 23⟩, none⟩) ∧
      ¬ Viable "m" misnumberedTokens ∧ StopsAt "m" misnumberedTokens 6 ∧ ∀ us, misnumberedTokens.take 7 <+: us →
        readFile "m" us = .error (.invalidNumber ⟨.word, "y", 1, 23, ⟨22, 23⟩, none⟩) := by
  have rejected : readFile "m" misnumberedTokens = .error (.invalidNumber ⟨.word, "y", 1, 23, ⟨22, 23⟩, none⟩) := rfl
  obtain ⟨ends, -, first, same⟩ := readFile_fault_first rejected
  have stops : StopsAt "m" misnumberedTokens 6 :=
    (first (by decide) 6 (by decide)).1 ⟨_, Or.inr (Or.inr rfl), rfl⟩
  refine ⟨rejected, ?_, stops, same 6 stops⟩
  intro viable
  obtain ⟨expected, atEnd⟩ := ends.2 viable
  cases atEnd

end ProtoSchema
