import ProtoSchema.Proofs.File.Joined
import ProtoSchema.Proofs.Reader.FirstFault

namespace ProtoSchema

/-- Takes all labels off: no comments are left, and everything stands at the same place. -/
def Relabel.erase : Relabel :=
  ⟨fun _ => none, fun _ => 0, fun _ => 0, fun _ => 0⟩

theorem Token.erase_eq_iff {t u : Token} : Relabel.erase.token t = Relabel.erase.token u ↔ t.spelling = u.spelling := by
  simp [Relabel.token, Relabel.erase, Relabel.span, spelling]

/-- Whether two files differ in comments, lines and the places of their imports only. No row comes before
their tables, so that whatever names a place in them names the same one in both. -/
def File.Alike (a b : File) : Prop :=
  Relabel.erase.file ⟨0, 0⟩ a = Relabel.erase.file ⟨0, 0⟩ b

/-- Whether faults in two lists of tokens say the same of the same token, or of the end. -/
inductive Fault.Alike (ts us : List Token) : Fault → Fault → Prop
  | unexpected {k : Nat} {t u : Token} {expected : Expectation} (first : ts[k]? = some t) (second : us[k]? = some u)
      (same : t.spelling = u.spelling) : Alike ts us (.unexpected expected t) (.unexpected expected u)
  | invalidTypeName {k : Nat} {t u : Token} (first : ts[k]? = some t) (second : us[k]? = some u)
      (same : t.spelling = u.spelling) : Alike ts us (.invalidTypeName t) (.invalidTypeName u)
  | invalidNumber {k : Nat} {t u : Token} (first : ts[k]? = some t) (second : us[k]? = some u)
      (same : t.spelling = u.spelling) : Alike ts us (.invalidNumber t) (.invalidNumber u)
  | unexpectedEnd {expected : Expectation} : Alike ts us (.unexpectedEnd expected) (.unexpectedEnd expected)

/-- Alike faults are reported in the same words. -/
theorem Fault.Alike.message_eq {ts us : List Token} {f g : Fault} (alike : Fault.Alike ts us f g) :
    f.message = g.message := by
  have erased : Relabel.erase.fault f = Relabel.erase.fault g := by
    cases alike with
    | unexpectedEnd => rfl
    | unexpected _ _ same | invalidTypeName _ _ same | invalidNumber _ _ same =>
      simp only [Relabel.fault, Token.erase_eq_iff.2 same]
  rw [← Relabel.erase.message_fault f, erased, Relabel.message_fault]

@[simp] theorem MessageId.past_zero (id : MessageId) : id.past ⟨0, 0⟩ = id := by
  simp [past]

@[simp] theorem EnumId.past_zero (id : EnumId) : id.past ⟨0, 0⟩ = id := by
  simp [past]

@[simp] theorem Scope.past_zero (scope : Scope) : scope.past ⟨0, 0⟩ = scope := by
  cases scope <;> simp [past]

@[simp] theorem TypeRef.past_zero (ref : TypeRef) : ref.past ⟨0, 0⟩ = ref := by
  simp [past]

/-- With other labels on the statements, a file has other labels and is the same else. -/
theorem Relabel.file_ofStatements (f : Relabel) (name : String) (statements : List Statement) :
    File.ofStatements name (statements.map f.statement) = f.file ⟨0, 0⟩ (File.ofStatements name statements) := by
  have behind := File.ofStatements_behind f [] statements name
  have nothing : File.ofStatements name [] = File.named name := rfl
  rw [List.nil_append, nothing] at behind
  rw [behind]
  simp [File.append, File.named, Relabel.file, File.room, File.ofStatements]

section Reading

variable {name : String} {ts us : List Token}

/-- What is read of tokens without labels. -/
theorem Relabel.readStatements_token (f : Relabel) (tokens : List Token) : readStatements (tokens.map f.token) =
    ((readStatements tokens).map fun statements => statements.map f.statement).mapError f.fault := by
  have nothing : readStatements [] = .ok [] := rfl
  simpa using readStatements_append f nothing tokens

theorem Relabel.readFile_token (f : Relabel) (name : String) (tokens : List Token) :
    readFile name (tokens.map f.token) = ((readFile name tokens).map (f.file ⟨0, 0⟩)).mapError f.fault := by
  unfold readFile
  rw [readStatements_token]
  cases readStatements tokens with
  | error fault => rfl
  | ok statements => exact congrArg Except.ok (f.file_ofStatements name statements)

/-- Tokens that are the same but for their labels come to the same end but for these. -/
theorem Relabel.readFile_same (f : Relabel) (name : String) (same : ts.map f.token = us.map f.token) :
    (∃ a b, readFile name ts = .ok a ∧ readFile name us = .ok b ∧ f.file ⟨0, 0⟩ a = f.file ⟨0, 0⟩ b) ∨
      ∃ e g, readFile name ts = .error e ∧ readFile name us = .error g ∧ f.fault e = f.fault g := by
  have read : ((readFile name ts).map (f.file ⟨0, 0⟩)).mapError f.fault =
      ((readFile name us).map (f.file ⟨0, 0⟩)).mapError f.fault := by
    rw [← readFile_token, ← readFile_token, same]
  cases first : readFile name ts with
  | ok a =>
    cases second : readFile name us with
    | ok b =>
      rw [first, second] at read
      exact Or.inl ⟨a, b, rfl, rfl, Except.ok.inj read⟩
    | error g =>
      rw [first, second] at read
      cases read
  | error e =>
    cases second : readFile name us with
    | ok b =>
      rw [first, second] at read
      cases read
    | error g =>
      rw [first, second] at read
      exact Or.inr ⟨e, g, rfl, rfl, Except.error.inj read⟩

variable (same : ts.map Token.spelling = us.map Token.spelling)

include same

theorem map_erase_eq : ts.map Relabel.erase.token = us.map Relabel.erase.token := by
  have unlabelled (tokens : List Token) : tokens.map Relabel.erase.token =
      (tokens.map Token.spelling).map fun (kind, text) => ⟨kind, text, 0, 0, ⟨0, 0⟩, none⟩ := by
    simp [Token.spelling, Relabel.erase, Relabel.token, Relabel.span]
  rw [unlabelled, unlabelled, same]

/-- Whether a file begins with some tokens depends on what they say only. -/
theorem Viable.alike (viable : Viable name ts) : Viable name us := by
  obtain ⟨r, ran⟩ := viable_iff_run.1 viable
  have start : Relabel.erase.reader [] Reader.start = Reader.start := rfl
  have first := Relabel.erase.run_reader [] Reader.start ts
  have second := Relabel.erase.run_reader [] Reader.start us
  rw [map_erase_eq same, start, ran] at first
  rw [start, first] at second
  cases other : Reader.start.run us with
  | ok next => exact viable_iff_run.2 ⟨next, other⟩
  | error fault =>
    rw [other] at second
    cases second

theorem StopsAt.alike {k : Nat} (stops : StopsAt name ts k) : StopsAt name us k := by
  have upTo (n : Nat) : (ts.take n).map Token.spelling = (us.take n).map Token.spelling := by
    rw [List.map_take, List.map_take, same]
  exact ⟨stops.1.alike (upTo k), fun viable => stops.2 (viable.alike (upTo (k + 1)).symm)⟩

/-- Faults in alike tokens show at the token of the same number, and say the same of it. -/
theorem Fault.alike {f g : Fault} (first : readFile name ts = .error f) (second : readFile name us = .error g)
    (erased : Relabel.erase.fault f = Relabel.erase.fault g) : Fault.Alike ts us f g := by
  by_cases viable : Viable name ts
  · obtain ⟨expected, rfl⟩ := unexpectedEnd_of_viable viable first
    obtain ⟨other, rfl⟩ := unexpectedEnd_of_viable (viable.alike same) second
    cases erased
    exact .unexpectedEnd
  · obtain ⟨k, stops⟩ := StopsAt.exists_of_not_viable viable
    have stopsToo := stops.alike same
    have inside := stops.lt_length
    have insideToo := stopsToo.lt_length
    have at_k : ts[k]? = some ts[k] := List.getElem?_eq_getElem inside
    have at_k' : us[k]? = some us[k] := List.getElem?_eq_getElem insideToo
    rcases stops.fault_at first inside with ⟨expected, rfl⟩ | rfl | rfl
    · rcases stopsToo.fault_at second insideToo with ⟨other, rfl⟩ | rfl | rfl
      · obtain ⟨rfl, tokens⟩ := Fault.unexpected.inj erased
        exact .unexpected at_k at_k' (Token.erase_eq_iff.1 tokens)
      · cases erased
      · cases erased
    · rcases stopsToo.fault_at second insideToo with ⟨other, rfl⟩ | rfl | rfl
      · cases erased
      · exact .invalidTypeName at_k at_k' (Token.erase_eq_iff.1 (Fault.invalidTypeName.inj erased))
      · cases erased
    · rcases stopsToo.fault_at second insideToo with ⟨other, rfl⟩ | rfl | rfl
      · cases erased
      · cases erased
      · exact .invalidNumber at_k at_k' (Token.erase_eq_iff.1 (Fault.invalidNumber.inj erased))

/-- Reading alike tokens comes to the same end: alike files, or alike faults. -/
theorem readFile_alike :
    (∃ a b, readFile name ts = .ok a ∧ readFile name us = .ok b ∧ a.Alike b) ∨
      ∃ f g, readFile name ts = .error f ∧ readFile name us = .error g ∧ Fault.Alike ts us f g := by
  rcases Relabel.erase.readFile_same name (map_erase_eq same) with
    ⟨a, b, first, second, alike⟩ | ⟨f, g, first, second, erased⟩
  · exact Or.inl ⟨a, b, first, second, alike⟩
  · exact Or.inr ⟨f, g, first, second, Fault.alike same first second erased⟩

end Reading

/-- A text that falls into tokens is read as they are. -/
theorem parse_of_tokenize {name source : String} {tokens : List Token} (scanned : tokenize name source = .ok tokens) :
    parse name source = (readFile name tokens).mapError (SyntaxError.ofFault name source.toList) := by
  unfold parse readFile
  rw [tokenize_eq_ok.1 scanned]
  simp only [Except.bind]
  cases readStatements tokens <;> rfl

/-- Two texts whose tokens have the same kinds and texts both parse, into files that differ in comments, lines
and the places of imports only, or both fail, with the same words about the token of the same number. -/
theorem parse_alike {name first second : String} {ts us : List Token} (one : tokenize name first = .ok ts)
    (other : tokenize name second = .ok us) (same : ts.map Token.spelling = us.map Token.spelling) :
    (∃ a b, parse name first = .ok a ∧ parse name second = .ok b ∧ a.Alike b) ∨
      ∃ e f, parse name first = .error e ∧ parse name second = .error f ∧ e.message = f.message ∧
        Fault.Alike ts us e.fault f.fault := by
  rw [parse_of_tokenize one, parse_of_tokenize other]
  rcases readFile_alike same with ⟨a, b, first, second, alike⟩ | ⟨f, g, first, second, alike⟩
  · rw [first, second]
    exact Or.inl ⟨a, b, rfl, rfl, alike⟩
  · rw [first, second]
    exact Or.inr ⟨_, _, rfl, rfl, alike.message_eq, alike⟩

/-- The message `A` once more, in other lines and with another comment. -/
def spread : String :=
  "\nmessage // the name follows\n\nA {}"

/-- Neither file is the other one, but they are alike. -/
theorem parse_alike_spread : ∃ ts us, tokenize "m" commented = .ok ts ∧ tokenize "m" spread = .ok us ∧
    ts.map Token.spelling = us.map Token.spelling ∧
    ∃ a b, parse "m" commented = .ok a ∧ parse "m" spread = .ok b ∧ a.Alike b ∧
      a.messageTable.map Message.line = [1] ∧ b.messageTable.map Message.line = [2] := by
  have compactScan : scanTokens commented.toList = .ok
      [⟨.word, "message", 1, 1, ⟨0, 7⟩, some "of A"⟩, ⟨.word, "A", 1, 9, ⟨8, 9⟩, some "of A"⟩,
        ⟨.symbol, "\x7b", 1, 11, ⟨10, 11⟩, some "of A"⟩, ⟨.symbol, "\x7d", 1, 13, ⟨12, 13⟩, some "of A"⟩] :=
    scanTokens_eq_ok.2 (by decide +kernel)
  have spreadScan : scanTokens spread.toList = .ok
      [⟨.word, "message", 2, 1, ⟨1, 8⟩, some "the name follows"⟩, ⟨.word, "A", 4, 1, ⟨30, 31⟩, none⟩,
        ⟨.symbol, "\x7b", 4, 3, ⟨32, 33⟩, none⟩, ⟨.symbol, "\x7d", 4, 4, ⟨33, 34⟩, none⟩] :=
    scanTokens_eq_ok.2 (by decide +kernel)
  have compactFile : parse "m" commented = .ok commentedFile := by
    rw [parse, compactScan]
    rfl
  have spreadFile : parse "m" spread = .ok { commentedFile with
      messageTable := [⟨⟨0⟩, "A", some "the name follows", 2, .file, [], [], [], []⟩] } := by
    rw [parse, spreadScan]
    rfl
  have one : tokenize "m" commented = .ok _ := tokenize_eq_ok.2 compactScan
  have other : tokenize "m" spread = .ok _ := tokenize_eq_ok.2 spreadScan
  refine ⟨_, _, one, other, rfl, ?_⟩
  rcases parse_alike one other rfl with ⟨a, b, first, second, alike⟩ | ⟨e, f, failed, -, -⟩
  · refine ⟨a, b, first, second, alike, ?_, ?_⟩
    · rw [← Except.ok.inj (compactFile.symm.trans first)]
      rfl
    · rw [← Except.ok.inj (spreadFile.symm.trans second)]
      rfl
  · rw [compactFile] at failed
    cases failed

end ProtoSchema
