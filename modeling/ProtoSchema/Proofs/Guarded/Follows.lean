import ProtoSchema.Proofs.Guarded.Grammar
import ProtoSchema.Proofs.Token.Lexical

namespace ProtoSchema

namespace Reader

variable {r next : Reader} {t : Token} {rest : List Token} {fault : Fault}

/-- What the reader gives for the tokens up to the end. -/
def answer (r : Reader) (tokens : List Token) : Except Fault (List Statement) :=
  (r.run tokens).bind finish

theorem answer_cons (read : r.step t = .ok next) : r.answer (t :: rest) = next.answer rest := by
  simp [answer, run, read]

theorem answer_of_error (refused : r.step t = .error fault) : r.answer (t :: rest) = .error fault := by
  simp [answer, run, refused, Except.bind]

/-- States that read the next token alike give the same. -/
theorem answer_congr (same : r.step t = next.step t) : r.answer (t :: rest) = next.answer (t :: rest) := by
  simp [answer, run, same]

end Reader

namespace Descent

variable {α β : Type} {taken more : Nat} {m : Descent α} {s : State} {r next : Reader} {t : Token}
  {rest : List Token} {file : File}

/-- What is right about an outcome, where the reader was at `r` before: no less than `taken` tokens have been taken, and
the reader gives for the tokens that are left what it gave for all of them. -/
def Outcome.Right (taken : Nat) (s : State) (r : Reader) (post : α → State → Reader → Prop) : Outcome α → Prop
  | .ok a after => after.tokens <:+ s.tokens ∧ after.tokens.length + taken ≤ s.tokens.length ∧
      ∃ next : Reader, r.answer s.tokens = next.answer after.tokens ∧ post a after next
  | .refused fault => r.answer s.tokens = .error fault
  | .broken _ => False

/-- Whether a part of the grammar follows the reader from a state of it: without a breach, it takes some tokens after
which the reader is at a state that is known, or it refuses the source with the fault that the reader finds. -/
def Follows (taken : Nat) (m : Descent α) (s : State) (r : Reader) (post : α → State → Reader → Prop) : Prop :=
  (∀ t ∈ s.tokens, t.Lexical) → (m s).Right taken s r post

namespace Outcome.Right

variable {post other : α → State → Reader → Prop} {outcome : Outcome α}

theorem mono (right : outcome.Right taken s r post) (less : more ≤ taken)
    (implies : ∀ a after next, after.tokens.length + taken ≤ s.tokens.length → post a after next → other a after next) :
    outcome.Right more s r other := by
  cases outcome with
  | ok a after =>
    obtain ⟨suffix, length, next, same, holds⟩ := right
    exact ⟨suffix, by omega, next, same, implies a after next length holds⟩
  | refused fault => exact right
  | broken breach => exact right

/-- What is right after some tokens have been taken is right from before them. -/
theorem since {after : State} (right : outcome.Right more after next post) (suffix : after.tokens <:+ s.tokens)
    (length : after.tokens.length + taken ≤ s.tokens.length) (same : r.answer s.tokens = next.answer after.tokens) :
    outcome.Right (taken + more) s r post := by
  cases outcome with
  | ok a final =>
    obtain ⟨laterSuffix, laterLength, reached, sameLater, holds⟩ := right
    exact ⟨laterSuffix.trans suffix, by omega, reached, same.trans sameLater, holds⟩
  | refused fault => exact same.trans right
  | broken breach => exact right

end Outcome.Right

namespace Follows

variable {post other : α → State → Reader → Prop}

theorem pure {a : α} (holds : post a s r) : Follows 0 (pure a : Descent α) s r post :=
  fun _ => ⟨List.suffix_refl _, Nat.le_refl _, r, rfl, holds⟩

theorem mono (follows : Follows taken m s r post) (less : more ≤ taken)
    (implies : ∀ a after next, post a after next → other a after next) : Follows more m s r other :=
  fun lexical => (follows lexical).mono less fun a after next _ => implies a after next

theorem weaken (follows : Follows taken m s r post) : Follows 0 m s r post :=
  follows.mono (Nat.zero_le _) fun _ _ _ holds => holds

/-- If a token is taken, there are less tokens left than before. -/
theorem strict (follows : Follows 1 m s r post) :
    Follows 0 m s r fun a after next => after.tokens.length < s.tokens.length ∧ post a after next :=
  fun lexical => (follows lexical).mono (Nat.zero_le _) fun _ _ _ shorter holds => ⟨shorter, holds⟩

/-- From states that give the same for what is left, a part follows the reader alike. -/
theorem of_answer (same : r.answer s.tokens = next.answer s.tokens) (follows : Follows taken m s next post) :
    Follows taken m s r post := by
  intro lexical
  have none : s.tokens.length + 0 ≤ s.tokens.length := Nat.le_refl _
  have right := (follows lexical).since (List.suffix_refl _) none same
  rwa [Nat.zero_add] at right

theorem bind {p : β → State → Reader → Prop} {part : Descent β} {f : β → Descent α}
    (first : Follows taken part s r p)
    (second : ∀ b after next, p b after next → Follows more (f b) after next post) :
    Follows (taken + more) (part >>= f) s r post := by
  intro lexical
  have result := first lexical
  rw [bind_apply]
  cases outcome : part s with
  | ok b after =>
    rw [outcome] at result
    obtain ⟨suffix, length, next, same, holds⟩ := result
    exact (second b after next holds fun t member => lexical t (suffix.subset member)).since suffix length same
  | refused fault => rwa [outcome] at result
  | broken breach => rwa [outcome] at result

/-- A part that takes a token, and then another one. -/
theorem first {p : β → State → Reader → Prop} {part : Descent β} {f : β → Descent α}
    (first : Follows 1 part s r p) (second : ∀ b after next, p b after next → Follows 0 (f b) after next post) :
    Follows 1 (part >>= f) s r post :=
  first.bind second

theorem seq {p : β → State → Reader → Prop} {part : Descent β} {f : β → Descent α}
    (first : Follows taken part s r p) (second : ∀ b after next, p b after next → Follows 0 (f b) after next post) :
    Follows 0 (part >>= f) s r post :=
  (first.bind second).weaken

theorem ite {c : Prop} [Decidable c] {m other : Descent α} (holds : c → Follows taken m s r post)
    (fails : ¬c → Follows taken other s r post) : Follows taken (if c then m else other) s r post := by
  split
  · exact holds ‹_›
  · exact fails ‹_›

/-- Where the reader decides in the same way. -/
theorem choose {c : Prop} [Decidable c] {m other : Descent α} {result otherwise : Except Fault Reader}
    (step : r.step t = if c then result else otherwise)
    (holds : c → r.step t = result → Follows taken m ⟨t :: rest, file⟩ r post)
    (fails : ¬c → r.step t = otherwise → Follows taken other ⟨t :: rest, file⟩ r post) :
    Follows taken (if c then m else other) ⟨t :: rest, file⟩ r post :=
  ite (fun yes => holds yes (by rw [step, if_pos yes])) fun no => fails no (by rw [step, if_neg no])

/-- The next token is one that a source can give. -/
theorem lexical (follows : t.Lexical → Follows taken m ⟨t :: rest, file⟩ r post) :
    Follows taken m ⟨t :: rest, file⟩ r post :=
  fun lexical => follows (lexical t List.mem_cons_self) lexical

/-- A part that does with one token what the reader does. -/
theorem single
    (ends : ∀ file, s.tokens = [] → ∃ fault, m ⟨[], file⟩ = .refused fault ∧ r.finish = .error fault)
    (steps : ∀ t rest, s.tokens = t :: rest → t.Lexical →
      (∃ a next, m s = .ok a ⟨rest, s.file⟩ ∧ r.step t = .ok next ∧ post a ⟨rest, s.file⟩ next) ∨
        ∃ fault, m s = .refused fault ∧ r.step t = .error fault) : Follows 1 m s r post := by
  obtain ⟨tokens, file⟩ := s
  intro lexical
  cases tokens with
  | nil =>
    obtain ⟨fault, refused, same⟩ := ends file rfl
    rw [refused]
    exact same
  | cons t rest =>
    rcases steps t rest rfl (lexical t List.mem_cons_self) with ⟨a, next, taken, read, holds⟩ | ⟨fault, refused, read⟩
    · rw [taken]
      exact ⟨List.suffix_cons t rest, Nat.le_refl _, next, Reader.answer_cons read, holds⟩
    · rw [refused]
      exact Reader.answer_of_error read

theorem bump (read : r.step t = .ok next) :
    Follows 1 Descent.bump ⟨t :: rest, file⟩ r fun u after reached => t = u ∧ after = ⟨rest, file⟩ ∧ reached = next :=
  fun _ => ⟨List.suffix_cons t rest, Nat.le_refl _, next, Reader.answer_cons read, rfl, rfl, rfl⟩

theorem drop (read : r.step t = .ok next) :
    Follows 1 Descent.drop ⟨t :: rest, file⟩ r fun _ after reached => after = ⟨rest, file⟩ ∧ reached = next :=
  fun _ => ⟨List.suffix_cons t rest, Nat.le_refl _, next, Reader.answer_cons read, rfl, rfl⟩

/-- Takes a token that has been looked at, and is done. -/
theorem dropped {a : α} (read : r.step t = .ok next) (holds : post a ⟨rest, file⟩ next) :
    Follows 1 (do Descent.drop; return a) ⟨t :: rest, file⟩ r post := by
  refine (drop read).first ?_
  rintro - _ _ ⟨rfl, rfl⟩
  exact pure holds

theorem read {f : File → Descent α} (follows : Follows taken (f s.file) s r post) :
    Follows taken (Descent.read >>= f) s r post :=
  follows

theorem write {f : Unit → Descent α} (follows : Follows taken (f ()) ⟨s.tokens, file⟩ r post) :
    Follows taken (Descent.write file >>= f) s r post :=
  follows

/-- Writes a file that is made of the one so far. -/
theorem written {f : File → File} {post : Unit → State → Reader → Prop} (holds : post () ⟨s.tokens, f s.file⟩ r) :
    Follows 0 (do let file ← Descent.read; Descent.write (f file)) s r post :=
  fun _ => ⟨List.suffix_refl _, Nat.le_refl _, r, rfl, holds⟩

/-- Looking at the next token takes nothing. -/
theorem peek {f : Option Token → Descent α} (follows : Follows taken (f s.tokens.head?) s r post) :
    Follows taken (Descent.peek >>= f) s r post :=
  follows

theorem peekSecond {f : Option Token → Descent α} (follows : Follows taken (f s.tokens[1]?) s r post) :
    Follows taken (Descent.peekSecond >>= f) s r post :=
  follows

theorem comment {f : Option String → Descent α} (follows : Follows taken (f t.comment) ⟨t :: rest, file⟩ r post) :
    Follows taken (Descent.comment >>= f) ⟨t :: rest, file⟩ r post :=
  follows

theorem isNext {text : String} {f : Bool → Descent α}
    (follows : Follows taken (f (s.tokens.head?.any (·.is text))) s r post) :
    Follows taken (Descent.isNext text >>= f) s r post :=
  follows

/-- Takes the next token if it is the one that is looked for. -/
theorem eat {text : String} (read : ∀ t ∈ s.tokens.head?, t.is text → r.step t = .ok next) :
    Follows 0 (Descent.eat text) s r fun found after reached =>
      (found = true ∧ after.file = s.file ∧ reached = next) ∨
        found = false ∧ after = s ∧ reached = r ∧ ∀ t ∈ s.tokens.head?, t.is text = false := by
  obtain ⟨tokens, file⟩ := s
  cases tokens with
  | nil => exact pure (Or.inr ⟨rfl, rfl, rfl, nofun⟩)
  | cons t rest =>
    by_cases spelled : t.is text
    · have unfolded : Descent.eat text ⟨t :: rest, file⟩ = .ok true ⟨rest, file⟩ := by
        simp [Descent.eat, Descent.isNext, Descent.peek, Descent.drop, Descent.bump, spelled]
      intro _
      rw [unfolded]
      exact ⟨List.suffix_cons t rest, Nat.le_succ _, next, Reader.answer_cons (read t rfl spelled),
        Or.inl ⟨rfl, rfl, rfl⟩⟩
    · have unfolded : Descent.eat text ⟨t :: rest, file⟩ = .ok false ⟨t :: rest, file⟩ := by
        simp [Descent.eat, Descent.isNext, Descent.peek, spelled]
      intro _
      rw [unfolded]
      have other : ∀ u ∈ (State.mk (t :: rest) file).tokens.head?, u.is text = false := by
        rintro _ ⟨⟩
        simpa using spelled
      exact ⟨List.suffix_refl _, Nat.le_refl _, r, rfl, Or.inr ⟨rfl, rfl, rfl, other⟩⟩

theorem ended {expected : Expectation} (ends : r.finish = .error (.unexpectedEnd expected)) :
    Follows taken (Descent.unexpected expected : Descent α) ⟨[], file⟩ r post :=
  fun _ => ends

theorem refused {expected : Expectation} (step : r.step t = .error (.unexpected expected t)) :
    Follows taken (Descent.unexpected expected : Descent α) ⟨t :: rest, file⟩ r post :=
  fun _ => Reader.answer_of_error step

/-- Takes a token that the reader reads. -/
theorem takeIf {accepts : Token → Bool} {expected : Expectation} {g : Token → Reader}
    (ends : s.tokens = [] → r.finish = .error (.unexpectedEnd expected))
    (steps : ∀ t ∈ s.tokens.head?, r.step t = if accepts t then .ok (g t) else .error (.unexpected expected t)) :
    Follows 1 (Descent.takeIf accepts expected) s r fun t after next =>
      s.tokens = t :: after.tokens ∧ accepts t ∧ after.file = s.file ∧ next = g t := by
  refine single (fun _ empty => ⟨_, rfl, ends empty⟩) ?_
  obtain ⟨tokens, file⟩ := s
  rintro t rest rfl -
  have step := steps t rfl
  by_cases accepted : accepts t
  · simp only [accepted, if_true] at step
    exact Or.inl ⟨t, g t, by simp [Descent.takeIf, Descent.peek, Descent.bump, accepted], step, rfl, accepted, rfl, rfl⟩
  · simp only [accepted] at step
    exact Or.inr ⟨_, by simp [Descent.takeIf, Descent.peek, Descent.unexpected, refuse, accepted], step⟩

theorem expect {text : String} {g : Token → Reader}
    (ends : s.tokens = [] → r.finish = .error (.unexpectedEnd (.literal text)))
    (steps : ∀ t ∈ s.tokens.head?,
      r.step t = if t.is text then .ok (g t) else .error (.unexpected (.literal text) t)) :
    Follows 1 (Descent.expect text) s r fun t after next =>
      s.tokens = t :: after.tokens ∧ t.is text ∧ after.file = s.file ∧ next = g t :=
  takeIf ends steps

/-- Takes a keyword that has been looked at. -/
theorem keyword {text : String} (spelled : t.is text) (read : r.step t = .ok next) :
    Follows 1 (Descent.expect text) ⟨t :: rest, file⟩ r fun u after reached =>
      t = u ∧ after = ⟨rest, file⟩ ∧ reached = next := by
  have taken : Descent.expect text ⟨t :: rest, file⟩ = .ok t ⟨rest, file⟩ := by
    simp [Descent.expect, Descent.takeIf, Descent.peek, Descent.bump, spelled]
  intro _
  rw [taken]
  exact ⟨List.suffix_cons t rest, Nat.le_refl _, next, Reader.answer_cons read, rfl, rfl, rfl⟩

theorem identifier {g : String → Stage} (ends : s.tokens = [] → r.finish = .error (.unexpectedEnd .identifier))
    (steps : ∀ t ∈ s.tokens.head?, r.step t = r.identifier t g) :
    Follows 1 Descent.identifier s r fun t after next =>
      s.tokens = t :: after.tokens ∧ after.file = s.file ∧ next = ⟨r.site, g t.text⟩ := by
  refine (takeIf (g := fun t => ⟨r.site, g t.text⟩) ends fun t head => ?_).mono (Nat.le_refl _) ?_
  · rw [steps t head, Reader.identifier]
    simp only [decide_eq_true_eq]
    rfl
  · rintro t after next ⟨tokens, -, file, rfl⟩
    exact ⟨tokens, file, rfl⟩

theorem stringLiteral {g : Token → Reader}
    (ends : s.tokens = [] → r.finish = .error (.unexpectedEnd .stringLiteral))
    (steps : ∀ t ∈ s.tokens.head?, r.step t =
      if t.kind = .string then .ok (g t) else .error (.unexpected .stringLiteral t)) :
    Follows 1 Descent.stringLiteral s r fun t after next => after.file = s.file ∧ next = g t := by
  refine (takeIf (g := g) ends fun t head => ?_).mono (Nat.le_refl _) ?_
  · simp only [steps t head, decide_eq_true_eq]
  · rintro t after next ⟨-, -, file, rfl⟩
    exact ⟨file, rfl⟩

theorem dottedName {valid : List Char → Bool} {g : String → Stage}
    (ends : s.tokens = [] → r.finish = .error (.unexpectedEnd .typeName))
    (steps : ∀ t ∈ s.tokens.head?, r.step t = r.dottedName valid t g) :
    Follows 1 (Descent.dottedName valid) s r fun t after next =>
      s.tokens = t :: after.tokens ∧ after.file = s.file ∧ next = ⟨r.site, g t.text⟩ := by
  refine single (fun _ empty => ⟨_, rfl, ends empty⟩) ?_
  obtain ⟨tokens, file⟩ := s
  rintro t rest rfl -
  have step := steps t rfl
  unfold Reader.dottedName at step
  by_cases word : t.kind = .word
  · by_cases named : valid t.text.toList
    · simp only [word, named, if_true] at step
      exact Or.inl ⟨t, _, by simp [Descent.dottedName, Descent.takeIf, Descent.peek, Descent.bump, word, named], step,
        rfl, rfl, rfl⟩
    · simp only [word, named, if_true] at step
      exact Or.inr ⟨_, by simp [Descent.dottedName, Descent.takeIf, Descent.peek, Descent.bump, refuse, word, named],
        step⟩
  · simp only [word, if_false] at step
    exact Or.inr ⟨_, by simp [Descent.dottedName, Descent.takeIf, Descent.peek, Descent.unexpected, refuse, word],
      step⟩

/-- What is true after a round of a loop: the next one begins with less tokens, or the result is there. -/
def AfterRound {γ : Type} (s : State) (I : γ → State → Reader → Prop) (post : α → State → Reader → Prop) :
    γ ⊕ α → State → Reader → Prop
  | .inl next => fun after reached => after.tokens.length < s.tokens.length ∧ I next after reached
  | .inr a => post a

section Loop

variable {γ : Type} {round : γ → Descent (γ ⊕ α)} {I : γ → State → Reader → Prop} {c : γ}

/-- A loop follows the reader if its first round does, and the loop does from the second round on. -/
theorem loopFrom (begins : Follows taken (round c) s r (AfterRound s I post))
    (further : ∀ next after reached, after.tokens.length < s.tokens.length → I next after reached →
      Follows 0 (Descent.loop round next) after reached post) :
    Follows taken (Descent.loop round c) s r post := by
  intro lexical
  have result := begins lexical
  rw [Descent.loop]
  cases outcome : round c s with
  | ok next after =>
    rw [outcome] at result
    obtain ⟨suffix, length, reached, same, holds⟩ := result
    cases next with
    | inr a => exact ⟨suffix, length, reached, same, holds⟩
    | inl next =>
      obtain ⟨shorter, holds⟩ := holds
      simp only [shorter, dite_true]
      have rest := further next after reached shorter holds fun t member => lexical t (suffix.subset member)
      exact rest.since suffix length same
  | refused fault => rwa [outcome] at result
  | broken breach => rwa [outcome] at result

/-- A loop follows the reader if each of its rounds does, and takes a token unless it is the last one. -/
theorem rounds (each : ∀ c s r, I c s r → Follows 0 (round c) s r (AfterRound s I post)) (holds : I c s r) :
    Follows 0 (Descent.loop round c) s r post := by
  induction length : s.tokens.length using Nat.strongRecOn generalizing c s r with
  | ind n ih =>
    subst length
    exact loopFrom (each c s r holds) fun next after reached shorter holds => ih _ shorter holds rfl

/-- The first round of a loop can be one of its own kind, and what it takes is taken. -/
theorem loop (begins : Follows taken (round c) s r (AfterRound s I post))
    (each : ∀ c s r, I c s r → Follows 0 (round c) s r (AfterRound s I post)) :
    Follows taken (Descent.loop round c) s r post :=
  loopFrom begins fun _ _ _ _ holds => rounds each holds

end Loop

end Follows

end Descent

end ProtoSchema
