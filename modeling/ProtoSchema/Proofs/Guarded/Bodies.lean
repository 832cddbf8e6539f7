import ProtoSchema.Proofs.Guarded.Declarations

namespace ProtoSchema

/-- A site in which a further body is open, with the members that have been read in it. -/
def Site.holding (site : Site) (head : BodyHead) (members : List Member) : Site :=
  { site with bodies := ⟨head, members⟩ :: site.bodies }

namespace Reader

variable (site : Site) (head : BodyHead) (members : List Member)

theorem expected_holding : expected ⟨site.holding head members, .entry .site⟩ =
    match head.body with
    | .members => .member
    | .extension => .extensionField := by
  cases head <;> rfl

theorem finish_holding : finish ⟨site.holding head members, .entry .site⟩ =
    .error (.unexpectedEnd (match head.body with
      | .members => .member
      | .extension => .extensionField)) := by
  rw [← expected_holding site head members]
  rfl

theorem step_holding (t : Token) : step ⟨site.holding head members, .entry .site⟩ t =
    if t.is "\x7d" then .ok ⟨site.add (OpenBody.close ⟨head, members⟩), .entry .site⟩
    else match head.body with
      | .members => beginMember ⟨site.holding head members, .entry .site⟩ t
      | .extension => beginExtensionField ⟨site.holding head members, .entry .site⟩ t := by
  cases head <;> rfl

end Reader

namespace Descent

/-- Nothing or a member has been read in a body. -/
def Goes (site : Site) (head : BodyHead) (members : List Member) (scope : Scope) (file : File) (before found : Declared)
    (after : State) (next : Reader) : Prop :=
  ∃ added, found = before.add (layoutAll scope file.room added) ∧
    after.file = file.rows (layoutAll scope file.room added) ∧
    next = ⟨site.holding head (members ++ added), .entry .site⟩

theorem Goes.nothing {site : Site} {head : BodyHead} {members : List Member} {scope : Scope} {before : Declared}
    {tokens : List Token} {file : File} :
    Goes site head members scope file before before ⟨tokens, file⟩ ⟨site.holding head members, .entry .site⟩ :=
  ⟨[], by simp [Declared.add, layoutAll, Content.empty], by simp [layoutAll], by simp⟩

theorem Adds.goes {site : Site} {head : BodyHead} {members : List Member} {scope : Scope} {file : File}
    {before found : Declared} {member : Member} {after : State} {next : Reader}
    (adds : Adds (site.holding head members) scope file before member found after next) :
    Goes site head members scope file before found after next := by
  obtain ⟨rfl, rows, rfl⟩ := adds
  exact ⟨[member], by simp [layoutAll], by simp [layoutAll, rows], rfl⟩

/-- Bodies that begin with less than `bound` tokens left follow the reader to behind their closing braces. -/
def ReadsBodies (inner : Grammar.Body → Scope → Descent Declared) (bound : Nat) : Prop :=
  ∀ (site : Site) (head : BodyHead) (scope : Scope) (s : State), s.tokens.length < bound →
    Follows 0 (inner head.body scope) s ⟨site.push head, .entry .site⟩ fun found after next =>
      ∃ members, found = (layoutAll scope s.file.room members).declared ∧
        after.file = s.file.rows (layoutAll scope s.file.room members) ∧
        next = ⟨site.add (OpenBody.close ⟨head, members⟩), .entry .site⟩

namespace Follows

variable {s : State} {r : Reader} {site : Site} {scope : Scope} {t : Token} {rest : List Token} {file : File}
  {before : Declared} {next : Reader}

section Members

variable {inner : Grammar.Body → Scope → Descent Declared} {bound : Nat}

theorem message (bodies : ReadsBodies inner bound) (within : rest.length < bound) (spelled : t.is "message")
    (step : r.step t = .ok ⟨site, .title (.message t.mark)⟩) :
    Follows 1 (Descent.message inner scope) ⟨t :: rest, file⟩ r fun id after next =>
      ∃ head members, ∀ before, Adds site scope file before (.message head members)
        { before with messages := before.messages ++ [id] } after next := by
  refine (keyword spelled step).first ?_
  rintro _ _ _ ⟨rfl, rfl, rfl⟩
  refine (identifier (g := .titleOpen (.message t.mark)) (fun _ => rfl) fun _ _ => rfl).seq ?_
  rintro name ⟨_, file⟩ _ ⟨tokens, rfl, rfl⟩
  refine read (write ?_)
  refine (expect (g := fun _ => ⟨site.push (.message ⟨t.mark, name.text⟩), .entry .site⟩) (fun _ => rfl)
    fun _ _ => rfl).seq ?_
  rintro left ⟨opened, _⟩ _ ⟨begins, -, rfl, rfl⟩
  have shorter : opened.length < bound := by
    have all : rest.length = opened.length + 2 := by
      simp_all
    omega
  refine (bodies site (.message ⟨t.mark, name.text⟩) (.message ⟨file.messageTable.length⟩) _ shorter).seq ?_
  rintro _ ⟨_, _⟩ _ ⟨members, rfl, rfl, rfl⟩
  refine read ?_
  -- The body only appends to the table, so the row is still where it was put: right behind the table of before.
  simp only [File.message?, File.rows, List.append_assoc, List.singleton_append,
    List.getElem?_append_right (Nat.le_refl _), Nat.sub_self, List.getElem?_cons_zero]
  refine write (pure ⟨⟨t.mark, name.text⟩, members, fun before => ⟨?_, ?_, rfl⟩⟩)
  · simp [Declared.add, Member.layout, Content.asMessage, File.room]
  · simp [File.rows, Member.layout, Content.asMessage, Content.declared, File.room, Token.mark]

theorem extend (bodies : ReadsBodies inner bound) (within : rest.length < bound) (spelled : t.is "extend")
    (step : r.step t = .ok ⟨site, .extendee t.comment⟩) :
    Follows 1 (Descent.extend inner scope before) ⟨t :: rest, file⟩ r fun found after next =>
      ∃ head members, Adds site scope file before (.extend head members) found after next := by
  refine (keyword spelled step).first ?_
  rintro _ _ _ ⟨rfl, rfl, rfl⟩
  refine (dottedName (g := fun type => .extendOpen ⟨t.comment, type⟩) (fun _ => rfl) fun _ _ => rfl).seq ?_
  rintro extendee ⟨_, _⟩ _ ⟨tokens, rfl, rfl⟩
  refine (expect (g := fun _ => ⟨site.push (.extend ⟨t.comment, extendee.text⟩), .entry .site⟩) (fun _ => rfl)
    fun _ _ => rfl).seq ?_
  rintro left ⟨opened, _⟩ _ ⟨begins, -, rfl, rfl⟩
  have shorter : opened.length < bound := by
    have all : rest.length = opened.length + 2 := by
      simp_all
    omega
  refine (bodies site (.extend ⟨t.comment, extendee.text⟩) scope _ shorter).seq ?_
  rintro _ ⟨_, last⟩ _ ⟨members, rfl, rfl, rfl⟩
  exact pure ⟨⟨t.comment, extendee.text⟩, members, by simp [Declared.add, Content.declared, Member.layout,
    Content.asExtension], rfl, rfl⟩

theorem fieldFrom (bodies : ReadsBodies inner bound) (within : s.tokens.length ≤ bound) {comment : Option String}
    {cardinality : Cardinality} {type : String} :
    Follows 0 (Descent.fieldFrom inner scope before comment cardinality type) s
      ⟨site, Reader.afterType comment cardinality type⟩ fun found after next =>
        ∃ member, Adds site scope s.file before member found after next := by
  by_cases group : type = "group"
  · rw [Descent.fieldFrom, if_pos group, Reader.afterType, if_pos group]
    refine (tail (.group comment cardinality)).strict.seq ?_
    rintro ⟨name, n⟩ ⟨opened, _⟩ _ ⟨shorter, rfl, rfl⟩
    refine (bodies site (.group ⟨comment, cardinality, name, n⟩) scope _ (Nat.lt_of_lt_of_le shorter within)).seq ?_
    rintro _ ⟨_, _⟩ _ ⟨members, rfl, rfl, rfl⟩
    exact pure ⟨.group ⟨comment, cardinality, name, n⟩ members, rfl, rfl, rfl⟩
  · rw [Descent.fieldFrom, if_neg group, Reader.afterType, if_neg group]
    refine (tail (.field comment cardinality type)).seq ?_
    rintro ⟨name, n⟩ ⟨_, _⟩ _ ⟨rfl, rfl⟩
    refine pure ⟨.field ⟨comment, cardinality, type, name, n⟩, ?_, ?_, rfl⟩
    · simp [Declared.add, Member.layout, Content.ofField, Content.empty, FieldDecl.layout]
    · simp [File.rows, Member.layout, Content.ofField, Content.empty]

/-- A field that begins with its cardinality. -/
theorem modifier {cardinality : Cardinality} (marked : Reader.cardinality? t = some cardinality)
    (step : r.step t = .ok next) :
    Follows 1 Descent.modifier ⟨t :: rest, file⟩ r fun found after reached =>
      cardinality = found ∧ after = ⟨rest, file⟩ ∧ reached = next := by
  refine peek ?_
  simp only [List.head?_cons, Option.bind_some, marked]
  exact dropped step ⟨rfl, rfl, rfl⟩

/-- A field that begins with its type. -/
theorem unmarked (plain : Reader.cardinality? t = none) :
    Follows 0 Descent.modifier ⟨t :: rest, file⟩ r fun found after reached =>
      found = .unmarked ∧ after = ⟨t :: rest, file⟩ ∧ reached = r := by
  refine peek ?_
  simp only [List.head?_cons, Option.bind_some, plain]
  exact pure ⟨rfl, rfl, rfl⟩

theorem field (bodies : ReadsBodies inner bound) (within : rest.length ≤ bound)
    (begins : Reader.step ⟨site, .entry .site⟩ t = Reader.beginField ⟨site, .entry .site⟩ t) :
    Follows 1 (Descent.field inner scope before) ⟨t :: rest, file⟩ ⟨site, .entry .site⟩ fun found after next =>
      ∃ member, Adds site scope file before member found after next := by
  refine comment ?_
  cases marked : Reader.cardinality? t with
  | some cardinality =>
    have step : Reader.step ⟨site, .entry .site⟩ t = .ok ⟨site, .fieldType t.comment cardinality⟩ := by
      rw [begins, Reader.beginField, marked]
      rfl
    refine (modifier marked step).first ?_
    rintro _ _ _ ⟨rfl, rfl, rfl⟩
    refine (dottedName (g := Reader.afterType t.comment cardinality) (fun _ => rfl) fun _ _ => rfl).seq ?_
    rintro type ⟨left, _⟩ _ ⟨tokens, rfl, rfl⟩
    have shorter : left.length ≤ bound := by
      simp only at tokens
      simp only [tokens, List.length_cons] at within
      omega
    exact fieldFrom bodies shorter
  | none =>
    have step : Reader.step ⟨site, .entry .site⟩ t =
        Reader.typeName ⟨site, .entry .site⟩ t (Reader.afterType t.comment .unmarked) := by
      rw [begins, Reader.beginField, marked]
    refine ((unmarked marked).bind ?_ : Follows (0 + 1) _ _ _ _)
    rintro _ _ _ ⟨rfl, rfl, rfl⟩
    refine (dottedName (g := Reader.afterType t.comment .unmarked) ?_ fun _ head => ?_).first ?_
    · nofun
    · obtain rfl := Option.some.inj head
      exact step
    rintro type ⟨_, _⟩ _ ⟨tokens, rfl, rfl⟩
    obtain ⟨rfl, rfl⟩ := List.cons.inj tokens
    exact fieldFrom bodies within

/-- A field that is called by the word that begins a map. -/
theorem fieldNamedMap (bodies : ReadsBodies inner bound) (within : rest.length ≤ bound) (spelled : t.is "map")
    (other : rest.head?.any (·.is "<") = false)
    (step : Reader.step ⟨site, .entry .site⟩ t = .ok ⟨site, .mapWord t.comment⟩) :
    Follows 1 (Descent.field inner scope before) ⟨t :: rest, file⟩ ⟨site, .entry .site⟩ fun found after next =>
      ∃ member, Adds site scope file before member found after next := by
  refine lexical fun lexical => comment ?_
  have plain : Reader.cardinality? t = none := by
    simp [Reader.cardinality?, Token.is_eq spelled]
  refine ((unmarked plain).bind ?_ : Follows (0 + 1) _ _ _ _)
  rintro _ _ _ ⟨rfl, rfl, rfl⟩
  refine (dottedName (g := fun _ => .mapWord t.comment) ?_ fun _ head => ?_).first ?_
  · nofun
  · obtain rfl := Option.some.inj head
    have named := Reader.typeName_eq_of_is (r := ⟨site, .entry .site⟩) (g := fun _ => .mapWord t.comment) lexical
      spelled (by decide) (by decide)
    exact step.trans named.symm
  rintro type ⟨_, _⟩ _ ⟨tokens, rfl, rfl⟩
  obtain ⟨rfl, rfl⟩ := List.cons.inj tokens
  -- The reader waits behind the word, and only the next token tells it that the word was a type.
  have same : Reader.answer ⟨site, .mapWord t.comment⟩ rest =
      Reader.answer ⟨site, Reader.afterType t.comment .unmarked t.text⟩ rest := by
    have named : t.text = "map" := (Token.is_iff.1 spelled).2
    cases rest with
    | nil => rw [named]; rfl
    | cons u rest =>
      have plain : u.is "<" = false := by simpa using other
      refine Reader.answer_congr ?_
      simp only [Reader.step, plain, named]
      rfl
  exact (fieldFrom bodies within).of_answer same

variable {head : BodyHead} {members : List Member}

theorem memberRound (bodies : ReadsBodies inner bound) (within : s.tokens.length ≤ bound)
    (kind : head.body = .members) :
    Follows 0 (Descent.memberRound inner scope before) s ⟨site.holding head members, .entry .site⟩
      (AfterRound s (Goes site head members scope s.file before) fun found after next =>
        found = before ∧ after.file = s.file ∧ next = ⟨site.add (OpenBody.close ⟨head, members⟩), .entry .site⟩) := by
  obtain ⟨tokens, file⟩ := s
  refine peek ?_
  cases tokens with
  | nil =>
    refine ended ?_
    rw [Reader.finish_holding, kind]
  | cons t rest =>
    have step := Reader.step_holding site head members t
    rw [kind] at step
    have shorter : rest.length < bound := within
    refine lexical fun lexical => ?_
    -- Both sides make the same tests in the same order, but for the map, which needs a second token here.
    refine choose step (fun _ step => (dropped step ⟨rfl, rfl, rfl⟩).weaken) fun _ step => ?_
    simp only [Reader.beginMember] at step
    refine choose step (fun _ step => (dropped step ⟨Nat.lt_succ_self _, .nothing⟩).weaken) fun _ step => ?_
    refine choose step (fun keyword step => ?_) fun _ step => ?_
    · have word : t.kind = .word := by
        simp only [Bool.or_eq_true] at keyword
        rcases keyword with (spelled | spelled) | spelled
        all_goals exact lexical.word_of_is spelled (by decide)
      refine (skipStatement word step).strict.seq ?_
      rintro - ⟨_, _⟩ _ ⟨less, rfl, rfl⟩
      exact pure ⟨less, .nothing⟩
    refine choose step (fun spelled step => ?_) fun _ step => ?_
    · refine (message bodies shorter spelled step).strict.seq ?_
      rintro _ _ _ ⟨less, _, _, adds⟩
      exact pure ⟨less, (adds before).goes⟩
    refine choose step (fun spelled step => ?_) fun _ step => ?_
    · refine (enum spelled step).strict.seq ?_
      rintro _ _ _ ⟨less, _, adds⟩
      exact pure ⟨less, (adds before).goes⟩
    refine choose step (fun spelled step => ?_) fun _ step => ?_
    · refine (extend bodies shorter spelled step).strict.seq ?_
      rintro _ _ _ ⟨less, _, _, adds⟩
      exact pure ⟨less, adds.goes⟩
    refine choose step (fun spelled step => ?_) fun _ step => ?_
    · refine (oneof spelled step).strict.seq ?_
      rintro _ _ _ ⟨less, _, adds⟩
      exact pure ⟨less, (adds before).goes⟩
    refine peekSecond ?_
    by_cases spelled : t.is "map"
    · rw [if_pos spelled] at step
      by_cases opens : rest.head?.any (·.is "<")
      · obtain ⟨u, rest, rfl⟩ := List.exists_cons_of_ne_nil (l := rest) (by rintro rfl; simp at opens)
        have left : u.is "<" := by simpa using opens
        rw [if_pos (by simp [spelled, left])]
        refine (mapField spelled left step).strict.seq ?_
        rintro _ _ _ ⟨less, _, adds⟩
        exact pure ⟨less, (adds before).goes⟩
      · have other : rest.head?.any (·.is "<") = false := by simpa using opens
        rw [if_neg (by simp [← List.head?_eq_getElem?, other]), if_pos (lexical.word_of_is spelled (by decide))]
        refine (fieldNamedMap bodies (Nat.le_of_lt shorter) spelled other step).strict.seq ?_
        rintro _ _ _ ⟨less, _, adds⟩
        exact pure ⟨less, adds.goes⟩
    rw [if_neg spelled] at step
    rw [if_neg (by simp [spelled])]
    refine choose step (fun _ step => ?_) fun _ step => ?_
    · refine (field bodies (Nat.le_of_lt shorter) step).strict.seq ?_
      rintro _ _ _ ⟨less, _, adds⟩
      exact pure ⟨less, adds.goes⟩
    · rw [Reader.refuse, Reader.expected_holding, kind] at step
      exact refused step

theorem extensionRound (bodies : ReadsBodies inner bound) (within : s.tokens.length ≤ bound)
    (kind : head.body = .extension) :
    Follows 0 (Descent.extensionRound inner scope before) s ⟨site.holding head members, .entry .site⟩
      (AfterRound s (Goes site head members scope s.file before) fun found after next =>
        found = before ∧ after.file = s.file ∧ next = ⟨site.add (OpenBody.close ⟨head, members⟩), .entry .site⟩) := by
  obtain ⟨tokens, file⟩ := s
  refine peek ?_
  cases tokens with
  | nil =>
    refine ended ?_
    rw [Reader.finish_holding, kind]
  | cons t rest =>
    have step := Reader.step_holding site head members t
    rw [kind] at step
    refine choose step (fun _ step => (dropped step ⟨rfl, rfl, rfl⟩).weaken) fun _ step => ?_
    simp only [Reader.beginExtensionField] at step
    refine choose step (fun _ step => (dropped step ⟨Nat.lt_succ_self _, .nothing⟩).weaken) fun _ step => ?_
    refine choose step (fun _ step => ?_) fun _ step => ?_
    · refine (field bodies (Nat.le_of_lt within) step).strict.seq ?_
      rintro _ _ _ ⟨less, _, adds⟩
      exact pure ⟨less, adds.goes⟩
    · rw [Reader.refuse, Reader.expected_holding, kind] at step
      exact refused step

theorem bodyRound (bodies : ReadsBodies inner bound) (within : s.tokens.length ≤ bound) :
    Follows 0 (Descent.bodyRound inner head.body scope before) s ⟨site.holding head members, .entry .site⟩
      (AfterRound s (Goes site head members scope s.file before) fun found after next =>
        found = before ∧ after.file = s.file ∧ next = ⟨site.add (OpenBody.close ⟨head, members⟩), .entry .site⟩) := by
  cases kind : head.body with
  | members => exact memberRound bodies within kind
  | extension => exact extensionRound bodies within kind

end Members

theorem wholeBody {bound : Nat} : ReadsBodies Descent.wholeBody bound := by
  rintro site head scope s -
  induction length : s.tokens.length using Nat.strongRecOn generalizing site head scope s with
  | ind n ih =>
    subst length
    intro lexical
    rw [Descent.wholeBody]
    refine rounds (I := fun found after next => after.tokens.length ≤ s.tokens.length ∧ ∃ members,
      found = (layoutAll scope s.file.room members).declared ∧
        after.file = s.file.rows (layoutAll scope s.file.room members) ∧
        next = ⟨site.holding head members, .entry .site⟩) ?_ ?_ lexical
    · rintro _ ⟨tokens, _⟩ _ ⟨within, members, rfl, rfl, rfl⟩
      -- A body inside begins behind at least one token of this one.
      refine (bodyRound ?_ within).mono (Nat.le_refl _) ?_
      · intro site head scope begin shorter lexical
        simp only [shorter, dite_true]
        exact ih _ shorter site head scope begin rfl lexical
      · rintro (found | found) ⟨_, _⟩ _ after
        · obtain ⟨less, added, rfl, rfl, rfl⟩ := after
          refine ⟨less, Nat.le_trans (Nat.le_of_lt less) within, members ++ added, ?_, ?_, rfl⟩
          · simp [layoutAll_append, Content.declared_append]
          · simp [layoutAll_append]
        · obtain ⟨rfl, rfl, rfl⟩ := after
          exact ⟨members, rfl, rfl, rfl⟩
    · exact ⟨Nat.le_refl _, [], rfl, by simp [layoutAll], rfl⟩

end Follows

end Descent

end ProtoSchema
