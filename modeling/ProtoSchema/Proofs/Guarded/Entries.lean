import ProtoSchema.Proofs.Guarded.Numbers

namespace ProtoSchema

open Reader (allowsNegative terminator complete)

theorem Reader.complete_eq (site : Site) (stage other : Stage) (numbered : Numbered) (name : String) (n : Int) :
    complete ⟨site, stage⟩ numbered name n = complete ⟨site, other⟩ numbered name n := by
  cases numbered <;> rfl

namespace Descent.Follows

variable {α : Type} {s : State} {r : Reader} {site : Site} {decl : Numbered} {name : String} {t : Token}
  {rest : List Token} {file : File}

theorem number : Follows 1 (Descent.number (allowsNegative decl)) s ⟨site, .number decl name⟩ fun n after next =>
    after.file = s.file ∧ next = ⟨site, .numbered decl name n⟩ := by
  cases signed : allowsNegative decl with
  | false =>
    have steps : ∀ t ∈ s.tokens.head?, Reader.step ⟨site, .number decl name⟩ t =
        Reader.integer ⟨site, .number decl name⟩ false t (.numbered decl name) := by
      intro t _
      simp [Reader.step, signed]
    exact magnitude (fun _ => rfl) steps
  | true =>
    have minus : ∀ t ∈ s.tokens.head?, t.is "-" →
        Reader.step ⟨site, .number decl name⟩ t = .ok ⟨site, .negative decl name⟩ := by
      intro t _ spelled
      simp [Reader.step, signed, spelled, Reader.go]
    refine ((eat minus).bind ?_ : Follows (0 + 1) _ _ _ _)
    rintro negative after next (⟨rfl, file, rfl⟩ | ⟨rfl, rfl, rfl, other⟩)
    · refine (magnitude (fun _ => rfl) fun _ _ => rfl).mono (Nat.le_refl _) ?_
      rintro n final _ ⟨same, rfl⟩
      exact ⟨same.trans file, rfl⟩
    · refine magnitude (fun _ => rfl) fun t head => ?_
      simp [Reader.step, other t head]

/-- What is in brackets is skipped with the bracket that closes them. -/
theorem skipInside {left right : String} {g : Nat → Reader} {last : Reader}
    (ends : ∀ depth, (g depth).finish = .error (.unexpectedEnd (.literal right)))
    (steps : ∀ depth t, (g depth).step t = .ok
      (if t.is left then g (depth + 1)
      else if t.is right then if depth ≤ 1 then last else g (depth - 1)
      else g depth)) :
    Follows 0 (Descent.skipInside left right) s (g 1) fun _ after next => after.file = s.file ∧ next = last := by
  refine rounds (I := fun depth after next => after.file = s.file ∧ next = g depth) ?_ ⟨rfl, rfl⟩
  rintro depth ⟨tokens, file⟩ _ ⟨same, rfl⟩
  refine peek ?_
  cases tokens with
  | nil => exact ended (ends depth)
  | cons t rest =>
    refine (bump (steps depth t)).seq ?_
    rintro _ _ _ ⟨rfl, rfl, rfl⟩
    by_cases opens : t.is left
    · rw [if_pos opens, if_pos opens]
      exact pure ⟨Nat.lt_succ_self _, same, rfl⟩
    rw [if_neg opens, if_neg opens]
    by_cases closes : t.is right
    · rw [if_pos closes, if_pos closes]
      by_cases outermost : depth ≤ 1
      · rw [if_pos outermost, if_pos outermost]
        exact pure ⟨same, rfl⟩
      · rw [if_neg outermost, if_neg outermost]
        exact pure ⟨Nat.lt_succ_self _, same, rfl⟩
    · rw [if_neg closes, if_neg closes]
      exact pure ⟨Nat.lt_succ_self _, same, rfl⟩

/-- Bracketed options, or nothing, before what ends a declaration with a number. -/
theorem skipOptions {n : Int} : Follows 0 Descent.skipOptions s ⟨site, .numbered decl name n⟩ fun _ after next =>
    after.file = s.file ∧ next.finish = .error (.unexpectedEnd (.literal (terminator decl))) ∧
      ∀ t ∈ after.tokens.head?, next.step t =
        if t.is (terminator decl) then .ok (complete ⟨site, .entry .site⟩ decl name n)
        else .error (.unexpected (.literal (terminator decl)) t) := by
  obtain ⟨tokens, file⟩ := s
  refine isNext ?_
  cases tokens with
  | nil => exact pure ⟨rfl, rfl, nofun⟩
  | cons t rest =>
    refine ite (fun brackets => ?_) fun bare => pure ⟨rfl, rfl, ?_⟩
    · have spelled : t.is "[" := by simpa using brackets
      have opens : Reader.step ⟨site, .numbered decl name n⟩ t = .ok ⟨site, .options 1 decl name n⟩ := by
        simp [Reader.step, spelled, Reader.go]
      refine (keyword spelled opens).seq ?_
      rintro _ _ _ ⟨rfl, rfl, rfl⟩
      have steps : ∀ depth t, Reader.step ⟨site, .options depth decl name n⟩ t = .ok
          (if t.is "[" then ⟨site, .options (depth + 1) decl name n⟩
          else if t.is "]" then
            if depth ≤ 1 then ⟨site, .finish decl name n⟩ else ⟨site, .options (depth - 1) decl name n⟩
          else ⟨site, .options depth decl name n⟩) := by
        intro depth t
        simp only [Reader.step, Reader.go]
        split
        · rfl
        split
        · split <;> rfl
        · rfl
      refine (skipInside (g := fun depth => ⟨site, .options depth decl name n⟩) (fun _ => rfl) steps).mono
        (Nat.le_refl _) ?_
      rintro - after _ ⟨same, rfl⟩
      exact ⟨same, rfl, fun t _ => by rw [Reader.complete_eq site _ (.finish decl name n)]; rfl⟩
    · rintro _ ⟨⟩
      have other : t.is "[" = false := by simpa using bare
      rw [Reader.complete_eq site _ (.numbered decl name n)]
      simp [Reader.step, other, Reader.refuse, Reader.expected]

/-- What follows the name of a declaration with a number. -/
theorem assigned (decl : Numbered) :
    Follows 1 (Descent.assigned (allowsNegative decl) (terminator decl)) s ⟨site, .equals decl name⟩ fun n after next =>
      after.file = s.file ∧ next = complete ⟨site, .entry .site⟩ decl name n := by
  refine (expect (g := fun _ => ⟨site, .number decl name⟩) (fun _ => rfl) fun _ _ => rfl).first ?_
  rintro - ⟨_, file⟩ _ ⟨-, -, rfl, rfl⟩
  refine number.seq ?_
  rintro n ⟨_, file⟩ _ ⟨rfl, rfl⟩
  refine skipOptions.seq ?_
  rintro - ⟨_, file⟩ next ⟨rfl, ends, steps⟩
  refine (expect (g := fun _ => complete ⟨site, .entry .site⟩ decl name n) (fun _ => ends) steps).seq ?_
  rintro - ⟨_, file⟩ _ ⟨-, -, rfl, rfl⟩
  exact pure ⟨rfl, rfl⟩

/-- The name, the number and the options of a declaration, and what ends it. -/
theorem tail (decl : Numbered) : Follows 1 (Descent.tail (allowsNegative decl) (terminator decl)) s ⟨site, .name decl⟩
    fun named after next => after.file = s.file ∧ next = complete ⟨site, .entry .site⟩ decl named.1 named.2 := by
  refine (identifier (g := .equals decl) (fun _ => rfl) fun _ _ => rfl).first ?_
  rintro name ⟨_, file⟩ _ ⟨-, rfl, rfl⟩
  refine (assigned decl).seq ?_
  rintro n ⟨_, file⟩ _ ⟨rfl, rfl⟩
  exact pure ⟨rfl, rfl⟩

/-- A statement that is skipped, from its keyword to its semicolon. -/
theorem skipStatement {block : Block} (keyword : t.kind = .word) (read : r.step t = .ok ⟨site, .skipped 0 block⟩) :
    Follows 1 Descent.skipStatement ⟨t :: rest, file⟩ r fun _ after next =>
      after.file = file ∧ next = ⟨site, .entry block⟩ := by
  refine lexical fun lexical => ?_
  refine loop (I := fun depth after next => after.file = file ∧ next = ⟨site, .skipped depth block⟩) ?_ ?_
  · have symbol : ∀ text : String, text.toList.all isWordChar = false → t.is text = false := by
      intro text other
      exact Bool.eq_false_iff.2 fun spelled => lexical.not_word_of_is spelled other keyword
    refine peek ?_
    simp only [List.head?_cons, symbol ";" (by decide), symbol "\x7b" (by decide), symbol "[" (by decide),
      symbol "(" (by decide), symbol "<" (by decide), symbol "\x7d" (by decide), symbol "]" (by decide),
      symbol ")" (by decide), symbol ">" (by decide)]
    exact dropped read ⟨Nat.lt_succ_self _, rfl, rfl⟩
  · rintro depth ⟨tokens, file⟩ _ ⟨same, rfl⟩
    refine peek ?_
    cases tokens with
    | nil => exact ended rfl
    | cons t rest =>
      have step : Reader.step ⟨site, .skipped depth block⟩ t = Reader.skip ⟨site, .skipped depth block⟩ depth block t :=
        rfl
      unfold Reader.skip at step
      refine choose step (fun _ step => (dropped step ⟨same, rfl⟩).weaken) fun _ step => ?_
      refine choose step (fun _ step => (dropped step ⟨Nat.lt_succ_self _, same, rfl⟩).weaken) fun _ step => ?_
      refine choose step (fun _ step => refused step) fun _ step => ?_
      exact choose step (fun _ step => (dropped step ⟨Nat.lt_succ_self _, same, rfl⟩).weaken) fun _ step =>
        (dropped step ⟨Nat.lt_succ_self _, same, rfl⟩).weaken

/-- The entries of a block follow the reader if one entry does. The reader keeps them as declarations, which become
what the entries are. -/
theorem entries {δ : Type} (lay : δ → α) (block : List δ → Block) (last : List δ → Reader) {keywords : List String}
    {begins : Token → Bool} {expected : Expectation} {entry : Descent α} {begin : List δ → Token → Except Fault Reader}
    (long : ∀ word ∈ keywords, word.toList.length ≠ 1)
    (ends : ∀ decls, (Reader.mk site (.entry (block decls))).finish = .error (.unexpectedEnd expected))
    (steps : ∀ decls t, Reader.step ⟨site, .entry (block decls)⟩ t =
      if t.is "\x7d" then .ok (last decls)
      else if t.is ";" then .ok ⟨site, .entry (block decls)⟩
      else if t.isAny keywords then .ok ⟨site, .skipped 0 (block decls)⟩
      else if begins t then begin decls t
      else .error (.unexpected expected t))
    (each : ∀ decls t rest file, begins t → Reader.step ⟨site, .entry (block decls)⟩ t = begin decls t →
      Follows 1 entry ⟨t :: rest, file⟩ ⟨site, .entry (block decls)⟩ fun a after next =>
        after.file = file ∧ ∃ decl, a = lay decl ∧ next = ⟨site, .entry (block (decls ++ [decl]))⟩) :
    Follows 0 (Descent.entries keywords begins expected entry) s ⟨site, .entry (block [])⟩ fun found after next =>
      after.file = s.file ∧ ∃ decls, found = decls.map lay ∧ next = last decls := by
  refine rounds (I := fun found after next => after.file = s.file ∧
    ∃ decls, found = decls.map lay ∧ next = ⟨site, .entry (block decls)⟩) ?_ ⟨rfl, [], rfl, rfl⟩
  rintro _ ⟨tokens, file⟩ _ ⟨same, decls, rfl, rfl⟩
  refine peek ?_
  cases tokens with
  | nil => exact ended (ends decls)
  | cons t rest =>
    refine lexical fun lexical => ?_
    refine choose (steps decls t) (fun _ step => (dropped step ⟨same, decls, rfl, rfl⟩).weaken) fun _ step => ?_
    refine choose step (fun _ step => (dropped step ⟨Nat.lt_succ_self _, same, decls, rfl, rfl⟩).weaken)
      fun _ step => ?_
    refine choose step (fun keyword step => ?_) fun _ step => ?_
    · obtain ⟨word, known, spelled⟩ := List.any_eq_true.1 keyword
      refine (skipStatement (lexical.word_of_is spelled (long word known)) step).strict.seq ?_
      rintro - ⟨_, _⟩ _ ⟨shorter, rfl, rfl⟩
      exact pure ⟨shorter, same, decls, rfl, rfl⟩
    refine choose step (fun begins step => ?_) fun _ step => refused step
    refine (each decls t rest file begins step).strict.seq ?_
    rintro _ ⟨_, _⟩ _ ⟨shorter, rfl, decl, rfl, rfl⟩
    exact pure ⟨shorter, same, decls ++ [decl], by simp, rfl⟩

end Descent.Follows

end ProtoSchema
