import ProtoSchema.Proofs.Reader.Ending
import ProtoSchema.Proofs.Token.Lexical

namespace ProtoSchema

open Grammar Token

namespace Remainder

variable {α : Type} {t : Token} {ts : List Token} {file : File} {next : Remainder}

@[simp] theorem one_cons (p : Token → Prop) (next : Token → Remainder) :
    one p next (t :: ts) file ↔ p t ∧ next t ts file := by
  constructor
  · rintro ⟨t, rest, whole, first, more⟩
    cases whole
    exact ⟨first, more⟩
  · rintro ⟨first, more⟩
    exact ⟨t, ts, rfl, first, more⟩

theorem past_cons {p : List Token → Prop} (nonempty : ¬ p []) :
    past p next (t :: ts) file ↔ past (fun us => p (t :: us)) next ts file := by
  constructor
  · rintro ⟨us, rest, whole, first, more⟩
    cases us with
    | nil => exact absurd first nonempty
    | cons t us =>
      cases whole
      exact ⟨us, rest, rfl, first, more⟩
  · rintro ⟨us, rest, rfl, first, more⟩
    exact ⟨t :: us, rest, rfl, first, more⟩

theorem phrase_cons {p : List Token → α → Prop} {next : α → Remainder} (nonempty : ∀ x, ¬ p [] x) :
    phrase p next (t :: ts) file ↔ phrase (fun us => p (t :: us)) next ts file := by
  constructor
  · rintro ⟨us, x, rest, whole, first, more⟩
    cases us with
    | nil => exact absurd first (nonempty x)
    | cons t us =>
      cases whole
      exact ⟨us, x, rest, rfl, first, more⟩
  · rintro ⟨us, x, rest, rfl, first, more⟩
    exact ⟨t :: us, x, rest, rfl, first, more⟩

theorem past_nil : past (· = []) next ts file ↔ next ts file := by
  constructor
  · rintro ⟨us, rest, rfl, rfl, more⟩
    exact more
  · intro more
    exact ⟨[], ts, rfl, rfl, more⟩

end Remainder

open Remainder

variable {t : Token} {ts us : List Token} {file : File} {next : Remainder} {depth : Nat}

namespace Grammar

theorem skipped_cons : Skipped depth (t :: us) ↔
    t.is ";" ∧ depth = 0 ∧ us = [] ∨ t.isAny ["\x7b", "[", "(", "<"] ∧ Skipped (depth + 1) us ∨
      t.isAny ["\x7d", "]", ")", ">"] ∧ (t.is "\x7d" → depth ≠ 0) ∧ Skipped (depth - 1) us ∨
      ¬ t.isAny ["\x7b", "[", "(", "<", "\x7d", "]", ")", ">"] ∧ (t.is ";" → depth ≠ 0) ∧ Skipped depth us := by
  constructor
  · intro skipped
    cases skipped with
    | last semicolon => exact Or.inl ⟨semicolon, rfl, rfl⟩
    | opens left rest => exact Or.inr (Or.inl ⟨left, rest⟩)
    | closes right inner rest => exact Or.inr (Or.inr (Or.inl ⟨right, inner, rest⟩))
    | passes plain inner rest => exact Or.inr (Or.inr (Or.inr ⟨plain, inner, rest⟩))
  · rintro (⟨semicolon, rfl, rfl⟩ | ⟨left, rest⟩ | ⟨right, inner, rest⟩ | ⟨plain, inner, rest⟩)
    · exact .last semicolon
    · exact .opens left rest
    · exact .closes right inner rest
    · exact .passes plain inner rest

end Grammar

theorem past_skipped : past (Skipped depth) next (t :: ts) file ↔
    if t.is ";" && depth == 0 then next ts file
    else if t.is "\x7b" || t.is "[" || t.is "(" || t.is "<" then past (Skipped (depth + 1)) next ts file
    else if t.is "\x7d" && depth == 0 then False
    else if t.is "\x7d" || t.is "]" || t.is ")" || t.is ">" then past (Skipped (depth - 1)) next ts file
    else past (Skipped depth) next ts file := by
  rw [past_cons (by rintro ⟨⟩)]
  simp only [skipped_cons]
  split
  · rename_i stop
    simp only [Bool.and_eq_true, beq_iff_eq] at stop
    simp [is_eq stop.1, isAny, stop.2, past_nil]
  split
  · rename_i left
    simp only [Bool.or_eq_true] at left
    rcases left with ((left | left) | left) | left <;> simp [is_eq left, isAny]
  split
  · rename_i stop
    simp only [Bool.and_eq_true, beq_iff_eq] at stop
    simp [is_eq stop.1, isAny, stop.2, past]
  split
  · rename_i right
    simp only [Bool.or_eq_true] at right
    rcases right with ((right | right) | right) | right <;> simp_all [is_eq right, isAny]
  · by_cases semicolon : t.is ";" <;> simp_all [isAny]

theorem inside_cons {left right : String} : Inside left right depth (t :: us) ↔
    depth ≤ 1 ∧ t.is right ∧ us = [] ∨ 1 < depth ∧ t.is right ∧ Inside left right (depth - 1) us ∨
      t.is left ∧ Inside left right (depth + 1) us ∨ ¬ t.isAny [left, right] ∧ Inside left right depth us := by
  constructor
  · intro inside
    cases inside with
    | last outermost closing => exact Or.inl ⟨outermost, closing, rfl⟩
    | closes inner closing rest => exact Or.inr (Or.inl ⟨inner, closing, rest⟩)
    | opens opening rest => exact Or.inr (Or.inr (Or.inl ⟨opening, rest⟩))
    | passes plain rest => exact Or.inr (Or.inr (Or.inr ⟨plain, rest⟩))
  · rintro (⟨outermost, closing, rfl⟩ | ⟨inner, closing, rest⟩ | ⟨opening, rest⟩ | ⟨plain, rest⟩)
    · exact .last outermost closing
    · exact .closes inner closing rest
    · exact .opens opening rest
    · exact .passes plain rest

theorem past_inside {left right : String} (distinct : left ≠ right) :
    past (Inside left right depth) next (t :: ts) file ↔
      if t.is left then past (Inside left right (depth + 1)) next ts file
      else if t.is right then (if depth ≤ 1 then next ts file else past (Inside left right (depth - 1)) next ts file)
      else past (Inside left right depth) next ts file := by
  rw [past_cons (by rintro ⟨⟩)]
  simp only [inside_cons]
  split
  · rename_i opening
    simp [is_eq opening, isAny, distinct]
  split
  · rename_i closing
    split
    · simp_all [is_eq closing, isAny, distinct.symm, past_nil, Nat.not_lt.2 ‹depth ≤ 1›]
    · have inner := Nat.not_le.1 ‹¬ depth ≤ 1›
      simp [is_eq closing, isAny, distinct.symm, inner, Nat.not_le.2 inner]
  · simp_all [isAny]

theorem past_options : past Options next (t :: ts) file ↔
    t.is "[" ∧ past (Inside "[" "]" 1) next ts file ∨ next (t :: ts) file := by
  constructor
  · rintro ⟨us, rest, whole, options, more⟩
    cases options with
    | none => exact Or.inr (whole ▸ more)
    | some left inside =>
      cases whole
      exact Or.inl ⟨left, _, rest, rfl, inside, more⟩
  · rintro (⟨left, us, rest, rfl, inside, more⟩ | more)
    · exact ⟨t :: us, rest, rfl, .some left inside, more⟩
    · exact ⟨[], t :: ts, rfl, .none, more⟩

theorem past_ending : past Ending next (t :: ts) file ↔
    t.is ";" ∧ next ts file ∨ t.is "\x7b" ∧ past (Inside "\x7b" "\x7d" 1) next ts file := by
  constructor
  · rintro ⟨us, rest, whole, ending, more⟩
    cases ending with
    | semicolon stop =>
      cases whole
      exact Or.inl ⟨stop, more⟩
    | braces left inside =>
      cases whole
      exact Or.inr ⟨left, _, rest, rfl, inside, more⟩
  · rintro (⟨stop, more⟩ | ⟨left, us, rest, rfl, inside, more⟩)
    · exact ⟨[t], ts, rfl, .semicolon stop, more⟩
    · exact ⟨t :: us, rest, rfl, .braces left inside, more⟩

theorem phrase_number {signed : Bool} {next : Int → Remainder} : phrase (Number signed) next (t :: ts) file ↔
    (∃ n, Literal false t n ∧ next n ts file) ∨
      signed ∧ t.is "-" ∧ ∃ n, one (Literal true · n) (fun _ => next n) ts file := by
  constructor
  · rintro ⟨us, n, rest, whole, number, more⟩
    cases number with
    | plain value =>
      cases whole
      exact Or.inl ⟨n, value, more⟩
    | negative allowed sign value =>
      cases whole
      exact Or.inr ⟨allowed, sign, n, _, rest, rfl, value, more⟩
  · rintro (⟨n, value, more⟩ | ⟨allowed, sign, n, digits, rest, rfl, value, more⟩)
    · exact ⟨[t], n, ts, rfl, .plain value, more⟩
    · exact ⟨[t, digits], n, rest, rfl, .negative allowed sign value, more⟩

theorem phrase_argument {next : OperandDecl → Remainder} : phrase Argument next (t :: ts) file ↔
    DottedName t ∧ one (·.is ")") (fun _ => next ⟨t.text, false⟩) ts file ∨
      t.is "stream" ∧ one DottedName (fun type => one (·.is ")") fun _ => next ⟨type.text, true⟩) ts file := by
  constructor
  · rintro ⟨us, operand, rest, whole, argument, more⟩
    cases argument with
    | single typed closes =>
      cases whole
      exact Or.inl ⟨typed, _, rest, rfl, closes, more⟩
    | stream spelled typed closes =>
      cases whole
      exact Or.inr ⟨spelled, _, _, rfl, typed, _, rest, rfl, closes, more⟩
  · rintro (⟨typed, right, rest, rfl, closes, more⟩ | ⟨spelled, type, _, rfl, typed, right, rest, rfl, closes, more⟩)
    · exact ⟨[t, right], _, rest, rfl, .single typed closes, more⟩
    · exact ⟨[t, type, right], _, rest, rfl, .stream spelled typed closes, more⟩

theorem phrase_kind {next : ImportKind → Remainder} : phrase Kind next (t :: ts) file ↔
    next .plain (t :: ts) file ∨ t.is "weak" ∧ next .weak ts file ∨ t.is "public" ∧ next .reexported ts file := by
  constructor
  · rintro ⟨us, kind, rest, whole, marked, more⟩
    cases marked with
    | plain => exact Or.inl (whole ▸ more)
    | weak spelled =>
      cases whole
      exact Or.inr (Or.inl ⟨spelled, more⟩)
    | reexported spelled =>
      cases whole
      exact Or.inr (Or.inr ⟨spelled, more⟩)
  · rintro (more | ⟨spelled, more⟩ | ⟨spelled, more⟩)
    · exact ⟨[], _, t :: ts, rfl, .plain, more⟩
    · exact ⟨[t], _, ts, rfl, .weak spelled, more⟩
    · exact ⟨[t], _, ts, rfl, .reexported spelled, more⟩

theorem phrase_entries {α : Type} {keywords : List String} {entry : List Token → α → Prop}
    {next : List α → Remainder} : phrase (Entries keywords entry) next (t :: ts) file ↔
      next [] (t :: ts) file ∨ t.is ";" ∧ phrase (Entries keywords entry) next ts file ∨
        t.isAny keywords ∧ past (Skipped 0) (phrase (Entries keywords entry) next) ts file ∨
        ¬ t.isAny keywords ∧ phrase (fun us => entry (t :: us))
          (fun x => phrase (Entries keywords entry) fun xs => next (x :: xs)) ts file := by
  constructor
  · rintro ⟨us, xs, rest, whole, entries, more⟩
    cases entries with
    | nil => exact Or.inl (whole ▸ more)
    | semicolon empty others =>
      cases whole
      exact Or.inr (Or.inl ⟨empty, _, xs, rest, rfl, others, more⟩)
    | skipped keyword ignored others =>
      rw [List.cons_append, List.append_assoc] at whole
      cases whole
      exact Or.inr (Or.inr (Or.inl ⟨keyword, _, _, rfl, ignored, _, xs, rest, rfl, others, more⟩))
    | cons other first others =>
      rw [List.cons_append, List.append_assoc] at whole
      cases whole
      exact Or.inr (Or.inr (Or.inr ⟨other, _, _, _, rfl, first, _, _, rest, rfl, others, more⟩))
  · rintro (more | ⟨empty, us, xs, rest, rfl, others, more⟩ |
      ⟨keyword, us, _, rfl, ignored, vs, xs, rest, rfl, others, more⟩ |
      ⟨other, us, x, _, rfl, first, vs, xs, rest, rfl, others, more⟩)
    · exact ⟨[], [], t :: ts, rfl, .nil, more⟩
    · exact ⟨t :: us, xs, rest, rfl, .semicolon empty others, more⟩
    · exact ⟨t :: (us ++ vs), xs, rest, by simp, .skipped keyword ignored others, more⟩
    · exact ⟨t :: (us ++ vs), x :: xs, rest, by simp, .cons other first others, more⟩

/-- Entries up to a closing brace: their first token decides how they go on. -/
theorem phrase_closed {α : Type} {keywords : List String} {entry : List Token → α → Prop} {close : List α → Remainder}
    (lexical : t.Lexical) (begins : ∀ us x, entry (t :: us) x → t.kind = .word)
    (plain : ∀ word ∈ keywords, word ≠ "\x7d" ∧ word ≠ ";") :
    phrase (Entries keywords entry) (fun xs => one (·.is "\x7d") fun _ => close xs) (t :: ts) file ↔
      if t.is "\x7d" then close [] ts file
      else if t.is ";" then phrase (Entries keywords entry) (fun xs => one (·.is "\x7d") fun _ => close xs) ts file
      else if t.isAny keywords then
        past (Skipped 0) (phrase (Entries keywords entry) fun xs => one (·.is "\x7d") fun _ => close xs) ts file
      else phrase (fun us => entry (t :: us))
        (fun x => phrase (Entries keywords entry) fun xs => one (·.is "\x7d") fun _ => close (x :: xs)) ts file := by
  have apart {symbol : String} (spelled : t.is symbol) (other : symbol.toList.all isWordChar = false) (us : List Token)
      (x : α) : ¬ entry (t :: us) x := by
    intro first
    exact lexical.not_word_of_is spelled other (begins us x first)
  rw [phrase_entries, one_cons]
  split
  · rename_i right
    have unknown : t.isAny keywords = false := by
      simpa [isAny, is_eq right] using fun word member same => (plain word member).1 same.symm
    simp [is_eq right, unknown, apart right rfl, phrase]
  split
  · rename_i empty
    have unknown : t.isAny keywords = false := by
      simpa [isAny, is_eq empty] using fun word member same => (plain word member).2 same.symm
    simp [is_eq empty, unknown, apart empty rfl, phrase]
  split
  · simp_all
  · simp_all

end ProtoSchema
