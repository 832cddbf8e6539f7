import ProtoSchema.Text.Blank

namespace ProtoSchema.Text

variable {text core rest : List Char} {inClass : Char → Bool}

theorem dropWhile_eq_iff : text.dropWhile inClass = rest ↔
    ∃ lead, text = lead ++ rest ∧ (∀ c ∈ lead, inClass c) ∧ ∀ c ∈ rest.head?, ¬ inClass c := by
  constructor
  · rintro rfl
    refine ⟨text.takeWhile inClass, List.takeWhile_append_dropWhile.symm, ?_, ?_⟩
    · exact List.all_eq_true.1 List.all_takeWhile
    · intro c first
      have stops := List.head?_dropWhile_not inClass text
      rw [Option.mem_def.1 first] at stops
      simpa using stops
  · rintro ⟨lead, rfl, within, ends⟩
    rw [List.dropWhile_append_of_pos within]
    cases rest with
    | nil => rfl
    | cons c rest => exact List.dropWhile_cons_of_neg (ends c rfl)

theorem dropTrailing_eq_iff : dropTrailing inClass text = rest ↔
    ∃ trail, text = rest ++ trail ∧ (∀ c ∈ trail, inClass c) ∧ ∀ c ∈ rest.getLast?, ¬ inClass c := by
  rw [dropTrailing, List.reverse_eq_iff, dropWhile_eq_iff]
  constructor
  · rintro ⟨lead, whole, within, ends⟩
    refine ⟨lead.reverse, ?_, by simpa using within, by simpa using ends⟩
    rw [← List.reverse_reverse text, whole, List.reverse_append, List.reverse_reverse]
  · rintro ⟨trail, rfl, within, ends⟩
    exact ⟨trail.reverse, List.reverse_append, by simpa using within, by simpa using ends⟩

/-- Whether `core` is what is left of a text without the blanks at both ends. -/
def Trimmed (text core : List Char) : Prop :=
  ∃ lead trail, text = lead ++ core ++ trail ∧ (∀ c ∈ lead, isBlank c) ∧ (∀ c ∈ trail, isBlank c) ∧
    (∀ c ∈ core.head?, ¬ isBlank c) ∧ ∀ c ∈ core.getLast?, ¬ isBlank c

theorem trimmed_iff : Trimmed text core ↔ trim text = core := by
  rw [trim, dropTrailing_eq_iff]
  constructor
  · rintro ⟨lead, trail, rfl, leading, trailing, first, last⟩
    cases core with
    | nil =>
      have all : ∀ c ∈ lead ++ trail, isBlank c := fun c member =>
        (List.mem_append.1 member).elim (leading c) (trailing c)
      exact ⟨[], dropWhile_eq_iff.2 ⟨lead ++ trail, by simp, all, nofun⟩, nofun, nofun⟩
    | cons c core =>
      refine ⟨trail, dropWhile_eq_iff.2 ⟨lead, by simp, leading, first⟩, trailing, last⟩
  · rintro ⟨trail, whole, trailing, last⟩
    obtain ⟨lead, whole', leading, first⟩ := dropWhile_eq_iff.1 whole
    refine ⟨lead, trail, by rw [whole', List.append_assoc], leading, trailing, ?_, last⟩
    cases core with
    | nil => nofun
    | cons c core => exact first

end ProtoSchema.Text
