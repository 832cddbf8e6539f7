namespace ProtoSchema.Text

/-- Whether a code point lies in one of the closed ranges of a table. The table ascends, so the search ends at
the first range that begins above the code point. -/
def inRanges (code : Nat) : List (Nat × Nat) → Bool
  | [] => false
  | (first, last) :: rest => first ≤ code && (code ≤ last || inRanges code rest)

/-- Every range holds a code point and begins above a floor and above the ranges before it, with a gap. -/
def ascendAbove (floor : Nat) : List (Nat × Nat) → Bool
  | [] => true
  | (first, last) :: rest => floor ≤ first && first ≤ last && ascendAbove (last + 2) rest

theorem floor_le_of_ascendAbove {ranges : List (Nat × Nat)} {floor : Nat}
    (sorted : ascendAbove floor ranges = true) {range : Nat × Nat} (member : range ∈ ranges) :
    floor ≤ range.1 := by
  induction ranges generalizing floor with
  | nil => cases member
  | cons head rest ih =>
    obtain ⟨first, last⟩ := head
    simp only [ascendAbove, Bool.and_eq_true, decide_eq_true_eq] at sorted
    rcases List.mem_cons.mp member with rfl | later
    · exact sorted.1.1
    · have above := ih sorted.2 later
      omega

/-- Ending the search early loses nothing on a table that ascends. -/
theorem inRanges_iff {ranges : List (Nat × Nat)} {floor : Nat} (sorted : ascendAbove floor ranges = true)
    (code : Nat) :
    inRanges code ranges = true ↔ ∃ range ∈ ranges, range.1 ≤ code ∧ code ≤ range.2 := by
  induction ranges generalizing floor with
  | nil => simp [inRanges]
  | cons head rest ih =>
    obtain ⟨first, last⟩ := head
    simp only [ascendAbove, Bool.and_eq_true, decide_eq_true_eq] at sorted
    simp only [inRanges, Bool.and_eq_true, Bool.or_eq_true, decide_eq_true_eq, ih sorted.2,
      List.mem_cons, exists_eq_or_imp]
    constructor
    · rintro ⟨low, high | later⟩
      · exact Or.inl ⟨low, high⟩
      · exact Or.inr later
    · rintro (inside | ⟨range, member, low, high⟩)
      · exact ⟨inside.1, Or.inl inside.2⟩
      · have above := floor_le_of_ascendAbove sorted.2 member
        exact ⟨by omega, Or.inr ⟨range, member, low, high⟩⟩

end ProtoSchema.Text
