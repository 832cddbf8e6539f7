namespace ProtoSchema.Text

/-- The pieces of a text between its separators; a text without any is one piece. -/
def pieces (separator : Char) : List Char → List (List Char)
  | [] => [[]]
  | c :: text =>
    if c = separator then [] :: pieces separator text
    else match pieces separator text with
      | [] => [[c]]
      | piece :: rest => (c :: piece) :: rest

theorem pieces_ne_nil (separator : Char) (text : List Char) : pieces separator text ≠ [] := by
  cases text with
  | nil => simp [pieces]
  | cons c text =>
    simp only [pieces]
    split
    · simp
    · split <;> simp

/-- Pieces put together again with the separator between them. -/
def joinPieces (separator : Char) : List (List Char) → List Char
  | [] => []
  | [piece] => piece
  | piece :: rest => piece ++ separator :: joinPieces separator rest

/-- Nothing is lost in taking a text to pieces. -/
theorem joinPieces_pieces (separator : Char) (text : List Char) :
    joinPieces separator (pieces separator text) = text := by
  induction text with
  | nil => rfl
  | cons c text ih =>
    have some := pieces_ne_nil separator text
    simp only [pieces]
    split
    · rename_i same
      obtain ⟨piece, rest, split⟩ := List.exists_cons_of_ne_nil some
      rw [split] at ih ⊢
      simp [joinPieces, ih, same]
    · obtain ⟨piece, rest, split⟩ := List.exists_cons_of_ne_nil some
      rw [split] at ih ⊢
      cases rest with
      | nil => simpa [joinPieces] using ih
      | cons next rest => simpa [joinPieces] using ih

end ProtoSchema.Text
