import ProtoSchema.Name

namespace ProtoSchema

namespace Text

/-- No piece of a list that is split holds what it is split at. -/
theorem not_mem_of_mem_splitOn {α : Type} [BEq α] [LawfulBEq α] {separator : α} {items piece : List α}
    (member : piece ∈ items.splitOn separator) : separator ∉ piece := by
  induction items generalizing piece with
  | nil =>
    rw [List.splitOn_nil, List.mem_singleton] at member
    simp [member]
  | cons item rest ih =>
    rw [List.splitOn_cons_eq_if_modifyHead] at member
    split at member
    · rcases List.mem_cons.1 member with rfl | later
      · simp
      · exact ih later
    · rename_i other
      obtain ⟨first, pieces, split⟩ := List.exists_cons_of_ne_nil (List.splitOn_ne_nil separator rest)
      rw [split] at member ih
      rcases List.mem_cons.1 member with rfl | later
      · simp only [List.mem_cons, not_or]
        exact ⟨fun same => other (by simp [← same]), ih (List.mem_cons_self ..)⟩
      · exact ih (List.mem_cons_of_mem _ later)

theorem pieces_eq_splitOn (separator : Char) (text : List Char) : pieces separator text = text.splitOn separator := by
  induction text with
  | nil => rfl
  | cons c text ih =>
    rw [pieces, ih, List.splitOn_cons_eq_if_modifyHead]
    simp only [beq_iff_eq]
    split
    · rfl
    · obtain ⟨first, rest, split⟩ := List.exists_cons_of_ne_nil (List.splitOn_ne_nil separator text)
      rw [split, List.modifyHead_cons]

end Text

variable {name : String} {names more : List String}

/-- Whether a name has no dot in it. -/
def Undotted (name : String) : Prop :=
  '.' ∉ name.toList

theorem components_eq_splitOn (name : String) : components name = (name.toList.splitOn '.').map String.ofList := by
  rw [components, Text.pieces_eq_splitOn]

theorem components_ne_nil (name : String) : components name ≠ [] := by
  simp [components_eq_splitOn]

theorem undotted_of_mem_components {component : String} (member : component ∈ components name) :
    Undotted component := by
  rw [components_eq_splitOn] at member
  obtain ⟨piece, among, rfl⟩ := List.mem_map.1 member
  simpa [Undotted] using Text.not_mem_of_mem_splitOn among

theorem components_of_undotted (undotted : Undotted name) : components name = [name] := by
  rw [components_eq_splitOn, List.splitOn_eq_singleton undotted]
  simp

theorem components_append (front back : String) :
    components (front ++ "." ++ back) = components front ++ components back := by
  have dot : ".".toList = ['.'] := rfl
  simp only [components_eq_splitOn, String.toList_append, dot, List.append_assoc, List.singleton_append,
    List.splitOn_append_cons_self, List.map_append]

theorem dotted_append (some : names ≠ []) (others : more ≠ []) :
    dotted (names ++ more) = dotted names ++ "." ++ dotted more :=
  String.intercalate_append_of_ne_nil some others

@[simp] theorem dotted_singleton (name : String) : dotted [name] = name :=
  String.intercalate_singleton

theorem dotted_cons (name : String) (some : names ≠ []) : dotted (name :: names) = name ++ "." ++ dotted names :=
  String.intercalate_cons_of_ne_nil some

@[simp] theorem dotted_components (name : String) : dotted (components name) = name := by
  have dot : ".".toList = ['.'] := rfl
  apply String.toList_inj.1
  rw [dotted, String.toList_intercalate, dot, components_eq_splitOn, List.map_map]
  simp [Function.comp_def]

/-- What comes of putting names together is taken apart into the components of each. -/
theorem components_dotted (some : names ≠ []) : components (dotted names) = names.flatMap components := by
  induction names with
  | nil => contradiction
  | cons name names ih =>
    cases names with
    | nil => simp
    | cons next rest =>
      rw [dotted_cons name (List.cons_ne_nil _ _), components_append, ih (List.cons_ne_nil _ _)]
      rfl

theorem flatMap_components (undotted : ∀ name ∈ names, Undotted name) : names.flatMap components = names := by
  induction names with
  | nil => rfl
  | cons name names ih =>
    obtain ⟨first, rest⟩ := List.forall_mem_cons.1 undotted
    rw [List.flatMap_cons, components_of_undotted first, ih rest, List.singleton_append]

theorem undotted_of_isIdentifier (identifier : isIdentifier name.toList) : Undotted name := by
  unfold Undotted
  cases text : name.toList with
  | nil => simp
  | cons c rest =>
    rw [text, isIdentifier, Bool.and_eq_true, List.all_eq_true] at identifier
    intro dot
    rcases List.mem_cons.1 dot with rfl | later
    · exact absurd identifier.1 (by decide)
    · exact absurd (identifier.2 _ later) (by decide)

theorem ne_empty_of_isIdentifier (identifier : isIdentifier name.toList) : name ≠ "" := by
  rintro rfl
  contradiction

theorem isIdentifier_of_mem_components {component : String} (relative : isRelativeName name.toList)
    (member : component ∈ components name) : isIdentifier component.toList := by
  obtain ⟨piece, among, rfl⟩ := List.mem_map.1 member
  simpa using List.all_eq_true.1 relative piece among

end ProtoSchema
