import Mathlib.Data.List.TakeWhile
import ProtoSchema.Proofs.File.Tables
import ProtoSchema.Proofs.FileSet.Needs

namespace ProtoSchema

namespace Entry

/-- Whether `after` records the same file as `before` and all that `before` says is needed. -/
structure Grows (before after : Entry) : Prop where
  file : after.file = before.file
  path : after.path = before.path
  source : after.source = before.source
  isRoot : before.isRoot = true → after.isRoot = true
  includes : ∀ id, before.includes id = true → after.includes id = true
  reaches : ∀ id, before.reaches id = true → after.reaches id = true

theorem Grows.refl (entry : Entry) : entry.Grows entry :=
  ⟨rfl, rfl, rfl, id, fun _ => id, fun _ => id⟩

theorem Grows.trans {a b c : Entry} (first : a.Grows b) (second : b.Grows c) : a.Grows c where
  file := second.file.trans first.file
  path := second.path.trans first.path
  source := second.source.trans first.source
  isRoot := second.isRoot ∘ first.isRoot
  includes id := second.includes id ∘ first.includes id
  reaches id := second.reaches id ∘ first.reaches id

/-- Whether a declaration of the file is needed as far as the record says. -/
def Has (entry : Entry) : DeclId → Prop
  | .message id => entry.includes id = true
  | .enum id => entry.reaches id = true

theorem Grows.has {before after : Entry} (grows : before.Grows after) {decl : DeclId} (has : before.Has decl) :
    after.Has decl := by
  cases decl with
  | message id => exact grows.includes id has
  | enum id => exact grows.reaches id has

theorem Grows.usesAt {before after : Entry} (grows : before.Grows after) (id : MessageId) :
    after.usesAt id = before.usesAt id := by
  rw [Entry.usesAt, Entry.usesAt, grows.file]

/-- Whether some declarations of the file have with each message all that it leads to in the file. -/
def Closes (entry : Entry) (needed : DeclId → Prop) : Prop :=
  ∀ id, needed (.message id) →
    (∀ other ∈ (entry.usesAt id).messages, needed (.message other)) ∧
      ∀ other ∈ (entry.usesAt id).enums, needed (.enum other)

theorem Grows.closes {before after : Entry} (grows : before.Grows after) {needed : DeclId → Prop} :
    after.Closes needed ↔ before.Closes needed := by
  simp only [Closes, grows.usesAt]

/-- Whether an entry has one flag for each row of the tables of its file. -/
structure Tidy (entry : Entry) : Prop where
  ordered : entry.file.InOrder
  messageFlags : entry.messageFlags.length = entry.file.messageTable.length
  enumFlags : entry.enumFlags.length = entry.file.enumTable.length

theorem Tidy.message_lt {entry : Entry} (tidy : entry.Tidy) {id : MessageId}
    (declared : entry.file.Declares (.message id)) : id.index < entry.messageFlags.length := by
  obtain ⟨message, at_id⟩ := declared
  have bound := (List.getElem?_eq_some_iff.1 at_id).1
  rwa [tidy.messageFlags]

theorem Tidy.enum_lt {entry : Entry} (tidy : entry.Tidy) {id : EnumId}
    (declared : entry.file.Declares (.enum id)) : id.index < entry.enumFlags.length := by
  obtain ⟨enum, at_id⟩ := declared
  have bound := (List.getElem?_eq_some_iff.1 at_id).1
  rwa [tidy.enumFlags]

section Flags

variable (entry : Entry)

@[simp] theorem file_reach (id : EnumId) : (entry.reach id).file = entry.file := rfl

@[simp] theorem enumFlags_length_reach (id : EnumId) : (entry.reach id).enumFlags.length = entry.enumFlags.length := by
  simp [reach]

theorem reaches_reach (id other : EnumId) :
    (entry.reach id).reaches other = true ↔
      entry.reaches other = true ∨ other = id ∧ id.index < entry.enumFlags.length := by
  obtain ⟨place⟩ := id
  obtain ⟨index⟩ := other
  simp only [reaches, reach, decide_eq_true_eq, EnumId.mk.injEq, List.getElem?_set]
  by_cases same : place = index
  · subst same
    by_cases bound : place < entry.enumFlags.length <;> simp [bound]
  · simp [same, Ne.symm same]

theorem grows_reach (id : EnumId) : entry.Grows (entry.reach id) :=
  ⟨rfl, rfl, rfl, fun root => root, fun _ included => included,
    fun other reached => (entry.reaches_reach id other).2 (Or.inl reached)⟩

theorem grows_foldl_reach (ids : List EnumId) : entry.Grows (ids.foldl reach entry) := by
  induction ids generalizing entry with
  | nil => exact .refl entry
  | cons id ids ih => exact (entry.grows_reach id).trans (ih _)

theorem isRoot_foldl_reach (ids : List EnumId) : (ids.foldl reach entry).isRoot = entry.isRoot := by
  induction ids generalizing entry with
  | nil => rfl
  | cons id ids ih => rw [List.foldl_cons, ih]; rfl

theorem enumFlags_length_foldl_reach (ids : List EnumId) :
    (ids.foldl reach entry).enumFlags.length = entry.enumFlags.length := by
  induction ids generalizing entry with
  | nil => rfl
  | cons id ids ih => rw [List.foldl_cons, ih, enumFlags_length_reach]

theorem reaches_foldl_reach (ids : List EnumId) (other : EnumId) :
    (ids.foldl reach entry).reaches other = true ↔
      entry.reaches other = true ∨ other ∈ ids ∧ other.index < entry.enumFlags.length := by
  induction ids generalizing entry with
  | nil => simp
  | cons id ids ih =>
    rw [List.foldl_cons, ih, reaches_reach, enumFlags_length_reach, List.mem_cons]
    grind

theorem lacks_lt {id : MessageId} (lacking : entry.lacks id = true) : id.index < entry.messageFlags.length := by
  simp only [lacks, decide_eq_true_eq] at lacking
  exact (List.getElem?_eq_some_iff.1 lacking).1

theorem includes_of_not_lacks {id : MessageId} (bound : id.index < entry.messageFlags.length)
    (present : entry.lacks id = false) : entry.includes id = true := by
  simp_all [lacks, includes]

end Flags

section IncludeOne

variable (entry : Entry) (id : MessageId) (uses : Uses)

theorem isRoot_includeOne : (entry.includeOne id uses).isRoot = entry.isRoot :=
  isRoot_foldl_reach _ uses.enums

theorem enumFlags_length_includeOne : (entry.includeOne id uses).enumFlags.length = entry.enumFlags.length :=
  enumFlags_length_foldl_reach _ uses.enums

theorem reaches_includeOne (other : EnumId) :
    (entry.includeOne id uses).reaches other = true ↔
      entry.reaches other = true ∨ other ∈ uses.enums ∧ other.index < entry.enumFlags.length :=
  reaches_foldl_reach _ uses.enums other

variable {id}

theorem includes_includeOne (bound : id.index < entry.messageFlags.length) (other : MessageId) :
    (entry.includeOne id uses).includes other = true ↔ entry.includes other = true ∨ other = id := by
  obtain ⟨place⟩ := id
  obtain ⟨index⟩ := other
  simp only [includes, messageFlags_includeOne, decide_eq_true_eq, MessageId.mk.injEq, List.getElem?_set]
  by_cases same : place = index
  · subst same
    simp_all
  · simp [same, Ne.symm same]

theorem grows_includeOne (bound : id.index < entry.messageFlags.length) :
    entry.Grows (entry.includeOne id uses) := by
  have reached := grows_foldl_reach { entry with messageFlags := entry.messageFlags.set id.index true } uses.enums
  exact ⟨reached.file, reached.path, reached.source, reached.isRoot,
    fun other included => (entry.includes_includeOne uses bound other).2 (Or.inl included), reached.reaches⟩

end IncludeOne

section Gather

variable (entry : Entry) (outside : List OuterRef) (stack : List MessageId)

/-- What has been included so far stays, and no more flags come or go. -/
theorem gather_grows :
    entry.Grows (entry.gather outside stack).1 ∧
      (entry.gather outside stack).1.isRoot = entry.isRoot ∧
      (entry.gather outside stack).1.messageFlags.length = entry.messageFlags.length ∧
      (entry.gather outside stack).1.enumFlags.length = entry.enumFlags.length ∧
      ∀ outer ∈ outside, outer ∈ (entry.gather outside stack).2 := by
  fun_induction gather entry outside stack with
  | case1 entry outside stack => exact ⟨.refl entry, rfl, rfl, rfl, fun _ => id⟩
  | case2 entry outside stack id rest found uses ih =>
    have bound := entry.lacks_lt (by simpa [found] using List.head?_dropWhile_not (fun id => !entry.lacks id) stack)
    obtain ⟨grows, isRoot, messages, enums, kept⟩ := ih
    refine ⟨(entry.grows_includeOne uses bound).trans grows, ?_, ?_, ?_, ?_⟩
    · rw [isRoot, isRoot_includeOne]
    · rw [messages, messageFlags_includeOne, List.length_set]
    · rw [enums, enumFlags_length_includeOne]
    · intro outer old
      exact kept outer (mem_addAllNew.2 (Or.inl old))

/-- Declarations that are closed under the references of their messages bound what is included. -/
theorem gather_within {needed : DeclId → Prop} (start : ∀ id ∈ stack, needed (.message id))
    (closed : entry.Closes needed) {decl : DeclId} (has : (entry.gather outside stack).1.Has decl) :
    entry.Has decl ∨ needed decl := by
  fun_induction gather entry outside stack with
  | case1 entry outside stack => exact Or.inl has
  | case2 entry outside stack id rest found uses ih =>
    have bound := entry.lacks_lt (by simpa [found] using List.head?_dropWhile_not (fun id => !entry.lacks id) stack)
    have suffix := (List.dropWhile_suffix (fun id => !entry.lacks id) (l := stack)).subset
    rw [found] at suffix
    have here : needed (.message id) := start id (suffix (List.mem_cons_self ..))
    have pushed : ∀ other ∈ uses.messages.reverse ++ rest, needed (.message other) := by
      intro other member
      rcases List.mem_append.1 member with used | old
      · exact (closed id here).1 other (List.mem_reverse.1 used)
      · exact start other (suffix (List.mem_cons_of_mem _ old))
    rcases ih pushed ((entry.grows_includeOne uses bound).closes.2 closed) has with old | new
    · cases decl with
      | message other =>
        rcases (entry.includes_includeOne uses bound other).1 old with older | rfl
        · exact Or.inl older
        · exact Or.inr here
      | enum other =>
        rcases (entry.reaches_includeOne id uses other).1 old with older | ⟨used, _⟩
        · exact Or.inl older
        · exact Or.inr ((closed id here).2 other used)
    · exact Or.inr new

/-- Only messages that are included add to what is outside. -/
theorem gather_outside {outer : OuterRef} (member : outer ∈ (entry.gather outside stack).2) :
    outer ∈ outside ∨
      ∃ id, (entry.gather outside stack).1.includes id = true ∧ outer ∈ (entry.usesAt id).outside := by
  fun_induction gather entry outside stack with
  | case1 entry outside stack => exact Or.inl member
  | case2 entry outside stack id rest found uses ih =>
    have bound := entry.lacks_lt (by simpa [found] using List.head?_dropWhile_not (fun id => !entry.lacks id) stack)
    simp only [(entry.grows_includeOne uses bound).usesAt] at ih
    rcases ih member with old | new
    · rcases mem_addAllNew.1 old with older | used
      · exact Or.inl older
      · refine Or.inr ⟨id, ?_, used⟩
        exact (gather_grows _ _ _).1.includes id ((entry.includes_includeOne uses bound id).2 (Or.inr rfl))
    · exact Or.inr new

/-- Whether the record has all that a message of the file leads to, and `outside` all that it refers to
outside the file. -/
structure Covers (entry : Entry) (outside : List OuterRef) (uses : Uses) : Prop where
  messages : ∀ id ∈ uses.messages, id.index < entry.messageFlags.length → entry.includes id = true
  enums : ∀ id ∈ uses.enums, id.index < entry.enumFlags.length → entry.reaches id = true
  outside : ∀ outer ∈ uses.outside, outer ∈ outside

/-- All messages on the stack are included, and with every message that is, all that it leads to. -/
theorem gather_complete :
    (∀ id ∈ stack, id.index < entry.messageFlags.length → (entry.gather outside stack).1.includes id = true) ∧
      ∀ id, (entry.gather outside stack).1.includes id = true → entry.includes id = true ∨
        (entry.gather outside stack).1.Covers (entry.gather outside stack).2 (entry.usesAt id) := by
  fun_induction gather entry outside stack with
  | case1 entry outside stack found =>
    refine ⟨?_, fun _ => Or.inl⟩
    intro id member bound
    have present := List.dropWhile_eq_nil_iff.1 found id member
    exact entry.includes_of_not_lacks bound (by simpa using present)
  | case2 entry outside stack id rest found uses ih =>
    have bound := entry.lacks_lt (by simpa [found] using List.head?_dropWhile_not (fun id => !entry.lacks id) stack)
    obtain ⟨grows, _, messageFlags, enumFlags, kept⟩ :=
      gather_grows (entry.includeOne id uses) (addAllNew outside uses.outside) (uses.messages.reverse ++ rest)
    simp only [(entry.grows_includeOne uses bound).usesAt, messageFlags_includeOne, List.length_set] at ih messageFlags
    rw [enumFlags_length_includeOne] at enumFlags
    obtain ⟨all, led⟩ := ih
    have here := grows.includes id ((entry.includes_includeOne uses bound id).2 (Or.inr rfl))
    refine ⟨?_, ?_⟩
    · intro other member inRange
      rw [← List.takeWhile_append_dropWhile (p := fun id => !entry.lacks id) (l := stack), found] at member
      rcases List.mem_append.1 member with skipped | later
      · have present := List.mem_takeWhile_imp skipped
        have included := entry.includes_of_not_lacks inRange (by simpa using present)
        exact grows.includes other ((entry.includes_includeOne uses bound other).2 (Or.inl included))
      · rcases List.mem_cons.1 later with rfl | below
        · exact here
        · exact all other (List.mem_append_right _ below) inRange
    · intro other member
      rcases led other member with old | new
      · rcases (entry.includes_includeOne uses bound other).1 old with older | rfl
        · exact Or.inl older
        · refine Or.inr ⟨?_, ?_, ?_⟩
          · intro used isUsed inRange
            exact all used (List.mem_append_left _ (List.mem_reverse.2 isUsed)) (messageFlags ▸ inRange)
          · intro used isUsed inRange
            exact grows.reaches used ((entry.reaches_includeOne other uses used).2 (Or.inr ⟨isUsed, enumFlags ▸ inRange⟩))
          · intro outer isUsed
            exact kept outer (mem_addAllNew.2 (Or.inr isUsed))
      · exact Or.inr new

end Gather

end Entry

end ProtoSchema
