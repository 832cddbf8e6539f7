import ProtoSchema.FileSet.Basic
import ProtoSchema.OuterRef

namespace ProtoSchema

/-- Puts an item behind a list that does not hold it yet. -/
def addNew [DecidableEq α] (items : List α) (item : α) : List α :=
  if item ∈ items then items else items ++ [item]

def addAllNew [DecidableEq α] (items more : List α) : List α :=
  more.foldl addNew items

theorem mem_addNew [DecidableEq α] {items : List α} {item other : α} :
    other ∈ addNew items item ↔ other ∈ items ∨ other = item := by
  unfold addNew
  split
  · constructor
    · exact Or.inl
    · rintro (old | rfl) <;> assumption
  · simp

theorem mem_addAllNew [DecidableEq α] {items more : List α} {other : α} :
    other ∈ addAllNew items more ↔ other ∈ items ∨ other ∈ more := by
  induction more generalizing items with
  | nil => simp [addAllNew]
  | cons item more ih =>
    rw [addAllNew, List.foldl_cons, ← addAllNew, ih, mem_addNew, List.mem_cons, or_assoc]

/-- Replacing one occurrence of an element leaves one fewer of it. -/
theorem count_set_lt [DecidableEq α] {items : List α} {index : Nat} {old new : α} (at_index : items[index]? = some old)
    (changed : new ≠ old) : (items.set index new).count old < items.count old := by
  induction items generalizing index with
  | nil => simp at at_index
  | cons item items ih =>
    cases index with
    | zero =>
      obtain rfl : item = old := by simpa using at_index
      simp [changed]
    | succ index =>
      have less := ih (by simpa using at_index)
      simp only [List.set_cons_succ, List.count_cons]
      omega

namespace Entry

/-- The entry after one message of its file has been included, with the enums that it leads to. -/
def includeOne (entry : Entry) (id : MessageId) (uses : Uses) : Entry :=
  uses.enums.foldl reach { entry with messageFlags := entry.messageFlags.set id.index true }

/-- What the message at a place of the table leads to. -/
def usesAt (entry : Entry) (id : MessageId) : Uses :=
  entry.file.uses ((entry.file.message? id).map Message.types |>.getD [])

theorem messageFlags_foldl_reach (ids : List EnumId) (entry : Entry) :
    (ids.foldl reach entry).messageFlags = entry.messageFlags := by
  induction ids generalizing entry with
  | nil => rfl
  | cons id ids ih => rw [List.foldl_cons, ih]; rfl

theorem messageFlags_includeOne (entry : Entry) (id : MessageId) (uses : Uses) :
    (entry.includeOne id uses).messageFlags = entry.messageFlags.set id.index true :=
  messageFlags_foldl_reach _ _

/-- Whether there is a message at a place of the table that has not been included. -/
def lacks (entry : Entry) (id : MessageId) : Bool :=
  entry.messageFlags[id.index]? = some false

theorem count_includeOne_lt {entry : Entry} {stack rest : List MessageId} {id : MessageId} (uses : Uses)
    (found : stack.dropWhile (fun id => !entry.lacks id) = id :: rest) :
    (entry.includeOne id uses).messageFlags.count false < entry.messageFlags.count false := by
  have first := List.head?_dropWhile_not (fun id => !entry.lacks id) stack
  rw [found] at first
  have lacking : entry.messageFlags[id.index]? = some false := by simpa [lacks] using first
  rw [messageFlags_includeOne]
  exact count_set_lt lacking (by decide)

/-- Includes the messages on a stack, the top one first, and all that they lead to in the same file. What
they refer to outside the file is added to `outside`. -/
def gather (entry : Entry) (outside : List OuterRef) (stack : List MessageId) : Entry × List OuterRef :=
  match _found : stack.dropWhile fun id => !entry.lacks id with
  | [] => (entry, outside)
  | id :: rest =>
    let uses := entry.usesAt id
    (entry.includeOne id uses).gather (addAllNew outside uses.outside) (uses.messages.reverse ++ rest)
termination_by entry.messageFlags.count false
decreasing_by exact count_includeOne_lt _ _found

end Entry

end ProtoSchema
