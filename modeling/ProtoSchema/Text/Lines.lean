namespace ProtoSchema.Text

/-- The number of bytes of a text in UTF-8. -/
def byteLength : List Char → Nat
  | [] => 0
  | c :: text => c.utf8Size + byteLength text

@[simp] theorem byteLength_append (a b : List Char) : byteLength (a ++ b) = byteLength a + byteLength b := by
  induction a with
  | nil => simp [byteLength]
  | cons c a ih => simp [byteLength, ih, Nat.add_assoc]

/-- The lines of a text without their newlines. A newline at the very end opens no further line. -/
def lines : List Char → List (List Char)
  | [] => []
  | c :: text =>
    if c = '\n' then [] :: lines text
    else match lines text with
      | [] => [[c]]
      | line :: rest => (c :: line) :: rest

/-- How far a text has been read: the number of lines behind, where the current line begins, and where
reading goes on. -/
structure Place where
  line : Nat
  lineStart : Nat
  offset : Nat
deriving DecidableEq, Repr

namespace Place

def start : Place :=
  ⟨0, 0, 0⟩

/-- The place behind one more character. -/
def next (place : Place) (c : Char) : Place :=
  let offset := place.offset + c.utf8Size
  if c = '\n' then ⟨place.line + 1, offset, offset⟩ else { place with offset }

/-- The place behind some more text. -/
def after (place : Place) (text : List Char) : Place :=
  text.foldl next place

theorem after_append (place : Place) (a b : List Char) : place.after (a ++ b) = (place.after a).after b :=
  List.foldl_append

theorem offset_after (place : Place) (text : List Char) :
    (place.after text).offset = place.offset + byteLength text := by
  induction text generalizing place with
  | nil => rfl
  | cons c text ih =>
    have one : (place.next c).offset = place.offset + c.utf8Size := by
      unfold next
      split <;> rfl
    rw [after, List.foldl_cons, ← after, ih, one, byteLength, Nat.add_assoc]

/-- The last place in a text that is not behind `offset`. -/
def seek (place : Place) (offset : Nat) : List Char → Place
  | [] => place
  | c :: text => if place.offset + c.utf8Size ≤ offset then (place.next c).seek offset text else place

end Place

/-- A line and a column of a text, both counted from 1, the column in bytes. -/
structure Position where
  line : Nat
  column : Nat
deriving DecidableEq, Repr

/-- The position of an offset in the line of a place. -/
def Place.positionOf (place : Place) (offset : Nat) : Position :=
  ⟨place.line + 1, offset - place.lineStart + 1⟩

def Place.position (place : Place) : Position :=
  place.positionOf place.offset

/-- The position of an offset in a text. -/
def locate (text : List Char) (offset : Nat) : Position :=
  (Place.start.seek offset text).positionOf offset

end ProtoSchema.Text
