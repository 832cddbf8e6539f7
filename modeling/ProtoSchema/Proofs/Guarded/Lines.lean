import Mathlib.Data.List.TakeWhile
import ProtoSchema.Proofs.Guarded.Basic
import ProtoSchema.Text.Lines

namespace ProtoSchema

open Text (Place)

namespace Guarded

/-- The offsets at which the lines of a text begin, but for its first line. -/
def lineStarts (offset : Nat) : List Char → List Nat
  | [] => []
  | c :: text =>
    if c = '\n' then (offset + c.utf8Size) :: lineStarts (offset + c.utf8Size) text
    else lineStarts (offset + c.utf8Size) text

/-- The position of an offset, in the lines that begin at `starts`. -/
def locate (starts : List Nat) (offset : Nat) : Except Breach Text.Position :=
  let before := (starts.takeWhile (· < offset)).length
  if starts[before]? = some offset then .ok ⟨before + 2, 1⟩
  else match before with
    | 0 => .ok ⟨1, offset + 1⟩
    | last + 1 =>
      match starts[last]? with
      | none => .error .noSuchLine
      | some start => if start ≤ offset then .ok ⟨last + 2, offset - start + 1⟩ else .error .noSuchLine

theorem lineStarts_ge (offset : Nat) (text : List Char) : ∀ start ∈ lineStarts offset text, offset ≤ start := by
  induction text generalizing offset with
  | nil => exact nofun
  | cons c text ih =>
    intro start member
    have later : start ∈ lineStarts (offset + c.utf8Size) text → offset ≤ start := fun member =>
      Nat.le_trans (Nat.le_add_right _ _) (ih _ start member)
    rw [lineStarts] at member
    split at member
    · rcases List.mem_cons.1 member with rfl | member
      · exact Nat.le_add_right _ _
      · exact later member
    · exact later member

theorem lineStarts_cons_gt {offset limit : Nat} {c : Char} (text : List Char) (beyond : limit < offset + c.utf8Size) :
    ∀ start ∈ lineStarts offset (c :: text), limit < start := by
  intro start member
  have later : start ∈ lineStarts (offset + c.utf8Size) text → limit < start := fun member =>
    Nat.lt_of_lt_of_le beyond (lineStarts_ge _ text start member)
  rw [lineStarts] at member
  split at member
  · rcases List.mem_cons.1 member with rfl | member
    · exact beyond
    · exact later member
  · exact later member

theorem lineStarts_ascend (offset : Nat) (text : List Char) : (lineStarts offset text).Pairwise (· < ·) := by
  induction text generalizing offset with
  | nil => exact .nil
  | cons c text ih =>
    rw [lineStarts]
    split
    · refine .cons ?_ (ih _)
      cases text with
      | nil => exact nofun
      | cons d text => exact lineStarts_cons_gt text (Nat.lt_add_of_pos_right d.utf8Size_pos)
    · exact ih _

theorem takeWhile_eq_nil {starts : List Nat} {limit : Nat} (beyond : ∀ start ∈ starts, limit < start) :
    starts.takeWhile (· ≤ limit) = [] := by
  cases starts with
  | nil => rfl
  | cons start rest => exact List.takeWhile_cons_of_neg (by simpa using beyond start List.mem_cons_self)

/-- Up to an offset, there are the lines before it and perhaps the one that begins there. -/
theorem takeWhile_le {starts : List Nat} (ascend : starts.Pairwise (· < ·)) (offset : Nat) :
    starts.takeWhile (· ≤ offset) =
      if starts[(starts.takeWhile (· < offset)).length]? = some offset then starts.takeWhile (· < offset) ++ [offset]
      else starts.takeWhile (· < offset) := by
  induction starts with
  | nil => simp
  | cons start rest ih =>
    obtain ⟨least, ascend⟩ := List.pairwise_cons.1 ascend
    rcases Nat.lt_trichotomy start offset with less | rfl | greater
    · rw [List.takeWhile_cons_of_pos (by simp; omega), List.takeWhile_cons_of_pos (by simp [less]), ih ascend,
        List.length_cons, List.getElem?_cons_succ]
      split <;> rfl
    · simp [takeWhile_eq_nil least]
    · rw [List.takeWhile_cons_of_neg (by simpa using greater), List.takeWhile_cons_of_neg (by simp; omega)]
      simp
      omega

/-- Seeking an offset from a place passes the lines that begin up to it. -/
theorem positionOf_seek (place : Place) (offset : Nat) (text : List Char) :
    (place.seek offset text).positionOf offset =
      ⟨place.line + ((lineStarts place.offset text).takeWhile (· ≤ offset)).length + 1,
        offset - ((lineStarts place.offset text).takeWhile (· ≤ offset)).getLast?.getD place.lineStart + 1⟩ := by
  induction text generalizing place with
  | nil => simp [Place.seek, Place.positionOf, lineStarts]
  | cons c text ih =>
    rw [Place.seek]
    split
    · rename_i within
      rw [ih, lineStarts]
      by_cases newline : c = '\n'
      · rw [if_pos newline, List.takeWhile_cons_of_pos (by simpa using within), Place.next, if_pos newline]
        simp [List.getLast?_cons, Nat.add_assoc, Nat.add_comm 1]
      · rw [if_neg newline, Place.next, if_neg newline]
    · rename_i beyond
      simp [takeWhile_eq_nil (lineStarts_cons_gt text (Nat.lt_of_not_le beyond)), Place.positionOf]

theorem locate_eq (text : List Char) (offset : Nat) :
    locate (lineStarts 0 text) offset = .ok (Text.locate text offset) := by
  have whole := takeWhile_le (lineStarts_ascend 0 text) offset
  rw [Text.locate, positionOf_seek, locate]
  simp only [Place.start, whole]
  generalize lineStarts 0 text = starts
  split
  · simp
  · cases length : (starts.takeWhile (· < offset)).length with
    | zero => simp [List.length_eq_zero_iff.1 length]
    | succ last =>
      have bound : last < (starts.takeWhile (· < offset)).length := by omega
      have found : starts[last]? = some (starts.takeWhile (· < offset))[last] :=
        List.prefix_iff_getElem?.1 (List.takeWhile_prefix _) last bound
      have less : (starts.takeWhile (· < offset))[last] < offset := by
        simpa using List.mem_takeWhile_imp (List.getElem_mem bound)
      have final : (starts.takeWhile (· < offset)).getLast? = some (starts.takeWhile (· < offset))[last] := by
        rw [List.getLast?_eq_getElem?, length, Nat.add_sub_cancel, List.getElem?_eq_getElem bound]
      simp only [found, final, if_pos (Nat.le_of_lt less), Option.getD_some]
      simp

end Guarded

end ProtoSchema
