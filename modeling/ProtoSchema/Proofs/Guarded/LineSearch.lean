import Mathlib.Data.List.Sort
import ProtoSchema.Proofs.Guarded.Lines
import ProtoSchema.Proofs.Text.Newlines

namespace ProtoSchema

open Text (Place bytes coordinates newlinesBefore)

/-- The position, counted from 1, of a line and a column that are counted from 0. -/
def Text.Position.fromZero (pair : Nat × Nat) : Text.Position :=
  ⟨pair.1 + 1, pair.2 + 1⟩

theorem Text.Position.fromZero_inj {a b : Nat × Nat} : fromZero a = fromZero b ↔ a = b := by
  simp [fromZero, Prod.ext_iff]

namespace Guarded

/-- What a search in the lines finds: the line that begins at an offset, or else the first one that begins behind it. -/
inductive Hit
  | start (index : Nat)
  | before (index : Nat)
deriving DecidableEq, Repr

/-- Looks for an offset among the lines from `low` up to, but not including, `high`, dropping half of them at a time. -/
def search (starts : List Nat) (offset low high : Nat) : Except Breach Hit :=
  if low < high then
    let middle := low + (high - low) / 2
    match starts[middle]? with
    | none => .error .noSuchLine
    | some start =>
      if start = offset then .ok (.start middle)
      else if start < offset then search starts offset (middle + 1) high
      else search starts offset low middle
  else .ok (.before low)
termination_by high - low
decreasing_by all_goals omega

/-- The line and the column of an offset, counted from 0, in the lines that begin at `starts`. -/
def lineColumn (starts : List Nat) (offset : Nat) : Except Breach (Nat × Nat) :=
  match search starts offset 0 starts.length with
  | .error breach => .error breach
  | .ok (.start index) => .ok (index + 1, 0)
  | .ok (.before 0) => .ok (0, offset)
  | .ok (.before (last + 1)) =>
    match starts[last]? with
    | none => .error .noSuchLine
    | some start => if start ≤ offset then .ok (last + 1, offset - start) else .error .noSuchLine

section Search

variable {starts : List Nat} {offset : Nat} (ascend : starts.Pairwise (· < ·))

/-- The number of lines in the table that begin before an offset. -/
def linesBefore (starts : List Nat) (offset : Nat) : Nat :=
  (starts.takeWhile (· < offset)).length

theorem linesBefore_le (starts : List Nat) (offset : Nat) : linesBefore starts offset ≤ starts.length :=
  (List.takeWhile_prefix _).length_le

include ascend

theorem lt_linesBefore_iff {index start : Nat} (found : starts[index]? = some start) :
    index < linesBefore starts offset ↔ start < offset := by
  induction starts generalizing index with
  | nil => cases found
  | cons first rest ih =>
    obtain ⟨least, ascend⟩ := List.pairwise_cons.1 ascend
    by_cases before : first < offset
    · rw [linesBefore, List.takeWhile_cons_of_pos (by simpa using before), List.length_cons]
      cases index with
      | zero =>
        obtain rfl := Option.some.inj found
        simp [before]
      | succ index => exact Nat.succ_lt_succ_iff.trans (ih ascend found)
    · rw [linesBefore, List.takeWhile_cons_of_neg (by simpa using before), List.length_nil]
      have behind : first ≤ start := by
        cases index with
        | zero => exact Nat.le_of_eq (Option.some.inj found)
        | succ index => exact Nat.le_of_lt (least start (List.mem_of_getElem? found))
      omega

theorem eq_linesBefore {index : Nat} (found : starts[index]? = some offset) : linesBefore starts offset = index := by
  have notBefore := mt (lt_linesBefore_iff ascend found).1 (Nat.lt_irrefl offset)
  refine Nat.le_antisymm (Nat.not_lt.1 notBefore) (Nat.not_lt.1 fun less => ?_)
  -- A line before that one begins before the offset too, so it would be counted.
  obtain ⟨inside, same⟩ := List.getElem?_eq_some_iff.1 found
  have order := List.pairwise_iff_getElem.1 ascend _ _ (by omega) inside less
  rw [same] at order
  exact Nat.lt_irrefl _ ((lt_linesBefore_iff ascend (List.getElem?_eq_getElem _)).2 order)

/-- Halving keeps the number of lines before the offset between its bounds, until these meet. The upper bound never
comes down to a line that begins at the offset. -/
theorem search_eq {low high : Nat} (lower : low ≤ linesBefore starts offset) (upper : linesBefore starts offset ≤ high)
    (within : high ≤ starts.length)
    (hit : starts[linesBefore starts offset]? = some offset → linesBefore starts offset < high) :
    search starts offset low high = .ok (if starts[linesBefore starts offset]? = some offset
      then .start (linesBefore starts offset) else .before (linesBefore starts offset)) := by
  fun_induction search starts offset low high with
  | case1 low high _ middle missing =>
    have inside : middle < starts.length := by omega
    rw [List.getElem?_eq_getElem inside] at missing
    cases missing
  | case2 low high _ middle found =>
    rw [eq_linesBefore ascend found, if_pos found]
  | case3 low high _ middle start found _ before ih =>
    exact ih ((lt_linesBefore_iff ascend found).2 before) upper within hit
  | case4 low high _ middle start found other behind ih =>
    have left : linesBefore starts offset ≤ middle :=
      Nat.not_lt.1 (mt (lt_linesBefore_iff ascend found).1 behind)
    refine ih lower left (by omega) fun same => Nat.lt_of_le_of_ne left fun met => ?_
    -- If that line were the middle one, both would begin at the offset.
    rw [met, found] at same
    exact other (Option.some.inj same)
  | case5 low high closed =>
    obtain rfl : low = linesBefore starts offset := by omega
    rw [if_neg fun same => closed (hit same)]

/-- Searching all lines, as far as they begin in ascending order, ends at the number of those before the offset. -/
theorem search_all : search starts offset 0 starts.length = .ok (if starts[linesBefore starts offset]? = some offset
    then .start (linesBefore starts offset) else .before (linesBefore starts offset)) :=
  search_eq ascend (Nat.zero_le _) (linesBefore_le _ _) (Nat.le_refl _) fun same =>
    (List.getElem?_eq_some_iff.1 same).1

/-- The position that has been found by counting lines is the one that the search gives. -/
theorem locate_eq_lineColumn : locate starts offset = (lineColumn starts offset).map Text.Position.fromZero := by
  have counted : (starts.takeWhile (· < offset)).length = linesBefore starts offset := rfl
  rw [lineColumn, search_all ascend]
  simp only [locate, counted]
  split
  · rfl
  · cases linesBefore starts offset with
    | zero => rfl
    | succ last =>
      dsimp only
      cases starts[last]? with
      | none => rfl
      | some start =>
        dsimp only
        split <;> rfl

end Search

theorem mem_lineStarts_cons {base start : Nat} {c : Char} {text : List Char} : start ∈ lineStarts base (c :: text) ↔
    c = '\n' ∧ start = base + 1 ∨ start ∈ lineStarts (base + c.utf8Size) text := by
  rw [lineStarts]
  by_cases newline : c = '\n'
  · subst newline
    have size : '\n'.utf8Size = 1 := rfl
    simp [size]
  · simp [newline]

/-- Lines begin just behind the newline bytes. -/
theorem mem_lineStarts {base start : Nat} {text : List Char} :
    start ∈ lineStarts base text ↔ ∃ i, (bytes text)[i]? = some '\n'.toUInt8 ∧ start = base + i + 1 := by
  induction text generalizing base with
  | nil => simp [lineStarts, bytes]
  | cons c text ih =>
    rw [mem_lineStarts_cons, ih]
    constructor
    · rintro (⟨newline, rfl⟩ | ⟨j, later, rfl⟩)
      · exact ⟨0, Text.getElem?_bytes_cons.2 (Or.inl ⟨newline, rfl⟩), rfl⟩
      · exact ⟨c.utf8Size + j, Text.getElem?_bytes_cons.2 (Or.inr ⟨j, rfl, later⟩), by omega⟩
    · rintro ⟨i, byte, rfl⟩
      rcases Text.getElem?_bytes_cons.1 byte with ⟨newline, rfl⟩ | ⟨j, rfl, later⟩
      · exact Or.inl ⟨newline, rfl⟩
      · exact Or.inr ⟨j, later, by omega⟩

theorem mem_takeWhile_le {starts : List Nat} {offset start : Nat} (ascend : starts.Pairwise (· < ·)) :
    start ∈ starts.takeWhile (· ≤ offset) ↔ start ∈ starts ∧ start ≤ offset := by
  constructor
  · intro member
    exact ⟨(List.takeWhile_sublist _).subset member, by simpa using List.mem_takeWhile_imp member⟩
  · rintro ⟨member, bound⟩
    induction ascend with
    | nil => cases member
    | @cons first rest least _ ih =>
      have within : first ≤ offset := by
        rcases List.mem_cons.1 member with rfl | later
        · exact bound
        · exact Nat.le_of_lt (Nat.lt_of_lt_of_le (least start later) bound)
      rw [List.takeWhile_cons_of_pos (by simpa using within)]
      exact List.mem_cons.2 ((List.mem_cons.1 member).imp_right ih)

/-- The lines that begin up to an offset begin behind the newlines before it. -/
theorem takeWhile_lineStarts (text : List Char) (offset : Nat) :
    (lineStarts 0 text).takeWhile (· ≤ offset) = (newlinesBefore (bytes text) offset).map (· + 1) := by
  have ascend := lineStarts_ascend 0 text
  have behind : ((newlinesBefore (bytes text) offset).map (· + 1)).Pairwise (· < ·) :=
    (Text.newlinesBefore_ascend (bytes text) offset).map (· + 1) fun _ _ => Nat.succ_lt_succ
  refine (ascend.sublist (List.takeWhile_sublist _)).eq_of_mem_iff behind fun start => ?_
  rw [mem_takeWhile_le ascend, mem_lineStarts, List.mem_map]
  constructor
  · rintro ⟨⟨i, byte, rfl⟩, bound⟩
    exact ⟨i, Text.mem_newlinesBefore.2 ⟨by omega, byte⟩, by omega⟩
  · rintro ⟨i, member, rfl⟩
    obtain ⟨before, byte⟩ := Text.mem_newlinesBefore.1 member
    exact ⟨⟨i, byte, by omega⟩, before⟩

theorem locate_eq_coordinates (text : List Char) (offset : Nat) :
    Text.locate text offset = .fromZero (coordinates (bytes text) offset) := by
  rw [Text.locate, positionOf_seek, Place.start, takeWhile_lineStarts, List.length_map, List.getLast?_map]
  simp only [Text.Position.fromZero, coordinates]
  cases (newlinesBefore (bytes text) offset).getLast? <;> simp

/-- The search always ends in the table, and gives the line and the column that the newlines before an offset give. -/
theorem lineColumn_eq_coordinates (text : List Char) (offset : Nat) :
    lineColumn (lineStarts 0 text) offset = .ok (coordinates (bytes text) offset) := by
  have located := locate_eq text offset
  rw [locate_eq_lineColumn (lineStarts_ascend 0 text), locate_eq_coordinates] at located
  cases resolved : lineColumn (lineStarts 0 text) offset with
  | error breach =>
    rw [resolved] at located
    cases located
  | ok pair =>
    rw [resolved] at located
    rw [Text.Position.fromZero_inj.1 (Except.ok.inj located)]

end Guarded

end ProtoSchema
