import Mathlib.Data.Prod.Lex
import Mathlib.Order.Monotone.Basic

namespace ProtoSchema.Text

/-- The UTF-8 bytes of a text. -/
def bytes (text : List Char) : List UInt8 :=
  text.flatMap String.utf8EncodeChar

/-- The offsets of the newline bytes before an offset. -/
def newlinesBefore (bytes : List UInt8) (offset : Nat) : List Nat :=
  (List.range offset).filter fun i => bytes[i]? = some '\n'.toUInt8

/-- The line and the column of an offset, both counted from 0. -/
def coordinates (bytes : List UInt8) (offset : Nat) : Nat × Nat :=
  let newlines := newlinesBefore bytes offset
  (newlines.length, (newlines.getLast?.map fun last => offset - (last + 1)).getD offset)

theorem toUTF8_eq_bytes (source : String) : source.toUTF8.data.toList = bytes source.toList := by
  rw [String.toUTF8_eq_toByteArray, ← String.ofList_toList (s := source), String.toByteArray_ofList, List.utf8Encode,
    List.toList_data_toByteArray, String.ofList_toList]
  rfl

theorem mem_newlinesBefore {bytes : List UInt8} {offset i : Nat} :
    i ∈ newlinesBefore bytes offset ↔ i < offset ∧ bytes[i]? = some '\n'.toUInt8 := by
  simp [newlinesBefore]

theorem newlinesBefore_ascend (bytes : List UInt8) (offset : Nat) :
    (newlinesBefore bytes offset).Pairwise (· < ·) :=
  List.pairwise_lt_range.filter _

theorem newlinesBefore_succ (bytes : List UInt8) (offset : Nat) : newlinesBefore bytes (offset + 1) =
    newlinesBefore bytes offset ++ if bytes[offset]? = some '\n'.toUInt8 then [offset] else [] := by
  rw [newlinesBefore, List.range_succ, List.filter_append, List.filter_cons, List.filter_nil, newlinesBefore]
  simp only [decide_eq_true_eq]

/-- One byte further on is further on in the same line, or in the next one. -/
theorem coordinates_lt_succ (bytes : List UInt8) (offset : Nat) :
    toLex (coordinates bytes offset) < toLex (coordinates bytes (offset + 1)) := by
  rw [Prod.Lex.toLex_lt_toLex]
  simp only [coordinates, newlinesBefore_succ]
  by_cases newline : bytes[offset]? = some '\n'.toUInt8
  · simp [newline]
  · rw [if_neg newline, List.append_nil]
    refine Or.inr ⟨rfl, ?_⟩
    cases last : (newlinesBefore bytes offset).getLast? with
    | none => simp
    | some i =>
      have before := (mem_newlinesBefore.1 (List.mem_of_getLast? last)).1
      simp only [Option.map_some, Option.getD_some]
      omega

/-- No two offsets have the same line and column, and these come in the order of the offsets. -/
theorem coordinates_strictMono (bytes : List UInt8) : StrictMono fun offset => toLex (coordinates bytes offset) :=
  strictMono_nat_of_lt_succ (coordinates_lt_succ bytes)

theorem newline_not_mem_utf8EncodeChar {c : Char} (other : c ≠ '\n') : '\n'.toUInt8 ∉ String.utf8EncodeChar c := by
  have code : c.val.toNat ≠ 10 := fun same => other (Char.ext (UInt32.toNat_inj.1 same))
  have byte : '\n'.toUInt8.toNat = 10 := rfl
  fun_cases String.utf8EncodeChar c with
  | case1 =>
    simp only [List.mem_singleton, ← UInt8.toNat_inj, byte, UInt8.toNat_ofNat']
    omega
  | case2 | case3 | case4 =>
    -- Each of several bytes is 128 or more.
    simp only [List.mem_cons, List.not_mem_nil, or_false, ← UInt8.toNat_inj, byte, UInt8.toNat_ofNat']
    omega

/-- A newline is one byte, and no other character has that byte among its own. -/
theorem getElem?_utf8EncodeChar_eq_newline {c : Char} {i : Nat} :
    (String.utf8EncodeChar c)[i]? = some '\n'.toUInt8 ↔ c = '\n' ∧ i = 0 := by
  constructor
  · intro found
    have newline : c = '\n' := by
      by_contra other
      exact newline_not_mem_utf8EncodeChar other (List.mem_of_getElem? found)
    subst newline
    have inside : i < 1 := (List.getElem?_eq_some_iff.1 found).1
    exact ⟨rfl, by omega⟩
  · rintro ⟨rfl, rfl⟩
    rfl

theorem getElem?_bytes_cons {c : Char} {text : List Char} {i : Nat} : (bytes (c :: text))[i]? = some '\n'.toUInt8 ↔
    c = '\n' ∧ i = 0 ∨ ∃ j, i = c.utf8Size + j ∧ (bytes text)[j]? = some '\n'.toUInt8 := by
  have whole : bytes (c :: text) = String.utf8EncodeChar c ++ bytes text := List.flatMap_cons
  have size := String.length_utf8EncodeChar c
  rw [whole]
  rcases Nat.lt_or_ge i c.utf8Size with first | later
  · rw [List.getElem?_append_left (by omega), getElem?_utf8EncodeChar_eq_newline]
    have before : ¬ ∃ j, i = c.utf8Size + j ∧ (bytes text)[j]? = some '\n'.toUInt8 := by
      rintro ⟨j, rfl, -⟩
      omega
    simp [before]
  · obtain ⟨j, rfl⟩ := Nat.exists_eq_add_of_le later
    rw [List.getElem?_append_right (by omega), size, Nat.add_sub_cancel_left]
    simp [c.utf8Size_pos.ne']

end ProtoSchema.Text
