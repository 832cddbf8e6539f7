import ProtoSchema.Proofs.Reader.Rest

namespace ProtoSchema

open Grammar Remainder
open Outline (Rest)

variable {name : String} {us : List Token} {file last : File}

namespace Remainder

variable {α : Type}

@[simp] theorem one_nil (p : Token → Prop) (next : Token → Remainder) : ¬ one p next [] file := by
  rintro ⟨t, rest, whole, _⟩
  cases whole

@[simp] theorem past_at_nil {p : List Token → Prop} {next : Remainder} :
    past p next [] file ↔ p [] ∧ next [] file := by
  constructor
  · rintro ⟨us, rest, whole, first, more⟩
    obtain ⟨rfl, rfl⟩ := List.append_eq_nil_iff.1 whole.symm
    exact ⟨first, more⟩
  · rintro ⟨first, more⟩
    exact ⟨[], [], rfl, first, more⟩

@[simp] theorem phrase_at_nil {p : List Token → α → Prop} {next : α → Remainder} :
    phrase p next [] file ↔ ∃ x, p [] x ∧ next x [] file := by
  constructor
  · rintro ⟨us, x, rest, whole, first, more⟩
    obtain ⟨rfl, rfl⟩ := List.append_eq_nil_iff.1 whole.symm
    exact ⟨x, first, more⟩
  · rintro ⟨x, first, more⟩
    exact ⟨[], x, [], rfl, first, more⟩

end Remainder

namespace Grammar

variable {scope : Scope} {room : Room} {content : Content}

theorem Lead.ne_nil {comment : Option String} {cardinality : Cardinality} {type : String}
    (lead : Lead us comment cardinality type) : us ≠ [] := by
  cases lead <;> simp

theorem Derives.declaration_ne_nil (derives : Derives .declaration scope room us content) : us ≠ [] := by
  cases derives with
  | message => simp
  | enum block =>
    cases block
    simp
  | extend => simp

theorem Derives.field_ne_nil (derives : Derives .field scope room us content) : us ≠ [] := by
  cases derives with
  | simple begins => simp [begins.ne_nil]
  | group begins => simp [begins.ne_nil]

theorem Derives.entry_ne_nil {body : Body} (derives : Derives (.entry body) scope room us content) : us ≠ [] := by
  cases derives with
  | semicolon | skipped | member => simp
  | declared inner => exact inner.declaration_ne_nil
  | oneof block =>
    cases block
    simp
  | map entry =>
    cases entry
    simp
  | extended inner => exact inner.field_ne_nil

theorem Toplevel.ne_nil {next : File} (toplevel : Toplevel file us next) : us ≠ [] := by
  cases toplevel with
  | semicolon | skipped | dialect | package | imports => simp
  | service block =>
    cases block
    simp
  | declared inner => exact inner.declaration_ne_nil

theorem not_skipped_nil {depth : Nat} : ¬ Skipped depth [] := by
  rintro ⟨⟩

theorem not_inside_nil {left right : String} {depth : Nat} : ¬ Inside left right depth [] := by
  rintro ⟨⟩

theorem not_number_nil {signed : Bool} {n : Int} : ¬ Number signed [] n := by
  rintro ⟨⟩

theorem not_argument_nil {operand : OperandDecl} : ¬ Argument [] operand := by
  rintro ⟨⟩

theorem not_ending_nil : ¬ Ending [] := by
  rintro ⟨⟩

end Grammar

/-- A file can end here if no body is open. -/
theorem rest_at_nil {o : Outline} : Rest o [] last ↔ o = ⟨last, []⟩ := by
  constructor
  · intro rest
    generalize whole : ([] : List Token) = tokens at rest
    cases rest with
    | done => rfl
    | statement first => exact absurd (List.append_eq_nil_iff.1 whole.symm).1 first.ne_nil
    | entry first => exact absurd (List.append_eq_nil_iff.1 whole.symm).1 first.entry_ne_nil
    | close => cases whole
  · rintro rfl
    exact .done

namespace Reader

theorem rest_nil (r : Reader) : r.rest name [] last ↔
    ∃ statements, r.finish = .ok statements ∧ File.ofStatements name statements = last := by
  obtain ⟨⟨statements, bodies⟩, stage⟩ := r
  cases stage with
  | entry block =>
    cases block with
    | site =>
      show Rest ((Site.mk statements bodies).outline name) [] last ↔ _
      rw [rest_at_nil]
      cases bodies with
      | nil => simp [finish, Site.outline, Outline.ofBodies]
      | cons body outer => simp [finish, Site.outline, Outline.ofBodies, Outline.add_push]
    | _ => simp [rest, stageRest, Block.rest, finish]
  | methodEnd | returns =>
    simp [rest, stageRest, finish, signed, sided, not_ending_nil]
  | _ =>
    simp [rest, stageRest, finish, ends, opens, extension, finished, valued, named, keyed, not_skipped_nil,
      not_inside_nil, not_number_nil, not_argument_nil]

end Reader

end ProtoSchema
