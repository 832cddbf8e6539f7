import ProtoSchema.Proofs.Search.Settled

namespace ProtoSchema

namespace Workspace

variable {workspace before after : Workspace}

/-- Whether a reference has been looked for in the file that an import names. -/
def Answers (workspace : Workspace) (item : Import) (outer : OuterRef) : Prop :=
  ∃ target, workspace.files.Names item target ∧ (target, outer) ∈ workspace.requested

theorem Answers.grow {item : Import} {outer : OuterRef} (grows : before.Grows after)
    (answers : before.Answers item outer) : after.Answers item outer := by
  obtain ⟨target, names, requested⟩ := answers
  exact ⟨target, names.mono grows.extends, grows.requested _ requested⟩

theorem WellFormed.requested_of_answers {item : Import} {outer : OuterRef} {target : Nat}
    (wellFormed : workspace.WellFormed) (answers : workspace.Answers item outer)
    (names : workspace.files.Names item target) : (target, outer) ∈ workspace.requested := by
  obtain ⟨other, ⟨found, at_other, named⟩, requested⟩ := answers
  obtain ⟨entry, at_target, same⟩ := names
  obtain rfl := wellFormed.distinct other target found entry at_other at_target (named.trans same.symm)
  exact requested

/-- Whether all imports have been followed for all references for which they are to be, but for what is
still `pending`. -/
def Followed (workspace : Workspace) (pending : Nat → OuterRef → Bool → Prop) : Prop :=
  ∀ index outer handedOn, workspace.Follows index outer handedOn →
    pending index outer handedOn ∨ ∀ item ∈ workspace.importsOf index handedOn, workspace.Answers item outer

/-- When nothing is pending, every visit has been made that a reference calls for. -/
theorem Followed.needsBy (wellFormed : workspace.WellFormed) (settled : workspace.Settled)
    (followed : workspace.Followed fun _ _ _ => False) {need : Need} (needs : workspace.files.Needs need) :
    workspace.files.NeedsBy workspace.Made need := by
  have made {index target : Nat} {outer : OuterRef} {handedOn : Bool} {item : Import}
      (follows : workspace.Follows index outer handedOn) (imported : item ∈ workspace.importsOf index handedOn)
      (names : workspace.files.Names item target) : workspace.Made target outer := by
    rcases followed index outer handedOn follows with pending | all
    · exact pending.elim
    · exact wellFormed.requested_of_answers (all item imported) names
  induction needs with
  | rootMessage at_index root declared => exact .rootMessage at_index root declared
  | rootEnum at_index root declared => exact .rootEnum at_index root declared
  | rootVisit at_index root used leads imported names =>
    have follows : workspace.Follows _ _ false := .root at_index root (File.mem_outside_uses.2 ⟨_, used, leads, rfl⟩)
    refine .rootVisit at_index root used leads imported names (made follows ?_ names)
    simpa [importsOf_eq (show workspace.At _ _ from at_index)] using imported
  | found _ at_index means ih => exact .found ih at_index means
  | handedOn _ at_index missed imported kind names _ ih =>
    have follows : workspace.Follows _ _ true := .handedOn at_index (settled.notes ih) missed
    refine .handedOn ih at_index missed imported kind names (made follows ?_ names)
    simp [importsOf_eq (show workspace.At _ _ from at_index), imported, kind]
  | refers _ at_index at_id used named means ih => exact .refers ih at_index at_id used named means
  | refersOutside _ at_index at_id used leads imported names _ ih =>
    obtain ⟨same, at_same, included⟩ := settled.notes ih
    obtain rfl := At.unique at_index at_same
    have outside := File.mem_outside_uses.2 ⟨_, used, leads, rfl⟩
    rw [← Entry.usesAt_eq at_id] at outside
    have follows : workspace.Follows _ _ false := .message at_index included outside
    refine .refersOutside ih at_index at_id used leads imported names (made follows ?_ names)
    simpa [importsOf_eq (show workspace.At _ _ from at_index)] using imported

variable {pending later : Nat → OuterRef → Bool → Prop}

/-- What is followed stays followed when a workspace grows, but for what becomes pending. -/
theorem Followed.grow (followed : before.Followed pending) (grows : before.Grows after)
    (opens : ∀ index outer handedOn, after.Follows index outer handedOn →
      before.Follows index outer handedOn ∨ later index outer handedOn)
    (stays : ∀ index outer handedOn, pending index outer handedOn → later index outer handedOn) :
    after.Followed later := by
  intro index outer handedOn follows
  rcases opens index outer handedOn follows with old | new
  · rcases followed index outer handedOn old with waits | answered
    · exact Or.inl (stays index outer handedOn waits)
    · right
      obtain ⟨entry, at_index⟩ := old.entry
      rw [importsOf_grow grows at_index]
      exact fun item imported => (answered item imported).grow grows
  · exact Or.inl new

theorem Followed.log (followed : workspace.Followed pending) (name : String) :
    (workspace.log name).Followed pending := by
  refine followed.grow (workspace.grows_log name) ?_ fun _ _ _ => id
  intro index outer handedOn follows
  left
  cases follows with
  | root at_index root outside => exact .root at_index root outside
  | message at_index included outside => exact .message at_index included outside
  | handedOn at_index requested missed => exact .handedOn at_index requested missed

theorem Followed.add (wellFormed : workspace.WellFormed) (followed : workspace.Followed pending) (file : File)
    (path : Option String) (source : String) : (workspace.add (.ofFile file path source)).Followed pending := by
  refine followed.grow (workspace.grows_add _) ?_ fun _ _ _ => id
  intro index outer handedOn follows
  left
  -- Nothing is followed from the file that has just come: it is no root and nothing is noted in it.
  cases follows with
  | root at_index root outside =>
    rcases at_add_iff.1 at_index with ⟨_, rfl⟩ | old
    · contradiction
    · exact .root old root outside
  | message at_index included outside =>
    rcases at_add_iff.1 at_index with ⟨_, rfl⟩ | old
    · exact absurd (show Entry.Has _ (.message _) from included) Entry.not_has_ofFile
    · exact .message old included outside
  | handedOn at_index requested missed =>
    rcases at_add_iff.1 at_index with ⟨rfl, rfl⟩ | old
    · obtain ⟨known, at_known⟩ := wellFormed.requested _ requested
      exact absurd at_known.lt (Nat.lt_irrefl _)
    · exact .handedOn old requested missed

/-- After references have been looked for in a file, its imports wait to be followed for what its messages
refer to outside, and for what it does not declare. -/
theorem Followed.look {index : Nat} {entry : Entry} (wellFormed : workspace.WellFormed)
    (followed : workspace.Followed pending) (at_index : workspace.At index entry) (outer : List OuterRef) :
    (workspace.look index entry outer).1.Followed fun other ref handedOn =>
      (pending other ref handedOn ∨
        other = index ∧ ref ∈ (workspace.look index entry outer).2.unmatched ∧ handedOn = true) ∨
      other = index ∧ ref ∈ (workspace.look index entry outer).2.outside ∧ handedOn = false := by
  have fits := fits_look wellFormed at_index outer
  refine followed.grow (grows_look wellFormed at_index outer) ?_ fun _ _ _ waits => Or.inl (Or.inl waits)
  intro other ref handedOn follows
  cases follows with
  | root at_other root outside =>
    rcases (at_look_iff at_index).1 at_other with ⟨rfl, rfl⟩ | ⟨_, elsewhere⟩
    · rw [fits.isRoot] at root
      rw [fits.grows.file] at outside
      exact Or.inl (.root at_index root outside)
    · exact Or.inl (.root elsewhere root outside)
  | @message found id at_other included outside =>
    rcases (at_look_iff at_index).1 at_other with ⟨rfl, rfl⟩ | ⟨_, elsewhere⟩
    · rw [fits.grows.usesAt] at outside
      rcases fits.covers id included with old | covers
      · exact Or.inl (.message at_index old outside)
      · exact Or.inr (Or.inr ⟨rfl, covers.outside ref outside, rfl⟩)
    · exact Or.inl (.message elsewhere included outside)
  | handedOn at_other requested missed =>
    rcases (at_look_iff at_index).1 at_other with ⟨rfl, rfl⟩ | ⟨apart, elsewhere⟩
    · rw [fits.grows.file] at missed
      rcases fits.misses ref requested missed with known | unmatched
      · exact Or.inl (.handedOn at_index known missed)
      · exact Or.inr (Or.inl (Or.inr ⟨rfl, unmatched, rfl⟩))
    · rcases (fits.requested (other, ref)).1 requested with known | ⟨here, _⟩
      · exact Or.inl (.handedOn elsewhere known missed)
      · exact absurd here apart

/-- After a file has become a root, its imports wait to be followed for what it refers to outside. -/
theorem Followed.root {index : Nat} {entry : Entry} (followed : workspace.Followed pending)
    (at_index : workspace.At index entry) :
    (workspace.setEntry index entry.asRoot).Followed fun other ref handedOn =>
      pending other ref handedOn ∨
        other = index ∧ ref ∈ (entry.file.uses entry.file.types).outside ∧ handedOn = false := by
  refine followed.grow (grows_root at_index) ?_ fun _ _ _ => Or.inl
  intro other ref handedOn follows
  cases follows with
  | root at_other root outside =>
    rcases (at_setEntry_iff at_index).1 at_other with ⟨rfl, rfl⟩ | ⟨_, elsewhere⟩
    · exact Or.inr (Or.inr ⟨rfl, outside, rfl⟩)
    · exact Or.inl (.root elsewhere root outside)
  | @message found id at_other included outside =>
    rcases (at_setEntry_iff at_index).1 at_other with ⟨rfl, rfl⟩ | ⟨_, elsewhere⟩
    · rw [entry.grows_asRoot.usesAt] at outside
      exact Or.inr (Or.inr ⟨rfl, entry.outside_usesAt outside, rfl⟩)
    · exact Or.inl (.message elsewhere included outside)
  | handedOn at_other requested missed =>
    rcases (at_setEntry_iff at_index).1 at_other with ⟨rfl, rfl⟩ | ⟨_, elsewhere⟩
    · exact Or.inl (.handedOn at_index requested missed)
    · exact Or.inl (.handedOn elsewhere requested missed)

/-- What is pending no longer waits once it has been answered. -/
theorem Followed.discharge {index : Nat} {outer : List OuterRef} {handedOn : Bool}
    (followed : workspace.Followed fun other ref handed =>
      pending other ref handed ∨ other = index ∧ ref ∈ outer ∧ handed = handedOn)
    (answered : ∀ item ∈ workspace.importsOf index handedOn, ∀ ref ∈ outer, workspace.Answers item ref) :
    workspace.Followed pending := by
  intro other ref handed follows
  rcases followed other ref handed follows with (waits | ⟨rfl, member, rfl⟩) | done
  · exact Or.inl waits
  · exact Or.inr fun item imported => answered item imported ref member
  · exact Or.inr done

end Workspace

end ProtoSchema
