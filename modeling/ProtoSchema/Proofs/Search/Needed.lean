import ProtoSchema.Proofs.Search.Step

namespace ProtoSchema

namespace Workspace

variable {workspace before after : Workspace}

/-- Whether a workspace has noted that a part is needed, or that a reference has been looked for. -/
def Notes (workspace : Workspace) : Need → Prop
  | .message index id => ∃ entry, workspace.At index entry ∧ entry.includes id = true
  | .enum index id => ∃ entry, workspace.At index entry ∧ entry.reaches id = true
  | .visit index outer => (index, outer) ∈ workspace.requested

instance (workspace : Workspace) (need : Need) : Decidable (workspace.Notes need) :=
  match need with
  | .message index id =>
    decidable_of_iff (Option.any (fun entry => entry.includes id) <| workspace.entry? index) (Option.any_eq_true _ _)
  | .enum index id =>
    decidable_of_iff (Option.any (fun entry => entry.reaches id) <| workspace.entry? index) (Option.any_eq_true _ _)
  | .visit index outer => inferInstanceAs (Decidable ((index, outer) ∈ workspace.requested))

def Made (workspace : Workspace) (index : Nat) (outer : OuterRef) : Prop :=
  (index, outer) ∈ workspace.requested

theorem notes_need_iff {index : Nat} {decl : DeclId} :
    workspace.Notes (decl.need index) ↔ ∃ entry, workspace.At index entry ∧ entry.Has decl := by
  cases decl <;> rfl

/-- Whether all that is noted is needed by the visits made. -/
def Sound (workspace : Workspace) : Prop :=
  ∀ need, workspace.Notes need → workspace.files.NeedsBy workspace.Made need

theorem Grows.needsBy (grows : before.Grows after) {need : Need} (needs : before.files.NeedsBy before.Made need) :
    after.files.NeedsBy after.Made need :=
  needs.mono grows.extends fun _ _ => grows.requested _

theorem Sound.needs {index : Nat} {entry : Entry} {decl : DeclId} (sound : workspace.Sound)
    (at_index : workspace.At index entry) (has : entry.Has decl) :
    workspace.files.NeedsBy workspace.Made (decl.need index) :=
  sound _ (notes_need_iff.2 ⟨entry, at_index, has⟩)

/-- The two parts of soundness: what is included and reached, and what has been looked for. -/
theorem Sound.of_parts
    (declared : ∀ (index : Nat) (entry : Entry) (decl : DeclId), workspace.At index entry →
      entry.Has decl → workspace.files.NeedsBy workspace.Made (decl.need index))
    (visited : ∀ (index : Nat) (outer : OuterRef), (index, outer) ∈ workspace.requested →
      workspace.files.NeedsBy workspace.Made (.visit index outer)) : workspace.Sound := by
  intro need notes
  cases need with
  | message index id =>
    obtain ⟨entry, at_index, included⟩ := notes
    exact declared index entry (.message id) at_index included
  | enum index id =>
    obtain ⟨entry, at_index, reached⟩ := notes
    exact declared index entry (.enum id) at_index reached
  | visit index outer => exact visited index outer notes

/-- A reference for which an import is followed needs a visit to the file that it names. -/
theorem Sought.needs {index : Nat} {outer : OuterRef} (wellFormed : before.WellFormed) (sound : before.Sound)
    (sought : before.Sought index outer) (grows : before.Grows after) (made : after.Made index outer) :
    after.files.NeedsBy after.Made (.visit index outer) := by
  have more (need : Need) (notes : before.Notes need) := grows.needsBy (sound need notes)
  obtain ⟨source, handedOn, item, follows, imported, names⟩ := sought
  obtain ⟨entry, at_source⟩ := follows.entry
  obtain ⟨later, at_later, same⟩ := grows.entries source entry at_source
  have names := names.mono grows.extends
  cases follows with
  | root at_root root outside =>
    obtain rfl := at_source.unique at_root
    rw [← same.file] at outside
    obtain ⟨ref, used, leads, rfl⟩ := File.mem_outside_uses.1 outside
    rw [importsOf_eq at_source, ← same.file] at imported
    exact .rootVisit at_later (same.isRoot root) used leads (List.mem_filter.1 imported).1 names made
  | message at_message included outside =>
    obtain rfl := at_source.unique at_message
    obtain ⟨message, at_id⟩ := (wellFormed.tidy _ _ at_source).message_of_includes included
    rw [Entry.usesAt_eq at_id, ← same.file] at outside
    rw [← same.file] at at_id
    obtain ⟨ref, used, leads, rfl⟩ := File.mem_outside_uses.1 outside
    rw [importsOf_eq at_source, ← same.file] at imported
    exact .refersOutside (more (.message source _) ⟨entry, at_source, included⟩) at_later at_id used leads
      (List.mem_filter.1 imported).1 names made
  | handedOn at_visit requested missed =>
    obtain rfl := at_source.unique at_visit
    rw [importsOf_eq at_source, ← same.file] at imported
    obtain ⟨stated, kind⟩ := List.mem_filter.1 imported
    exact .handedOn (more (.visit source outer) requested) at_later (same.file ▸ missed) stated (by simpa using kind)
      names made

/-- What a file needs is closed under the references of its messages. -/
theorem closes_needs {index : Nat} {entry : Entry} (at_index : workspace.At index entry) :
    entry.Closes fun decl => workspace.files.NeedsBy workspace.Made (decl.need index) := by
  intro id here
  cases at_id : entry.file.message? id with
  | none => simp [Entry.usesAt, at_id, File.uses]
  | some message =>
    rw [Entry.usesAt_eq at_id]
    constructor
    · intro other leads
      obtain ⟨ref, used, named, means⟩ := File.mem_messages_uses.1 leads
      exact .refers here at_index at_id used named means
    · intro other leads
      obtain ⟨ref, used, named, means⟩ := File.mem_enums_uses.1 leads
      exact .refers here at_index at_id used named means

theorem Sound.add (sound : workspace.Sound) (file : File) (path : Option String) (source : String) :
    (workspace.add (.ofFile file path source)).Sound := by
  have grows := workspace.grows_add (.ofFile file path source)
  apply Sound.of_parts
  · intro index entry decl at_index has
    rcases at_add_iff.1 at_index with ⟨_, rfl⟩ | old
    · exact absurd has Entry.not_has_ofFile
    · exact grows.needsBy (sound.needs old has)
  · intro index outer member
    exact grows.needsBy (sound (.visit index outer) member)

theorem Sound.look {index : Nat} {entry : Entry} {outer : List OuterRef} (wellFormed : workspace.WellFormed)
    (sound : workspace.Sound) (at_index : workspace.At index entry)
    (sought : ∀ ref ∈ outer, workspace.Sought index ref) : (workspace.look index entry outer).1.Sound := by
  have fits := fits_look wellFormed at_index outer
  have grows := grows_look wellFormed at_index outer
  have at_later := at_look_self at_index outer
  have visited (ref : OuterRef) (member : ref ∈ outer) :
      (workspace.look index entry outer).1.files.NeedsBy (workspace.look index entry outer).1.Made (.visit index ref) :=
    (sought ref member).needs wellFormed sound grows ((fits.requested (index, ref)).2 (Or.inr ⟨rfl, member⟩))
  apply Sound.of_parts
  · intro other found decl at_other has
    rcases (at_look_iff at_index).1 at_other with ⟨rfl, rfl⟩ | ⟨_, elsewhere⟩
    · rcases fits.within _ (fits.grows.closes.1 (closes_needs at_later)) (fun ref member decl means =>
        .found (visited ref member) at_later (fits.grows.file ▸ means)) decl has with old | new
      · exact grows.needsBy (sound.needs at_index old)
      · exact new
    · exact grows.needsBy (sound.needs elsewhere has)
  · intro other ref member
    rcases (fits.requested (other, ref)).1 member with known | ⟨rfl, isOuter⟩
    · exact grows.needsBy (sound (.visit other ref) known)
    · exact visited ref isOuter

theorem Sound.root {index : Nat} {entry : Entry} (wellFormed : workspace.WellFormed) (sound : workspace.Sound)
    (at_index : workspace.At index entry) : (workspace.setEntry index entry.asRoot).Sound := by
  have grows := grows_root at_index
  have at_later := at_root_self at_index
  apply Sound.of_parts
  · intro other found decl at_other has
    rcases (at_setEntry_iff at_index).1 at_other with ⟨rfl, rfl⟩ | ⟨_, elsewhere⟩
    · have declared := (wellFormed.tidy _ _ at_index).has_asRoot_iff.1 has
      cases decl with
      | message id =>
        obtain ⟨message, at_id⟩ := declared
        exact .rootMessage at_later rfl at_id
      | enum id =>
        obtain ⟨enum, at_id⟩ := declared
        exact .rootEnum at_later rfl at_id
    · exact grows.needsBy (sound.needs elsewhere has)
  · intro other ref member
    exact grows.needsBy (sound (.visit other ref) member)

theorem Sound.log (sound : workspace.Sound) (name : String) : (workspace.log name).Sound :=
  .of_parts (fun _ _ _ => sound.needs) (fun _ _ => sound (.visit _ _))

theorem Advance.sound {loader : Loader} (advance : Advance loader before after) (wellFormed : before.WellFormed)
    (sound : before.Sound) : after.Sound := by
  cases advance with
  | asked => exact sound.log _
  | loaded => exact sound.add _ _ _
  | looked at_index sought => exact sound.look wellFormed at_index sought

theorem Step.sound {loader : Loader} (step : Step loader before after) (wellFormed : before.WellFormed)
    (sound : before.Sound) : after.Sound := by
  cases step with
  | advance advance => exact advance.sound wellFormed sound
  | rootAsked => exact sound.log _
  | rootLoaded => exact sound.add _ _ _
  | rooted at_index => exact sound.root wellFormed at_index

end Workspace

end ProtoSchema
