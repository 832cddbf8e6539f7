import ProtoSchema.Proofs.Search.Needed

namespace ProtoSchema

/-- A record that covers what some message leads to has all of it, as references mean what is declared. -/
theorem Entry.Covers.closes {entry : Entry} {outside : List OuterRef} {id : MessageId} (tidy : entry.Tidy)
    (covers : entry.Covers outside (entry.usesAt id)) :
    (∀ other ∈ (entry.usesAt id).messages, entry.Has (.message other)) ∧
      ∀ other ∈ (entry.usesAt id).enums, entry.Has (.enum other) := by
  obtain ⟨messages, enums⟩ := declares_usesAt tidy.ordered id
  constructor
  · exact fun other leads => covers.messages other leads (tidy.message_lt (messages other leads))
  · exact fun other leads => covers.enums other leads (tidy.enum_lt (enums other leads))

namespace Workspace

variable {workspace before after : Workspace}

/-- Whether each file has what its roots, its included messages and the references looked for in it need
inside the file. -/
structure Settled (workspace : Workspace) : Prop where
  roots : ∀ (index : Nat) (entry : Entry) (decl : DeclId), workspace.At index entry →
    entry.isRoot = true → entry.file.Declares decl → entry.Has decl
  messages : ∀ (index : Nat) (entry : Entry), workspace.At index entry → entry.Closes entry.Has
  visits : ∀ (index : Nat) (entry : Entry) (outer : OuterRef) (decl : DeclId),
    workspace.At index entry → (index, outer) ∈ workspace.requested →
    outer.resolve entry.file = some decl → entry.Has decl

theorem Settled.empty : Workspace.empty.Settled where
  roots _ _ _ at_index := absurd at_index not_at_empty
  messages _ _ at_index := absurd at_index not_at_empty
  visits _ _ _ _ at_index := absurd at_index not_at_empty

theorem Settled.add (wellFormed : workspace.WellFormed) (settled : workspace.Settled) (file : File)
    (path : Option String) (source : String) : (workspace.add (.ofFile file path source)).Settled where
  roots index entry decl at_index root declared := by
    rcases at_add_iff.1 at_index with ⟨_, rfl⟩ | old
    · contradiction
    · exact settled.roots index entry decl old root declared
  messages index entry at_index := by
    rcases at_add_iff.1 at_index with ⟨_, rfl⟩ | old
    · exact fun id has => absurd has Entry.not_has_ofFile
    · exact settled.messages index entry old
  visits index entry outer decl at_index member means := by
    rcases at_add_iff.1 at_index with ⟨rfl, rfl⟩ | old
    · obtain ⟨known, at_known⟩ := wellFormed.requested _ member
      exact absurd at_known.lt (Nat.lt_irrefl _)
    · exact settled.visits index entry outer decl old member means

theorem Settled.look {index : Nat} {entry : Entry} (wellFormed : workspace.WellFormed) (settled : workspace.Settled)
    (at_index : workspace.At index entry) (outer : List OuterRef) :
    (workspace.look index entry outer).1.Settled := by
  have fits := fits_look wellFormed at_index outer
  refine ⟨?_, ?_, ?_⟩
  · intro other found decl at_other root declared
    rcases (at_look_iff at_index).1 at_other with ⟨rfl, rfl⟩ | ⟨_, elsewhere⟩
    · rw [fits.isRoot] at root
      exact fits.grows.has (settled.roots other entry decl at_index root (fits.grows.file ▸ declared))
    · exact settled.roots other found decl elsewhere root declared
  · intro other found at_other
    rcases (at_look_iff at_index).1 at_other with ⟨rfl, rfl⟩ | ⟨_, elsewhere⟩
    · intro id has
      rcases fits.covers id has with old | covers
      · obtain ⟨messages, enums⟩ := settled.messages other entry at_index id old
        rw [fits.grows.usesAt]
        exact ⟨fun other leads => fits.grows.has (messages other leads),
          fun other leads => fits.grows.has (enums other leads)⟩
      · rw [← fits.grows.usesAt] at covers
        exact covers.closes fits.tidy
    · exact settled.messages other found elsewhere
  · intro other found ref decl at_other member means
    rcases (at_look_iff at_index).1 at_other with ⟨rfl, rfl⟩ | ⟨apart, elsewhere⟩
    · rw [fits.grows.file] at means
      rcases fits.has ref decl member means with known | has
      · exact fits.grows.has (settled.visits other entry ref decl at_index known means)
      · exact has
    · rcases (fits.requested (other, ref)).1 member with known | ⟨here, _⟩
      · exact settled.visits other found ref decl elsewhere known means
      · exact absurd here apart

theorem Settled.root {index : Nat} {entry : Entry} (wellFormed : workspace.WellFormed) (settled : workspace.Settled)
    (at_index : workspace.At index entry) : (workspace.setEntry index entry.asRoot).Settled := by
  have tidy := wellFormed.tidy index entry at_index
  refine ⟨?_, ?_, ?_⟩
  · intro other found decl at_other root declared
    rcases (at_setEntry_iff at_index).1 at_other with ⟨_, rfl⟩ | ⟨_, elsewhere⟩
    · exact tidy.has_asRoot_iff.2 declared
    · exact settled.roots other found decl elsewhere root declared
  · intro other found at_other
    rcases (at_setEntry_iff at_index).1 at_other with ⟨_, rfl⟩ | ⟨_, elsewhere⟩
    · intro id _
      obtain ⟨messages, enums⟩ := Entry.declares_usesAt tidy.ordered id
      constructor
      · exact fun used leads => tidy.has_asRoot_iff.2 (messages used leads)
      · exact fun used leads => tidy.has_asRoot_iff.2 (enums used leads)
    · exact settled.messages other found elsewhere
  · intro other found ref decl at_other member means
    rcases (at_setEntry_iff at_index).1 at_other with ⟨_, rfl⟩ | ⟨_, elsewhere⟩
    · exact tidy.has_asRoot_iff.2 (File.declares_of_outer means)
    · exact settled.visits other found ref decl elsewhere member means

theorem Settled.log (settled : workspace.Settled) (name : String) : (workspace.log name).Settled :=
  ⟨settled.roots, settled.messages, settled.visits⟩

theorem Advance.settled {loader : Loader} (advance : Advance loader before after) (wellFormed : before.WellFormed)
    (settled : before.Settled) : after.Settled := by
  cases advance with
  | asked => exact settled.log _
  | loaded => exact settled.add wellFormed _ _ _
  | looked at_index _ => exact settled.look wellFormed at_index _

theorem Step.settled {loader : Loader} (step : Step loader before after) (wellFormed : before.WellFormed)
    (settled : before.Settled) : after.Settled := by
  cases step with
  | advance advance => exact advance.settled wellFormed settled
  | rootAsked => exact settled.log _
  | rootLoaded => exact settled.add wellFormed _ _ _
  | rooted at_index => exact settled.root wellFormed at_index

/-- All that the root files need by the visits made is noted. -/
theorem Settled.notes (settled : workspace.Settled) {need : Need}
    (needs : workspace.files.NeedsBy workspace.Made need) : workspace.Notes need := by
  induction needs with
  | @rootMessage index entry id message at_index root declared =>
    exact ⟨entry, at_index, settled.roots index entry (.message id) at_index root ⟨message, declared⟩⟩
  | @rootEnum index entry id enum at_index root declared =>
    exact ⟨entry, at_index, settled.roots index entry (.enum id) at_index root ⟨enum, declared⟩⟩
  | rootVisit _ _ _ _ _ _ made | handedOn _ _ _ _ _ _ made | refersOutside _ _ _ _ _ _ _ made => exact made
  | found _ at_index means ih => exact notes_need_iff.2 ⟨_, at_index, settled.visits _ _ _ _ at_index ih means⟩
  | @refers index entry id message ref decl _ at_index at_id used named means ih =>
    obtain ⟨same, at_same, included⟩ := ih
    obtain rfl := At.unique at_index at_same
    obtain ⟨messages, enums⟩ := settled.messages _ _ at_index _ included
    rw [Entry.usesAt_eq at_id] at messages enums
    refine notes_need_iff.2 ⟨_, at_index, ?_⟩
    cases decl with
    | message other => exact messages other (File.mem_messages_uses.2 ⟨_, used, named, means⟩)
    | enum other => exact enums other (File.mem_enums_uses.2 ⟨_, used, named, means⟩)

end Workspace

end ProtoSchema
