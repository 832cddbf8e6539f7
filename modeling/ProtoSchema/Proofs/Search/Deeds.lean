import ProtoSchema.Proofs.Search.Replay

namespace ProtoSchema

/-- What a visit does in the file at `index`: it resolves references, and walks through messages for each of them. -/
def Looking.deeds (index : Nat) (looking : Looking) : List Need :=
  looking.trail.flatMap fun row => .visit index row.1 :: (row.2.filterMap Encounter.walked?).map (.message index)

/-- The references that an event resolves and the messages that it walks through. -/
def Event.deeds : Event → List Need
  | .visited _ _ index looking => looking.deeds index
  | .named _ | .read _ | .opened _ _ _ | .added _ | .rooted _ _ _ | .patterned _ => []

namespace Workspace

variable {workspace before after : Workspace}

theorem Grows.notes (grows : before.Grows after) {need : Need} (notes : before.Notes need) : after.Notes need := by
  cases need with
  | message index id =>
    obtain ⟨entry, at_index, included⟩ := notes
    obtain ⟨later, at_later, grown⟩ := grows.entries index entry at_index
    exact ⟨later, at_later, grown.includes id included⟩
  | enum index id =>
    obtain ⟨entry, at_index, reached⟩ := notes
    obtain ⟨later, at_later, grown⟩ := grows.entries index entry at_index
    exact ⟨later, at_later, grown.reaches id reached⟩
  | visit index outer => exact grows.requested _ notes

/-- What can be noted without a deed: enums, and the messages of root files. -/
def Spares (workspace : Workspace) : Need → Prop
  | .message index _ => ∃ entry, workspace.At index entry ∧ entry.isRoot = true
  | .enum _ _ => True
  | .visit _ _ => False

theorem Grows.spares (grows : before.Grows after) {need : Need} (spares : before.Spares need) : after.Spares need := by
  cases need with
  | message index id =>
    obtain ⟨entry, at_index, root⟩ := spares
    obtain ⟨later, at_later, grown⟩ := grows.entries index entry at_index
    exact ⟨later, at_later, grown.isRoot root⟩
  | enum => trivial
  | visit => exact spares

/-- Whether some deeds account for what `after` notes beyond `before`. None of them has been done before. -/
structure Accounts (before : Workspace) (deeds : List Need) (after : Workspace) : Prop where
  grows : before.Grows after
  wellFormed : after.WellFormed
  once : deeds.Nodup
  new : ∀ need ∈ deeds, ¬before.Notes need
  noted : ∀ need ∈ deeds, after.Notes need
  all : ∀ need, after.Notes need → before.Notes need ∨ need ∈ deeds ∨ after.Spares need

/-- A change that notes nothing but what can be noted without a deed. -/
theorem Accounts.nothing (grows : before.Grows after) (wellFormed : after.WellFormed)
    (all : ∀ need, after.Notes need → before.Notes need ∨ after.Spares need) : before.Accounts [] after where
  grows := grows
  wellFormed := wellFormed
  once := List.nodup_nil
  new := by simp
  noted := by simp
  all need notes := (all need notes).imp_right Or.inr

theorem Accounts.refl (wellFormed : workspace.WellFormed) : workspace.Accounts [] workspace :=
  .nothing (.refl workspace) wellFormed fun _ => Or.inl

theorem Accounts.trans {a b c : Workspace} {first second : List Need} (one : a.Accounts first b)
    (two : b.Accounts second c) : a.Accounts (first ++ second) c where
  grows := one.grows.trans two.grows
  wellFormed := two.wellFormed
  once := by
    refine List.nodup_append.2 ⟨one.once, two.once, ?_⟩
    rintro need done other again rfl
    exact two.new need again (one.noted need done)
  new need member := by
    rcases List.mem_append.1 member with early | late
    · exact one.new need early
    · exact fun notes => two.new need late (one.grows.notes notes)
  noted need member := by
    rcases List.mem_append.1 member with early | late
    · exact two.grows.notes (one.noted need early)
    · exact two.noted need late
  all need notes := by
    rcases two.all need notes with old | late | spared
    · rcases one.all need old with older | early | spared
      · exact Or.inl older
      · exact Or.inr (Or.inl (List.mem_append_left _ early))
      · exact Or.inr (Or.inr (two.grows.spares spared))
    · exact Or.inr (Or.inl (List.mem_append_right _ late))
    · exact Or.inr (Or.inr spared)

theorem Accounts.log (wellFormed : workspace.WellFormed) (name : String) :
    workspace.Accounts [] (workspace.log name) := by
  refine .nothing (workspace.grows_log name) (wellFormed_log wellFormed name) fun need notes => Or.inl ?_
  cases need <;> exact notes

theorem Accounts.add {name : String} {source : Source} {file : File} (wellFormed : workspace.WellFormed)
    (missing : workspace.files.indexOf? name = none) (parsed : parse name source.text = .ok file) :
    workspace.Accounts [] (workspace.add (.ofFile file source.path source.text)) := by
  refine .nothing (workspace.grows_add _) (wellFormed_parsed wellFormed missing parsed) fun need notes => ?_
  cases need with
  | message index id =>
    obtain ⟨entry, at_index, included⟩ := notes
    rcases at_add_iff.1 at_index with ⟨_, rfl⟩ | old
    · exact absurd (show Entry.Has _ (.message id) from included) Entry.not_has_ofFile
    · exact Or.inl ⟨entry, old, included⟩
  | enum => exact Or.inr trivial
  | visit => exact Or.inl notes

theorem Accounts.root {index : Nat} {entry : Entry} (wellFormed : workspace.WellFormed)
    (at_index : workspace.At index entry) : workspace.Accounts [] (workspace.setEntry index entry.asRoot) := by
  have tidy := (wellFormed.tidy _ _ at_index).asRoot
  refine .nothing (grows_root at_index) (wellFormed.replace at_index entry.grows_asRoot tidy fun _ => Or.inl)
    fun need notes => ?_
  cases need with
  | message other id =>
    obtain ⟨found, at_other, included⟩ := notes
    rcases (at_setEntry_iff at_index).1 at_other with ⟨rfl, rfl⟩ | ⟨_, elsewhere⟩
    · exact Or.inr ⟨_, at_root_self at_index, rfl⟩
    · exact Or.inl ⟨found, elsewhere, included⟩
  | enum => exact Or.inr trivial
  | visit => exact Or.inl notes

section Look

variable {index : Nat} {old : Entry} {visit later : Visit} {outer : OuterRef} {done : List OuterRef} {looking : Looking}

theorem wellFormed_during (wellFormed : workspace.WellFormed) (at_index : workspace.At index old)
    (fits : Visit.Fits index old workspace.requested done visit) : (workspace.during index visit).WellFormed :=
  wellFormed.replace at_index fits.grows fits.tidy fun pair member => ((fits.requested pair).1 member).imp_right And.left

theorem grows_during (at_index : workspace.At index old) (grows : visit.entry.Grows later.entry)
    (kept : ∀ pair ∈ visit.requested, pair ∈ later.requested) :
    (workspace.during index visit).Grows (workspace.during index later) where
  entries other found at_other := by
    rcases (at_replace_iff at_index).1 at_other with ⟨rfl, rfl⟩ | ⟨apart, elsewhere⟩
    · exact ⟨later.entry, (at_replace_iff at_index).2 (Or.inl ⟨rfl, rfl⟩), grows⟩
    · exact ⟨found, (at_replace_iff at_index).2 (Or.inr ⟨apart, elsewhere⟩), .refl found⟩
  requested := kept

theorem notes_message_during_iff (at_index : workspace.At index old) {other : Nat} {id : MessageId} :
    (workspace.during index visit).Notes (.message other id) ↔
      other = index ∧ visit.entry.includes id = true ∨ other ≠ index ∧ workspace.Notes (.message other id) := by
  simp only [during, Notes, at_replace_iff at_index]
  grind

/-- A reference that is resolved for the first time, and the messages that are walked through for it. -/
theorem Accounts.resolved {ids : List MessageId} (at_index : workspace.At index old)
    (grows : visit.entry.Grows later.entry) (wellFormed : (workspace.during index later).WellFormed)
    (missing : (index, outer) ∉ visit.requested) (requested : later.requested = visit.requested ++ [(index, outer)])
    (once : ids.Nodup) (fresh : ∀ id ∈ ids, visit.entry.includes id = false)
    (included : ∀ id, later.entry.includes id = true ↔ visit.entry.includes id = true ∨ id ∈ ids) :
    (workspace.during index visit).Accounts (.visit index outer :: ids.map (.message index))
      (workspace.during index later) where
  grows := grows_during at_index grows fun pair known => requested ▸ List.mem_append_left _ known
  wellFormed := wellFormed
  once := by
    have apart : Function.Injective (Need.message index) := fun _ _ same => by simpa using same
    exact List.nodup_cons.2 ⟨by simp, List.Nodup.map apart once⟩
  new need member := by
    rcases List.mem_cons.1 member with rfl | walked
    · exact missing
    · obtain ⟨id, isWalked, rfl⟩ := List.mem_map.1 walked
      simp [notes_message_during_iff at_index, fresh id isWalked]
  noted need member := by
    rcases List.mem_cons.1 member with rfl | walked
    · show (index, outer) ∈ later.requested
      rw [requested]
      exact List.mem_append_right _ (List.mem_singleton_self _)
    · obtain ⟨id, isWalked, rfl⟩ := List.mem_map.1 walked
      exact (notes_message_during_iff at_index).2 (Or.inl ⟨rfl, (included id).2 (Or.inr isWalked)⟩)
  all need notes := by
    cases need with
    | message other id =>
      rcases (notes_message_during_iff at_index).1 notes with ⟨rfl, now⟩ | ⟨apart, elsewhere⟩
      · rcases (included id).1 now with old | walked
        · exact Or.inl ((notes_message_during_iff at_index).2 (Or.inl ⟨rfl, old⟩))
        · exact Or.inr (Or.inl (List.mem_cons_of_mem _ (List.mem_map_of_mem walked)))
      · exact Or.inl ((notes_message_during_iff at_index).2 (Or.inr ⟨apart, elsewhere⟩))
    | enum => exact Or.inr (Or.inr trivial)
    | visit other ref =>
      rcases List.mem_append.1 (requested ▸ show (other, ref) ∈ later.requested from notes) with known | now
      · exact Or.inl known
      · obtain ⟨rfl, rfl⟩ := Prod.ext_iff.1 (List.mem_singleton.1 now)
        exact Or.inr (Or.inl (List.mem_cons_self ..))

/-- What a visit does accounts for what it leaves, however many references it has looked for. -/
theorem Accounts.lookForAll (wellFormed : workspace.WellFormed) (at_index : workspace.At index old)
    (fits : Looking.Fits index old workspace.requested done looking)
    (accounts : workspace.Accounts (looking.deeds index) (workspace.during index looking.visit)) (outers : List OuterRef) :
    workspace.Accounts ((looking.lookForAll index outers).deeds index)
      (workspace.during index (looking.lookForAll index outers).visit) := by
  unfold Looking.lookForAll
  induction outers generalizing done looking with
  | nil => exact accounts
  | cons first rest ih =>
    refine ih (fits.lookFor first) ?_
    rcases fits.cases first with ⟨_, same⟩ | ⟨met, new, resolves⟩
    · rwa [same]
    · have deeds : (looking.lookFor index first).deeds index =
          looking.deeds index ++ .visit index first :: (met.filterMap Encounter.walked?).map (.message index) := by
        simp [Looking.deeds, resolves.trail]
      have grows := looking.visit.grows_lookFor index first
      have requested := looking.visit.requested_lookFor_of_new new
      rw [← resolves.visit] at grows requested
      rw [deeds]
      exact accounts.trans (.resolved at_index grows (wellFormed_during wellFormed at_index (fits.lookFor first).visit) new
        requested resolves.once resolves.fresh resolves.included)

theorem Accounts.look {memo : Memo} (wellFormed : workspace.WellFormed) (at_index : workspace.At index old)
    (recalls : memo.Recalls old.file) (outers : List OuterRef) :
    workspace.Accounts (((Looking.start old workspace.requested memo).lookForAll index outers).deeds index)
      (workspace.during index ((Looking.start old workspace.requested memo).lookForAll index outers).visit) := by
  have unchanged : workspace.during index (Looking.start old workspace.requested memo).visit = workspace := by
    obtain ⟨bound, rfl⟩ := List.getElem?_eq_some_iff.1 at_index
    simp [during, Looking.start, setEntry]
  refine .lookForAll wellFormed at_index (.start index _ (wellFormed.tidy index old at_index) recalls) ?_ outers
  rw [unchanged]
  exact .refl wellFormed

end Look

end Workspace

/-- What an event does accounts for what it leaves. -/
theorem Happens.accounts {command : Workspace.Command} {workspace : Workspace} {event : Event}
    (happens : Happens command workspace event) (wellFormed : workspace.WellFormed) :
    workspace.Accounts event.deeds (event.after workspace) := by
  cases happens with
  | named | read => exact .refl wellFormed
  | @opened _ name _ _ missing _ answers =>
    have asked := Workspace.Accounts.log wellFormed name
    cases answers with
    | file _ parsed => exact asked.trans (.add asked.wellFormed missing parsed)
    | fault | malformed => exact asked
  | added _ missing parsed => exact .add wellFormed missing parsed
  | rooted at_index => exact .root wellFormed at_index
  | visited _ _ at_index recalls => exact .look wellFormed at_index recalls _
  | patterned pattern =>
    refine .nothing ⟨fun _ entry at_index => ⟨entry, at_index, .refl entry⟩, fun _ => id⟩
      ⟨wellFormed.tidy, wellFormed.distinct, wellFormed.requested⟩ fun need notes => Or.inl ?_
    cases need <;> exact notes

end ProtoSchema
