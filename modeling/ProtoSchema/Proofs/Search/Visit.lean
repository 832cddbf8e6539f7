import ProtoSchema.Proofs.FileSet.Gather
import ProtoSchema.Workspace

namespace ProtoSchema

section AddNew

variable {α : Type} [DecidableEq α] (items more : List α)

theorem prefix_addNew (item : α) : items <+: addNew items item := by
  unfold addNew
  split
  · exact List.prefix_rfl
  · exact List.prefix_append ..

theorem prefix_addAllNew : items <+: addAllNew items more := by
  induction more generalizing items with
  | nil => exact List.prefix_rfl
  | cons item more ih => exact (prefix_addNew items item).trans (ih _)

theorem nodup_addAllNew {items : List α} (nodup : items.Nodup) : (addAllNew items more).Nodup := by
  induction more generalizing items with
  | nil => exact nodup
  | cons item more ih =>
    refine ih ?_
    unfold addNew
    split
    · exact nodup
    next missing =>
      refine List.nodup_append.2 ⟨nodup, List.pairwise_singleton .., ?_⟩
      rintro old known new added rfl
      exact missing (List.mem_singleton.1 added ▸ known)

/-- A list becomes longer when something new is among what is added. -/
theorem length_lt_addAllNew {item : α} (new : item ∈ more) (missing : item ∉ items) :
    items.length < (addAllNew items more).length := by
  obtain ⟨added, whole⟩ := prefix_addAllNew items more
  rcases added with - | ⟨first, added⟩
  · rw [List.append_nil] at whole
    exact absurd (whole ▸ mem_addAllNew.2 (Or.inr new)) missing
  · rw [← whole, List.length_append, List.length_cons]
    omega

end AddNew

namespace File

variable {file : File} {refs : List TypeRef}

theorem mem_messages_uses {id : MessageId} :
    id ∈ (file.uses refs).messages ↔
      ∃ ref ∈ refs, ref.isScalar = false ∧ ref.resolve file = some (.message id) := by
  simp only [uses, List.mem_filterMap, List.mem_filter, Bool.not_eq_true', Option.bind_eq_some_iff, and_assoc]
  constructor
  · rintro ⟨ref, used, named, decl, means, isMessage⟩
    cases decl with
    | message other => exact ⟨ref, used, named, by rw [means, ← Option.some.inj isMessage]⟩
    | enum other => contradiction
  · rintro ⟨ref, used, named, means⟩
    exact ⟨ref, used, named, _, means, rfl⟩

theorem mem_enums_uses {id : EnumId} :
    id ∈ (file.uses refs).enums ↔ ∃ ref ∈ refs, ref.isScalar = false ∧ ref.resolve file = some (.enum id) := by
  simp only [uses, List.mem_filterMap, List.mem_filter, Bool.not_eq_true', Option.bind_eq_some_iff, and_assoc]
  constructor
  · rintro ⟨ref, used, named, decl, means, isEnum⟩
    cases decl with
    | message other => contradiction
    | enum other => exact ⟨ref, used, named, by rw [means, ← Option.some.inj isEnum]⟩
  · rintro ⟨ref, used, named, means⟩
    exact ⟨ref, used, named, _, means, rfl⟩

theorem mem_outside_uses {outer : OuterRef} :
    outer ∈ (file.uses refs).outside ↔ ∃ ref ∈ refs, ref.Outside file ∧ OuterRef.ofRef file ref = outer := by
  simp only [uses, TypeRef.Outside, List.mem_map, List.mem_filter, Bool.not_eq_true', Option.isNone_iff_eq_none,
    and_assoc]

end File

namespace Entry

theorem usesAt_eq {entry : Entry} {id : MessageId} {message : Message}
    (at_id : entry.file.message? id = some message) : entry.usesAt id = entry.file.uses message.types := by
  simp [usesAt, at_id]

/-- What a message leads to outside is among what its file leads to outside. -/
theorem outside_usesAt (entry : Entry) {id : MessageId} {outer : OuterRef} (outside : outer ∈ (entry.usesAt id).outside) :
    outer ∈ (entry.file.uses entry.file.types).outside := by
  cases at_id : entry.file.message? id with
  | none => simp [usesAt, at_id, File.uses] at outside
  | some message =>
    rw [usesAt_eq at_id] at outside
    obtain ⟨ref, used, leads, same⟩ := File.mem_outside_uses.1 outside
    refine File.mem_outside_uses.2 ⟨ref, ?_, leads, same⟩
    simp only [File.types, List.mem_append, List.mem_flatMap]
    exact Or.inl (Or.inl ⟨message, List.mem_of_getElem? at_id, used⟩)

/-- What a message leads to in its file is declared there. -/
theorem declares_usesAt {entry : Entry} (ordered : entry.file.InOrder) (id : MessageId) :
    (∀ other ∈ (entry.usesAt id).messages, entry.file.Declares (.message other)) ∧
      ∀ other ∈ (entry.usesAt id).enums, entry.file.Declares (.enum other) := by
  constructor
  · intro other leads
    obtain ⟨ref, _, _, means⟩ := File.mem_messages_uses.1 leads
    exact ordered.declares_of_resolve means
  · intro other leads
    obtain ⟨ref, _, _, means⟩ := File.mem_enums_uses.1 leads
    exact ordered.declares_of_resolve means

theorem Tidy.message_of_includes {entry : Entry} (tidy : entry.Tidy) {id : MessageId}
    (included : entry.includes id = true) : ∃ message, entry.file.message? id = some message := by
  simp only [includes, decide_eq_true_eq] at included
  have bound := (List.getElem?_eq_some_iff.1 included).1
  rw [tidy.messageFlags] at bound
  exact ⟨_, List.getElem?_eq_getElem bound⟩

theorem Covers.mono {before after : Entry} {outside more : List OuterRef} {uses : Uses}
    (covers : before.Covers outside uses) (grows : before.Grows after) (tidy : before.Tidy) (tidyAfter : after.Tidy)
    (kept : ∀ outer ∈ outside, outer ∈ more) : after.Covers more uses := by
  refine ⟨?_, ?_, ?_⟩
  · intro id used inRange
    rw [tidyAfter.messageFlags, grows.file, ← tidy.messageFlags] at inRange
    exact grows.includes id (covers.messages id used inRange)
  · intro id used inRange
    rw [tidyAfter.enumFlags, grows.file, ← tidy.enumFlags] at inRange
    exact grows.reaches id (covers.enums id used inRange)
  · intro outer used
    exact kept outer (covers.outside outer used)

theorem Tidy.grow {before after : Entry} (tidy : before.Tidy) (grows : before.Grows after)
    (messages : after.messageFlags.length = before.messageFlags.length)
    (enums : after.enumFlags.length = before.enumFlags.length) : after.Tidy := by
  refine ⟨?_, ?_, ?_⟩
  · rw [grows.file]
    exact tidy.ordered
  · rw [messages, grows.file, tidy.messageFlags]
  · rw [enums, grows.file, tidy.enumFlags]

end Entry

/-- What is known once the references in `done` have been looked for in the file at `index`, of which
`before` was the record and `seen` the list of what had been looked for. -/
structure Visit.Fits (index : Nat) (before : Entry) (seen : List (Nat × OuterRef)) (done : List OuterRef)
    (visit : Visit) : Prop where
  grows : before.Grows visit.entry
  isRoot : visit.entry.isRoot = before.isRoot
  tidy : visit.entry.Tidy
  requested : ∀ pair, pair ∈ visit.requested ↔ pair ∈ seen ∨ pair.1 = index ∧ pair.2 ∈ done
  /-- A message that is newly included has brought all that it leads to. -/
  covers : ∀ id, visit.entry.includes id = true →
    before.includes id = true ∨ visit.entry.Covers visit.outside (before.usesAt id)
  has : ∀ outer decl, (index, outer) ∈ visit.requested → outer.resolve before.file = some decl →
    (index, outer) ∈ seen ∨ visit.entry.Has decl
  misses : ∀ outer, (index, outer) ∈ visit.requested → outer.resolve before.file = none →
    (index, outer) ∈ seen ∨ outer ∈ visit.unmatched
  /-- Nothing is included but what the references in `done` need. -/
  within : ∀ needed : DeclId → Prop, before.Closes needed →
    (∀ outer ∈ done, ∀ decl, outer.resolve before.file = some decl → needed decl) →
    ∀ decl, visit.entry.Has decl → before.Has decl ∨ needed decl
  outside : ∀ outer ∈ visit.outside, ∃ id, visit.entry.includes id = true ∧ outer ∈ (before.usesAt id).outside
  unmatched : ∀ outer ∈ visit.unmatched, outer ∈ done ∧ outer.resolve before.file = none

namespace Visit

variable {index : Nat} {before : Entry} {seen : List (Nat × OuterRef)} {done : List OuterRef} {visit : Visit}

theorem requested_lookFor (index : Nat) (visit : Visit) (outer : OuterRef) :
    (visit.lookFor index outer).requested = addNew visit.requested (index, outer) := by
  unfold lookFor addNew
  split
  · rfl
  · dsimp only
    split <;> rfl

theorem requested_lookFor_of_new {outer : OuterRef} (new : (index, outer) ∉ visit.requested) :
    (visit.lookFor index outer).requested = visit.requested ++ [(index, outer)] := by
  rw [requested_lookFor, addNew, if_neg new]

theorem grows_lookFor (index : Nat) (visit : Visit) (outer : OuterRef) :
    visit.entry.Grows (visit.lookFor index outer).entry := by
  unfold lookFor
  split
  · exact .refl _
  · dsimp only
    split
    next id _ => exact (visit.entry.gather_grows visit.outside [id]).1
    next id _ => exact visit.entry.grows_reach id
    next => exact .refl _

theorem requested_lookForAll (index : Nat) (visit : Visit) (outer : List OuterRef) :
    (outer.foldl (lookFor index) visit).requested = addAllNew visit.requested (outer.map (Prod.mk index)) := by
  induction outer generalizing visit with
  | nil => rfl
  | cons first rest ih => rw [List.foldl_cons, ih, requested_lookFor]; rfl

/-- Looking for references again changes nothing. -/
theorem lookForAll_of_requested {outer : List OuterRef} (known : ∀ ref ∈ outer, (index, ref) ∈ visit.requested) :
    outer.foldl (lookFor index) visit = visit := by
  induction outer with
  | nil => rfl
  | cons first rest ih =>
    have same : visit.lookFor index first = visit := if_pos (known first (List.mem_cons_self ..))
    rw [List.foldl_cons, same]
    exact ih fun ref member => known ref (List.mem_cons_of_mem _ member)

theorem Fits.start (index : Nat) {before : Entry} (seen : List (Nat × OuterRef)) (tidy : before.Tidy) :
    Visit.Fits index before seen [] ⟨before, seen, [], []⟩ where
  grows := .refl before
  isRoot := rfl
  tidy := tidy
  requested pair := by simp
  covers _ := Or.inl
  has _ _ old _ := Or.inl old
  misses _ old _ := Or.inl old
  within _ _ _ _ := Or.inl
  outside outer member := by simp at member
  unmatched outer member := by simp at member

/-- Looking for a reference again changes nothing. -/
theorem Fits.again {outer : OuterRef} (fits : Visit.Fits index before seen done visit)
    (old : (index, outer) ∈ visit.requested) : Visit.Fits index before seen (done ++ [outer]) visit where
  grows := fits.grows
  isRoot := fits.isRoot
  tidy := fits.tidy
  requested pair := by
    constructor
    · intro member
      rcases (fits.requested pair).1 member with known | ⟨here, looked⟩
      · exact Or.inl known
      · exact Or.inr ⟨here, List.mem_append_left _ looked⟩
    · rintro (known | ⟨here, looked⟩)
      · exact (fits.requested pair).2 (Or.inl known)
      · rcases List.mem_append.1 looked with earlier | now
        · exact (fits.requested pair).2 (Or.inr ⟨here, earlier⟩)
        · obtain rfl : pair = (index, outer) := Prod.ext here (List.mem_singleton.1 now)
          exact old
  covers := fits.covers
  has := fits.has
  misses := fits.misses
  within needed closed found :=
    fits.within needed closed fun other member => found other (List.mem_append_left _ member)
  outside := fits.outside
  unmatched other member :=
    ⟨List.mem_append_left _ (fits.unmatched other member).1, (fits.unmatched other member).2⟩

/-- What looking for one more reference has to add. -/
theorem Fits.next {outer : OuterRef} {later : Visit} (fits : Visit.Fits index before seen done visit)
    (grows : visit.entry.Grows later.entry) (isRoot : later.entry.isRoot = visit.entry.isRoot) (tidy : later.entry.Tidy)
    (requested : later.requested = visit.requested ++ [(index, outer)])
    (kept : ∀ other ∈ visit.outside, other ∈ later.outside)
    (keptUnmatched : ∀ other ∈ visit.unmatched, other ∈ later.unmatched)
    (covers : ∀ id, later.entry.includes id = true →
      visit.entry.includes id = true ∨ later.entry.Covers later.outside (before.usesAt id))
    (has : ∀ decl, outer.resolve before.file = some decl → later.entry.Has decl)
    (misses : outer.resolve before.file = none → outer ∈ later.unmatched)
    (within : ∀ needed : DeclId → Prop, before.Closes needed →
      (∀ decl, outer.resolve before.file = some decl → needed decl) →
      ∀ decl, later.entry.Has decl → visit.entry.Has decl ∨ needed decl)
    (outside : ∀ other ∈ later.outside, other ∈ visit.outside ∨
      ∃ id, later.entry.includes id = true ∧ other ∈ (before.usesAt id).outside)
    (unmatched : ∀ other ∈ later.unmatched, other ∈ visit.unmatched ∨
      other = outer ∧ outer.resolve before.file = none) :
    Visit.Fits index before seen (done ++ [outer]) later where
  grows := fits.grows.trans grows
  isRoot := isRoot.trans fits.isRoot
  tidy := tidy
  requested pair := by
    rw [requested, List.mem_append, fits.requested, List.mem_singleton, List.mem_append, List.mem_singleton,
      Prod.ext_iff]
    grind
  covers id included := by
    rcases covers id included with old | new
    · rcases fits.covers id old with older | covered
      · exact Or.inl older
      · exact Or.inr (covered.mono grows fits.tidy tidy kept)
    · exact Or.inr new
  has other decl member means := by
    rw [requested] at member
    rcases List.mem_append.1 member with old | new
    · rcases fits.has other decl old means with known | found
      · exact Or.inl known
      · exact Or.inr (grows.has found)
    · obtain ⟨_, rfl⟩ := Prod.ext_iff.1 (List.mem_singleton.1 new)
      exact Or.inr (has decl means)
  misses other member means := by
    rw [requested] at member
    rcases List.mem_append.1 member with old | new
    · rcases fits.misses other old means with known | missed
      · exact Or.inl known
      · exact Or.inr (keptUnmatched other missed)
    · obtain ⟨_, rfl⟩ := Prod.ext_iff.1 (List.mem_singleton.1 new)
      exact Or.inr (misses means)
  within needed closed found decl has := by
    have now := found outer (List.mem_append_right _ (List.mem_singleton_self _))
    rcases within needed closed now decl has with old | new
    · exact fits.within needed closed (fun other member => found other (List.mem_append_left _ member)) decl old
    · exact Or.inr new
  outside other member := by
    rcases outside other member with old | new
    · obtain ⟨id, included, leads⟩ := fits.outside other old
      exact ⟨id, grows.includes id included, leads⟩
    · exact new
  unmatched other member := by
    rcases unmatched other member with old | ⟨rfl, means⟩
    · exact ⟨List.mem_append_left _ (fits.unmatched other old).1, (fits.unmatched other old).2⟩
    · exact ⟨List.mem_append_right _ (List.mem_singleton_self _), means⟩

theorem Fits.lookFor (fits : Visit.Fits index before seen done visit) (outer : OuterRef) :
    Visit.Fits index before seen (done ++ [outer]) (visit.lookFor index outer) := by
  unfold Visit.lookFor
  split
  · rename_i old
    exact fits.again old
  · have same : outer.resolve visit.entry.file = outer.resolve before.file := by rw [fits.grows.file]
    dsimp only
    rw [same]
    match means : outer.resolve before.file with
    | some (.message id) =>
      obtain ⟨grows, isRoot, messages, enums, kept⟩ := visit.entry.gather_grows visit.outside [id]
      obtain ⟨stacked, covered⟩ := visit.entry.gather_complete visit.outside [id]
      simp only [fits.grows.usesAt] at covered
      refine fits.next grows isRoot (fits.tidy.grow grows messages enums) rfl kept (fun _ old => old) covered ?_ ?_ ?_ ?_
        (fun _ => Or.inl)
      · intro decl meant
        obtain rfl : DeclId.message id = decl := Option.some.inj (means.symm.trans meant)
        have declared : visit.entry.file.Declares (.message id) := fits.grows.file ▸ File.declares_of_outer means
        exact stacked id (List.mem_singleton_self _) (fits.tidy.message_lt declared)
      · intro missed
        simp [means] at missed
      · intro needed closed found decl has
        refine visit.entry.gather_within visit.outside [id] ?_ ?_ has
        · simpa using found _ means
        · exact fits.grows.closes.2 closed
      · intro other member
        simpa only [fits.grows.usesAt] using visit.entry.gather_outside visit.outside [id] member
    | some (.enum id) =>
      have grows := visit.entry.grows_reach id
      refine fits.next grows rfl (fits.tidy.grow grows rfl (visit.entry.enumFlags_length_reach id)) rfl
        (fun _ old => old) (fun _ old => old) (fun _ => Or.inl) ?_ ?_ ?_ (fun _ => Or.inl) (fun _ => Or.inl)
      · intro decl meant
        obtain rfl : DeclId.enum id = decl := Option.some.inj (means.symm.trans meant)
        have declared : visit.entry.file.Declares (.enum id) := fits.grows.file ▸ File.declares_of_outer means
        exact (visit.entry.reaches_reach id id).2 (Or.inr ⟨rfl, fits.tidy.enum_lt declared⟩)
      · intro missed
        simp [means] at missed
      · intro needed closed found decl has
        cases decl with
        | message other => exact Or.inl has
        | enum other =>
          rcases (visit.entry.reaches_reach id other).1 has with old | ⟨rfl, _⟩
          · exact Or.inl old
          · exact Or.inr (found _ means)
    | none =>
      refine fits.next (.refl _) rfl fits.tidy rfl (fun _ old => old) (fun _ => List.mem_append_left _)
        (fun _ => Or.inl) ?_ (fun _ => List.mem_append_right _ (List.mem_singleton_self _))
        (fun _ _ _ _ => Or.inl) (fun _ => Or.inl) ?_
      · intro decl meant
        simp [means] at meant
      · intro other member
        rcases List.mem_append.1 member with old | new
        · exact Or.inl old
        · exact Or.inr ⟨List.mem_singleton.1 new, means⟩

/-- What is known after some references have been looked for. -/
theorem Fits.lookForAll (fits : Visit.Fits index before seen done visit) (outer : List OuterRef) :
    Visit.Fits index before seen (done ++ outer) (outer.foldl (Visit.lookFor index) visit) := by
  induction outer generalizing done visit with
  | nil => simpa using fits
  | cons first rest ih => simpa using ih (fits.lookFor first)

end Visit

end ProtoSchema
