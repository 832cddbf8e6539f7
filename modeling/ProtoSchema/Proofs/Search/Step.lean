import Mathlib.Logic.Relation
import ProtoSchema.Proofs.Search.Growth
import ProtoSchema.Search

namespace ProtoSchema

namespace Workspace

variable {workspace before after : Workspace}

/-- Whether the imports of the file at `index`, or only those that it hands on, are to be followed for a
reference. -/
inductive Follows (workspace : Workspace) (index : Nat) (outer : OuterRef) : Bool → Prop
  | root {entry : Entry} : workspace.At index entry → entry.isRoot = true →
      outer ∈ (entry.file.uses entry.file.types).outside → Follows workspace index outer false
  | message {entry : Entry} {id : MessageId} : workspace.At index entry → entry.includes id = true →
      outer ∈ (entry.usesAt id).outside → Follows workspace index outer false
  | handedOn {entry : Entry} : workspace.At index entry → (index, outer) ∈ workspace.requested →
      outer.resolve entry.file = none → Follows workspace index outer true

theorem Follows.grow {index : Nat} {outer : OuterRef} {handedOn : Bool} (grows : before.Grows after)
    (follows : before.Follows index outer handedOn) : after.Follows index outer handedOn := by
  cases follows with
  | root at_index root outside =>
    obtain ⟨later, at_later, same⟩ := grows.entries _ _ at_index
    exact .root at_later (same.isRoot root) (same.file ▸ outside)
  | message at_index included outside =>
    obtain ⟨later, at_later, same⟩ := grows.entries _ _ at_index
    exact .message at_later (same.includes _ included) (same.usesAt _ ▸ outside)
  | handedOn at_index requested missed =>
    obtain ⟨later, at_later, same⟩ := grows.entries _ _ at_index
    exact .handedOn at_later (grows.requested _ requested) (same.file ▸ missed)

theorem Follows.entry {index : Nat} {outer : OuterRef} {handedOn : Bool}
    (follows : workspace.Follows index outer handedOn) : ∃ entry, workspace.At index entry := by
  cases follows with
  | root at_index | message at_index | handedOn at_index => exact ⟨_, at_index⟩

theorem importsOf_eq {index : Nat} {entry : Entry} (at_index : workspace.At index entry)
    (handedOn : Bool) :
    workspace.importsOf index handedOn = entry.file.imports.filter fun item => !handedOn || item.kind == .reexported := by
  simp only [importsOf, show workspace.entry? index = some entry from at_index]

theorem importsOf_grow {index : Nat} {entry : Entry} (grows : before.Grows after)
    (at_index : before.At index entry) (handedOn : Bool) :
    after.importsOf index handedOn = before.importsOf index handedOn := by
  obtain ⟨later, at_later, same⟩ := grows.entries _ _ at_index
  rw [importsOf_eq at_index, importsOf_eq at_later, same.file]

/-- Whether an import that is followed for a reference names the file at `index`. -/
def Sought (workspace : Workspace) (index : Nat) (outer : OuterRef) : Prop :=
  ∃ source handedOn item, workspace.Follows source outer handedOn ∧ item ∈ workspace.importsOf source handedOn ∧
    workspace.files.Names item index

/-- One step of following imports with a loader. -/
inductive Advance (loader : Loader) : Workspace → Workspace → Prop
  /-- The loader is asked for a file that an import names. -/
  | asked {workspace : Workspace} {index : Nat} {outer : OuterRef} {handedOn : Bool} {item : Import} :
      workspace.Follows index outer handedOn → item ∈ workspace.importsOf index handedOn →
      workspace.files.indexOf? item.path = none → Advance loader workspace (workspace.log item.path)
  | loaded {workspace : Workspace} {index : Nat} {outer : OuterRef} {handedOn : Bool} {item : Import}
      {source : Source} {file : File} :
      workspace.Follows index outer handedOn → item ∈ workspace.importsOf index handedOn →
      workspace.files.indexOf? item.path = none → loader.load item.path = .ok source →
      parse item.path source.text = .ok file →
      Advance loader workspace (workspace.add (.ofFile file source.path source.text))
  /-- References are looked for in a file that an import names. -/
  | looked {workspace : Workspace} {index : Nat} {entry : Entry} {outer : List OuterRef} :
      workspace.At index entry → (∀ ref ∈ outer, workspace.Sought index ref) →
      Advance loader workspace (workspace.look index entry outer).1

/-- One step of a search with a loader: it follows imports, or it is about a root. -/
inductive Step (loader : Loader) : Workspace → Workspace → Prop
  | advance {before after : Workspace} : Advance loader before after → Step loader before after
  | rootAsked {workspace : Workspace} (name : String) : workspace.files.indexOf? name = none →
      Step loader workspace (workspace.log name)
  | rootLoaded {workspace : Workspace} {name : String} {source : Source} {file : File} :
      workspace.files.indexOf? name = none → parse name source.text = .ok file →
      Step loader workspace (workspace.add (.ofFile file source.path source.text))
  | rooted {workspace : Workspace} {index : Nat} {entry : Entry} : workspace.At index entry →
      Step loader workspace (workspace.setEntry index entry.asRoot)

/-- Why following imports stops early: an import that is to be followed names a file that is not there, and
what the loader has for it does not parse, if it has anything. -/
inductive Blocked (loader : Loader) (workspace : Workspace) : Halt → Prop
  | unloadable {index : Nat} {entry : Entry} {outer : OuterRef} {handedOn : Bool} {item : Import} {fault : LoadFault} :
      workspace.At index entry → workspace.Follows index outer handedOn →
      item ∈ workspace.importsOf index handedOn → workspace.files.indexOf? item.path = none →
      loader.load item.path = .error fault → Blocked loader workspace (.failed (Search.blameImport entry item fault))
  | malformed {index : Nat} {outer : OuterRef} {handedOn : Bool} {item : Import} {source : Source}
      {error : SyntaxError} :
      workspace.Follows index outer handedOn → item ∈ workspace.importsOf index handedOn →
      workspace.files.indexOf? item.path = none → loader.load item.path = .ok source →
      parse item.path source.text = .error error → Blocked loader workspace (.failed (.malformed error))

theorem Blocked.ne_tooDeep {loader : Loader} {halt : Halt} (blocked : Blocked loader workspace halt) :
    halt ≠ .tooDeep := by
  cases blocked <;> simp

theorem wellFormed_log (wellFormed : workspace.WellFormed) (name : String) : (workspace.log name).WellFormed :=
  ⟨wellFormed.tidy, wellFormed.distinct, wellFormed.requested⟩

theorem grows_log (workspace : Workspace) (name : String) : workspace.Grows (workspace.log name) :=
  ⟨fun _ entry at_index => ⟨entry, at_index, .refl entry⟩, fun _ => id⟩

section Replace

variable {index : Nat} {old entry : Entry} {requested : List (Nat × OuterRef)}

/-- Putting a larger record in the place of one, and noting more references, makes a workspace grow. -/
theorem grows_replace (at_index : workspace.At index old) (grows : old.Grows entry)
    (kept : ∀ pair ∈ workspace.requested, pair ∈ requested) :
    workspace.Grows { workspace.setEntry index entry with requested } where
  entries other found at_other := by
    by_cases same : other = index
    · subst same
      obtain rfl := at_index.unique at_other
      exact ⟨entry, (at_replace_iff at_index).2 (Or.inl ⟨rfl, rfl⟩), grows⟩
    · exact ⟨found, (at_replace_iff at_index).2 (Or.inr ⟨same, at_other⟩), .refl found⟩
  requested := kept

theorem at_root_self (at_index : workspace.At index entry) :
    (workspace.setEntry index entry.asRoot).At index entry.asRoot :=
  (at_setEntry_iff at_index).2 (Or.inl ⟨rfl, rfl⟩)

theorem grows_root (at_index : workspace.At index entry) :
    workspace.Grows (workspace.setEntry index entry.asRoot) :=
  grows_replace at_index entry.grows_asRoot fun _ => id

theorem WellFormed.replace (wellFormed : workspace.WellFormed) (at_index : workspace.At index old)
    (grows : old.Grows entry) (tidy : entry.Tidy)
    (inRange : ∀ pair ∈ requested, pair ∈ workspace.requested ∨ pair.1 = index) :
    ({ workspace.setEntry index entry with requested } : Workspace).WellFormed where
  tidy other found at_other := by
    rcases (at_replace_iff at_index).1 at_other with ⟨_, rfl⟩ | ⟨_, elsewhere⟩
    · exact tidy
    · exact wellFormed.tidy other found elsewhere
  distinct first second one two at_first at_second same := by
    rcases (at_replace_iff at_index).1 at_first with ⟨rfl, rfl⟩ | ⟨apart, oldFirst⟩ <;>
      rcases (at_replace_iff at_index).1 at_second with ⟨rfl, rfl⟩ | ⟨aside, oldSecond⟩
    · rfl
    · exact wellFormed.distinct _ _ _ _ at_index oldSecond (grows.file ▸ same)
    · exact wellFormed.distinct _ _ _ _ oldFirst at_index (grows.file ▸ same)
    · exact wellFormed.distinct _ _ _ _ oldFirst oldSecond same
  requested pair member := by
    by_cases here : pair.1 = index
    · exact ⟨entry, (at_replace_iff at_index).2 (Or.inl ⟨here, rfl⟩)⟩
    · obtain ⟨found, at_pair⟩ := wellFormed.requested pair ((inRange pair member).resolve_right here)
      exact ⟨found, (at_replace_iff at_index).2 (Or.inr ⟨here, at_pair⟩)⟩

end Replace

section Look

variable {index : Nat} {entry : Entry}

/-- The visit that looking for some references in the file at `index` amounts to. -/
theorem fits_look (wellFormed : workspace.WellFormed) (at_index : workspace.At index entry)
    (outer : List OuterRef) :
    Visit.Fits index entry workspace.requested outer (workspace.look index entry outer).2 :=
  (Visit.Fits.start index workspace.requested (wellFormed.tidy index entry at_index)).lookForAll outer

theorem look_fst (workspace : Workspace) (index : Nat) (entry : Entry) (outer : List OuterRef) :
    (workspace.look index entry outer).1 =
      { workspace.setEntry index (workspace.look index entry outer).2.entry with
        requested := (workspace.look index entry outer).2.requested } := rfl

theorem requested_look (workspace : Workspace) (index : Nat) (entry : Entry) (outer : List OuterRef) :
    (workspace.look index entry outer).1.requested = addAllNew workspace.requested (outer.map (Prod.mk index)) :=
  Visit.requested_lookForAll ..

/-- Looking for references again in the same file does nothing. -/
theorem look_of_requested (at_index : workspace.At index entry) {outer : List OuterRef}
    (known : ∀ ref ∈ outer, (index, ref) ∈ workspace.requested) :
    workspace.look index entry outer = (workspace, ⟨entry, workspace.requested, [], []⟩) := by
  obtain ⟨bound, rfl⟩ := List.getElem?_eq_some_iff.1 at_index
  unfold look
  rw [Visit.lookForAll_of_requested known]
  simp [setEntry]

theorem at_look_iff (at_index : workspace.At index entry) {outer : List OuterRef} {other : Nat} {found : Entry} :
    (workspace.look index entry outer).1.At other found ↔
      other = index ∧ found = (workspace.look index entry outer).2.entry ∨
        other ≠ index ∧ workspace.At other found :=
  at_replace_iff at_index

theorem at_look_self (at_index : workspace.At index entry) (outer : List OuterRef) :
    (workspace.look index entry outer).1.At index (workspace.look index entry outer).2.entry :=
  (at_look_iff at_index).2 (Or.inl ⟨rfl, rfl⟩)

theorem grows_look (wellFormed : workspace.WellFormed) (at_index : workspace.At index entry)
    (outer : List OuterRef) : workspace.Grows (workspace.look index entry outer).1 := by
  have fits := fits_look wellFormed at_index outer
  rw [look_fst]
  exact grows_replace at_index fits.grows fun pair known => (fits.requested pair).2 (Or.inl known)

/-- All imports of the file are to be followed for the references that looking there gathers. -/
theorem follows_outside_look (wellFormed : workspace.WellFormed) (at_index : workspace.At index entry)
    {outer : List OuterRef} {ref : OuterRef} (member : ref ∈ (workspace.look index entry outer).2.outside) :
    (workspace.look index entry outer).1.Follows index ref false := by
  have fits := fits_look wellFormed at_index outer
  obtain ⟨id, included, leads⟩ := fits.outside ref member
  exact .message (at_look_self at_index outer) included (fits.grows.usesAt id ▸ leads)

/-- The imports that the file hands on are to be followed for the references that are not declared there. -/
theorem follows_unmatched_look (wellFormed : workspace.WellFormed) (at_index : workspace.At index entry)
    {outer : List OuterRef} {ref : OuterRef} (member : ref ∈ (workspace.look index entry outer).2.unmatched) :
    (workspace.look index entry outer).1.Follows index ref true := by
  have fits := fits_look wellFormed at_index outer
  obtain ⟨isOuter, missed⟩ := fits.unmatched ref member
  have noted := (fits.requested (index, ref)).2 (Or.inr ⟨rfl, isOuter⟩)
  exact .handedOn (at_look_self at_index outer) noted (fits.grows.file ▸ missed)

theorem WellFormed.look (wellFormed : workspace.WellFormed) (at_index : workspace.At index entry)
    (outer : List OuterRef) : (workspace.look index entry outer).1.WellFormed := by
  have fits := fits_look wellFormed at_index outer
  rw [look_fst]
  exact wellFormed.replace at_index fits.grows fits.tidy fun pair member =>
    ((fits.requested pair).1 member).imp_right And.left

end Look

theorem wellFormed_parsed {name : String} {source : Source} {file : File} (wellFormed : workspace.WellFormed)
    (missing : workspace.files.indexOf? name = none) (parsed : parse name source.text = .ok file) :
    (workspace.add (.ofFile file source.path source.text)).WellFormed :=
  wellFormed.add (.ofFile (parse_inOrder parsed) _ _) (by simpa [Entry.ofFile, parse_name parsed] using missing)

section Steps

variable {loader : Loader}

theorem Advance.grows (advance : Advance loader before after) (wellFormed : before.WellFormed) :
    before.Grows after := by
  cases advance with
  | asked => exact grows_log ..
  | loaded => exact grows_add ..
  | looked at_index _ => exact grows_look wellFormed at_index _

theorem Advance.wellFormed (advance : Advance loader before after) (wellFormed : before.WellFormed) :
    after.WellFormed := by
  cases advance with
  | asked => exact wellFormed_log wellFormed _
  | loaded _ _ missing _ parsed => exact wellFormed_parsed wellFormed missing parsed
  | looked at_index _ => exact wellFormed.look at_index _

theorem Step.grows (step : Step loader before after) (wellFormed : before.WellFormed) : before.Grows after := by
  cases step with
  | advance advance => exact advance.grows wellFormed
  | rootAsked => exact grows_log ..
  | rootLoaded => exact grows_add ..
  | rooted at_index => exact grows_root at_index

theorem Step.wellFormed (step : Step loader before after) (wellFormed : before.WellFormed) : after.WellFormed := by
  cases step with
  | advance advance => exact advance.wellFormed wellFormed
  | rootAsked => exact wellFormed_log wellFormed _
  | rootLoaded missing parsed => exact wellFormed_parsed wellFormed missing parsed
  | rooted at_index =>
    exact wellFormed.replace at_index (Entry.grows_asRoot _) (wellFormed.tidy _ _ at_index).asRoot fun _ => Or.inl

/-- References are noted behind those that have been noted before. -/
theorem Advance.requested_prefix (advance : Advance loader before after) : before.requested <+: after.requested := by
  cases advance with
  | asked | loaded => exact List.prefix_rfl
  | looked =>
    rw [requested_look]
    exact prefix_addAllNew _ _

/-- No reference is noted twice. -/
theorem Advance.requested_nodup (advance : Advance loader before after) (nodup : before.requested.Nodup) :
    after.requested.Nodup := by
  cases advance with
  | asked | loaded => exact nodup
  | looked =>
    rw [requested_look]
    exact nodup_addAllNew _ nodup

/-- Any number of steps of a search with a loader. -/
abbrev Steps (loader : Loader) : Workspace → Workspace → Prop :=
  Relation.ReflTransGen (Step loader)

/-- Any number of steps of following imports with a loader. -/
abbrev Advances (loader : Loader) : Workspace → Workspace → Prop :=
  Relation.ReflTransGen (Advance loader)

theorem Steps.wellFormed (steps : Steps loader before after) (wellFormed : before.WellFormed) :
    after.WellFormed := by
  induction steps with
  | refl => exact wellFormed
  | tail _ step ih => exact step.wellFormed ih

theorem Steps.grows (steps : Steps loader before after) (wellFormed : before.WellFormed) :
    before.Grows after := by
  induction steps with
  | refl => exact .refl _
  | tail earlier step ih => exact ih.trans (step.grows (Steps.wellFormed earlier wellFormed))

theorem Advances.steps (advances : Advances loader before after) : Steps loader before after :=
  Relation.ReflTransGen.mono (fun _ _ => Step.advance) _ _ advances

theorem Advances.wellFormed (advances : Advances loader before after) (wellFormed : before.WellFormed) :
    after.WellFormed :=
  Steps.wellFormed advances.steps wellFormed

theorem Advances.requested_length (advances : Advances loader before after) :
    before.requested.length ≤ after.requested.length := by
  induction advances with
  | refl => exact Nat.le_refl _
  | tail _ advance ih => exact Nat.le_trans ih advance.requested_prefix.length_le

theorem Advances.grows (advances : Advances loader before after) (wellFormed : before.WellFormed) :
    before.Grows after :=
  Steps.grows advances.steps wellFormed

end Steps

end Workspace

end ProtoSchema
