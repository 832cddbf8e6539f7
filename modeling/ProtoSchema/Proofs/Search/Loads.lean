import ProtoSchema.Proofs.FileSet.Leads
import ProtoSchema.Proofs.Search.Closure

namespace ProtoSchema

namespace Workspace

variable {loader : Loader} {roots more : String → Prop} {workspace before after : Workspace}

/-- Whether all files are those that a loader has, roots lead to each of them, and there are no other roots. -/
structure Loads (loader : Loader) (roots : String → Prop) (workspace : Workspace) : Prop where
  file : ∀ (index : Nat) (entry : Entry), workspace.At index entry → loader.file? entry.file.name = some entry.file
  needed : ∀ (index : Nat) (entry : Entry), workspace.At index entry → loader.Leads roots (.file entry.file.name)
  root : ∀ (index : Nat) (entry : Entry), workspace.At index entry → entry.isRoot = true → roots entry.file.name

/-- Whether roots lead to what a workspace may note, by the name of its file. -/
def LeadsTo (workspace : Workspace) (loader : Loader) (roots : String → Prop) : Need → Prop
  | .message index id => ∃ entry, workspace.At index entry ∧ loader.Leads roots (.decl entry.file.name (.message id))
  | .enum index id => ∃ entry, workspace.At index entry ∧ loader.Leads roots (.decl entry.file.name (.enum id))
  | .visit index outer => ∃ entry, workspace.At index entry ∧ loader.Leads roots (.visit entry.file.name outer)

theorem leadsTo_need_iff {index : Nat} {decl : DeclId} : workspace.LeadsTo loader roots (decl.need index) ↔
    ∃ entry, workspace.At index entry ∧ loader.Leads roots (.decl entry.file.name decl) := by
  cases decl <;> rfl

/-- What the root files need is what their names lead to. -/
theorem Loads.leadsTo (loads : workspace.Loads loader roots) {made : Nat → OuterRef → Prop} {need : Need}
    (needs : workspace.files.NeedsBy made need) : workspace.LeadsTo loader roots need := by
  have visit {index : Nat} {outer : OuterRef} {item : Import} (names : workspace.files.Names item index)
      (leads : loader.Leads roots (.visit item.path outer)) : workspace.LeadsTo loader roots (.visit index outer) := by
    obtain ⟨entry, at_index, named⟩ := names
    exact ⟨entry, at_index, named ▸ leads⟩
  induction needs with
  | rootMessage at_index root declared =>
    exact ⟨_, at_index, .rootDecl (loads.root _ _ at_index root) (loads.file _ _ at_index) ⟨_, declared⟩⟩
  | rootEnum at_index root declared =>
    exact ⟨_, at_index, .rootDecl (loads.root _ _ at_index root) (loads.file _ _ at_index) ⟨_, declared⟩⟩
  | rootVisit at_index root used outside imported names _ =>
    have outer := File.mem_outside_uses.2 ⟨_, used, outside, rfl⟩
    exact visit names (.rootVisit (loads.root _ _ at_index root) (loads.file _ _ at_index) outer imported)
  | found _ at_index means ih =>
    obtain ⟨entry, at_same, leads⟩ := ih
    obtain rfl := At.unique at_same at_index
    exact leadsTo_need_iff.2 ⟨_, at_index, .found leads (loads.file _ _ at_index) means⟩
  | handedOn _ at_index missed imported kind names _ ih =>
    obtain ⟨entry, at_same, leads⟩ := ih
    obtain rfl := At.unique at_same at_index
    exact visit names (.handedOn leads (loads.file _ _ at_index) missed imported kind)
  | refers _ at_index at_id used named means ih =>
    obtain ⟨entry, at_same, leads⟩ := ih
    obtain rfl := At.unique at_same at_index
    exact leadsTo_need_iff.2 ⟨_, at_index, .refers leads (loads.file _ _ at_index) at_id used named means⟩
  | refersOutside _ at_index at_id used outside imported names _ ih =>
    obtain ⟨entry, at_same, leads⟩ := ih
    obtain rfl := At.unique at_same at_index
    exact visit names (.refersOutside leads (loads.file _ _ at_index) at_id used outside imported)

/-- An import that is followed names a file in which roots lead to look for the reference. -/
theorem Loads.leads_of_follows {index : Nat} {outer : OuterRef} {handedOn : Bool} {item : Import}
    (loads : workspace.Loads loader roots) (gathered : Command.Gathered workspace)
    (follows : workspace.Follows index outer handedOn) (imported : item ∈ workspace.importsOf index handedOn) :
    loader.Leads roots (.visit item.path outer) := by
  cases follows with
  | root at_index root outside =>
    rw [importsOf_eq at_index] at imported
    exact .rootVisit (loads.root _ _ at_index root) (loads.file _ _ at_index) outside (List.mem_filter.1 imported).1
  | @message entry id at_index included outside =>
    obtain ⟨message, at_id⟩ := (gathered.wellFormed.tidy _ _ at_index).message_of_includes included
    rw [Entry.usesAt_eq at_id] at outside
    obtain ⟨ref, used, leads, rfl⟩ := File.mem_outside_uses.1 outside
    obtain ⟨same, at_same, leadsHere⟩ := loads.leadsTo (gathered.sound (.message index id) ⟨entry, at_index, included⟩)
    obtain rfl := at_same.unique at_index
    rw [importsOf_eq at_index] at imported
    exact .refersOutside leadsHere (loads.file _ _ at_index) at_id used leads (List.mem_filter.1 imported).1
  | @handedOn entry at_index requested missed =>
    obtain ⟨same, at_same, leads⟩ := loads.leadsTo (gathered.sound (.visit index outer) requested)
    obtain rfl := at_same.unique at_index
    rw [importsOf_eq at_index] at imported
    obtain ⟨stated, kind⟩ := List.mem_filter.1 imported
    exact .handedOn leads (loads.file _ _ at_index) missed stated (by simpa using kind)

theorem Loads.mono (loads : workspace.Loads loader roots) (weaker : ∀ name, roots name → more name) :
    workspace.Loads loader more where
  file := loads.file
  needed index entry at_index := (loads.needed index entry at_index).mono weaker
  root index entry at_index root := weaker _ (loads.root index entry at_index root)

theorem Loads.add {name : String} {source : Source} {file : File} (loads : workspace.Loads loader roots)
    (loaded : loader.load name = .ok source) (parsed : parse name source.text = .ok file)
    (needed : loader.Leads roots (.file name)) :
    (workspace.add (.ofFile file source.path source.text)).Loads loader roots := by
  have named : file.name = name := parse_name parsed
  refine ⟨?_, ?_, ?_⟩ <;> intro index entry at_index <;> rcases at_add_iff.1 at_index with ⟨_, rfl⟩ | old
  · show loader.file? file.name = some file
    rw [named, Loader.file?_eq_some loaded parsed]
  · exact loads.file index entry old
  · show loader.Leads roots (.file file.name)
    rwa [named]
  · exact loads.needed index entry old
  · simp [Entry.ofFile]
  · exact loads.root index entry old

theorem Loads.replace {index : Nat} {old entry : Entry} {requested : List (Nat × OuterRef)}
    (loads : workspace.Loads loader roots) (at_index : workspace.At index old) (same : entry.file = old.file)
    (root : entry.isRoot = true → roots old.file.name) :
    ({ workspace.setEntry index entry with requested } : Workspace).Loads loader roots := by
  refine ⟨?_, ?_, ?_⟩ <;> intro other found at_other <;>
    rcases (at_replace_iff at_index).1 at_other with ⟨_, rfl⟩ | ⟨_, elsewhere⟩
  · exact same ▸ loads.file index old at_index
  · exact loads.file other found elsewhere
  · exact same ▸ loads.needed index old at_index
  · exact loads.needed other found elsewhere
  · exact same ▸ root
  · exact loads.root other found elsewhere

theorem Advance.loads (advance : Advance loader before after) (gathered : Command.Gathered before)
    (loads : before.Loads loader roots) : after.Loads loader roots := by
  cases advance with
  | asked => exact ⟨loads.file, loads.needed, loads.root⟩
  | loaded follows imported _ loaded parsed =>
    exact loads.add loaded parsed (.visited (loads.leads_of_follows gathered follows imported))
  | @looked _ _ outer at_index _ =>
    have fits := fits_look gathered.wellFormed at_index outer
    exact loads.replace at_index fits.grows.file fun root => loads.root _ _ at_index (fits.isRoot ▸ root)

theorem Advances.loads (advances : Advances loader before after) (gathered : Command.Gathered before)
    (loads : before.Loads loader roots) : after.Loads loader roots := by
  induction advances with
  | refl => exact loads
  | tail earlier advance ih => exact advance.loads (gathered.steps (Advances.steps earlier)) ih

/-- A search is blocked by a file that roots lead to and the loader does not have. -/
theorem Loads.missing_of_blocked {halt : Halt} (loads : workspace.Loads loader roots)
    (gathered : Command.Gathered workspace) (blocked : Blocked loader workspace halt) :
    ∃ missing, loader.Leads roots (.file missing) ∧ loader.file? missing = none := by
  cases blocked with
  | unloadable _ follows imported _ loaded =>
    exact ⟨_, .visited (loads.leads_of_follows gathered follows imported), Loader.file?_eq_none_of_fault loaded⟩
  | malformed follows imported _ loaded parsed =>
    exact ⟨_, .visited (loads.leads_of_follows gathered follows imported), Loader.file?_eq_none_of_malformed loaded parsed⟩

/-- Whether a workspace holds a part that roots may lead to. -/
def Holds (workspace : Workspace) : Part → Prop
  | .file name => ∃ index entry, workspace.At index entry ∧ entry.file.name = name
  | .decl name decl => ∃ index entry, workspace.At index entry ∧ entry.file.name = name ∧ entry.Has decl
  | .visit name outer =>
    ∃ index entry, workspace.At index entry ∧ entry.file.name = name ∧ (index, outer) ∈ workspace.requested

theorem Answers.holds {item : Import} {outer : OuterRef} (answers : workspace.Answers item outer) :
    workspace.Holds (.visit item.path outer) := by
  obtain ⟨target, ⟨entry, at_target, named⟩, requested⟩ := answers
  exact ⟨target, entry, at_target, named, requested⟩

/-- What holds of a workspace to which some roots have been added, and nothing has failed. -/
structure Complete (loader : Loader) (roots : String → Prop) (workspace : Workspace) : Prop where
  gathered : Command.Gathered workspace
  loads : workspace.Loads loader roots
  followed : workspace.Followed fun _ _ _ => False
  rooted : ∀ name, roots name → workspace.Rooted name

theorem Complete.empty : Complete loader (fun _ => False) .empty where
  gathered := .empty
  loads := ⟨fun _ _ at_index => absurd at_index not_at_empty, fun _ _ at_index => absurd at_index not_at_empty,
    fun _ _ at_index => absurd at_index not_at_empty⟩
  followed := Command.followed_empty
  rooted _ := False.elim

theorem Complete.answers {index : Nat} {outer : OuterRef} {handedOn : Bool} {item : Import}
    (complete : Complete loader roots workspace) (follows : workspace.Follows index outer handedOn)
    (imported : item ∈ workspace.importsOf index handedOn) : workspace.Answers item outer :=
  (complete.followed index outer handedOn follows).resolve_left id item imported

/-- A name stands for one file: the one that the loader gives. -/
theorem Complete.file_eq {index : Nat} {entry : Entry} {file : File} (complete : Complete loader roots workspace)
    (at_index : workspace.At index entry) (loaded : loader.file? entry.file.name = some file) : entry.file = file :=
  Option.some.inj ((complete.loads.file index entry at_index).symm.trans loaded)

/-- All that the roots lead to is there. -/
theorem Complete.holds {part : Part} (complete : Complete loader roots workspace)
    (leads : loader.Leads roots part) : workspace.Holds part := by
  have settled := complete.gathered.settled
  induction leads with
  | root isRoot =>
    obtain ⟨index, entry, at_index, named, _⟩ := complete.rooted _ isRoot
    exact ⟨index, entry, at_index, named⟩
  | rootDecl isRoot loaded declared =>
    obtain ⟨index, entry, at_index, rfl, root, _⟩ := complete.rooted _ isRoot
    obtain rfl := complete.file_eq at_index loaded
    exact ⟨index, entry, at_index, rfl, settled.roots index entry _ at_index root declared⟩
  | rootVisit isRoot loaded outside imported =>
    obtain ⟨index, entry, at_index, rfl, _, answered⟩ := complete.rooted _ isRoot
    obtain rfl := complete.file_eq at_index loaded
    exact (answered _ imported _ outside).holds
  | visited _ ih =>
    obtain ⟨index, entry, at_index, named, _⟩ := ih
    exact ⟨index, entry, at_index, named⟩
  | found _ loaded means ih =>
    obtain ⟨index, entry, at_index, rfl, requested⟩ := ih
    obtain rfl := complete.file_eq at_index loaded
    exact ⟨index, entry, at_index, rfl, settled.visits index entry _ _ at_index requested means⟩
  | handedOn _ loaded missed imported kind ih =>
    obtain ⟨index, entry, at_index, rfl, requested⟩ := ih
    obtain rfl := complete.file_eq at_index loaded
    refine (complete.answers (.handedOn at_index requested missed) ?_).holds
    simp [importsOf_eq at_index, imported, kind]
  | @refers _ _ id _ _ decl _ loaded at_id used named means ih =>
    obtain ⟨index, entry, at_index, rfl, included⟩ := ih
    obtain rfl := complete.file_eq at_index loaded
    obtain ⟨messages, enums⟩ := settled.messages index entry at_index id included
    rw [Entry.usesAt_eq at_id] at messages enums
    refine ⟨index, entry, at_index, rfl, ?_⟩
    cases decl with
    | message other => exact messages other (File.mem_messages_uses.2 ⟨_, used, named, means⟩)
    | enum other => exact enums other (File.mem_enums_uses.2 ⟨_, used, named, means⟩)
  | refersOutside _ loaded at_id used outside imported ih =>
    obtain ⟨index, entry, at_index, rfl, included⟩ := ih
    obtain rfl := complete.file_eq at_index loaded
    have outer := File.mem_outside_uses.2 ⟨_, used, outside, rfl⟩
    rw [← Entry.usesAt_eq at_id] at outer
    refine (complete.answers (.message at_index included outer) ?_).holds
    simpa [importsOf_eq at_index] using imported

/-- A declaration is needed just if the roots lead to it. -/
theorem Complete.has_iff {index : Nat} {entry : Entry} {decl : DeclId} (complete : Complete loader roots workspace)
    (at_index : workspace.At index entry) : entry.Has decl ↔ loader.Leads roots (.decl entry.file.name decl) := by
  constructor
  · intro has
    obtain ⟨same, at_same, leads⟩ := leadsTo_need_iff.1 (complete.loads.leadsTo (complete.gathered.sound.needs at_index has))
    exact at_same.unique at_index ▸ leads
  · intro leads
    obtain ⟨other, found, at_other, named, has⟩ := complete.holds leads
    obtain rfl := complete.gathered.wellFormed.distinct _ _ _ _ at_other at_index named
    exact at_other.unique at_index ▸ has

end Workspace

end ProtoSchema
