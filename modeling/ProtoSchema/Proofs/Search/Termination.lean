import ProtoSchema.Proofs.Search.Deeds

namespace ProtoSchema

/-- The references that are resolved and the messages that are walked through by some events. -/
def deedsOf (events : List (Workspace × Event)) : List Need :=
  events.flatMap fun row => row.2.deeds

/-- A visit that meets nothing new does nothing. -/
theorem Recording.deedsOf_lookIn_of_requested {workspace : Workspace} {index : Nat} {entry : Entry}
    {outer : List OuterRef} (loader : Loader) (depth source : Nat) (item : Import) (at_index : workspace.At index entry)
    (known : ∀ ref ∈ outer, (index, ref) ∈ workspace.requested) :
    deedsOf ((lookIn loader (depth + 1) source item index outer).events workspace) = [] := by
  have remembers : (Record.of workspace).at? index = some (entry, entry.file.memo) := by
    have entry? : workspace.entry? index = some entry := at_index
    have memo? : (Record.of workspace).memos[index]? = some entry.file.memo :=
      List.getElem?_map.trans (congrArg _ entry?)
    rw [Record.at?, show (Record.of workspace).workspace = workspace from rfl, entry?, memo?]
  have same : (Looking.start entry workspace.requested entry.file.memo).lookForAll index outer =
      .start entry workspace.requested entry.file.memo := Looking.lookForAll_of_requested known
  have ran : lookIn loader (depth + 1) source item index outer (.of workspace) =
      .ok () (((((Record.of workspace).add (.read index)).add
        (.visited source item index (.start entry workspace.requested entry.file.memo))).add (.read index)).add
          (.read index)) := by
    simp only [lookIn, read_bind, visit_bind, remembers]
    rw [show ((Record.of workspace).add (.read index)).workspace = workspace from rfl, same]
    rfl
  rw [events, run, ran]
  rfl

namespace Workspace.Command

/-- What a command does. -/
def deeds (workspace : Workspace) (command : Command) : List Need :=
  deedsOf (command.events workspace)

/-- What some commands do, one after another, whether they succeed or fail. -/
def allDeeds (workspace : Workspace) (commands : List Command) : List Need :=
  deedsOf (allEvents workspace commands)

theorem accounts_runAll {workspace : Workspace} (firm : workspace.Firm) (commands : List Command) :
    workspace.Accounts (allDeeds workspace commands) (runAll workspace commands) :=
  collect_runAll _ (fun _ firm => .refl firm.wellFormed) .trans firm commands
    fun _ _ _ happens firm => happens.accounts firm.wellFormed

theorem run_ne_tooDeep {workspace : Workspace} (gathered : Gathered workspace) (command : Command) :
    (command.run workspace).1 ≠ .error .tooDeep := by
  rcases command.run_traced gathered with ⟨pattern, rfl⟩ | ⟨_, _, _, _, ends, _⟩
  · simp [run]
  · exact ends

theorem not_notes_empty {need : Need} : ¬Workspace.empty.Notes need := by
  intro notes
  cases need with
  | message | enum =>
    obtain ⟨_, at_index, _⟩ := notes
    exact not_at_empty at_index
  | visit => simp [Notes, Workspace.empty] at notes

/-- Whatever has been done before, a command comes to an end of its own, at a depth that is never used up. In
the whole life of a workspace each reference is resolved once in each file in which it has been looked for,
each message is walked through at most once, and of files that are no roots just those that are included. A
visit that meets nothing new changes nothing, asks the loader for nothing and visits no other file, as it
comes to the same end when there is no depth left for a further one. -/
theorem run_terminates (commands : List Command) (command : Command) :
    (command.run (runAll .empty commands)).1 ≠ .error .tooDeep ∧
      (allDeeds .empty commands).Nodup ∧
      (∀ index outer, Need.visit index outer ∈ allDeeds .empty commands ↔
        (index, outer) ∈ (runAll .empty commands).requested) ∧
      (∀ index entry id, (runAll .empty commands).At index entry → entry.isRoot = false →
        (Need.message index id ∈ allDeeds .empty commands ↔ entry.includes id = true)) ∧
      ∀ loader depth source item index entry outer (workspace : Workspace), workspace.At index entry →
        (∀ ref ∈ outer, (index, ref) ∈ workspace.requested) →
        Search.lookIn loader (depth + 1) index outer workspace = .ok () workspace ∧
          deedsOf ((Recording.lookIn loader (depth + 1) source item index outer).events workspace) = [] := by
  have life := accounts_runAll Gathered.empty.firm commands
  refine ⟨run_ne_tooDeep (Gathered.empty.runAll commands) command, life.once, ?_, ?_, ?_⟩
  · intro index outer
    refine ⟨life.noted (.visit index outer), fun requested => ?_⟩
    rcases life.all (.visit index outer) requested with before | done | spared
    · exact absurd before not_notes_empty
    · exact done
    · exact spared.elim
  · intro index entry id at_index imported
    constructor
    · intro done
      obtain ⟨found, at_found, included⟩ := life.noted _ done
      exact at_index.unique at_found ▸ included
    · intro included
      rcases life.all (.message index id) ⟨entry, at_index, included⟩ with before | done | ⟨found, at_found, root⟩
      · exact absurd before not_notes_empty
      · exact done
      · rw [at_index.unique at_found, root] at imported
        contradiction
  · intro loader depth source item index entry outer workspace at_index known
    exact ⟨Search.lookIn_of_requested loader depth at_index known,
      Recording.deedsOf_lookIn_of_requested loader depth source item at_index known⟩

/-- A root file that imports two files which hand on each other, and refers to a type that nobody declares. -/
def circular : Command :=
  .addRootText
    (.ofFiles [] [("a.proto", .ok "import public \"b.proto\"; message M { Nowhere n = 1; }"),
      ("b.proto", .ok "import public \"a.proto\"; import public \"b.proto\";")] (Snapshot.disk []))
    "root.proto" "import \"a.proto\"; message R { M m = 1; }"

/-- The message is walked through once, and each file is visited once for each of the two references. -/
theorem circular_terminates :
    (circular.run (runAll .empty [circular])).1 ≠ .error .tooDeep ∧ (allDeeds .empty [circular]).Nodup ∧
      allDeeds .empty [circular] =
        [.visit 1 ⟨["M"]⟩, .message 1 ⟨0⟩, .visit 2 ⟨["Nowhere"]⟩, .visit 1 ⟨["Nowhere"]⟩] ∧
      ∀ loader depth,
        Search.lookIn loader (depth + 1) 1 [⟨["Nowhere"]⟩] (runAll .empty [circular]) = .ok () (runAll .empty [circular]) := by
  obtain ⟨ends, once, _, _, again⟩ := run_terminates [circular] circular
  have ran : allDeeds .empty [circular] =
        [.visit 1 ⟨["M"]⟩, .message 1 ⟨0⟩, .visit 2 ⟨["Nowhere"]⟩, .visit 1 ⟨["Nowhere"]⟩] ∧
      (Workspace.entry? (runAll .empty [circular]) 1).isSome ∧
      (1, ⟨["Nowhere"]⟩) ∈ (runAll .empty [circular]).requested := by decide +kernel
  obtain ⟨deeds, there, known⟩ := ran
  refine ⟨ends, once, deeds, fun loader depth => ?_⟩
  obtain ⟨entry, at_index⟩ := Option.isSome_iff_exists.1 there
  exact (again loader depth 0 ⟨"a.proto", .plain, 1, ⟨0, 0⟩⟩ 1 entry _ _ at_index (by simpa using known)).1

end Workspace.Command

end ProtoSchema
