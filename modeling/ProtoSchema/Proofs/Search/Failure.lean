import ProtoSchema.Proofs.Search.Closure

namespace ProtoSchema.Workspace

/-- Whether the imports of a file are to be followed for a reference and some of them has not been. A search notes a
reference before it looks for it, so what it leaves open when it stops early is not taken up again. -/
def Open (workspace : Workspace) (index : Nat) (outer : OuterRef) (handedOn : Bool) : Prop :=
  workspace.Follows index outer handedOn ∧
    ∃ item ∈ workspace.importsOf index handedOn, ¬workspace.Answers item outer

theorem followed_open (workspace : Workspace) : workspace.Followed workspace.Open := by
  intro index outer handedOn follows
  by_cases answered : ∀ item ∈ workspace.importsOf index handedOn, workspace.Answers item outer
  · exact Or.inr answered
  · exact Or.inl ⟨follows, by simpa only [not_forall, exists_prop] using answered⟩

theorem Followed.of_open {workspace : Workspace} {pending : Nat → OuterRef → Bool → Prop} {index : Nat}
    {outer : OuterRef} {handedOn : Bool} (followed : workspace.Followed pending)
    (isOpen : workspace.Open index outer handedOn) : pending index outer handedOn := by
  obtain ⟨follows, item, imported, unanswered⟩ := isOpen
  rcases followed index outer handedOn follows with waits | answered
  · exact waits
  · exact absurd (answered item imported) unanswered

namespace Command

/-- Whatever has been done before, a command that adds a root and succeeds has looked in all imports of the
root for what the root itself refers to outside, and it leaves nothing open that was not open before. Nothing
at all is open when no command before it has failed. -/
theorem open_of_success (commands : List Command) {command : Command} {name : String}
    (adds : command.rootName? = some name) (ok : (command.run (runAll .empty commands)).1 = .ok ()) :
    (command.run (runAll .empty commands)).2.Rooted name ∧
      (∀ index outer handedOn, (command.run (runAll .empty commands)).2.Open index outer handedOn →
        (runAll .empty commands).Open index outer handedOn) ∧
      (Succeed .empty commands →
        ∀ index outer handedOn, ¬(command.run (runAll .empty commands)).2.Open index outer handedOn) := by
  have gathered := Gathered.empty.runAll commands
  refine ⟨?_, ?_, ?_⟩
  · rcases command.run_traced gathered with ⟨pattern, rfl⟩ | ⟨loader, _, same, _, _, traced⟩
    · contradiction
    · obtain rfl := Option.some.inj (same.symm.trans adds)
      exact (traced ok).2
  · intro index outer handedOn
    exact (followed_run gathered ok (followed_open _)).of_open
  · intro succeed index outer handedOn
    have closed : (runAll .empty commands).Followed fun _ _ _ => False :=
      followed_runAll Gathered.empty succeed followed_empty
    exact (followed_run gathered ok closed).of_open

/-- A root file that needs a message of a file with an import that is not there. -/
def blockedBelow : Command :=
  .addRootText (.ofFiles [] [("b.proto", .ok "import \"missing.proto\"; message M { Y y = 1; }")] (Snapshot.disk []))
    "root.proto" "import \"b.proto\"; message R { M m = 1; }"

/-- The root file itself is closed after a second attempt, and what is open was open after the first. -/
theorem open_blockedBelow :
    (blockedBelow.run (blockedBelow.run .empty).2).2.Rooted "root.proto" ∧
      ∀ index outer handedOn, (blockedBelow.run (blockedBelow.run .empty).2).2.Open index outer handedOn →
        (blockedBelow.run .empty).2.Open index outer handedOn := by
  have adds : blockedBelow.rootName? = some "root.proto" := rfl
  have ok : (blockedBelow.run (runAll .empty [blockedBelow])).1 = .ok () := by decide +kernel
  obtain ⟨rooted, opens, _⟩ := open_of_success [blockedBelow] adds ok
  exact ⟨rooted, opens⟩

/-- The first attempt fails at the missing file and the second one succeeds, although the message that leads
to that file is included and the file is not there to be looked in. -/
theorem blockedBelow_succeeds_again :
    (∃ error, (blockedBelow.run .empty).1 = .error (.failed error)) ∧
      (blockedBelow.run (blockedBelow.run .empty).2).1 = .ok () ∧
      (blockedBelow.run (blockedBelow.run .empty).2).2.Notes (.message 1 ⟨0⟩) ∧
      (blockedBelow.run (blockedBelow.run .empty).2).2.Open 1 ⟨["Y"]⟩ false := by
  have ran : (blockedBelow.run .empty).1 = .error (.failed (.missingImport "missing.proto" "b.proto"
        "import \"missing.proto\"; message M { Y y = 1; }" ⟨"missing.proto", .plain, 1, ⟨0, 22⟩⟩)) ∧
      (blockedBelow.run (blockedBelow.run .empty).2).1 = .ok () ∧
      (blockedBelow.run (blockedBelow.run .empty).2).2.Notes (.message 1 ⟨0⟩) ∧
      (blockedBelow.run (blockedBelow.run .empty).2).2.files.indexOf? "missing.proto" = none ∧
      (blockedBelow.run (blockedBelow.run .empty).2).2.importsOf 1 false =
        [⟨"missing.proto", .plain, 1, ⟨0, 22⟩⟩] ∧
      (Workspace.entry? (blockedBelow.run (blockedBelow.run .empty).2).2 1).map
        (fun entry => (entry.usesAt ⟨0⟩).outside) = some [⟨["Y"]⟩] := by decide +kernel
  obtain ⟨fails, succeeds, notes, absent, imports, leads⟩ := ran
  refine ⟨⟨_, fails⟩, succeeds, notes, ?_⟩
  obtain ⟨entry, at_index, included⟩ := notes
  rw [show entry? _ 1 = some entry from at_index, Option.map_some] at leads
  refine ⟨.message at_index included (by simp [Option.some.inj leads]), _, imports ▸ List.mem_singleton_self _, ?_⟩
  rintro ⟨target, ⟨found, at_target, named⟩, _⟩
  exact name_ne_of_indexOf? absent at_target named

end Command

end ProtoSchema.Workspace
