import ProtoSchema.Search

namespace ProtoSchema.Search

variable {α β : Type} {workspace : Workspace} {done : α → Workspace → Prop} {halted : Halt → Workspace → Prop}

/-- A search from `workspace` makes `done` hold of its answer and the workspace that it leaves, or `halted` of
the reason for which it stops and that workspace. -/
def Ensures (search : Search α) (workspace : Workspace) (done : α → Workspace → Prop)
    (halted : Halt → Workspace → Prop) : Prop :=
  match search workspace with
  | .ok answer after => done answer after
  | .error halt after => halted halt after

theorem Ensures.mono {search : Search α} {more : α → Workspace → Prop} {moreHalted : Halt → Workspace → Prop}
    (ensures : search.Ensures workspace done halted) (weaker : ∀ answer after, done answer after → more answer after)
    (weakerHalted : ∀ halt after, halted halt after → moreHalted halt after) :
    search.Ensures workspace more moreHalted := by
  unfold Ensures at *
  split <;> rename_i ran <;> rw [ran] at ensures
  · exact weaker _ _ ensures
  · exact weakerHalted _ _ ensures

theorem Ensures.and {search : Search α} {more : α → Workspace → Prop} {moreHalted : Halt → Workspace → Prop}
    (one : search.Ensures workspace done halted) (other : search.Ensures workspace more moreHalted) :
    search.Ensures workspace (fun answer after => done answer after ∧ more answer after)
      (fun halt after => halted halt after ∧ moreHalted halt after) := by
  unfold Ensures at *
  split <;> rename_i ran <;> rw [ran] at one other <;> exact ⟨one, other⟩

@[simp] theorem ensures_pure (answer : α) :
    Ensures (pure answer) workspace done halted ↔ done answer workspace := Iff.rfl

@[simp] theorem ensures_bind (search : Search β) (next : β → Search α) :
    Ensures (search >>= next) workspace done halted ↔
      search.Ensures workspace (fun answer after => (next answer).Ensures after done halted) halted := by
  simp only [Ensures, bind, EStateM.bind]
  cases search workspace <;> rfl

@[simp] theorem ensures_get {done : Workspace → Workspace → Prop} :
    Ensures get workspace done halted ↔ done workspace workspace := Iff.rfl

@[simp] theorem ensures_set (later : Workspace) {done : Unit → Workspace → Prop} :
    Ensures (set later) workspace done halted ↔ done () later := Iff.rfl

@[simp] theorem ensures_modify (change : Workspace → Workspace) {done : Unit → Workspace → Prop} :
    Ensures (modify change) workspace done halted ↔ done () (change workspace) := Iff.rfl

@[simp] theorem ensures_throw (halt : Halt) :
    Ensures (throw halt : Search α) workspace done halted ↔ halted halt workspace := Iff.rfl

@[simp] theorem ensures_fail (error : ImportError) :
    Ensures (fail error : Search α) workspace done halted ↔ halted (.failed error) workspace := Iff.rfl

theorem Ensures.run {search : Search Unit} {done : Workspace → Prop} {halted : Halt → Workspace → Prop}
    (ensures : search.Ensures workspace (fun _ => done) halted) :
    match Search.run search workspace with
    | (.ok _, after) => done after
    | (.error halt, after) => halted halt after := by
  unfold Ensures at ensures
  unfold Search.run
  split at ensures <;> rename_i ran <;> rw [ran] <;> exact ensures

theorem Ensures.of_run_error {search : Search Unit} {done : Unit → Workspace → Prop} {halted : Halt → Workspace → Prop}
    {halt : Halt} (ensures : search.Ensures workspace done halted) (stops : (search.run workspace).1 = .error halt) :
    halted halt (search.run workspace).2 := by
  unfold Ensures at ensures
  unfold Search.run at stops ⊢
  split at ensures <;> rename_i ran <;> rw [ran] at stops ⊢ <;> cases stops
  exact ensures

section Apply

variable (workspace)

theorem get_bind (next : Workspace → Search α) : (get >>= next) workspace = next workspace workspace := rfl

theorem set_bind (later : Workspace) (next : Unit → Search α) : (set later >>= next) workspace = next () later := rfl

variable {workspace}

theorem bind_of_ok {search : Search β} {answer : β} {later : Workspace} (ran : search workspace = .ok answer later)
    (next : β → Search α) : (search >>= next) workspace = next answer later := by
  simp only [bind, EStateM.bind, ran]

end Apply

end ProtoSchema.Search
