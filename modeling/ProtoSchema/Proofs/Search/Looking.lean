import ProtoSchema.Proofs.File.Memory
import ProtoSchema.Proofs.Search.Visit

namespace ProtoSchema

/-- What some references lead to, when it is known what each of them means. -/
def File.usesOf (file : File) (found : List (TypeRef × Meaning)) : Uses where
  messages := found.filterMap fun row => row.2.bind DeclId.message?
  enums := found.filterMap fun row => row.2.bind DeclId.enum?
  outside := (found.filter fun row => row.2.isNone).map fun row => OuterRef.ofRef file row.1

namespace Memo

/-- Looks up some references, all but the scalar ones. -/
def lookUp (file : File) : Memo → List (TypeRef × Meaning) × Memo
  | [] => ([], [])
  | cell :: rest =>
    if cell.ref.isScalar then (lookUp file rest).map id (cell :: ·)
    else (lookUp file rest).map ((cell.ref, (cell.resolve file).1) :: ·) ((cell.resolve file).2 :: ·)

/-- What `count` references lead to from a place on. -/
def uses (memo : Memo) (file : File) (start count : Nat) : Uses × Memo :=
  let (found, looked) := lookUp file ((memo.drop start).take count)
  (file.usesOf found, memo.take start ++ looked ++ memo.drop (start + count))

/-- Whether a list has the references of a file, and each remembers what it means there if it remembers anything. -/
structure Recalls (memo : Memo) (file : File) : Prop where
  refs : memo.map MemoRef.ref = file.types
  right : ∀ cell ∈ memo, ∀ meaning, cell.known = some meaning → meaning = cell.ref.resolve file

variable {memo : Memo} {file : File}

theorem Recalls.fresh (file : File) : file.memo.Recalls file where
  refs := by
    rw [File.memo, List.map_map]
    exact List.map_id' _
  right cell member meaning known := by
    obtain ⟨ref, -, rfl⟩ := List.mem_map.1 member
    cases known

theorem resolve_of_right {cell : MemoRef}
    (right : ∀ meaning, cell.known = some meaning → meaning = cell.ref.resolve file) :
    cell.resolve file = (cell.ref.resolve file, ⟨cell.ref, some (cell.ref.resolve file)⟩) := by
  obtain ⟨ref, known⟩ := cell
  cases known with
  | none => rfl
  | some known => simp [MemoRef.resolve, right known rfl]

/-- References that remember nothing wrong are found to mean what they mean, and remember nothing wrong after that. -/
theorem lookUp_spec (right : ∀ cell ∈ memo, ∀ meaning, cell.known = some meaning → meaning = cell.ref.resolve file) :
    (lookUp file memo).1 =
        ((memo.map MemoRef.ref).filter fun ref => !ref.isScalar).map (fun ref => (ref, ref.resolve file)) ∧
      (lookUp file memo).2.map MemoRef.ref = memo.map MemoRef.ref ∧
      ∀ cell ∈ (lookUp file memo).2, ∀ meaning, cell.known = some meaning → meaning = cell.ref.resolve file := by
  induction memo with
  | nil => exact ⟨rfl, rfl, nofun⟩
  | cons cell rest ih =>
    obtain ⟨here, later⟩ := List.forall_mem_cons.1 right
    obtain ⟨found, refs, right⟩ := ih later
    rw [lookUp]
    split
    next scalar => exact ⟨by simp [found, scalar], by simp [refs], List.forall_mem_cons.2 ⟨here, right⟩⟩
    next named =>
      rw [resolve_of_right here]
      refine ⟨by simp [found, named], by simp [refs], List.forall_mem_cons.2 ⟨?_, right⟩⟩
      rintro _ ⟨⟩
      rfl

theorem usesOf_named (refs : List TypeRef) :
    file.usesOf ((refs.filter fun ref => !ref.isScalar).map fun ref => (ref, ref.resolve file)) = file.uses refs := by
  simp only [File.usesOf, File.uses, List.filterMap_map, List.filter_map, List.map_map, Function.comp_def]

/-- Looking up references that remember nothing wrong is looking them up afresh. -/
theorem Recalls.uses (recalls : memo.Recalls file) (start count : Nat) :
    (memo.uses file start count).1 = file.uses ((file.types.drop start).take count) ∧
      (memo.uses file start count).2.Recalls file := by
  have inside : ∀ cell ∈ (memo.drop start).take count, cell ∈ memo :=
    fun cell member => List.mem_of_mem_drop (List.mem_of_mem_take member)
  obtain ⟨found, refs, right⟩ := lookUp_spec fun cell member => recalls.right cell (inside cell member)
  refine ⟨?_, ⟨?_, fun cell member => ?_⟩⟩
  · simp only [Memo.uses, found, usesOf_named, List.map_take, List.map_drop, recalls.refs]
  · simp only [Memo.uses, List.map_append, refs]
    rw [← List.map_append, ← List.map_append, List.append_assoc, ← List.drop_drop, List.take_append_drop,
      List.take_append_drop, recalls.refs]
  · simp only [Memo.uses, List.mem_append] at member
    rcases member with (before | looked) | after
    · exact recalls.right cell (List.mem_of_mem_take before)
    · exact right cell looked
    · exact recalls.right cell (List.mem_of_mem_drop after)

end Memo

/-- A declaration that a visit comes to in its file: a message that it passes as it has been included, a message that
it walks through, or an enum that it reaches. -/
inductive Encounter
  | passed (id : MessageId)
  | walked (id : MessageId)
  | reached (id : EnumId)

namespace Encounter

def decl : Encounter → DeclId
  | .passed id | .walked id => .message id
  | .reached id => .enum id

def walked? : Encounter → Option MessageId
  | .walked id => some id
  | .passed _ | .reached _ => none

@[simp] theorem walked?_passed (id : MessageId) : (passed id).walked? = none := rfl

@[simp] theorem walked?_walked (id : MessageId) : (walked id).walked? = some id := rfl

@[simp] theorem walked?_reached (id : EnumId) : (reached id).walked? = none := rfl

end Encounter

/-- What gathering leaves: the record of the file, what is referred to outside it, what the references of the file
remember, and what has been come to, the first one first. -/
structure Gathering where
  entry : Entry
  outside : List OuterRef
  memo : Memo
  met : List Encounter

namespace Entry

/-- What the message at a place of the table leads to, by what its references remember. -/
def usesRecalled (entry : Entry) (memo : Memo) (id : MessageId) : Uses × Memo :=
  memo.uses entry.file ((entry.file.messageTable.take id.index).flatMap Message.types).length
    ((entry.file.message? id).map Message.types |>.getD []).length

def gatherRecalled (entry : Entry) (memo : Memo) (outside : List OuterRef) (stack : List MessageId) : Gathering :=
  match _found : stack.dropWhile fun id => !entry.lacks id with
  | [] => ⟨entry, outside, memo, stack.map .passed⟩
  | id :: rest =>
    let (uses, memo) := entry.usesRecalled memo id
    let later :=
      (entry.includeOne id uses).gatherRecalled memo (addAllNew outside uses.outside) (uses.messages.reverse ++ rest)
    { later with
      met := (stack.takeWhile fun id => !entry.lacks id).map .passed ++ .walked id :: uses.enums.map .reached ++ later.met }
termination_by entry.messageFlags.count false
decreasing_by exact count_includeOne_lt _ _found

variable {entry : Entry} {memo : Memo} {outside : List OuterRef} {stack : List MessageId}

/-- The references of the message at a place of the table, among those of the file. -/
theorem types_at (file : File) (id : MessageId) :
    (file.types.drop ((file.messageTable.take id.index).flatMap Message.types).length).take
        ((file.message? id).map Message.types |>.getD []).length =
      ((file.message? id).map Message.types |>.getD []) := by
  cases at_id : file.message? id with
  | none => simp
  | some message =>
    obtain ⟨inside, rfl⟩ := List.getElem?_eq_some_iff.1 at_id
    have split : file.types = (file.messageTable.take id.index).flatMap Message.types ++
        (file.messageTable[id.index].types ++ ((file.messageTable.drop (id.index + 1)).flatMap Message.types ++
          file.extensions.flatMap Extension.types ++ file.services.flatMap Service.types)) := by
      have table := List.take_append_drop id.index file.messageTable
      rw [List.drop_eq_getElem_cons inside] at table
      conv_lhs => rw [File.types, ← table, List.flatMap_append, List.flatMap_cons]
      simp only [List.append_assoc]
    rw [split, List.drop_left, Option.map_some, Option.getD_some, List.take_left]

theorem usesRecalled_spec (recalls : memo.Recalls entry.file) (id : MessageId) :
    (entry.usesRecalled memo id).1 = entry.usesAt id ∧ (entry.usesRecalled memo id).2.Recalls entry.file := by
  have looked := recalls.uses ((entry.file.messageTable.take id.index).flatMap Message.types).length
    ((entry.file.message? id).map Message.types |>.getD []).length
  rwa [types_at] at looked

theorem file_includeOne (entry : Entry) (id : MessageId) (uses : Uses) : (entry.includeOne id uses).file = entry.file :=
  (grows_foldl_reach { entry with messageFlags := entry.messageFlags.set id.index true } uses.enums).file

/-- Whether gathering by what references remember has done what gathering does. No message is walked through that has
been included or walked through, and each is included then; what is come to is declared in the file. -/
structure Gathers (entry : Entry) (outside : List OuterRef) (stack : List MessageId) (done : Gathering) : Prop where
  same : entry.gather outside stack = (done.entry, done.outside)
  recalls : done.memo.Recalls entry.file
  once : (done.met.filterMap Encounter.walked?).Nodup
  fresh : ∀ id ∈ done.met.filterMap Encounter.walked?, entry.includes id = false
  included : ∀ id, done.entry.includes id = true ↔
    entry.includes id = true ∨ id ∈ done.met.filterMap Encounter.walked?
  declared : entry.file.InOrder → (∀ id ∈ stack, entry.file.Declares (.message id)) →
    ∀ met ∈ done.met, entry.file.Declares met.decl

theorem gathers_gatherRecalled (recalls : memo.Recalls entry.file) :
    entry.Gathers outside stack (entry.gatherRecalled memo outside stack) := by
  fun_induction gatherRecalled entry memo outside stack with
  | case1 entry memo outside stack found =>
    refine ⟨?_, recalls, by simp [Function.comp_def], by simp, by simp, fun _ start met member => ?_⟩
    · unfold gather
      split
      next => rfl
      next found' => simp [found] at found'
    · obtain ⟨id, stacked, rfl⟩ := List.mem_map.1 member
      exact start id stacked
  | case2 entry memo outside stack id rest found uses memo' looked later ih =>
    obtain ⟨same, kept⟩ := usesRecalled_spec recalls id
    rw [looked] at same kept
    obtain rfl : uses = entry.usesAt id := same
    have file := entry.file_includeOne id (entry.usesAt id)
    have lacking : entry.lacks id = true := by
      simpa [found] using List.head?_dropWhile_not (fun id => !entry.lacks id) stack
    have here := entry.includes_includeOne (entry.usesAt id) (entry.lacks_lt lacking)
    obtain ⟨gathered, recallsLater, once, fresh, included, declared⟩ := ih (file ▸ kept)
    rw [file] at recallsLater declared
    have walked : ((stack.takeWhile fun id => !entry.lacks id).map Encounter.passed ++
        Encounter.walked id :: (entry.usesAt id).enums.map Encounter.reached ++ later.met).filterMap Encounter.walked? =
          id :: later.met.filterMap Encounter.walked? := by
      simp [Function.comp_def]
    refine ⟨?_, recallsLater, ?_, ?_, ?_, ?_⟩
    · rw [← gathered]
      conv_lhs => unfold gather
      split
      next found' => simp [found] at found'
      next id' rest' found' =>
        obtain ⟨rfl, rfl⟩ := List.cons.inj (found.symm.trans found')
        rfl
    · rw [walked]
      refine List.nodup_cons.2 ⟨fun again => ?_, once⟩
      have now := (here id).2 (Or.inr rfl)
      rw [fresh id again] at now
      contradiction
    · rw [walked]
      intro other member
      rcases List.mem_cons.1 member with rfl | later
      · simp_all [lacks, includes]
      · have missing := fresh other later
        rw [← Bool.not_eq_true, here other] at missing
        exact Bool.not_eq_true _ ▸ fun old => missing (Or.inl old)
    · intro other
      rw [walked, included other, here other, List.mem_cons, or_assoc]
    · intro ordered start met member
      obtain ⟨messages, enums⟩ := declares_usesAt ordered id
      have suffix := (List.dropWhile_suffix (fun id => !entry.lacks id) (l := stack)).subset
      rw [found] at suffix
      rcases List.mem_append.1 member with now | later
      · rcases List.mem_append.1 now with skipped | reached
        · obtain ⟨other, taken, rfl⟩ := List.mem_map.1 skipped
          exact start other ((List.takeWhile_prefix _).subset taken)
        · rcases List.mem_cons.1 reached with rfl | isEnum
          · exact start id (suffix (List.mem_cons_self ..))
          · obtain ⟨other, used, rfl⟩ := List.mem_map.1 isEnum
            exact enums other used
      · refine declared ordered (fun other member => ?_) met later
        rcases List.mem_append.1 member with used | old
        · exact messages other (List.mem_reverse.1 used)
        · exact start other (suffix (List.mem_cons_of_mem _ old))

end Entry

/-- A visit with what the references of its file remember, and each reference that it has resolved, with what it has
come to for it. -/
structure Looking where
  visit : Visit
  memo : Memo
  trail : List (OuterRef × List Encounter)

namespace Looking

def start (entry : Entry) (requested : List (Nat × OuterRef)) (memo : Memo) : Looking :=
  ⟨⟨entry, requested, [], []⟩, memo, []⟩

/-- Looks for one reference in the file at `index`, by what the references of the file remember. -/
def lookFor (index : Nat) (looking : Looking) (outer : OuterRef) : Looking :=
  let ⟨visit, memo, trail⟩ := looking
  if visit.requested.contains (index, outer) then looking
  else
    let visit := { visit with requested := visit.requested ++ [(index, outer)] }
    match outer.resolve visit.entry.file with
    | some (.message id) =>
      let done := visit.entry.gatherRecalled memo visit.outside [id]
      ⟨{ visit with entry := done.entry, outside := done.outside }, done.memo, trail ++ [(outer, done.met)]⟩
    | some (.enum id) => ⟨{ visit with entry := visit.entry.reach id }, memo, trail ++ [(outer, [.reached id])]⟩
    | none => ⟨{ visit with unmatched := visit.unmatched ++ [outer] }, memo, trail ++ [(outer, [])]⟩

/-- Looks for some references in the file at `index`, one after another. -/
def lookForAll (index : Nat) (looking : Looking) (outer : List OuterRef) : Looking :=
  outer.foldl (lookFor index) looking

variable {index : Nat} {before : Entry} {seen : List (Nat × OuterRef)} {done : List OuterRef} {looking later : Looking}
  {outer : OuterRef} {met : List Encounter}

/-- Looking for references again changes nothing. -/
theorem lookForAll_of_requested {outer : List OuterRef} (known : ∀ ref ∈ outer, (index, ref) ∈ looking.visit.requested) :
    looking.lookForAll index outer = looking := by
  unfold lookForAll
  induction outer with
  | nil => rfl
  | cons first rest ih =>
    have same : looking.lookFor index first = looking :=
      if_pos (List.contains_iff_mem.2 (known first (List.mem_cons_self ..)))
    rw [List.foldl_cons, same]
    exact ih fun ref member => known ref (List.mem_cons_of_mem _ member)

/-- What a visit gains from a reference that it looks for the first time. -/
structure Resolves (index : Nat) (outer : OuterRef) (looking : Looking) (met : List Encounter) (later : Looking) :
    Prop where
  visit : later.visit = looking.visit.lookFor index outer
  recalls : later.memo.Recalls looking.visit.entry.file
  trail : later.trail = looking.trail ++ [(outer, met)]
  once : (met.filterMap Encounter.walked?).Nodup
  fresh : ∀ id ∈ met.filterMap Encounter.walked?, looking.visit.entry.includes id = false
  included : ∀ id, later.visit.entry.includes id = true ↔
    looking.visit.entry.includes id = true ∨ id ∈ met.filterMap Encounter.walked?
  declared : ∀ encounter ∈ met, looking.visit.entry.file.Declares encounter.decl

theorem exists_resolves (ordered : looking.visit.entry.file.InOrder)
    (recalls : looking.memo.Recalls looking.visit.entry.file) (new : (index, outer) ∉ looking.visit.requested) :
    ∃ met, Resolves index outer looking met (looking.lookFor index outer) := by
  obtain ⟨visit, memo, trail⟩ := looking
  have visited : visit.lookFor index outer = _ := if_neg new
  have looked : lookFor index ⟨visit, memo, trail⟩ outer = _ := if_neg (mt List.contains_iff_mem.1 new)
  rw [looked]
  dsimp only at *
  cases means : outer.resolve visit.entry.file with
  | none =>
    rw [means] at visited
    exact ⟨[], visited.symm, recalls, rfl, by simp, by simp, by simp, by simp⟩
  | some decl =>
    rw [means] at visited
    cases decl with
    | enum id =>
      have same (other : MessageId) : (visit.entry.reach id).includes other = visit.entry.includes other := rfl
      exact ⟨[.reached id], visited.symm, recalls, rfl, List.nodup_nil, List.forall_mem_nil _, by simp [same],
        List.forall_mem_singleton.2 (File.declares_of_outer means)⟩
    | message id =>
      obtain ⟨same, kept, once, fresh, included, declared⟩ : visit.entry.Gathers visit.outside [id] _ :=
        Entry.gathers_gatherRecalled recalls
      dsimp only at visited
      rw [same] at visited
      exact ⟨_, visited.symm, kept, rfl, once, fresh, included,
        declared ordered (List.forall_mem_singleton.2 (File.declares_of_outer means))⟩

/-- What is known once the references in `done` have been looked for in the file at `index`, of which `before` was the
record and `seen` the list of what had been looked for. -/
structure Fits (index : Nat) (before : Entry) (seen : List (Nat × OuterRef)) (done : List OuterRef)
    (looking : Looking) : Prop where
  visit : Visit.Fits index before seen done looking.visit
  recalls : looking.memo.Recalls before.file
  declared : ∀ row ∈ looking.trail, ∀ encounter ∈ row.2, before.file.Declares encounter.decl

theorem Fits.start (index : Nat) {memo : Memo} (seen : List (Nat × OuterRef)) (tidy : before.Tidy)
    (recalls : memo.Recalls before.file) : Fits index before seen [] (.start before seen memo) where
  visit := .start index seen tidy
  recalls := recalls
  declared := List.forall_mem_nil _

/-- Looking for one more reference either changes nothing or resolves it. -/
theorem Fits.cases (fits : Fits index before seen done looking) (outer : OuterRef) :
    (index, outer) ∈ looking.visit.requested ∧ looking.lookFor index outer = looking ∨
      ∃ met, (index, outer) ∉ looking.visit.requested ∧ Resolves index outer looking met (looking.lookFor index outer) := by
  by_cases known : (index, outer) ∈ looking.visit.requested
  · exact Or.inl ⟨known, if_pos (List.contains_iff_mem.2 known)⟩
  · have recalls : looking.memo.Recalls looking.visit.entry.file := fits.visit.grows.file ▸ fits.recalls
    obtain ⟨met, resolves⟩ := exists_resolves fits.visit.tidy.ordered recalls known
    exact Or.inr ⟨met, known, resolves⟩

/-- What references remember makes no difference to a visit. -/
theorem Fits.visit_lookFor (fits : Fits index before seen done looking) (outer : OuterRef) :
    (looking.lookFor index outer).visit = looking.visit.lookFor index outer := by
  rcases fits.cases outer with ⟨known, same⟩ | ⟨met, _, resolves⟩
  · rw [same]
    exact (if_pos known).symm
  · exact resolves.visit

theorem Fits.lookFor (fits : Fits index before seen done looking) (outer : OuterRef) :
    Fits index before seen (done ++ [outer]) (looking.lookFor index outer) := by
  have visit := fits.visit.lookFor outer
  rw [← fits.visit_lookFor] at visit
  rcases fits.cases outer with ⟨_, same⟩ | ⟨met, _, resolves⟩
  · exact ⟨visit, same.symm ▸ fits.recalls, same.symm ▸ fits.declared⟩
  · have file := fits.visit.grows.file
    refine ⟨visit, file ▸ resolves.recalls, ?_⟩
    rw [resolves.trail]
    exact List.forall_mem_append.2 ⟨fits.declared, List.forall_mem_singleton.2 (file ▸ resolves.declared)⟩

theorem Fits.lookForAll (fits : Fits index before seen done looking) (outer : List OuterRef) :
    Fits index before seen (done ++ outer) (looking.lookForAll index outer) := by
  unfold Looking.lookForAll
  induction outer generalizing done looking with
  | nil => simpa using fits
  | cons first rest ih => simpa using ih (fits.lookFor first)

theorem Fits.visit_lookForAll (fits : Fits index before seen done looking) (outer : List OuterRef) :
    (looking.lookForAll index outer).visit = outer.foldl (Visit.lookFor index) looking.visit := by
  unfold Looking.lookForAll
  induction outer generalizing done looking with
  | nil => rfl
  | cons first rest ih => rw [List.foldl_cons, ih (fits.lookFor first), fits.visit_lookFor, List.foldl_cons]

end Looking

end ProtoSchema
