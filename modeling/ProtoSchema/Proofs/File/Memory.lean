import ProtoSchema.Proofs.File.Children
import ProtoSchema.Proofs.Guarded.Lookups

namespace ProtoSchema

/-- What a reference is asked. -/
inductive Ask
  | resolve (file : File)
  | kind (file : File)
  | known

inductive Answer
  | meaning (meaning : Meaning)
  | kind (kind : RefKind)
  | known (known : Option Meaning)
deriving DecidableEq, Repr

/-- What the reference at a place of a file is asked. -/
structure Question where
  place : Nat
  ask : Ask

/-- The file that comes with a question. -/
def Ask.given? : Ask → Option File
  | .resolve file | .kind file => some file
  | .known => none

/-- The file in which a reference of which nothing is known is looked up to answer a question. -/
def Ask.file? (ref : TypeRef) : Ask → Option File
  | .resolve file => some file
  | .kind file => if ref.isScalar then none else some file
  | .known => none

/-- The answer about a reference that was first looked up in a given file, if it was. -/
def Ask.answer (ref : TypeRef) (first? : Option File) : Ask → Answer
  | .resolve file => .meaning (ref.resolve (first?.getD file))
  | .kind file => .kind (if ref.isScalar then .scalar else ref.kindOf (ref.resolve (first?.getD file)))
  | .known => .known (first?.map ref.resolve)

namespace MemoRef

def ask : Ask → MemoRef → Answer × MemoRef
  | .resolve file, memo => (memo.resolve file).map .meaning id
  | .kind file, memo => (memo.kind file).map .kind id
  | .known, memo => (.known memo.known, memo)

/-- References are equal if they are called alike in the same scope, whatever they remember. -/
def alike (one other : MemoRef) : Bool :=
  one.ref == other.ref

/-- A reference remembers what it means in the file in which it was first looked up. -/
theorem ask_settled (ask : Ask) (ref : TypeRef) (first? : Option File) :
    MemoRef.ask ask ⟨ref, first?.map ref.resolve⟩ =
      (ask.answer ref first?, ⟨ref, (first?.or (ask.file? ref)).map ref.resolve⟩) := by
  cases ask with
  | resolve file => cases first? <;> rfl
  | kind file =>
    by_cases scalar : ref.isScalar
    · simp [MemoRef.ask, MemoRef.kind, Ask.answer, Ask.file?, scalar]
    · cases first? <;> simp [MemoRef.ask, MemoRef.kind, MemoRef.resolve, Ask.answer, Ask.file?, scalar]
  | known => simp [MemoRef.ask, Ask.answer, Ask.file?]

end MemoRef

/-- A file with what its references remember. -/
structure Remembering where
  file : File
  memo : Memo

/-- Files are equal if all that is written in them is. -/
def Remembering.alike (one other : Remembering) : Bool :=
  one.file == other.file && one.memo.isEqv other.memo MemoRef.alike

namespace Memo

/-- What references remember is not seen when they are compared. -/
theorem isEqv_alike (one other : Memo) :
    one.isEqv other MemoRef.alike = (one.map MemoRef.ref == other.map MemoRef.ref) := by
  induction one generalizing other with
  | nil => cases other <;> rfl
  | cons cell rest ih =>
    cases other with
    | nil => rfl
    | cons cell' rest' =>
      rw [List.isEqv_cons_cons, ih, List.map_cons, List.map_cons, List.cons_beq_cons]
      rfl

/-- The answer to a question, if there is a reference at its place, and what is remembered after it. -/
def ask (memo : Memo) (question : Question) : Option Answer × Memo :=
  memo.act question.place (MemoRef.ask question.ask)

/-- The answers to some questions, one after another. -/
def askAll (memo : Memo) : List Question → List (Option Answer) × Memo
  | [] => ([], memo)
  | question :: rest => ((memo.ask question).2.askAll rest).map ((memo.ask question).1 :: ·) id

end Memo

namespace File

/-- The file in which the reference at a place is first looked up, if it is. -/
def first? (place : Nat) (ref : TypeRef) (questions : List Question) : Option File :=
  (questions.filter fun question => question.place == place).findSome? fun question => question.ask.file? ref

/-- What is remembered after some questions. -/
def memoAfter (file : File) (questions : List Question) : Memo :=
  file.types.mapIdx fun place ref => ⟨ref, (first? place ref questions).map ref.resolve⟩

/-- The answer to a question that comes after others, if there is a reference at its place. -/
def answerAfter (file : File) (before : List Question) (question : Question) : Option Answer :=
  file.types[question.place]?.map fun ref => question.ask.answer ref (first? question.place ref before)

variable {file : File} {questions : List Question} {question : Question} {place : Nat} {ref : TypeRef}

theorem first?_append (more : List Question) :
    first? place ref (questions ++ more) = (first? place ref questions).or (first? place ref more) := by
  rw [first?, List.filter_append, List.findSome?_append]
  rfl

theorem first?_here : first? question.place ref [question] = question.ask.file? ref := by
  simp [first?]

theorem first?_elsewhere (other : question.place ≠ place) : first? place ref [question] = none := by
  simp [first?, other]

/-- The file in which a reference is first looked up comes with one of the questions. -/
theorem given?_of_first? {first : File} (looked : first? place ref questions = some first) :
    ∃ question ∈ questions, question.ask.given? = some first := by
  obtain ⟨question, member, looks⟩ := List.exists_of_findSome?_eq_some looked
  refine ⟨question, List.mem_of_mem_filter member, ?_⟩
  cases asked : question.ask with
  | resolve file => simpa [asked, Ask.file?, Ask.given?] using looks
  | kind file =>
    rw [asked, Ask.file?] at looks
    split at looks
    · contradiction
    · exact looks
  | known => simp [asked, Ask.file?] at looks

theorem getElem?_memoAfter : (file.memoAfter questions)[place]? =
    file.types[place]?.map fun ref => ⟨ref, (first? place ref questions).map ref.resolve⟩ :=
  List.getElem?_mapIdx

theorem memoAfter_at (there : file.types[place]? = some ref) :
    (file.memoAfter questions)[place]? = some ⟨ref, (first? place ref questions).map ref.resolve⟩ := by
  rw [getElem?_memoAfter, there, Option.map_some]

theorem memoAfter_nil : file.memoAfter [] = file.memo := by
  refine List.ext_getElem? fun place => ?_
  rw [getElem?_memoAfter, File.memo, List.getElem?_map]
  rfl

theorem map_ref_memoAfter : (file.memoAfter questions).map MemoRef.ref = file.types := by
  refine List.ext_getElem? fun place => ?_
  rw [List.getElem?_map, getElem?_memoAfter, Option.map_map]
  exact Option.map_id'

theorem getElem?_memoAfter_elsewhere (other : question.place ≠ place) :
    (file.memoAfter (questions ++ [question]))[place]? = (file.memoAfter questions)[place]? := by
  simp only [getElem?_memoAfter, first?_append, first?_elsewhere other, Option.or_none]

/-- What a question answers, and what it leaves. -/
theorem ask_memoAfter (question : Question) : (file.memoAfter questions).ask question =
    (file.answerAfter questions question, file.memoAfter (questions ++ [question])) := by
  rw [Memo.ask, Memo.act, getElem?_memoAfter, answerAfter]
  cases there : file.types[question.place]? with
  | none =>
    refine Prod.ext rfl (List.ext_getElem? fun place => ?_)
    by_cases here : question.place = place
    · simp [getElem?_memoAfter, ← here, there]
    · exact (getElem?_memoAfter_elsewhere here).symm
  | some ref =>
    simp only [Option.map_some, MemoRef.ask_settled]
    refine Prod.ext rfl (List.ext_getElem? fun place => ?_)
    rw [List.getElem?_set]
    split
    next here =>
      have inside : question.place < (file.memoAfter questions).length := by
        simpa [memoAfter] using (List.getElem?_eq_some_iff.1 there).1
      rw [if_pos inside, ← here, getElem?_memoAfter, there, Option.map_some, first?_append, first?_here]
    next other => exact (getElem?_memoAfter_elsewhere other).symm

/-- What some questions answer that come after others, and what they leave. -/
theorem askAll_memoAfter (file : File) (before questions : List Question) : (file.memoAfter before).askAll questions =
    (questions.mapIdx fun index question => file.answerAfter (before ++ questions.take index) question,
      file.memoAfter (before ++ questions)) := by
  induction questions generalizing before with
  | nil => simp [Memo.askAll]
  | cons question rest ih =>
    rw [Memo.askAll, ask_memoAfter, ih (before ++ [question])]
    simp [List.mapIdx_cons]

/-- A question leaves other references as they are. -/
theorem answerAfter_filter : file.answerAfter questions question =
    file.answerAfter (questions.filter fun other => other.place == question.place) question := by
  simp only [answerAfter, first?, List.filter_filter, Bool.and_self]

end File

namespace Guarded

/-- The answer of a reference, which may have to be looked up, and what it remembers then. -/
def tell : Ask → MemoRef → Except Breach (Answer × MemoRef)
  | .resolve file, memo => do
    let (found, memo) ← meaning file memo
    return (.meaning found, memo)
  | .kind file, memo => do
    let (found, memo) ← kind file memo
    return (.kind found, memo)
  | .known, memo => return (.known memo.known, memo)

def ask (memo : Memo) (question : Question) : Except Breach (Answer × Memo) := do
  let cell ← (memo[question.place]?).elim (.error .noSuchRow) .ok
  let (answer, cell) ← tell question.ask cell
  return (answer, memo.set question.place cell)

def askAll (memo : Memo) : List Question → Except Breach (List Answer × Memo)
  | [] => return ([], memo)
  | question :: rest => do
    let (answer, memo) ← ask memo question
    let (answers, memo) ← askAll memo rest
    return (answer :: answers, memo)

variable {file : File} {memo : MemoRef}

theorem meaning_of_known {known : Meaning} (remembers : memo.known = some known) :
    meaning file memo = .ok (memo.resolve file) := by
  rw [meaning, MemoRef.resolve, remembers]
  rfl

/-- A reference is only looked up in a file if nothing is known of it, and then that file is to have its scope. -/
theorem tell_eq {ask : Ask} (rooted : ∀ file, ask.file? memo.ref = some file → memo.known = none →
    file.ScopeTree ∧ file.Grounded memo.ref.scope) : tell ask memo = .ok (memo.ask ask) := by
  have found {file : File} (looks : memo.known = none → file.ScopeTree ∧ file.Grounded memo.ref.scope) :
      meaning file memo = .ok (memo.resolve file) := by
    cases remembers : memo.known with
    | none => exact meaning_eq (looks remembers).1 (looks remembers).2
    | some known => exact meaning_of_known remembers
  cases ask with
  | resolve file =>
    rw [tell, found (rooted file rfl)]
    rfl
  | kind file =>
    rw [tell, kind, MemoRef.ask, MemoRef.kind]
    by_cases scalar : memo.ref.isScalar
    · rw [if_pos scalar, if_pos scalar]
      rfl
    · rw [if_neg scalar, if_neg scalar, found (rooted file (if_neg scalar))]
      rfl
  | known => rfl

theorem ask_eq {memo : Memo} {question : Question} {cell : MemoRef} (there : memo[question.place]? = some cell)
    (told : tell question.ask cell = .ok (cell.ask question.ask)) : ∃ answer,
      (memo.ask question).1 = some answer ∧ ask memo question = .ok (answer, (memo.ask question).2) := by
  rw [ask, Memo.ask, Memo.act, there]
  exact ⟨_, rfl, by rw [Option.elim_some, ok_bind, told]; rfl⟩

/-- Questions are answered without a breach if each reference is first looked up in a file that has its scope. -/
theorem askAll_eq (before : List Question) {questions : List Question}
    (inside : ∀ question ∈ questions, question.place < file.types.length)
    (rooted : ∀ place ref first, file.types[place]? = some ref →
      File.first? place ref (before ++ questions) = some first → first.ScopeTree ∧ first.Grounded ref.scope) :
    ∃ answers, ((file.memoAfter before).askAll questions).1 = answers.map some ∧
      askAll (file.memoAfter before) questions = .ok (answers, ((file.memoAfter before).askAll questions).2) := by
  induction questions generalizing before with
  | nil => exact ⟨[], rfl, rfl⟩
  | cons question rest ih =>
    obtain ⟨ref, there⟩ : ∃ ref, file.types[question.place]? = some ref :=
      ⟨_, List.getElem?_eq_getElem (inside question List.mem_cons_self)⟩
    have first : before ++ question :: rest = before ++ [question] ++ rest := by simp
    rw [first] at rooted
    obtain ⟨answer, answered, asked⟩ := ask_eq (File.memoAfter_at there) <| tell_eq fun looked looks unknown => by
      refine rooted question.place ref looked there ?_
      have none_before : File.first? question.place ref before = none := by simpa using unknown
      rw [File.first?_append, File.first?_append, none_before, File.first?_here, looks]
      rfl
    obtain ⟨answers, later, askedLater⟩ :=
      ih (before ++ [question]) (fun other member => inside other (List.mem_cons_of_mem _ member)) rooted
    simp only [File.ask_memoAfter] at answered asked
    have all : (file.memoAfter before).askAll (question :: rest) =
        (some answer :: answers.map some, ((file.memoAfter (before ++ [question])).askAll rest).2) := by
      rw [Memo.askAll, File.ask_memoAfter, answered, ← later]
      rfl
    refine ⟨answer :: answers, by rw [all]; rfl, ?_⟩
    rw [askAll, asked, ok_bind]
    simp only [askedLater, ok_bind, all]
    rfl

end Guarded

namespace File

/-- What is seen of what the references of a file remember, when questions about them are asked. -/
structure Discloses (file : File) (questions : List Question) : Prop where
  /-- Each question is answered by what the reference means in the file in which it was first looked up. -/
  answers : ∃ answers, Guarded.askAll file.memo questions = .ok (answers, file.memoAfter questions) ∧
    file.memo.askAll questions = (answers.map some, file.memoAfter questions) ∧
    answers.map some = questions.mapIdx fun index question => file.answerAfter (questions.take index) question
  /-- Questions about other references make no difference. -/
  apart : ∀ before question, file.answerAfter before question =
    file.answerAfter (before.filter fun other => other.place == question.place) question
  /-- A scalar type is not looked up for its kind. -/
  scalar : ∀ before given place ref, file.types[place]? = some ref → ref.isScalar = true →
    ((file.memoAfter before).kind given place).2 = file.memoAfter before
  fileAlike : ∀ other : Remembering,
    Remembering.alike ⟨file, file.memoAfter questions⟩ other = Remembering.alike ⟨file, file.memo⟩ other ∧
      other.alike ⟨file, file.memoAfter questions⟩ = other.alike ⟨file, file.memo⟩
  refAlike : ∀ (place : Nat) (other : MemoRef),
    (file.memoAfter questions)[place]?.map other.alike = file.memo[place]?.map other.alike

variable {file : File} {questions : List Question}

theorem kind_memoAfter_of_scalar {before : List Question} (given : File) {place : Nat} {ref : TypeRef}
    (there : file.types[place]? = some ref) (scalar : ref.isScalar = true) :
    ((file.memoAfter before).kind given place).2 = file.memoAfter before := by
  have cell : (file.memoAfter before)[place]? = some _ := memoAfter_at there
  obtain ⟨_, same⟩ := List.getElem?_eq_some_iff.1 cell
  simp only [Memo.kind, Memo.act, cell, MemoRef.kind, scalar, if_true]
  rw [← same, List.set_getElem_self]

theorem discloses (inside : ∀ question ∈ questions, question.place < file.types.length)
    (rooted : ∀ place ref first, file.types[place]? = some ref →
      first? place ref questions = some first → first.ScopeTree ∧ first.Grounded ref.scope) :
    file.Discloses questions := by
  have all := file.askAll_memoAfter [] questions
  simp only [memoAfter_nil, List.nil_append] at all
  have refs : (file.memoAfter questions).map MemoRef.ref = file.memo.map MemoRef.ref := by
    rw [map_ref_memoAfter, ← memoAfter_nil, map_ref_memoAfter]
  obtain ⟨answers, known, guarded⟩ := Guarded.askAll_eq [] inside rooted
  simp only [memoAfter_nil, all] at known guarded
  refine ⟨⟨answers, guarded, all.trans (congrArg (·, file.memoAfter questions) known), known.symm⟩,
    fun _ _ => answerAfter_filter, fun _ given _ _ => kind_memoAfter_of_scalar given, fun other => ?_,
    fun place other => ?_⟩
  · simp only [Remembering.alike, Memo.isEqv_alike, refs, and_self]
  · have seen (memo : Memo) : memo[place]?.map other.alike =
        (memo.map MemoRef.ref)[place]?.map fun ref => other.ref == ref := by
      rw [List.getElem?_map, Option.map_map]
      rfl
    rw [seen, seen, refs]

end File

end ProtoSchema
