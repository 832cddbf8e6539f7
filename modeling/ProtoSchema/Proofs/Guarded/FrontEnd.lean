import ProtoSchema.Proofs.Guarded.Files
import ProtoSchema.Proofs.Guarded.Lexer
import ProtoSchema.Proofs.Guarded.Lookups

namespace ProtoSchema

namespace Guarded

/-- What comes of a source, with a fault at its position in the table of lines. -/
def placed {α : Type} (name : String) (source : List Char) :
    Except Fault α → Except Breach (Except SyntaxError α)
  | .ok a => return .ok a
  | .error fault => do
    let offset := (fault.span?.map Span.start).getD (Text.byteLength source)
    let position ← locate (lineStarts 0 source) offset
    return .error ⟨name, fault, position⟩

def tokenize (name source : String) : Except Breach (Except SyntaxError (List Token)) := do
  placed name source.toList (← scanTokens source.toList)

def parse (name source : String) : Except Breach (Except SyntaxError File) := do
  match ← scanTokens source.toList with
  | .error fault => placed name source.toList (.error fault)
  | .ok tokens => placed name source.toList (← (Descent.schema ⟨tokens, File.named name⟩).answer)

/-- A file is asked about its declarations and references without a breach, from each of its scopes. -/
structure Answers (file : File) : Prop where
  resolve : ∀ scope ∈ file.scopes, ∀ name, Guarded.resolve file scope name = .ok (file.resolve scope name)
  lookup : ∀ name, Guarded.lookup file name = .ok (file.byFullName? name)
  messageName : ∀ row ∈ file.messageTable, fullNameIn file row.owner row.name = .ok (row.fullName file)
  enumName : ∀ row ∈ file.enumTable, fullNameIn file row.owner row.name = .ok (row.fullName file)
  serviceName : ∀ service ∈ file.services, fullNameIn file .file service.name = .ok (service.fullName file)
  meaning : ∀ memo : MemoRef, memo.ref ∈ file.types → Guarded.meaning file memo = .ok (memo.resolve file)
  kind : ∀ memo : MemoRef, memo.ref ∈ file.types → Guarded.kind file memo = .ok (memo.kind file)

theorem placed_eq {α : Type} (name : String) (source : List Char) (found : Except Fault α) :
    placed name source found = .ok (found.mapError (SyntaxError.ofFault name source)) := by
  cases found with
  | ok a => rfl
  | error fault =>
    rw [placed, locate_eq]
    rfl

theorem tokenize_eq (name source : String) : tokenize name source = .ok (ProtoSchema.tokenize name source) := by
  rw [tokenize, scanTokens_eq, ok_bind, placed_eq]
  rfl

theorem parse_eq (name source : String) : parse name source = .ok (ProtoSchema.parse name source) := by
  rw [parse, scanTokens_eq, ok_bind, ProtoSchema.parse]
  cases scanned : ProtoSchema.scanTokens source.toList with
  | error fault =>
    simp only [placed_eq]
    rfl
  | ok tokens =>
    simp only [Descent.answer_schema (scanTokens_lexical scanned), ok_bind, placed_eq]
    cases read : readStatements tokens with
    | ok statements => simp [Except.bind, Except.map, Except.mapError, read]
    | error fault => simp [Except.bind, Except.map, Except.mapError, read]

end Guarded

open Guarded in
/-- Tables that form a tree of scopes hold every row that is looked at, and no walk outwards is endless. -/
theorem File.ScopeTree.answers {file : File} (tree : file.ScopeTree) : Answers file where
  resolve _ member _ := resolve_eq tree (tree.grounded_of_mem_scopes member)
  lookup _ := lookup_eq tree
  messageName row member := fullNameIn_eq tree (tree.grounded row member)
  enumName row member := by
    refine fullNameIn_eq tree (tree.grounded_of_mem_scopes ?_)
    rcases tree.enum_owner row member with top | ⟨outer, inTable, owned⟩
    · rw [top]
      exact List.mem_cons_self
    · rw [owned]
      exact List.mem_cons_of_mem _ (List.mem_map_of_mem inTable)
  serviceName _ _ := fullNameIn_eq tree .file
  meaning _ listed := meaning_eq tree (tree.grounded_of_mem_types listed)
  kind _ listed := kind_eq tree (tree.grounded_of_mem_types listed)

/-- Whatever the source is, it falls into tokens and is read, or is refused, without a breach, and the file that is read
answers without one. -/
theorem frontEnd_guarded (name source : String) :
    Guarded.tokenize name source = .ok (tokenize name source) ∧
    Guarded.parse name source = .ok (parse name source) ∧
    ∀ file, parse name source = .ok file → Guarded.Answers file :=
  ⟨Guarded.tokenize_eq name source, Guarded.parse_eq name source,
    fun _ parsed => (scopeTree_of_parse parsed).answers⟩

/-- A message with an enum in it, of which a value is below zero. -/
def signedInside : String :=
  "package p; message M \x7b E e = 1; enum E \x7b LOW = -1; \x7d \x7d"

theorem frontEnd_guarded_signedInside : ∃ file, Guarded.parse "m" signedInside = .ok (.ok file) ∧
    Guarded.resolve file (.message ⟨0⟩) "E" = .ok (some (.enum ⟨0⟩)) ∧
    ∃ row, Guarded.enum file ⟨0⟩ = .ok row ∧ Guarded.fullNameIn file row.owner row.name = .ok "p.M.E" := by
  have evaluated : ((parse "m" signedInside).toOption.map fun file =>
      (decide (Scope.message ⟨0⟩ ∈ file.scopes), file.resolve (.message ⟨0⟩) "E",
        (file.enum? ⟨0⟩).map fun row => row.fullName file)) =
      some (true, some (.enum ⟨0⟩), some "p.M.E") := by decide +kernel
  obtain ⟨file, parsed, known⟩ := parse_of_map_toOption evaluated
  simp only [Prod.mk.injEq, decide_eq_true_eq] at known
  obtain ⟨member, resolved, named⟩ := known
  obtain ⟨row, found, called⟩ := Option.map_eq_some_iff.1 named
  obtain ⟨-, guarded, answers⟩ := frontEnd_guarded "m" signedInside
  have answers := answers file parsed
  refine ⟨file, by rw [guarded, parsed], by rw [answers.resolve _ member, resolved], row, Guarded.enum_eq found, ?_⟩
  rw [answers.enumName row (List.mem_of_getElem? found), called]

end ProtoSchema
