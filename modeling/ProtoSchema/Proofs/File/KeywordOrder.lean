import ProtoSchema.Proofs.File.Alike
import ProtoSchema.Proofs.File.ScopeTree
import ProtoSchema.Proofs.Reader.Titles
import ProtoSchema.Proofs.Token.Positions

namespace ProtoSchema

def Message.title (message : Message) : Title :=
  ⟨.messages, ⟨message.comment, message.line⟩, message.name⟩

def Enum.title (enum : Enum) : Title :=
  ⟨.enums, ⟨enum.comment, enum.line⟩, enum.name⟩

/-- What the rows of a table begin with in the source. -/
def Content.titles (content : Content) : Table → List Title
  | .messages => content.newMessages.map Message.title
  | .enums => content.newEnums.map Enum.title

theorem Content.titles_append (a b : Content) (table : Table) :
    (a.append b).titles table = a.titles table ++ b.titles table := by
  cases table <;> simp [titles, append]

mutual

theorem Member.titles_layout (scope : Scope) (room : Room) (table : Table) : (member : Member) →
    (member.layout scope room).titles table = member.titles.filter fun title => title.table == table
  | .field _ | .oneof _ | .map _ => by cases table <;> rfl
  | .enum decl => by cases table <;> rfl
  | .group head body => by
    rw [Member.titles, ← titles_layoutAll scope room table body]
    cases table <;> rfl
  | .extend head body => by
    rw [Member.titles, ← titles_layoutAll scope room table body]
    cases table <;> rfl
  | .message head body => by
    rw [Member.titles, List.filter_cons,
      ← titles_layoutAll (.message ⟨room.messages⟩) ⟨room.messages + 1, room.enums⟩ table body]
    cases table <;> rfl

theorem titles_layoutAll (scope : Scope) (room : Room) (table : Table) : (members : List Member) →
    (layoutAll scope room members).titles table = (titlesOfAll members).filter fun title => title.table == table
  | [] => by cases table <;> rfl
  | member :: rest => by
    rw [layoutAll, Content.titles_append, member.titles_layout scope room table, titles_layoutAll scope _ table rest,
      titlesOfAll, List.filter_append]

end

theorem flatMap_titles (statements : List Statement) :
    statements.flatMap Statement.titles = titlesOfAll (statements.filterMap Statement.member?) := by
  induction statements with
  | nil => rfl
  | cons statement statements ih =>
    cases statement with
    | member declared => simp [Statement.titles, Statement.member?, titlesOfAll, ih]
    | dialect | package | imports | service => exact ih

namespace File

theorem titles_ofStatements (name : String) (statements : List Statement) (table : Table) :
    (ofStatements name statements).content.titles table =
      (statements.flatMap Statement.titles).filter fun title => title.table == table := by
  rw [flatMap_titles, ← titles_layoutAll .file ⟨0, 0⟩]
  cases table <;> rfl

/-- Whether the rows of both tables are the declarations of the source, one keyword after another. -/
def InKeywordOrder (file : File) (tokens : List Token) : Prop :=
  ∀ table, ∃ places : List Nat, places.Pairwise (· < ·) ∧ (∀ k, k ∈ places ↔ IsKeyword tokens table k) ∧
    List.Forall₂ (Title.At table tokens) places (file.content.titles table)

end File

theorem readStatements_inKeywordOrder {tokens : List Token} {statements : List Statement}
    (read : readStatements tokens = .ok statements) (name : String) :
    (File.ofStatements name statements).InKeywordOrder tokens := by
  unfold readStatements at read
  cases ran : Reader.start.run tokens with
  | error fault =>
    rw [ran] at read
    cases read
  | ok r =>
    rw [ran] at read
    obtain rfl := Reader.eq_of_finish read
    intro table
    obtain ⟨places, ascending, all, spelled⟩ := (Reader.ordered_of_run ran).titles table
    refine ⟨places, ascending, ?_, ?_⟩
    · intro k
      rw [all]
      refine ⟨And.left, fun keyword => ⟨keyword, ?_⟩⟩
      -- A file does not end behind a keyword: the reader is at the beginning of an entry.
      by_contra beyond
      have inside := keyword.1
      obtain ⟨mark, named⟩ := (isKeyword_last ran (by omega)).1 keyword
      cases named
    · rw [File.titles_ofStatements]
      simpa [Reader.titles, Site.titles, Stage.titles, Block.titles] using spelled

theorem Title.lines_of_places {tokens : List Token} {table : Table} {places : List Nat} {titles : List Title}
    (lines : tokens.Pairwise fun t u => t.line ≤ u.line) (ascending : places.Pairwise (· < ·))
    (spelled : List.Forall₂ (Title.At table tokens) places titles) :
    titles.Pairwise fun a b => a.mark.line ≤ b.mark.line := by
  induction spelled with
  | nil => exact .nil
  | @cons k title places titles here later ih =>
    obtain ⟨first, rest⟩ := List.pairwise_cons.1 ascending
    refine .cons ?_ (ih rest)
    intro other member
    obtain ⟨index, bound, rfl⟩ := List.getElem_of_mem member
    have inPlaces : index < places.length := by rwa [later.length_eq]
    obtain ⟨keyword, _, at_k, -, -, same⟩ := here
    obtain ⟨next, _, at_next, -, -, sameNext⟩ := later.get inPlaces bound
    rw [List.get_eq_getElem] at at_next sameNext
    obtain ⟨inTokens, rfl⟩ := List.getElem?_eq_some_iff.1 at_k
    obtain ⟨inTokens', rfl⟩ := List.getElem?_eq_some_iff.1 at_next
    rw [same, sameNext]
    exact List.pairwise_iff_getElem.1 lines _ _ inTokens inTokens' (first _ (List.getElem_mem inPlaces))

/-- The tables of a parsed file form a tree of scopes whose rows come in the order of their keywords, so that the
lines in each table do not go down. -/
theorem parse_scopeTree {name source : String} {file : File} (parsed : parse name source = .ok file) :
    file.ScopeTree ∧ (∃ tokens, tokenize name source = .ok tokens ∧ file.InKeywordOrder tokens) ∧
      (file.messageTable.Pairwise fun a b => a.line ≤ b.line) ∧ file.enumTable.Pairwise fun a b => a.line ≤ b.line := by
  unfold parse at parsed
  cases scanned : scanTokens source.toList with
  | error fault =>
    rw [scanned] at parsed
    cases parsed
  | ok tokens =>
    rw [scanned] at parsed
    cases read : readStatements tokens with
    | error fault =>
      simp only [Except.bind, read] at parsed
      cases parsed
    | ok statements =>
      simp only [Except.bind, read] at parsed
      obtain rfl := Except.ok.inj parsed
      have ordered := readStatements_inKeywordOrder read name
      have lines (table : Table) : ((File.ofStatements name statements).content.titles table).Pairwise
          fun a b => a.mark.line ≤ b.mark.line := by
        obtain ⟨places, ascending, -, spelled⟩ := ordered table
        exact Title.lines_of_places (scanTokens_lines scanned) ascending spelled
      have messages := lines .messages
      have enums := lines .enums
      simp only [Content.titles, List.pairwise_map] at messages enums
      exact ⟨File.ofStatements_scopeTree name statements, ⟨tokens, tokenize_eq_ok.2 scanned, ordered⟩, messages, enums⟩

/-- A message and an enum in a group. -/
def grouped : String :=
  "message A \x7b\n  optional group G = 1 \x7b message B \x7b \x7d\n    enum E \x7b \x7d \x7d\n\x7d"

/-- The group hands on what is declared in it to the message around it. -/
theorem parse_scopeTree_grouped : ∃ file, parse "m" grouped = .ok file ∧ file.ScopeTree ∧
    (∃ tokens, tokenize "m" grouped = .ok tokens ∧ file.InKeywordOrder tokens) ∧
    file.messageTable.map Message.line = [1, 2] ∧ file.messagesIn (.message ⟨0⟩) = [⟨1⟩] ∧
    file.enumsIn (.message ⟨0⟩) = [⟨0⟩] := by
  have scanned : scanTokens grouped.toList = .ok
      [⟨.word, "message", 1, 1, ⟨0, 7⟩, none⟩, ⟨.word, "A", 1, 9, ⟨8, 9⟩, none⟩,
        ⟨.symbol, "\x7b", 1, 11, ⟨10, 11⟩, none⟩, ⟨.word, "optional", 2, 3, ⟨14, 22⟩, none⟩,
        ⟨.word, "group", 2, 12, ⟨23, 28⟩, none⟩, ⟨.word, "G", 2, 18, ⟨29, 30⟩, none⟩,
        ⟨.symbol, "=", 2, 20, ⟨31, 32⟩, none⟩, ⟨.word, "1", 2, 22, ⟨33, 34⟩, none⟩,
        ⟨.symbol, "\x7b", 2, 24, ⟨35, 36⟩, none⟩, ⟨.word, "message", 2, 26, ⟨37, 44⟩, none⟩,
        ⟨.word, "B", 2, 34, ⟨45, 46⟩, none⟩, ⟨.symbol, "\x7b", 2, 36, ⟨47, 48⟩, none⟩,
        ⟨.symbol, "\x7d", 2, 38, ⟨49, 50⟩, none⟩, ⟨.word, "enum", 3, 5, ⟨55, 59⟩, none⟩,
        ⟨.word, "E", 3, 10, ⟨60, 61⟩, none⟩, ⟨.symbol, "\x7b", 3, 12, ⟨62, 63⟩, none⟩,
        ⟨.symbol, "\x7d", 3, 14, ⟨64, 65⟩, none⟩, ⟨.symbol, "\x7d", 3, 16, ⟨66, 67⟩, none⟩,
        ⟨.symbol, "\x7d", 4, 1, ⟨68, 69⟩, none⟩] :=
    scanTokens_eq_ok.2 (by decide +kernel)
  have parsed : parse "m" grouped = .ok { File.named "m" with
      messages := [⟨0⟩]
      messageTable :=
        [⟨⟨0⟩, "A", none, 1, .file, [.group ⟨none, .optional, "G", 1⟩ []], [⟨1⟩], [⟨0⟩], []⟩,
          ⟨⟨1⟩, "B", none, 2, .message ⟨0⟩, [], [], [], []⟩]
      enumTable := [⟨⟨0⟩, "E", none, 3, .message ⟨0⟩, []⟩] } := by
    rw [parse, scanned]
    rfl
  obtain ⟨tree, ordered, -, -⟩ := parse_scopeTree parsed
  exact ⟨_, parsed, tree, ordered, rfl, rfl, rfl⟩

end ProtoSchema
