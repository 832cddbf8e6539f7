import ProtoSchema.Proofs.File.Children
import ProtoSchema.Proofs.Search.Closure
import ProtoSchema.Report

namespace ProtoSchema

/-- What a line of the report is about. -/
inductive ReportItem
  | heading (file : File)
  | message (file : File) (message : Message)
  | enum (file : File) (enum : Enum)
  | service (file : File) (service : Service)
  | method (file : File) (service : Service) (method : Method)

namespace ReportItem

/-- The file in whose section an item stands. -/
def file : ReportItem → File
  | .heading file | .message file _ | .enum file _ | .service file _ | .method file _ _ => file

def heading? : ReportItem → Option File
  | .heading file => some file
  | _ => none

def message? : ReportItem → Option (File × Message)
  | .message file row => some (file, row)
  | _ => none

def enum? : ReportItem → Option (File × Enum)
  | .enum file row => some (file, row)
  | _ => none

def service? : ReportItem → Option (File × Service)
  | .service file declared => some (file, declared)
  | _ => none

def method? : ReportItem → Option (File × Service × Method)
  | .method file owner declared => some (file, owner, declared)
  | _ => none

/-- The line for an item, when the places where files are published are known or not. -/
def line (url? : File → Option String) : ReportItem → String
  | .heading file => file.name ++ (url? file).elim "" fun url => " (" ++ url ++ ")"
  | .message file row => "  message " ++ row.fullName file
  | .enum file row => "  enum " ++ row.fullName file
  | .service file declared => "  service " ++ declared.fullName file
  | .method _ _ declared =>
    "    rpc " ++ declared.name ++ "(" ++
      ((if declared.input.stream then "stream " else "") ++ declared.input.type.name) ++ ") returns (" ++
      ((if declared.output.stream then "stream " else "") ++ declared.output.type.name) ++ ")"

end ReportItem

/-- Whether the report on a set of files, and its summary, say of the needed declarations what `items` says. -/
structure FileSet.Lists (files : FileSet) (items : List ReportItem) : Prop where
  /-- The report is the lines of the items. -/
  text : files.printText = String.join (items.map fun item => item.line files.url? ++ "\n")
  messages : items.filterMap ReportItem.message? = files.messages
  enums : items.filterMap ReportItem.enum? = files.enums
  services : items.filterMap ReportItem.service? = files.services
  methods : items.filterMap ReportItem.method? =
    files.services.flatMap fun (file, service) => service.methods.map fun method => (file, service, method)
  /-- The methods of a service come right behind it. -/
  below : ∀ before file service after, items = before ++ .service file service :: after →
    service.methods.map (.method file service) <+: after
  /-- Every item stands in the section of its own file. -/
  within : ∀ before item after, items = before ++ item :: after →
    ((before ++ [item]).filterMap ReportItem.heading?).getLast? = some item.file
  /-- The sections are in the order of the files. -/
  ordered : (items.filterMap ReportItem.heading?).Sublist files.toList
  /-- There is a section for each file that has a needed declaration, and for no other. -/
  sections : ∀ file, file ∈ items.filterMap ReportItem.heading? ↔
    (∃ message, (file, message) ∈ files.messages) ∨ (∃ enum, (file, enum) ∈ files.enums) ∨
      ∃ service, (file, service) ∈ files.services
  /-- No two sections have the same name, and no message or enum is listed twice. -/
  headedOnce : ((items.filterMap ReportItem.heading?).map File.name).Nodup
  messagesOnce : (files.messages.map fun (file, message) => (file.name, message.id)).Nodup
  enumsOnce : (files.enums.map fun (file, enum) => (file.name, enum.id)).Nodup
  /-- The summary counts the files and the items of each kind. -/
  summary : files.printSummary =
    "files: " ++ toString files.toList.length ++ "\n" ++
    "messages: " ++ toString (items.countP fun item => item.message?.isSome) ++ "\n" ++
    "enums: " ++ toString (items.countP fun item => item.enum?.isSome) ++ "\n" ++
    "services: " ++ toString (items.countP fun item => item.service?.isSome) ++ "\n"

namespace Entry

/-- The items for the needed declarations of a file. -/
def declared (entry : Entry) : List ReportItem :=
  entry.messages.map (.message entry.file) ++ entry.enums.map (.enum entry.file) ++
    entry.services.flatMap fun service =>
      .service entry.file service :: service.methods.map (.method entry.file service)

/-- The section of a file, if it has a needed declaration. -/
def items (entry : Entry) : List ReportItem :=
  if entry.declared.isEmpty then [] else .heading entry.file :: entry.declared

end Entry

namespace FileSet

variable {files : FileSet} {entry : Entry}

def items (files : FileSet) : List ReportItem :=
  files.entries.flatMap Entry.items

theorem declaredIn_append (name : String) {α : Type} (a b : List (File × α)) :
    declaredIn name (a ++ b) = declaredIn name a ++ declaredIn name b := by
  simp [declaredIn]

theorem declaredIn_self {α : Type} (file : File) (rows : List α) :
    declaredIn file.name (rows.map fun row => (file, row)) = rows := by
  simp [declaredIn, List.filter_map, Function.comp_def]

theorem declaredIn_other {name : String} {α : Type} {file : File} (other : file.name ≠ name) (rows : List α) :
    declaredIn name (rows.map fun row => (file, row)) = [] := by
  simp [declaredIn, other]

/-- Of the declarations of files with distinct names, those in the file of a name are those of that one file. -/
theorem declaredIn_flatMap {α : Type} {entries : List Entry} (part : Entry → List α)
    (distinct : (entries.map fun entry => entry.file.name).Nodup) (member : entry ∈ entries) :
    declaredIn entry.file.name (entries.flatMap fun other => (part other).map fun row => (other.file, row)) =
      part entry := by
  induction entries with
  | nil => cases member
  | cons first rest ih =>
    obtain ⟨apart, distinct⟩ := List.nodup_cons.1 distinct
    rw [List.flatMap_cons, declaredIn_append]
    rcases List.mem_cons.1 member with rfl | later
    · have others : declaredIn entry.file.name
          (rest.flatMap fun other => (part other).map fun row => (other.file, row)) = [] := by
        refine List.map_eq_nil_iff.2 (List.filter_eq_nil_iff.2 ?_)
        rintro ⟨owner, row⟩ declared
        obtain ⟨other, inRest, inPart⟩ := List.mem_flatMap.1 declared
        obtain ⟨_, -, same⟩ := List.mem_map.1 inPart
        obtain ⟨rfl, rfl⟩ := Prod.mk.inj same
        simpa using fun same => apart (List.mem_map.2 ⟨other, inRest, same⟩)
      rw [declaredIn_self, others, List.append_nil]
    · have other : first.file.name ≠ entry.file.name :=
        fun same => apart (List.mem_map.2 ⟨entry, later, same.symm⟩)
      rw [declaredIn_other other, ih distinct later, List.nil_append]

/-- The section of a file holds what is needed of it. -/
theorem sectionOf_eq (distinct : (files.entries.map fun entry => entry.file.name).Nodup)
    (member : entry ∈ files.entries) : files.sectionOf entry.file =
      ⟨entry.file, files.url? entry.file, entry.messages, entry.enums, entry.services⟩ := by
  rw [sectionOf, FileSet.messages, FileSet.enums, FileSet.services, declaredIn_flatMap Entry.messages distinct member,
    declaredIn_flatMap Entry.enums distinct member, declaredIn_flatMap Entry.services distinct member]

/-- The lines of a section are those of its heading and of the items for what is needed of the file. -/
theorem lines_eq (entry : Entry) (url? : File → Option String) :
    (Section.mk entry.file (url? entry.file) entry.messages entry.enums entry.services).lines =
      (.heading entry.file :: entry.declared).map (ReportItem.line url?) := by
  have title : (Section.mk entry.file (url? entry.file) entry.messages entry.enums entry.services).title =
      (ReportItem.heading entry.file).line url? := by
    unfold Section.title ReportItem.line
    cases known : url? entry.file <;> simp [known, String.append_assoc]
  have service (service : Service) :
      (.service entry.file service :: service.methods.map (.method entry.file service)).map (ReportItem.line url?) =
        ("  service " ++ service.fullName entry.file) :: service.methods.map Method.line := by
    rw [List.map_cons, List.map_map]
    rfl
  rw [Section.lines, title, List.map_cons]
  simp only [Entry.declared, List.map_append, List.map_map, List.map_flatMap, service]
  rfl

theorem isEmpty_eq (entry : Entry) (url : Option String) :
    (Section.mk entry.file url entry.messages entry.enums entry.services).isEmpty = entry.declared.isEmpty := by
  unfold Section.isEmpty Entry.declared
  cases entry.messages <;> cases entry.enums <;> cases entry.services <;> rfl

theorem lines_sections (distinct : (files.entries.map fun entry => entry.file.name).Nodup) :
    files.sections.flatMap Section.lines = files.items.map (ReportItem.line files.url?) := by
  have each : files.toList.map files.sectionOf = files.entries.map fun entry =>
      Section.mk entry.file (files.url? entry.file) entry.messages entry.enums entry.services := by
    rw [toList, List.map_map]
    exact List.map_congr_left fun entry member => sectionOf_eq distinct member
  rw [sections, each, items]
  generalize files.entries = entries
  induction entries with
  | nil => rfl
  | cons entry rest ih =>
    rw [List.map_cons, List.filter_cons, isEmpty_eq, List.flatMap_cons, List.map_append, ← ih, Entry.items]
    cases entry.declared.isEmpty with
    | true => rfl
    | false =>
      rw [Bool.not_false, if_pos rfl, List.flatMap_cons, lines_eq]
      rfl

theorem printText_eq (distinct : (files.entries.map fun entry => entry.file.name).Nodup) :
    files.printText = String.join (files.items.map fun item => item.line files.url? ++ "\n") := by
  rw [printText, lines_sections distinct, printLines, List.map_map]
  rfl

end FileSet

namespace Entry

variable (entry : Entry)

theorem heading?_declared : entry.declared.filterMap ReportItem.heading? = [] := by
  refine List.filterMap_eq_nil_iff.2 fun item member => ?_
  simp only [declared, List.mem_append, List.mem_map, List.mem_flatMap, List.mem_cons] at member
  rcases member with (⟨_, _, rfl⟩ | ⟨_, _, rfl⟩) | ⟨_, _, rfl | ⟨_, _, rfl⟩⟩ <;> rfl

theorem file_of_mem_declared {item : ReportItem} (member : item ∈ entry.declared) : item.file = entry.file := by
  simp only [declared, List.mem_append, List.mem_map, List.mem_flatMap, List.mem_cons] at member
  rcases member with (⟨_, _, rfl⟩ | ⟨_, _, rfl⟩) | ⟨_, _, rfl | ⟨_, _, rfl⟩⟩ <;> rfl

theorem heading?_items :
    entry.items.filterMap ReportItem.heading? = if entry.declared.isEmpty then [] else [entry.file] := by
  unfold items
  split
  · rfl
  · rw [List.filterMap_cons, heading?_declared]
    rfl

theorem declared_ne_nil_iff : entry.declared ≠ [] ↔
    (∃ message, message ∈ entry.messages) ∨ (∃ enum, enum ∈ entry.enums) ∨ ∃ service, service ∈ entry.services := by
  unfold declared
  cases entry.messages <;> cases entry.enums <;> cases entry.services <;> simp

/-- What can be picked from a section, if not its heading, is picked from each kind of declaration. -/
theorem filterMap_items {α : Type} (pick : ReportItem → Option α) (other : pick (.heading entry.file) = none) :
    entry.items.filterMap pick =
      (entry.messages.filterMap fun message => pick (.message entry.file message)) ++
      (entry.enums.filterMap fun enum => pick (.enum entry.file enum)) ++
      entry.services.flatMap fun service => (pick (.service entry.file service)).toList ++
        service.methods.filterMap fun method => pick (.method entry.file service method) := by
  have declared : entry.items.filterMap pick = entry.declared.filterMap pick := by
    unfold items
    split
    next empty => rw [List.isEmpty_iff.1 empty]
    next => rw [List.filterMap_cons_none other]
  have service (service : Service) :
      (ReportItem.service entry.file service :: service.methods.map (.method entry.file service)).filterMap pick =
        (pick (.service entry.file service)).toList ++
          service.methods.filterMap fun method => pick (.method entry.file service method) := by
    rw [List.filterMap_cons, List.filterMap_map]
    cases pick (.service entry.file service) <;> rfl
  rw [declared, Entry.declared]
  simp only [List.filterMap_append, List.filterMap_map, List.filterMap_flatMap, service]
  rfl

theorem message?_items : entry.items.filterMap ReportItem.message? =
    entry.messages.map fun message => (entry.file, message) := by
  rw [filterMap_items entry ReportItem.message? rfl]
  simp [ReportItem.message?]

theorem enum?_items : entry.items.filterMap ReportItem.enum? = entry.enums.map fun enum => (entry.file, enum) := by
  rw [filterMap_items entry ReportItem.enum? rfl]
  simp [ReportItem.enum?]

theorem service?_items : entry.items.filterMap ReportItem.service? =
    entry.services.map fun service => (entry.file, service) := by
  rw [filterMap_items entry ReportItem.service? rfl]
  simp [ReportItem.service?, List.map_eq_flatMap]

theorem method?_items : entry.items.filterMap ReportItem.method? =
    entry.services.flatMap fun service => service.methods.map fun method => (entry.file, service, method) := by
  rw [filterMap_items entry ReportItem.method? rfl]
  simp [ReportItem.method?]

end Entry

namespace ReportItem

/-- An item among those of two lists is among the first or among the second. -/
theorem split_append {first second before after : List ReportItem} {item : ReportItem}
    (whole : first ++ second = before ++ item :: after) :
    (∃ rest, first = before ++ item :: rest ∧ after = rest ++ second) ∨
      ∃ front, before = first ++ front ∧ second = front ++ item :: after := by
  rcases List.append_eq_append_iff.1 whole with ⟨front, rfl, rfl⟩ | ⟨rest, rfl, tail⟩
  · exact Or.inr ⟨front, rfl, rfl⟩
  · cases rest with
    | nil => exact Or.inr ⟨[], by simp, by simpa using tail.symm⟩
    | cons next rest =>
      obtain ⟨rfl, rfl⟩ := List.cons.inj tail
      exact Or.inl ⟨rest, rfl, rfl⟩

/-- Whether the methods of each service come right behind it. -/
def MethodsBelow (items : List ReportItem) : Prop :=
  ∀ before file service after, items = before ++ .service file service :: after →
    service.methods.map (.method file service) <+: after

/-- Whether each item comes behind the heading of its file, with no other heading in between. -/
def Headed (items : List ReportItem) : Prop :=
  ∀ before item after, items = before ++ item :: after →
    ((before ++ [item]).filterMap heading?).getLast? = some item.file

theorem MethodsBelow.append {first second : List ReportItem} (one : MethodsBelow first) (other : MethodsBelow second) :
    MethodsBelow (first ++ second) := by
  intro before file service after whole
  rcases split_append whole with ⟨rest, early, rfl⟩ | ⟨front, -, late⟩
  · exact (one before file service rest early).trans (List.prefix_append ..)
  · exact other front file service after late

theorem Headed.append {first second : List ReportItem} (one : Headed first) (other : Headed second) :
    Headed (first ++ second) := by
  intro before item after whole
  rcases split_append whole with ⟨rest, early, -⟩ | ⟨front, rfl, late⟩
  · exact one before item rest early
  · rw [List.append_assoc, List.filterMap_append, List.getLast?_append, other front item after late]
    rfl

/-- Nothing is asked of items among which there is no service. -/
theorem MethodsBelow.of_no_service {items : List ReportItem} (without : ∀ item ∈ items, item.service? = none) :
    MethodsBelow items := by
  rintro before file service after rfl
  have none := without (.service file service) (by simp)
  cases none

theorem MethodsBelow.service (file : File) (service : Service) :
    MethodsBelow (.service file service :: service.methods.map (.method file service)) := by
  intro before owner declared after whole
  cases before with
  | nil =>
    obtain ⟨same, rfl⟩ := List.cons.inj whole
    obtain ⟨rfl, rfl⟩ := ReportItem.service.inj same
    exact List.prefix_refl _
  | cons first before =>
    have member : ReportItem.service owner declared ∈ service.methods.map (.method file service) := by
      rw [(List.cons.inj whole).2]
      simp
    obtain ⟨_, -, same⟩ := List.mem_map.1 member
    cases same

end ReportItem

namespace Entry

variable (entry : Entry)

theorem methodsBelow_items : ReportItem.MethodsBelow entry.items := by
  have services : ReportItem.MethodsBelow (entry.services.flatMap fun service =>
      .service entry.file service :: service.methods.map (.method entry.file service)) := by
    induction entry.services with
    | nil => exact .of_no_service (List.forall_mem_nil _)
    | cons service rest ih => exact (ReportItem.MethodsBelow.service entry.file service).append ih
  have rows : ReportItem.MethodsBelow (.heading entry.file :: entry.messages.map (.message entry.file) ++
      entry.enums.map (.enum entry.file)) := by
    refine .of_no_service fun item member => ?_
    simp only [List.cons_append, List.mem_cons, List.mem_append, List.mem_map] at member
    rcases member with rfl | ⟨_, _, rfl⟩ | ⟨_, _, rfl⟩ <;> rfl
  unfold items
  split
  · exact .of_no_service (List.forall_mem_nil _)
  · exact rows.append services

theorem headed_items : ReportItem.Headed entry.items := by
  intro before item after whole
  unfold items at whole
  split at whole
  · simp at whole
  · cases before with
    | nil =>
      obtain ⟨rfl, -⟩ := List.cons.inj whole
      rfl
    | cons first before =>
      obtain ⟨rfl, inside⟩ := List.cons.inj whole
      have inside : entry.declared = before ++ [item] ++ after := by simpa using inside
      have member : item ∈ entry.declared := by simp [inside]
      have unheaded : (before ++ [item]).filterMap ReportItem.heading? = [] := by
        have declared := entry.heading?_declared
        rw [inside, List.filterMap_append, List.append_eq_nil_iff] at declared
        exact declared.1
      rw [List.cons_append, List.filterMap_cons, unheaded, entry.file_of_mem_declared member]
      rfl

end Entry

namespace FileSet

variable {files : FileSet}

theorem filterMap_items {α : Type} (pick : ReportItem → Option α) :
    files.items.filterMap pick = files.entries.flatMap fun entry => entry.items.filterMap pick := by
  rw [items, List.filterMap_flatMap]

theorem heading?_items : files.items.filterMap ReportItem.heading? =
    (files.entries.filter fun entry => !entry.declared.isEmpty).map Entry.file := by
  rw [filterMap_items]
  induction files.entries with
  | nil => rfl
  | cons entry rest ih =>
    rw [List.flatMap_cons, ih, Entry.heading?_items, List.filter_cons]
    cases entry.declared.isEmpty <;> rfl

theorem message?_items : files.items.filterMap ReportItem.message? = files.messages := by
  simp only [filterMap_items, Entry.message?_items]
  rfl

theorem enum?_items : files.items.filterMap ReportItem.enum? = files.enums := by
  simp only [filterMap_items, Entry.enum?_items]
  rfl

theorem service?_items : files.items.filterMap ReportItem.service? = files.services := by
  simp only [filterMap_items, Entry.service?_items]
  rfl

theorem methodsBelow_items : ReportItem.MethodsBelow files.items := by
  unfold items
  induction files.entries with
  | nil => exact .of_no_service (List.forall_mem_nil _)
  | cons entry rest ih => exact entry.methodsBelow_items.append ih

theorem headed_items : ReportItem.Headed files.items := by
  unfold items
  induction files.entries with
  | nil =>
    intro before item after whole
    simp at whole
  | cons entry rest ih => exact entry.headed_items.append ih

/-- A file has a section if something that is declared in it is needed. -/
theorem mem_heading?_items_iff {file : File} : file ∈ files.items.filterMap ReportItem.heading? ↔
    (∃ message, (file, message) ∈ files.messages) ∨ (∃ enum, (file, enum) ∈ files.enums) ∨
      ∃ service, (file, service) ∈ files.services := by
  rw [heading?_items, List.mem_map]
  constructor
  · rintro ⟨entry, needed, rfl⟩
    obtain ⟨there, some⟩ := List.mem_filter.1 needed
    have declared : entry.declared ≠ [] := by simpa using some
    rcases entry.declared_ne_nil_iff.1 declared with ⟨message, needed⟩ | ⟨enum, needed⟩ | ⟨service, needed⟩
    · exact Or.inl ⟨message, List.mem_flatMap.2 ⟨entry, there, List.mem_map_of_mem needed⟩⟩
    · exact Or.inr (Or.inl ⟨enum, List.mem_flatMap.2 ⟨entry, there, List.mem_map_of_mem needed⟩⟩)
    · exact Or.inr (Or.inr ⟨service, List.mem_flatMap.2 ⟨entry, there, List.mem_map_of_mem needed⟩⟩)
  · have headed {entry : Entry} (there : entry ∈ files.entries) (declared : entry.declared ≠ []) :
        ∃ other ∈ files.entries.filter fun entry => !entry.declared.isEmpty, other.file = entry.file :=
      ⟨entry, List.mem_filter.2 ⟨there, by simpa using declared⟩, rfl⟩
    rintro (⟨message, needed⟩ | ⟨enum, needed⟩ | ⟨service, needed⟩)
    all_goals
      obtain ⟨entry, there, inEntry⟩ := List.mem_flatMap.1 needed
      obtain ⟨row, member, same⟩ := List.mem_map.1 inEntry
      obtain ⟨rfl, rfl⟩ := Prod.mk.inj same
      refine headed there (entry.declared_ne_nil_iff.2 ?_)
    · exact Or.inl ⟨row, member⟩
    · exact Or.inr (Or.inl ⟨row, member⟩)
    · exact Or.inr (Or.inr ⟨row, member⟩)

/-- Rows that are told apart in their files by a key are told apart by the name of their file and that key. -/
theorem nodup_flatMap {α β : Type} {entries : List Entry} (distinct : (entries.map fun entry => entry.file.name).Nodup)
    {part : Entry → List α} {key : α → β} (each : ∀ entry ∈ entries, ((part entry).map key).Nodup) :
    ((entries.flatMap fun entry => (part entry).map fun row => (entry.file, row)).map
      fun (file, row) => (file.name, key row)).Nodup := by
  simp only [List.map_flatMap, List.map_map, Function.comp_def]
  refine List.nodup_flatMap.2 ⟨fun entry there => ?_, ?_⟩
  · have named : (part entry).map (fun row => (entry.file.name, key row)) =
        ((part entry).map key).map (Prod.mk entry.file.name) := by simp
    rw [named]
    exact (each entry there).map fun _ _ same => (Prod.mk.inj same).2
  · refine (List.pairwise_map.1 distinct).imp fun {one other} apart => ?_
    rintro ⟨name, _⟩ first second
    obtain ⟨_, -, same⟩ := List.mem_map.1 first
    obtain ⟨_, -, same'⟩ := List.mem_map.1 second
    exact apart ((Prod.mk.inj same).1.trans (Prod.mk.inj same').1.symm)

/-- Rows that name their places in a table are told apart by these. -/
theorem nodup_of_places {α β : Type} {table : List α} {key : α → β} {place : Nat → β}
    (injective : Function.Injective place) (named : ∀ index row, table[index]? = some row → key row = place index) :
    (table.map key).Nodup := by
  have places : table.map key = (List.range table.length).map place := by
    refine List.ext_getElem (by simp) fun index bound _ => ?_
    have inside : index < table.length := by simpa using bound
    simpa using named index _ (List.getElem?_eq_getElem inside)
  rw [places]
  exact List.nodup_range.map injective

theorem count_eq_length {α : Type} (pick : ReportItem → Option α) (items : List ReportItem) :
    items.countP (fun item => (pick item).isSome) = (items.filterMap pick).length :=
  (List.length_filterMap_eq_countP ..).symm

/-- What the report relies on: distinct names, and rows that are at the places that they name. -/
theorem lists_items (distinct : (files.entries.map fun entry => entry.file.name).Nodup)
    (trees : ∀ entry ∈ files.entries, entry.file.ScopeTree) : files.Lists files.items where
  text := printText_eq distinct
  messages := message?_items
  enums := enum?_items
  services := service?_items
  methods := by simp only [filterMap_items, Entry.method?_items, services, List.flatMap_assoc, List.flatMap_map]
  below := methodsBelow_items
  within := headed_items
  ordered := by
    rw [heading?_items]
    exact List.filter_sublist.map Entry.file
  sections _ := mem_heading?_items_iff
  headedOnce := by
    rw [heading?_items, List.map_map]
    exact distinct.sublist (List.filter_sublist.map _)
  messagesOnce := by
    refine nodup_flatMap distinct fun entry there => ?_
    have ids := nodup_of_places (fun _ _ same => MessageId.mk.inj same) (trees entry there).message_id
    exact ids.sublist (List.filter_sublist.map Message.id)
  enumsOnce := by
    refine nodup_flatMap distinct fun entry there => ?_
    have ids := nodup_of_places (fun _ _ same => EnumId.mk.inj same) (trees entry there).enum_id
    exact ids.sublist (List.filter_sublist.map Enum.id)
  summary := by
    rw [count_eq_length, count_eq_length, count_eq_length, message?_items, enum?_items, service?_items, toList,
      List.length_map]
    simp only [printSummary, summary, Summary.lines, printLines, List.map_cons, List.map_nil, String.join,
      List.foldl_cons, List.foldl_nil, String.empty_append, String.append_assoc]

end FileSet

/-- After any commands, failed ones included, the report lists the needed declarations as they are, under the files
that declare them, and the summary has their numbers. -/
theorem Workspace.Command.runAll_lists (commands : List Command) :
    ∃ items, (runAll .empty commands).files.Lists items := by
  have gathered := Gathered.empty.runAll commands
  refine ⟨_, FileSet.lists_items gathered.wellFormed.names_nodup fun entry member => ?_⟩
  obtain ⟨index, at_index⟩ := List.mem_iff_getElem?.1 member
  exact scopeTree_of_parse (gathered.grounded.parsed index entry at_index)

/-- A root file with a service of two methods, and an imported file of which one message is needed. -/
def twoMethods : Workspace.Command :=
  .addRootText (.ofFiles [] [("dep.proto", .ok "package dep; message Used {} message Unused {}")] (Snapshot.disk []))
    "root.proto" "package shop; import \"dep.proto\"; message Item { dep.Used used = 1; enum Kind { NONE = 0; } }
service Shop { rpc Find(Item) returns (stream Item); rpc Sell(stream Item) returns (dep.Used); }"

/-- Both methods stand behind their service, with `stream` before the type that is streamed, and what is not needed
of the imported file is left out. -/
theorem Workspace.Command.runAll_lists_twoMethods :
    ∃ items, (runAll .empty [.setUrlPattern (some "docs/{path}"), twoMethods]).files.Lists items ∧
      (items.filterMap ReportItem.method?).map (fun (_, service, method) => (service.name, method.name)) =
        [("Shop", "Find"), ("Shop", "Sell")] ∧
      String.join (items.map fun item =>
          item.line (runAll .empty [.setUrlPattern (some "docs/{path}"), twoMethods]).files.url? ++ "\n") =
        "root.proto (docs/root.proto)\n" ++
        "  message shop.Item\n" ++
        "  enum shop.Item.Kind\n" ++
        "  service shop.Shop\n" ++
        "    rpc Find(Item) returns (stream Item)\n" ++
        "    rpc Sell(stream Item) returns (dep.Used)\n" ++
        "dep.proto (docs/dep.proto)\n" ++
        "  message dep.Used\n" ∧
      (runAll .empty [.setUrlPattern (some "docs/{path}"), twoMethods]).files.printSummary =
        "files: 2\nmessages: 2\nenums: 1\nservices: 1\n" := by
  obtain ⟨items, lists⟩ := runAll_lists [.setUrlPattern (some "docs/{path}"), twoMethods]
  refine ⟨items, lists, ?_⟩
  rw [lists.methods, ← lists.text]
  decide +kernel

end ProtoSchema
