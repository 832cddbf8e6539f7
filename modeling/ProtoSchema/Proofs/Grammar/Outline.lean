import ProtoSchema.Proofs.Grammar.Basic
import ProtoSchema.Reader

namespace ProtoSchema

namespace Content

@[simp] theorem empty_append (content : Content) : empty.append content = content := by
  simp [append, empty]

@[simp] theorem append_empty (content : Content) : content.append empty = content := by
  simp [append, empty]

theorem append_assoc (a b c : Content) : (a.append b).append c = a.append (b.append c) := by
  simp [append]

@[simp] theorem roomAfter_empty (room : Room) : empty.roomAfter room = room := rfl

@[simp] theorem roomAfter_append (a b : Content) (room : Room) :
    (a.append b).roomAfter room = b.roomAfter (a.roomAfter room) := by
  simp [roomAfter, append, Nat.add_assoc]

end Content

theorem layoutAll_append (scope : Scope) (room : Room) (before after : List Member) :
    layoutAll scope room (before ++ after) =
      (layoutAll scope room before).append (layoutAll scope ((layoutAll scope room before).roomAfter room) after) := by
  induction before generalizing room with
  | nil => simp [layoutAll]
  | cons member before ih => simp [layoutAll, ih, Content.append_assoc]

theorem File.room_add (file : File) (content : Content) : (file.add content).room = content.roomAfter file.room := by
  simp [File.add, File.room, Content.roomAfter]

/-- A body that is being read. `room` is what was free at its beginning. -/
structure Frame where
  head : BodyHead
  scope : Scope
  room : Room
  content : Content

def BodyHead.body : BodyHead → Grammar.Body
  | .extend _ => .extension
  | _ => .members

/-- The scope in a body that is opened in `scope`: only a message has its own. -/
def BodyHead.scope (head : BodyHead) (scope : Scope) (room : Room) : Scope :=
  match head with
  | .message _ => .message ⟨room.messages⟩
  | _ => scope

/-- The places that are free at the beginning of a body. -/
def BodyHead.room (head : BodyHead) (room : Room) : Room :=
  match head with
  | .message _ => ⟨room.messages + 1, room.enums⟩
  | _ => room

/-- The content that a body in `scope` makes of that of its entries. -/
def BodyHead.wrap (head : BodyHead) (scope : Scope) (room : Room) (content : Content) : Content :=
  match head with
  | .message head => content.asMessage head ⟨room.messages⟩ scope
  | .group head => content.asGroup head
  | .extend head => content.asExtension head scope

theorem OpenBody.layout_close (body : OpenBody) (scope : Scope) (room : Room) :
    body.close.layout scope room =
      body.head.wrap scope room (layoutAll (body.head.scope scope room) (body.head.room room) body.members) := by
  obtain ⟨head, members⟩ := body
  cases head <;> rfl

/-- A file so far and the bodies open in it, the innermost one first. -/
structure Outline where
  file : File
  frames : List Frame

namespace Outline

def scope (o : Outline) : Scope :=
  match o.frames with
  | [] => .file
  | frame :: _ => frame.scope

def room (o : Outline) : Room :=
  match o.frames with
  | [] => o.file.room
  | frame :: _ => frame.content.roomAfter frame.room

/-- Puts content into the innermost open body, or into the file. -/
def add (o : Outline) (content : Content) : Outline :=
  match o.frames with
  | [] => { o with file := o.file.add content }
  | frame :: outer => { o with frames := { frame with content := frame.content.append content } :: outer }

def push (o : Outline) (head : BodyHead) : Outline :=
  { o with frames := ⟨head, head.scope o.scope o.room, head.room o.room, .empty⟩ :: o.frames }

@[simp] theorem scope_add (o : Outline) (content : Content) : (o.add content).scope = o.scope := by
  obtain ⟨file, frames⟩ := o
  cases frames <;> rfl

@[simp] theorem room_add (o : Outline) (content : Content) : (o.add content).room = content.roomAfter o.room := by
  obtain ⟨file, frames⟩ := o
  cases frames with
  | nil => exact file.room_add content
  | cons frame outer => exact Content.roomAfter_append ..

@[simp] theorem scope_push (o : Outline) (head : BodyHead) : (o.push head).scope = head.scope o.scope o.room := rfl

@[simp] theorem room_push (o : Outline) (head : BodyHead) : (o.push head).room = head.room o.room := rfl

theorem add_add (o : Outline) (a b : Content) : (o.add a).add b = o.add (a.append b) := by
  obtain ⟨file, frames⟩ := o
  cases frames with
  | nil => simp [add, File.add, Content.append]
  | cons frame outer => simp [add, Content.append_assoc]

theorem add_push (o : Outline) (head : BodyHead) (content : Content) :
    (o.push head).add content =
      { o with frames := ⟨head, head.scope o.scope o.room, head.room o.room, content⟩ :: o.frames } := by
  simp [add, push]

@[simp] theorem add_empty (o : Outline) : o.add .empty = o := by
  obtain ⟨file, frames⟩ := o
  cases frames with
  | nil => simp [add, File.add, Content.empty]
  | cons frame outer => simp [add]

/-- The outline of some open bodies with their members. -/
def ofBodies (file : File) : List OpenBody → Outline
  | [] => ⟨file, []⟩
  | body :: outer =>
    let inner := (ofBodies file outer).push body.head
    inner.add (layoutAll inner.scope inner.room body.members)

@[simp] theorem file_ofBodies (file : File) (bodies : List OpenBody) : (ofBodies file bodies).file = file := by
  induction bodies with
  | nil => rfl
  | cons body outer ih => simp [ofBodies, add_push, ih]

/-- What is open depends on the file no more than by the size of its tables. -/
theorem frames_ofBodies {file other : File} (same : other.room = file.room) (bodies : List OpenBody) :
    (ofBodies other bodies).frames = (ofBodies file bodies).frames := by
  induction bodies with
  | nil => rfl
  | cons body outer ih =>
    have scope : (ofBodies other outer).scope = (ofBodies file outer).scope := by
      rw [Outline.scope, ih, Outline.scope]
    have room : (ofBodies other outer).room = (ofBodies file outer).room := by
      rw [Outline.room, ih, file_ofBodies, same, Outline.room, file_ofBodies]
    simp only [ofBodies, add_push, scope_push, room_push, scope, room, ih]

end Outline

/-- What has been read of the file `name`, laid out. -/
def Site.outline (name : String) (site : Site) : Outline :=
  Outline.ofBodies (File.ofStatements name site.statements) site.bodies

def Statement.leave (file : File) : Statement → File
  | .dialect value => { file with dialect := some value }
  | .package name => { file with package := some name }
  | .imports item => { file with imports := file.imports ++ [item] }
  | .service decl => { file with services := file.services ++ [decl.layout] }
  | .member declared => file.add (declared.layout .file file.room)

theorem File.ofStatements_append (name : String) (statements : List Statement) (statement : Statement) :
    ofStatements name (statements ++ [statement]) = statement.leave (ofStatements name statements) := by
  have members : (statements ++ [statement]).filterMap Statement.member? =
      statements.filterMap Statement.member? ++ statement.member?.toList := by
    cases statement <;> simp [Statement.member?]
  dsimp only [ofStatements]
  rw [members, layoutAll_append]
  cases statement <;>
    simp [lastOf, Statement.dialect?, Statement.package?, Statement.imported?, Statement.service?,
      Statement.member?, Statement.leave, layoutAll, Content.append, Content.empty, File.add, Content.roomAfter,
      File.room]

namespace Site

variable (name : String) (site : Site)

@[simp] theorem outline_push (head : BodyHead) : (site.push head).outline name = (site.outline name).push head := by
  simp [push, outline, Outline.ofBodies, layoutAll]

@[simp] theorem outline_add (member : Member) :
    (site.add member).outline name =
      (site.outline name).add (member.layout (site.outline name).scope (site.outline name).room) := by
  obtain ⟨statements, bodies⟩ := site
  cases bodies with
  | nil =>
    simp [add, outline, Outline.ofBodies, File.ofStatements_append, Statement.leave, Outline.add, Outline.scope,
      Outline.room]
  | cons body outer => simp [add, outline, Outline.ofBodies, layoutAll_append, layoutAll, Outline.add_add]

theorem outline_addStatement {statement : Statement}
    (same : (statement.leave (site.outline name).file).room = (site.outline name).file.room) :
    (site.addStatement statement).outline name =
      { site.outline name with file := statement.leave (site.outline name).file } := by
  have file : (site.outline name).file = File.ofStatements name site.statements := Outline.file_ofBodies ..
  rw [file] at same ⊢
  rw [← File.ofStatements_append] at same ⊢
  have frames := Outline.frames_ofBodies same site.bodies
  have added := Outline.file_ofBodies (File.ofStatements name (site.statements ++ [statement])) site.bodies
  have whole : (site.addStatement statement).outline name =
      ⟨((site.addStatement statement).outline name).file, ((site.addStatement statement).outline name).frames⟩ := rfl
  have atFile : ((site.addStatement statement).outline name).file = _ := added
  have atFrames : ((site.addStatement statement).outline name).frames = _ := frames
  rw [whole, atFile, atFrames]
  rfl

end Site

end ProtoSchema
