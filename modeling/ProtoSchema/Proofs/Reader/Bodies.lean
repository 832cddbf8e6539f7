import ProtoSchema.Proofs.Reader.Entry

namespace ProtoSchema

open Grammar Remainder Token
open Outline (Rest)

variable {t : Token} {us ts : List Token} {file last : File} {frame : Frame} {outer : List Frame}

theorem rest_top : Rest ⟨file, []⟩ (t :: ts) last ↔
    phrase (fun us => Toplevel file (t :: us)) (fun next => Rest ⟨next, []⟩) ts last := by
  rw [← phrase_cons fun next first => first.ne_nil rfl]
  constructor
  · intro rest
    generalize spelled : t :: ts = tokens at rest
    cases rest with
    | done => cases spelled
    | statement first rest => exact ⟨_, _, _, rfl, first, rest⟩
  · rintro ⟨us, next, rest, whole, first, more⟩
    rw [whole]
    exact .statement first more

/-- What comes after the tokens of a part that begins with `t`. -/
def Outline.follow (o : Outline) (part : Part) (t : Token) : Remainder :=
  phrase (fun us => Derives part o.scope o.room (t :: us)) fun content => Rest (o.add content)

theorem rest_frame : Rest ⟨file, frame :: outer⟩ (t :: ts) last ↔
    t.is "\x7d" ∧ Rest (Outline.add ⟨file, outer⟩ (frame.head.wrap (Outline.scope ⟨file, outer⟩)
      (Outline.room ⟨file, outer⟩) frame.content)) ts last ∨
    Outline.follow ⟨file, frame :: outer⟩ (.entry frame.head.body) t ts last := by
  rw [Outline.follow, ← phrase_cons fun content first => first.entry_ne_nil rfl]
  constructor
  · intro rest
    generalize spelled : t :: ts = tokens at rest
    cases rest with
    | entry first rest => exact Or.inr ⟨_, _, _, rfl, first, rest⟩
    | close closes rest =>
      cases spelled
      exact Or.inl ⟨closes, rest⟩
  · rintro (⟨closes, more⟩ | ⟨us, content, rest, whole, first, more⟩)
    · exact .close closes more
    · rw [whole]
      exact .entry first more

theorem rest_opened : Rest ⟨file, frame :: outer⟩ ts last ↔
    phrase (Derives (.entries frame.head.body) frame.scope (frame.content.roomAfter frame.room))
      (fun content => one (·.is "\x7d") fun _ => Rest (Outline.add ⟨file, outer⟩
        (frame.head.wrap (Outline.scope ⟨file, outer⟩) (Outline.room ⟨file, outer⟩)
          (frame.content.append content)))) ts last := by
  constructor
  · intro rest
    -- Each entry grows the frame, so the frame varies along the induction while what is outside stays.
    generalize opened : (⟨file, frame :: outer⟩ : Outline) = o at rest
    induction rest generalizing frame with
    | done => cases opened
    | statement => cases opened
    | @entry file last _ outer us ts content first rest ih =>
      cases opened
      obtain ⟨vs, others, more, rfl, derives, closed⟩ := ih rfl
      refine ⟨us ++ vs, content.append others, more, by simp, .cons first ?_, ?_⟩
      · simpa using derives
      · simpa [Content.append_assoc] using closed
    | close closes rest =>
      cases opened
      exact ⟨[], .empty, _, rfl, .nil, _, _, rfl, closes, by simpa using rest⟩
  · rintro ⟨us, content, more, rfl, derives, closed⟩
    generalize same : Part.entries frame.head.body = part at derives
    generalize here : frame.scope = scope at derives
    generalize free : frame.content.roomAfter frame.room = room at derives
    induction derives generalizing frame with
    | nil =>
      obtain ⟨right, rest, rfl, closes, rest'⟩ := closed
      exact .close closes (by simpa using rest')
    | @cons body scope room us vs first rest entry _ _ ih =>
      cases same
      subst here free
      have later : Rest ⟨file, { frame with content := frame.content.append first } :: outer⟩ (vs ++ more) last := by
        refine ih ?_ rfl rfl (by simp)
        simpa [Content.append_assoc] using closed
      rw [List.append_assoc]
      exact .entry entry later
    | _ => cases same

theorem rest_push (o : Outline) (head : BodyHead) : Rest (o.push head) ts last ↔
    phrase (Derives (.entries head.body) (head.scope o.scope o.room) (head.room o.room))
      (fun content => one (·.is "\x7d") fun _ => Rest (o.add (head.wrap o.scope o.room content))) ts last := by
  rw [Outline.push, rest_opened]
  simp

namespace Reader

variable {name : String} {site : Site}

theorem follow_message (keyword : t.is "message") : (site.outline name).follow .declaration t ts last ↔
    stageRest name site (.title (.message t.mark)) ts last := by
  have inner (title : Token) : settled name (openTitled ⟨site, .entry .site⟩ (.message t.mark) title.text) =
      Rest ((site.outline name).push (.message ⟨t.mark, title.text⟩)) :=
    congrArg Rest (site.outline_push name _)
  simp only [stageRest, opens, inner]
  constructor
  · rintro ⟨us, content, rest, rfl, derives, more⟩
    cases derives with
    | @message _ _ _ title left right ts content spelled identifier opens body closes =>
      refine ⟨title, _, rfl, identifier, left, _, rfl, opens, (rest_push _ _).2 ?_⟩
      exact ⟨ts, content, right :: rest, by simp, body, right, rest, rfl, closes, more⟩
    | enum block =>
      cases block with
      | mk spelled =>
        exact absurd (is_inj keyword spelled) (by decide)
    | extend spelled =>
      exact absurd (is_inj keyword spelled) (by decide)
  · rintro ⟨title, _, rfl, identifier, left, _, rfl, opens, pushed⟩
    obtain ⟨us, content, _, rfl, body, right, rest, rfl, closes, more⟩ := (rest_push _ _).1 pushed
    exact ⟨title :: left :: (us ++ [right]), _, rest, by simp, .message keyword identifier opens body closes, more⟩

theorem follow_enum (keyword : t.is "enum") : (site.outline name).follow .declaration t ts last ↔
    stageRest name site (.title (.enum t.mark)) ts last := by
  have inner (title : Token) : settled name (openTitled ⟨site, .entry .site⟩ (.enum t.mark) title.text) =
      (Block.enum ⟨t.mark, title.text, []⟩).rest (site.outline name) := rfl
  simp only [stageRest, opens, inner]
  constructor
  · rintro ⟨us, content, rest, rfl, derives, more⟩
    cases derives with
    | message spelled =>
      exact absurd (is_inj keyword spelled) (by decide)
    | @enum _ _ _ title _ values block =>
      cases block with
      | @mk _ _ left right ts _ spelled identifier opens body closes =>
        exact ⟨title, _, rfl, identifier, left, _, rfl, opens, ts, values, right :: rest, by simp, body, right, rest,
          rfl, closes, more⟩
    | extend spelled =>
      exact absurd (is_inj keyword spelled) (by decide)
  · rintro ⟨title, _, rfl, identifier, left, _, rfl, opens, us, values, _, rfl, body, right, rest, rfl, closes, more⟩
    exact ⟨title :: left :: (us ++ [right]), _, rest, by simp, .enum (.mk keyword identifier opens body closes), more⟩

theorem follow_extend (keyword : t.is "extend") : (site.outline name).follow .declaration t ts last ↔
    stageRest name site (.extendee t.comment) ts last := by
  have inner (head : ExtendHead) : settled name ⟨site.push (.extend head), .entry .site⟩ =
      Rest ((site.outline name).push (.extend head)) :=
    congrArg Rest (site.outline_push name _)
  simp only [stageRest, extension, inner]
  constructor
  · rintro ⟨us, content, rest, rfl, derives, more⟩
    cases derives with
    | message spelled =>
      exact absurd (is_inj keyword spelled) (by decide)
    | enum block =>
      cases block with
      | mk spelled =>
        exact absurd (is_inj keyword spelled) (by decide)
    | @extend _ _ _ extendee left right ts content spelled typed opens body closes =>
      refine ⟨extendee, _, rfl, typed, left, _, rfl, opens, (rest_push _ _).2 ?_⟩
      exact ⟨ts, content, right :: rest, by simp, body, right, rest, rfl, closes, more⟩
  · rintro ⟨extendee, _, rfl, typed, left, _, rfl, opens, pushed⟩
    obtain ⟨us, content, _, rfl, body, right, rest, rfl, closes, more⟩ := (rest_push _ _).1 pushed
    exact ⟨extendee :: left :: (us ++ [right]), _, rest, by simp, .extend keyword typed opens body closes, more⟩

/-- What follows the type of a field and the content that it makes. -/
def Typed (scope : Scope) (room : Room) (comment : Option String) (cardinality : Cardinality) (type : String)
    (ts : List Token) (content : Content) : Prop :=
  (type ≠ "group" ∧ ∃ title n, Tail false ";" ts title n ∧
    content = .ofField (.simple ⟨title.text, comment, cardinality, ⟨type, scope⟩, n⟩)) ∨
  (type = "group" ∧ ∃ us vs right title n inner, ts = us ++ (vs ++ [right]) ∧ Tail false "\x7b" us title n ∧
    Derives (.entries .members) scope room vs inner ∧ right.is "\x7d" ∧
    content = inner.asGroup ⟨comment, cardinality, title.text, n⟩)

theorem derives_field_iff {scope : Scope} {room : Room} {content : Content} :
    Derives .field scope room ts content ↔ ∃ lead us comment cardinality type, ts = lead ++ us ∧
      Lead lead comment cardinality type ∧ Typed scope room comment cardinality type us content := by
  constructor
  · intro derives
    cases derives with
    | simple begins other tail => exact ⟨_, _, _, _, _, rfl, begins, Or.inl ⟨other, _, _, tail, rfl⟩⟩
    | group begins tail body closes =>
      exact ⟨_, _, _, _, _, rfl, begins, Or.inr ⟨rfl, _, _, _, _, _, _, rfl, tail, body, closes, rfl⟩⟩
  · rintro ⟨lead, us, comment, cardinality, type, rfl, begins, typed⟩
    rcases typed with ⟨other, title, n, tail, rfl⟩ |
      ⟨rfl, us, vs, right, title, n, inner, rfl, tail, body, closes, rfl⟩
    · exact .simple begins other tail
    · exact .group begins tail body closes

/-- The reader goes on after the type of a field as the grammar does. -/
theorem named_typed_iff (comment : Option String) (cardinality : Cardinality) (type : String) :
    named name site (typed comment cardinality type) ts last ↔
      phrase (Typed (site.outline name).scope (site.outline name).room comment cardinality type)
        (fun content => Rest ((site.outline name).add content)) ts last := by
  rw [named_iff]
  by_cases group : type = "group"
  · have inner (title : Token) (n : Int) :
        settled name (complete ⟨site, .entry .site⟩ (.group comment cardinality) title.text n) =
          Rest ((site.outline name).push (.group ⟨comment, cardinality, title.text, n⟩)) :=
      congrArg Rest (site.outline_push name _)
    simp only [typed, group, if_true, inner]
    constructor
    · rintro ⟨us, title, n, _, rfl, tail, pushed⟩
      obtain ⟨vs, content, _, rfl, body, right, rest, rfl, closes, more⟩ := (rest_push _ _).1 pushed
      refine ⟨us ++ (vs ++ [right]), _, rest, by simp, Or.inr ⟨rfl, us, vs, right, title, n, content, rfl, tail, ?_⟩, more⟩
      exact ⟨body, closes, rfl⟩
    · rintro ⟨_, _, rest, rfl, typed, more⟩
      rcases typed with ⟨other, _⟩ | ⟨_, us, vs, right, title, n, content, rfl, tail, body, closes, rfl⟩
      · exact absurd rfl other
      · refine ⟨us, title, n, vs ++ right :: rest, by simp, tail, (rest_push _ _).2 ?_⟩
        exact ⟨vs, content, right :: rest, rfl, body, right, rest, rfl, closes, more⟩
  · have inner (title : Token) (n : Int) :
        settled name (complete ⟨site, .entry .site⟩ (.field comment cardinality type) title.text n) =
          Rest ((site.outline name).add (.ofField (.simple ⟨title.text, comment, cardinality,
            ⟨type, (site.outline name).scope⟩, n⟩))) :=
      congrArg Rest (site.outline_add name _)
    simp only [typed, group, if_false, inner]
    constructor
    · rintro ⟨us, title, n, rest, rfl, tail, more⟩
      exact ⟨us, _, rest, rfl, Or.inl ⟨group, title, n, tail, rfl⟩, more⟩
    · rintro ⟨us, _, rest, rfl, typed, more⟩
      rcases typed with ⟨_, title, n, tail, rfl⟩ | ⟨same, _⟩
      · exact ⟨us, title, n, rest, rfl, tail, more⟩
      · exact absurd same group

theorem cardinality?_eq_some {cardinality : Cardinality} :
    cardinality? t = some cardinality ↔ ∃ word, (word, cardinality) ∈ modifiers ∧ t.is word := by
  have listed : (∃ word, (word, cardinality) ∈ modifiers ∧ t.is word) ↔ cardinality = .required ∧ t.is "required" ∨
      cardinality = .optional ∧ t.is "optional" ∨ cardinality = .repeated ∧ t.is "repeated" := by
    simp [modifiers, or_and_right, exists_or, and_assoc]
  rw [listed]
  unfold cardinality?
  by_cases required : t.is "required"
  · cases cardinality <;> simp [is_eq required]
  by_cases optional : t.is "optional"
  · cases cardinality <;> simp [is_eq optional]
  by_cases repeated : t.is "repeated"
  · cases cardinality <;> simp [is_eq repeated]
  · simp [required, optional, repeated]

theorem cardinality?_eq_none : cardinality? t = none ↔ ¬ t.isAny (modifiers.map Prod.fst) := by
  unfold cardinality?
  by_cases required : t.is "required"
  · simp [required, modifiers, isAny]
  by_cases optional : t.is "optional"
  · simp [required, optional, modifiers, isAny]
  by_cases repeated : t.is "repeated"
  · simp [required, optional, repeated, modifiers, isAny]
  · simp [required, optional, repeated, modifiers, isAny]

theorem follow_field (stage : Stage) : (site.outline name).follow .field t ts last ↔
    Leads name (beginField ⟨site, stage⟩ t) ts last := by
  unfold beginField
  cases known : cardinality? t with
  | some cardinality =>
    simp only [leads_go, stageRest]
    constructor
    · rintro ⟨us, content, rest, rfl, derives, more⟩
      obtain ⟨lead, vs, comment, other, type, whole, begins, typed⟩ := derives_field_iff.1 derives
      cases begins with
      | unmarked bare =>
        cases whole
        rw [cardinality?_eq_none.2 bare] at known
        cases known
      | @marked _ type _ _ listed spelled word =>
        cases whole
        rw [cardinality?_eq_some.2 ⟨_, listed, spelled⟩] at known
        cases known
        exact ⟨type, vs ++ rest, rfl, word, (named_typed_iff _ _ _).2 ⟨vs, content, rest, rfl, typed, more⟩⟩
    · rintro ⟨type, _, rfl, word, named⟩
      obtain ⟨us, content, rest, rfl, typed, more⟩ := (named_typed_iff _ _ _).1 named
      obtain ⟨text, listed, spelled⟩ := cardinality?_eq_some.1 known
      refine ⟨type :: us, content, rest, rfl, derives_field_iff.2 ?_, more⟩
      exact ⟨[t, type], us, _, _, _, rfl, .marked listed spelled word, typed⟩
  | none =>
    simp only [leads_typeName, afterType_eq, stageRest]
    constructor
    · rintro ⟨us, content, rest, rfl, derives, more⟩
      obtain ⟨lead, vs, comment, other, type, whole, begins, typed⟩ := derives_field_iff.1 derives
      cases begins with
      | unmarked bare word =>
        cases whole
        exact ⟨word, (named_typed_iff _ _ _).2 ⟨vs, content, rest, rfl, typed, more⟩⟩
      | marked listed spelled =>
        cases whole
        rw [cardinality?_eq_some.2 ⟨_, listed, spelled⟩] at known
        cases known
    · rintro ⟨word, named⟩
      obtain ⟨us, content, rest, rfl, typed, more⟩ := (named_typed_iff _ _ _).1 named
      refine ⟨us, content, rest, rfl, derives_field_iff.2 ?_, more⟩
      exact ⟨[t], us, _, _, _, rfl, .unmarked (cardinality?_eq_none.1 known) word, typed⟩

end Reader

end ProtoSchema
