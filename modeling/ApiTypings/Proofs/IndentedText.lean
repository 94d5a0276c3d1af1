import ApiTypings.Proofs.CommentBlocks
import ApiTypings.Proofs.TypeText
import ApiTypings.Proofs.ValueText

/-! # Text at a deeper level

What is written at a deeper level is what is written at an outer one, with one more tab behind every
line feed for each level between the two. The texts are compared piece by piece. A piece may end
right behind a line feed, where the tabs of the next line are still to come, so a piece is told by
where it begins and where it ends, and the tabs that one leaves out are written by the next. A name
with a line feed in it would go on without tabs, so there must be none. -/

namespace ApiTypings

/-! ## Lines with more tabs -/

namespace Page

/-- So many tabs of typings. -/
def tabs (n : Nat) : String := String.join (List.replicate n empty.tab)

theorem tabs_add (m n : Nat) : tabs (m + n) = tabs n ++ tabs m := by
  rw [Nat.add_comm, tabs, List.replicate_add, String.join_append]
  rfl

theorem not_mem_tabs (n : Nat) : '\n' ∉ (tabs n).toList :=
  fun h => absurd (eq_space_of_mem_indentation "" n _ h) (by decide)

/-- The text with so many more tabs behind every line feed. -/
def indentLines (n : Nat) (cs : List Char) : List Char :=
  cs.flatMap fun c => if c = '\n' then c :: (tabs n).toList else [c]

@[simp] theorem indentLines_append (n : Nat) (cs ds : List Char) :
    indentLines n (cs ++ ds) = indentLines n cs ++ indentLines n ds := List.flatMap_append

theorem indentLines_of_not_mem {n : Nat} {cs : List Char} (h : '\n' ∉ cs) :
    indentLines n cs = cs := by
  induction cs with
  | nil => rfl
  | cons c cs ih =>
    rw [List.mem_cons, not_or] at h
    have hline := ih h.2
    rw [indentLines] at hline ⊢
    rw [List.flatMap_cons, if_neg (Ne.symm h.1), hline, List.singleton_append]

def indented (n : Nat) (text : String) : String := String.ofList (indentLines n text.toList)

end Page

/-! ## Code at a deeper level -/

namespace Code

open Page

variable {ε : Type}

/-- Where a piece of text begins or ends: at the margin, with the tabs of the line still to come, or
inside a line. -/
inductive Spot where
  | margin
  | inside

/-- The tabs that are still to come at the spot when it is so much deeper. -/
def Spot.due (n : Nat) : Spot → List Char
  | margin => (tabs n).toList
  | inside => []

/-- The code writes from one spot to the other, and writes the same text at any deeper level, but
for the tabs behind line feeds. -/
def Indents (a : Code ε) (p q : Spot) : Prop :=
  ∀ (level n : Nat) (before before' : String), ∃ s t,
    a.AddsText (.typings before level) s ∧ a.AddsText (.typings before' (level + n : Nat)) t ∧
      t.toList ++ q.due n = p.due n ++ indentLines n s.toList

section
variable {a b : Code ε} {p q r : Spot} {s : String}

theorem Indents.append (ha : a.Indents p q) (hb : b.Indents q r) : (a ++ b).Indents p r := by
  intro level n before before'
  obtain ⟨s, t, hs, ht, hfirst⟩ := ha level n before before'
  obtain ⟨s', t', hs', ht', hsecond⟩ := hb level n (before ++ s) (before' ++ t)
  refine ⟨s ++ s', t ++ t', hs.append hs', ht.append ht', ?_⟩
  calc (t ++ t').toList ++ r.due n
      = t.toList ++ (t'.toList ++ r.due n) := by simp
    _ = (t.toList ++ q.due n) ++ indentLines n s'.toList := by simp [hsecond]
    _ = p.due n ++ indentLines n (s ++ s').toList := by simp [hfirst]

/-- One level is added on both pages. -/
theorem Indents.nest (h : a.Indents p q) : (nest a).Indents p q := by
  intro level n before before'
  obtain ⟨s, t, hs, ht, hst⟩ := h (level + 1) n before before'
  rw [Nat.add_right_comm] at ht
  exact ⟨s, t, AddsText.nest hs, AddsText.nest ht, hst⟩

theorem indents_nil : (nil : Code ε).Indents p p :=
  fun _ _ _ _ => ⟨"", "", addsText_nil _, addsText_nil _, by simp [indentLines]⟩

theorem indents_text (h : '\n' ∉ s.toList) : (text s : Code ε).Indents .inside .inside :=
  fun _ _ _ _ => ⟨s, s, rfl, rfl, by simp [Spot.due, indentLines_of_not_mem h]⟩

theorem indents_newLine : (newLine : Code ε).Indents .inside .margin :=
  fun _ _ _ _ => ⟨"\n", "\n", rfl, rfl, by simp [Spot.due, indentLines]⟩

theorem indents_indent : (indent : Code ε).Indents .margin .inside := by
  intro level n _ _
  refine ⟨tabs level, tabs (level + n), rfl, rfl, ?_⟩
  simp [Spot.due, tabs_add, indentLines_of_not_mem (not_mem_tabs level)]

/-! ### Lines -/

theorem indents_beginLine (h : '\n' ∉ s.toList) : (beginLine s : Code ε).Indents .margin .inside :=
  indents_indent.append (indents_text h)

theorem indents_endLine (h : '\n' ∉ s.toList) : (endLine s : Code ε).Indents .inside .margin :=
  (indents_text h).append indents_newLine

theorem indents_line (h : '\n' ∉ s.toList) : (line s : Code ε).Indents .margin .margin :=
  (indents_beginLine h).append indents_newLine

theorem indents_beginNewLine (h : '\n' ∉ s.toList) :
    (beginNewLine s : Code ε).Indents .inside .inside :=
  indents_newLine.append (indents_beginLine h)

theorem indents_all {pieces : List (Code ε)} (h : ∀ piece ∈ pieces, piece.Indents p p) :
    (all pieces).Indents p p := by
  induction pieces with
  | nil => exact indents_nil
  | cons piece rest ih =>
    obtain ⟨hpiece, hrest⟩ := List.forall_mem_cons.mp h
    exact hpiece.append (ih hrest)

/-! ### Constructs -/

theorem indents_anonymousType (h : a.Indents .margin .margin) :
    (anonymousType a).Indents .inside .inside :=
  ((indents_endLine (by decide)).append h.nest).append (indents_beginLine (by decide))

theorem indents_scope {opening closing : String} (ho : '\n' ∉ opening.toList)
    (hc : '\n' ∉ closing.toList) (h : a.Indents .inside .inside) :
    (scope a opening closing).Indents .inside .inside :=
  (((indents_text ho).append h.nest).append indents_newLine).append (indents_beginLine hc)

theorem not_mem_of_mem_lines {description line : String} (h : line ∈ DocComment.lines description) :
    '\n' ∉ line.toList :=
  fun hn => absurd (DocComment.clean_of_mem_lines h _ hn).2.1 (by decide)

/-- Whatever the description, every line of its comment is a line of its own. -/
theorem indents_comment (description : String) :
    (comment description true : Code ε).Indents .margin .margin := by
  unfold comment
  split
  · exact indents_nil
  next single hl =>
    have hsingle := not_mem_of_mem_lines (hl ▸ List.mem_singleton_self single)
    exact indents_line (by simp [hsingle])
  · refine ((indents_line (by decide)).append (indents_all fun piece hp => ?_)).append
      (indents_line (by decide))
    obtain ⟨line, hl, rfl⟩ := List.mem_map.mp hp
    refine indents_line ?_
    split
    · decide
    · simp [not_mem_of_mem_lines hl]

/-- Text that begins and ends inside a line, at the outermost level and so many levels deeper. -/
theorem Indents.run (h : a.Indents .inside .inside) (n : Nat) (before before' : String) :
    ∃ text, a.run (.typings before 0) = ((typings before 0).append text, none) ∧
      a.run (.typings before' n) = ((typings before' n).append (indented n text), none) := by
  obtain ⟨text, deep, htext, hdeep, heq⟩ := h 0 n before before'
  have hdeep' : deep = indented n text := by
    apply String.toList_injective
    simpa [Spot.due, indented] using heq
  rw [Nat.zero_add, hdeep'] at hdeep
  exact ⟨text, htext, hdeep⟩

end

end Code

theorem Naming.not_mem_memberName {name : String} (h : '\n' ∉ name.toList) :
    '\n' ∉ (memberName name).toList := by
  unfold memberName
  split <;> simp [h]

theorem MemberKey.not_mem_head {name : String} (h : '\n' ∉ name.toList) (required : Bool) :
    '\n' ∉ (head name required).toList := by
  have hname := Naming.not_mem_memberName h
  cases required <;> simp [head, hname]

/-! ## Types -/

namespace TypeExpr

variable {ε : Type}

/-- The type indents the lines of its code, and what is written inline has one line only. -/
structure Indents (ε : Type) (type : TypeExpr) : Prop where
  code : (type.code : Code ε).Indents .inside .inside
  inline : ∀ text, type = .inline text → '\n' ∉ text.toList

theorem indents_inline {text : String} (h : '\n' ∉ text.toList) : (inline text).Indents ε where
  code := by
    rw [TypeExpr.code]
    exact Code.indents_text h
  inline := by
    rintro _ ⟨⟩
    exact h

/-- A type between a heading and a closing angle. -/
theorem indents_angles {heading : String} {type : TypeExpr} (hh : '\n' ∉ heading.toList)
    (ht : type.Indents ε) :
    (Code.text heading ++ type.code ++ Code.text ">" : Code ε).Indents .inside .inside :=
  ((Code.indents_text hh).append ht.code).append (Code.indents_text (by decide))

theorem indents_arrayOf {item : TypeExpr} (h : item.Indents ε) : (arrayOf item).Indents ε := by
  by_cases hinline : ∃ text, item = .inline text
  · obtain ⟨text, rfl⟩ := hinline
    exact indents_inline (by simp [h.inline text rfl])
  · have hblock : ∀ text, item ≠ .inline text := fun text heq => hinline ⟨text, heq⟩
    rw [arrayOf_of_block hblock]
    refine ⟨?_, nofun⟩
    rw [TypeExpr.code]
    exact indents_angles (by decide) h

theorem indents_record {value : TypeExpr} (h : value.Indents ε) : (record value).Indents ε where
  code := by
    rw [TypeExpr.code]
    exact indents_angles (by decide) h
  inline := nofun

theorem indents_property {name : String} {type : TypeExpr} (hn : '\n' ∉ name.toList)
    (ht : type.Indents ε) (required : Bool) :
    (Code.property name type.operand required : Code ε).Indents .margin .margin := by
  have hhead := MemberKey.not_mem_head hn required
  cases type with
  | inline text =>
    have hline : '\n' ∉ (MemberKey.head name required ++ text ++ ";").toList := by
      simp [hhead, ht.inline text rfl]
    exact Code.indents_line hline
  | array | object | record =>
    exact ((Code.indents_beginLine hhead).append ht.code).append (Code.indents_endLine (by decide))

/-- The name of the member keeps to its line, and its type indents the lines of its code. -/
def IndentsMember (ε : Type) (field : Field TypeExpr) : Prop :=
  '\n' ∉ field.name.toList ∧ field.type.Indents ε

theorem indents_fieldsCode {fields : List (Field TypeExpr)}
    (h : ∀ field ∈ fields, IndentsMember ε field) :
    (fieldsCode fields : Code ε).Indents .margin .margin := by
  induction fields with
  | nil =>
    rw [fieldsCode]
    exact Code.indents_nil
  | cons field rest ih =>
    obtain ⟨⟨hname, htype⟩, hrest⟩ := List.forall_mem_cons.mp h
    rw [fieldsCode_cons]
    have hfield := (Code.indents_comment (field.description.getD "")).append
      (indents_property hname htype field.required)
    exact hfield.append (ih hrest)

theorem indents_object {fields : List (Field TypeExpr)}
    (h : ∀ field ∈ fields, IndentsMember ε field) : (object fields).Indents ε where
  code := by
    rw [TypeExpr.code]
    exact Code.indents_anonymousType (indents_fieldsCode h)
  inline := nofun

end TypeExpr

/-! ## Schemas -/

/-- The kind, the reference or the property names of the shape itself. -/
def Shape.names {α : Type} : Shape α → List String
  | .primitive kind _ => [kind]
  | .reference name => [name]
  | .object properties _ => Entries.keys properties
  | .array _ | .map _ => []

namespace Schema

variable {s t : Schema}

def names (s : Schema) : List String :=
  match s.shape with
  | .ok shape => shape.names
  | .error _ => []

/-- No name and no kind holds a line feed, at any depth. -/
def OnLines (s : Schema) : Prop := ∀ t, s.Spans t → ∀ name ∈ t.names, '\n' ∉ name.toList

theorem OnLines.part (h : s.OnLines) (hp : s.Part t) : t.OnLines := fun u hu => h u (hu.head hp)

theorem OnLines.names {shape : Shape Schema} (h : s.OnLines) (hs : s.shape = .ok shape) :
    ∀ name ∈ shape.names, '\n' ∉ name.toList := by
  have hnames := h s .refl
  rwa [Schema.names, hs] at hnames

end Schema

namespace StructuralType

variable {ε : Type} {table : SchemaTable} {s : Schema} {form : StructuralType}

theorem not_mem_primitiveName {kind : String} (h : '\n' ∉ kind.toList) :
    '\n' ∉ (TypeExpr.primitiveName kind).toList := by
  unfold TypeExpr.primitiveName
  split
  · decide
  · split
    · decide
    · exact h

/-- The type of a schema indents its lines, however deep the nesting. -/
theorem indents_of_schema (h : ofSchema table s = .ok form) (hn : s.OnLines) :
    form.expr.Indents ε := by
  induction s using Schema.shapeInduction generalizing form with
  | step s ih =>
    obtain ⟨shape, hs, hforms⟩ := forms_of_ofSchema h
    have hnames := hn.names hs
    have hparts : ∀ t ∈ shape.parts, ∀ part, ofSchema table t = .ok part → part.expr.Indents ε :=
      fun t ht part hp => ih shape hs t ht hp (hn.part ⟨shape, hs, ht⟩)
    cases hforms with
    | one kind =>
      rw [expr]
      exact TypeExpr.indents_inline (not_mem_primitiveName (hnames kind (by simp [Shape.names])))
    | oneOrMany kind =>
      have hkind := not_mem_primitiveName (hnames kind (by simp [Shape.names]))
      rw [expr]
      exact TypeExpr.indents_inline (by simp [hkind])
    | array hitem =>
      rw [expr]
      exact TypeExpr.indents_arrayOf (hparts _ (List.mem_singleton_self _) _ hitem)
    | map hvalue =>
      rw [expr]
      exact TypeExpr.indents_record (hparts _ (List.mem_singleton_self _) _ hvalue)
    | any =>
      rw [expr]
      exact TypeExpr.indents_inline (by decide)
    | interface =>
      rw [expr]
      exact TypeExpr.indents_inline (hnames _ (List.mem_singleton_self _))
    | @object properties additional fields index hf hi =>
      rw [expr_object, fieldExprs_eq_map]
      refine TypeExpr.indents_object (List.forall_mem_append.mpr
        ⟨List.forall_mem_map.mpr fun field hfield => ?_, List.forall_mem_map.mpr fun type ht => ?_⟩)
      · obtain ⟨e, he, type, htype, rfl⟩ :=
          Outcomes.exists_right_of_mem (fieldsOf_eq_ok hf).flip hfield
        have he := Entries.mem_sortByKey.mp he
        exact ⟨hnames e.1 (List.mem_map_of_mem he),
          hparts e.2 (List.mem_append_left _ (List.mem_map_of_mem he)) type htype⟩
      · obtain rfl := Option.mem_toList.mp ht
        obtain ⟨t, rfl, htype⟩ := Option.map_eq_some_iff.mp hi
        have hindex : '\n' ∉ indexSignature.toList := by decide
        exact ⟨hindex, hparts t (by simp [Shape.parts]) type htype⟩

end StructuralType

/-! ## Values -/

namespace Stub

open SchemaTable

variable {ε : Type} {table : SchemaTable} {path : List String} {s : Schema}

namespace Value

/-- The value indents the lines of its code. -/
def Indents (ε : Type) (value : Value) : Prop := (value.code : Code ε).Indents .inside .inside

theorem indents_undefined : Indents ε .undefined := by
  rw [Indents, code]
  exact Code.indents_text (by decide)

theorem indents_literal (l : Literal) : Indents ε (.literal l) := by
  rw [Indents, code]
  cases l <;> exact Code.indents_text (by decide)

theorem indents_array {item : Value} (h : item.Indents ε) : Indents ε (.array item) := by
  rw [Indents, code]
  exact Code.indents_scope (by decide) (by decide)
    ((Code.indents_beginNewLine (by decide)).append h)

theorem indents_entry {value : Value} (h : value.Indents ε) : Indents ε (.entry value) := by
  rw [Indents, code]
  exact Code.indents_scope (by decide) (by decide)
    ((Code.indents_beginNewLine (by decide)).append h)

theorem indents_object {members : List (String × Value)}
    (h : ∀ m ∈ members, '\n' ∉ m.1.toList ∧ m.2.Indents ε) : Indents ε (.object members) := by
  have hmembers : (membersCode members : Code ε).Indents .inside .inside := by
    induction members with
    | nil =>
      rw [membersCode]
      exact Code.indents_nil
    | cons member rest ih =>
      obtain ⟨⟨hname, hvalue⟩, hrest⟩ := List.forall_mem_cons.mp h
      have hname := Naming.not_mem_memberName hname
      have hcomma := hvalue.append (Code.indents_text (s := ",") (by decide))
      rw [membersCode]
      exact ((Code.indents_beginNewLine (by simp [hname])).append hcomma).append (ih hrest)
  rw [Indents, code]
  exact Code.indents_scope (by decide) (by decide) hmembers

end Value

/-- The value of an expansion indents its lines, however its references run. -/
theorem Expands.indents {e : Expansion} (h : Expands table path s e) (hs : s.OnLines)
    (ht : ∀ e ∈ table, e.2.OnLines) : e.value.Indents ε := by
  have hnames {path' : List String} {t : Schema} (hv : Visits table (path, s) (path', t)) :
      t.OnLines := by
    rcases spans_of_visits hv with hspan | ⟨entry, he, hspan⟩
    · exact fun u hu => hs u (hspan.trans hu)
    · exact fun u hu => ht entry he u (hspan.trans hu)
  exact h.value_induction (K := fun name => '\n' ∉ name.toList) Value.indents_undefined
    Value.indents_literal (fun _ => Value.indents_array) (fun _ => Value.indents_entry)
    (fun _ => Value.indents_object) fun _ _ hv _ _ hshape => (hnames hv).names hshape

/-- The value that is written does not depend on the page, and is indented as the page is. -/
theorem writeValue_indented {session after : Session}
    (written : writeValue table s session = some (after, none)) (hs : s.OnLines)
    (ht : ∀ e ∈ table, e.2.OnLines) (n : Nat) (before before' : String) :
    ∃ text,
      writeValue table s ⟨.typings before 0, session.guard⟩ =
        some (⟨(Page.typings before 0).append text, session.guard⟩, none) ∧
      writeValue table s ⟨.typings before' n, session.guard⟩ =
        some (⟨(Page.typings before' n).append (Page.indented n text), session.guard⟩, none) := by
  obtain ⟨value, hv⟩ := writeValue_succeeds_iff.mp ⟨after, written⟩
  obtain ⟨whole, he, rfl⟩ := exists_expands hv
  have hpage {page next : Page}
      (hrun : (whole.value.code : Code RenderFault).run page = (next, none)) :
      writeValue table s ⟨page, session.guard⟩ = some (⟨next, session.guard⟩, none) := by
    have hw := writes_value table s ⟨page, session.guard⟩ rfl
    rw [hv] at hw
    obtain ⟨last, hlast, hw⟩ := hw
    cases hlast.symm.trans hrun
    exact hw
  obtain ⟨text, houter, hdeep⟩ := (he.indents hs ht).run n before before'
  exact ⟨text, hpage houter, hpage hdeep⟩

end Stub

/-- What is written at any level for a schema, its type or its value, is what is written at the
outermost level, with so many more tabs behind every line feed. -/
theorem Schema.text_commutes_with_level {ε : Type} {table : SchemaTable} {schema : Schema}
    (hs : schema.OnLines) (ht : ∀ e ∈ table, e.2.OnLines) (n : Nat) (before before' : String) :
    (∀ type, TypeExpr.ofSchema table schema = .ok type → ∃ text,
      (type.code : Code ε).run (.typings before 0) =
        ((Page.typings before 0).append text, none) ∧
      (type.code : Code ε).run (.typings before' n) =
        ((Page.typings before' n).append (Page.indented n text), none)) ∧
    ∀ session after, Stub.writeValue table schema session = some (after, none) → ∃ text,
      Stub.writeValue table schema ⟨.typings before 0, session.guard⟩ =
        some (⟨(Page.typings before 0).append text, session.guard⟩, none) ∧
      Stub.writeValue table schema ⟨.typings before' n, session.guard⟩ =
        some (⟨(Page.typings before' n).append (Page.indented n text), session.guard⟩, none) := by
  refine ⟨fun type htype => ?_, fun session after written => ?_⟩
  · rw [StructuralType.expr_ofSchema] at htype
    obtain ⟨form, hform, rfl⟩ := Outcomes.map_eq_ok_iff.mp htype
    exact (StructuralType.indents_of_schema hform hs).code.run n before before'
  · exact Stub.writeValue_indented written hs ht n before before'

/-! Books, with every construct of several lines inside one another. -/

namespace Books

open Album Stub

def reference : Schema := { Schema.blank with ref := some "Book" }

def title : Schema :=
  { kind "string" with description := some "In full,\r\n\nwith the subtitle." }

/-- How often there is one, by library and by shelf. -/
def copies : Schema := mapOf (mapOf (kind "integer"))

def part : Schema :=
  { kind "object" with
    properties := some [("first-page", { kind "number" with description := some "From\n1." })]
    additionalProperties := some (kind "any") }

def book : Schema :=
  { kind "object" with
    properties := some
      [("title", title), ("sequel", reference), ("parts", listOf part), ("copies", copies)] }

def schemas : SchemaTable := [("Book", book)]

theorem onLines : book.OnLines := by
  have hspanned : ∀ t ∈ book.spanned, ∀ name ∈ t.names, '\n' ∉ name.toList := by decide
  exact fun t ht => hspanned t (Schema.mem_spanned ht)

def value (sequel : Value) : Value :=
  .object
    [("copies", .entry (.entry (.literal .number))),
      ("parts", .array (.object [("first-page", .literal .number)])), ("sequel", sequel),
      ("title", .literal .string)]

theorem expanded {path : List String} {sequel : Value}
    (h : expand schemas path reference = .ok sequel) :
    expand schemas path book = .ok (value sequel) := by
  have hpart : expand schemas path part = .ok (.object [("first-page", .literal .number)]) := by
    rw [expand_of_object rfl]
    simp only [Entries.sortByKey, Entries.insertByKey, Entries.mapValues, List.map, List.foldr]
    rw [expand_of_primitive rfl]
    rfl
  have hparts : expand schemas path (listOf part) =
      .ok (.array (.object [("first-page", .literal .number)])) := by
    rw [expand_of_array rfl, hpart]
    rfl
  have hcopies : expand schemas path copies = .ok (.entry (.entry (.literal .number))) := by
    rw [expand_of_map rfl, expand_of_map rfl, expand_of_primitive rfl]
    rfl
  have htitle : expand schemas path title = .ok (.literal .string) := by
    rw [expand_of_primitive rfl]
    rfl
  have hsorted : Entries.sortByKey
      [("title", title), ("sequel", reference), ("parts", listOf part), ("copies", copies)] =
      [("copies", copies), ("parts", listOf part), ("sequel", reference), ("title", title)] := rfl
  rw [expand_of_object rfl]
  simp only [hsorted, Entries.mapValues, List.map, hcopies, hparts, h, htitle]
  rfl

/-- A book, with the sequel of its sequel left out. -/
theorem book_indented :
    ∃ type typeText after valueText, TypeExpr.ofSchema schemas book = .ok type ∧
      (type.code : Code RenderFault).run (.typings "" 0) =
        (.append (.typings "" 0) typeText, none) ∧
      (type.code : Code RenderFault).run (.typings "" 3) =
        (.append (.typings "" 3) (Page.indented 3 typeText), none) ∧
      writeValue schemas book Session.start = some (after, none) ∧
      after.page = .append (.typings "" 0) valueText ∧
      writeValue schemas book ⟨.typings "" 3, Guard.empty⟩ =
        some (⟨.append (.typings "" 3) (Page.indented 3 valueText), Guard.empty⟩, none) := by
  have htable : ∀ e ∈ schemas, e.2.OnLines := by simp [schemas, onLines]
  have hinside : expand schemas ["Book"] book = .ok (value .undefined) := by
    refine expanded ?_
    rw [expand_of_reference rfl, expandReference_of_mem (by simp)]
  have houtside : expand schemas [] book = .ok (value (value .undefined)) := by
    refine expanded ?_
    rw [expand_of_reference rfl, expandReference_of_lookup (by simp) rfl, hinside]
  obtain ⟨type, htype⟩ : ∃ type, TypeExpr.ofSchema schemas book = .ok type := ⟨_, rfl⟩
  obtain ⟨after, written⟩ :
      ∃ after, writeValue schemas book Session.start = some (after, none) :=
    writeValue_succeeds_iff.mpr ⟨_, houtside⟩
  obtain ⟨htypes, hvalues⟩ :=
    Schema.text_commutes_with_level (ε := RenderFault) onLines htable 3 "" ""
  obtain ⟨typeText, htop, hdeep⟩ := htypes type htype
  obtain ⟨valueText, hvalue, hindented⟩ := hvalues _ _ written
  exact ⟨type, typeText, _, valueText, htype, htop, hdeep, hvalue, rfl, hindented⟩

end Books

end ApiTypings
