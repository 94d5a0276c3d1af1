import ApiTypings.Proofs.PrintedTokens
import ApiTypings.Proofs.TypeReading

/-! # The text of a type

What is printed for a schema, read back as a type. The tokens of the text are those of the
structural type of the schema, and so the text says what the schema says, unless an array in it is
one of values that may be given several times. -/

namespace ApiTypings

open TypeToken.Place

/-! ## Names -/

namespace MemberKey

/-- The name and the mark of a member, as they are written. -/
def head (name : String) (required : Bool) : String :=
  Naming.memberName name ++ (if required then "" else "?") ++ ": "

theorem reads_head {name : String} (h : isIdentifier name) (required : Bool) :
    Reads .between (tokens (.property name required)) .between (head name required).toList := by
  have hname := leaves_word h
  rw [head, memberName_of_isIdentifier h]
  cases required with
  | true =>
    have hcolon : Seals [.colon] ": ".toList := .cons (by decide) fun _ => rfl
    simpa [tokens] using hname.append hcolon
  | false =>
    have hmark : Seals [.question, .colon] "?: ".toList := .cons (by decide) fun _ => rfl
    simpa [tokens] using hname.append hmark

theorem reads_head_index :
    Reads .between (tokens .index) .between (head indexSignature true).toList := by
  have hhead : head indexSignature true = "[key: string]: " := by decide
  rw [hhead]
  exact fun _ => rfl

end MemberKey

namespace TypeExpr

variable {ε : Type}

/-! ## Members -/

/-- The member is printed as these tokens, with the semicolon behind it. -/
def PrintsMember (ε : Type) (field : Field TypeExpr) (ts : List TypeToken) : Prop :=
  (fieldCode field.name field.type.operand field.required field.description : Code ε).Prints
    (Reads .between ts .between)

theorem prints_fieldsCode {fields : List (Field TypeExpr)} {tokens : List (List TypeToken)}
    (h : List.Forall₂ (PrintsMember ε) fields tokens) :
    (fieldsCode fields : Code ε).Prints (Reads .between tokens.flatten .between) := by
  induction h with
  | nil => exact Code.prints_nil (reads_nil .between)
  | cons hfield _ ih =>
    rw [fieldsCode_cons]
    exact hfield.reads_append ih

/-- A type is printed as these tokens, the last of which may be a word. -/
def PrintsType (ε : Type) (type : TypeExpr) (ts : List TypeToken) : Prop :=
  (type.code : Code ε).Prints (Leaves ts)

theorem printsType_inline {text : String} {ts : List TypeToken} :
    PrintsType ε (.inline text) ts ↔ Leaves ts text.toList := by
  rw [PrintsType, code, Code.prints_text]

theorem seals_semicolon : Seals [.semicolon] ";".toList := .cons (by decide) fun _ => rfl

theorem prints_property {name : String} {type : TypeExpr} {required : Bool}
    {key ts : List TypeToken}
    (hh : Reads .between key .between (MemberKey.head name required).toList)
    (ht : PrintsType ε type ts) :
    (Code.property name type.operand required : Code ε).Prints
      (Reads .between (key ++ ts ++ [.semicolon]) .between) := by
  have hblock : (Code.beginLine (MemberKey.head name required) ++ type.code ++
      Code.endLine ";" : Code ε).Prints (Reads .between (key ++ ts ++ [.semicolon]) .between) := by
    have hbody := (Code.prints_beginLine rests_between hh).append ht fun _ _ => Reads.append_leaves
    refine hbody.append Code.prints_endLine_text fun cs ds hc hd => ?_
    obtain ⟨ws, rfl, hws⟩ := hd
    have hline := (hc.append seals_semicolon).append (reads_blank hws)
    simpa using hline
  cases type with
  | inline text =>
    have hline := (hh.append_leaves (printsType_inline.mp ht)).append seals_semicolon
    refine Code.prints_line rests_between ?_ fun cs hb _ => rests_between cs hb
    simpa [MemberKey.head] using hline
  | array | object | record => exact hblock

theorem printsMember {field : Field TypeExpr} {key ts : List TypeToken}
    (hh : Reads .between key .between (MemberKey.head field.name field.required).toList)
    (ht : PrintsType ε field.type ts) :
    PrintsMember ε field (key ++ ts ++ [.semicolon]) :=
  (Code.prints_comment _).reads_append (prints_property hh ht)

/-! ## Types -/

theorem printsType_object {fields : List (Field TypeExpr)} {tokens : List (List TypeToken)}
    (h : List.Forall₂ (PrintsMember ε) fields tokens) :
    PrintsType ε (.object fields) (.leftBrace :: (tokens.flatten ++ [.rightBrace])) := by
  have hopen : (Code.endLine "\x7b" : Code ε).Prints (Reads .between [.leftBrace] .between) :=
    Code.prints_endLine (fun _ => rfl) rests_between
  have hclose : (Code.beginLine "\x7d" : Code ε).Prints (Reads .between [.rightBrace] .between) :=
    Code.prints_beginLine rests_between fun _ => rfl
  have hall := (hopen.reads_append (prints_fieldsCode h).nest).reads_append hclose
  rw [PrintsType, code]
  exact hall.imp fun _ => Reads.leaves

theorem arrayOf_of_block {type : TypeExpr} (h : ∀ text, type ≠ .inline text) :
    arrayOf type = .array type := by
  cases type with
  | inline text => exact absurd rfl (h text)
  | array | object | record => rfl

/-- A type between a heading and a closing angle. -/
theorem prints_angles {heading : String} {type : TypeExpr} {hs ts : List TypeToken}
    (hh : Reads .between hs .between heading.toList) (ht : PrintsType ε type ts) :
    (Code.text heading ++ type.code ++ Code.text ">" : Code ε).Prints
      (Leaves (hs ++ ts ++ [.greater])) := by
  have hbody := (Code.prints_text.mpr hh).append ht fun _ _ => Reads.append_leaves
  have hclose : Seals [.greater] ">".toList := .cons (by decide) fun _ => rfl
  exact hbody.append (Code.prints_text.mpr hclose) fun _ _ hc hd => (hc.append hd).leaves

end TypeExpr

namespace StructuralType

variable {ε : Type}

/-- The expression is printed as the tokens. -/
def Printed (ε : Type) (form : StructuralType) : Prop :=
  TypeExpr.PrintsType ε form.expr form.tokens

theorem leaves_brackets {ts : List TypeToken} {cs : List Char} (h : Leaves ts cs) :
    Leaves (ts ++ [.leftBracket, .rightBracket]) (cs ++ "[]".toList) := by
  have hpair : Seals [.leftBracket, .rightBracket] "[]".toList := .cons (by decide) fun _ => rfl
  exact (h.append hpair).leaves

theorem printed_oneOrMany {name : String} (h : isTypeName name) :
    (oneOrMany name).Printed ε := by
  have hname := leaves_word (isIdentifier_of_isTypeName h)
  have hbar : Seals [.bar] " | ".toList := .cons (by decide) fun _ => rfl
  rw [Printed, expr, TypeExpr.printsType_inline, tokens]
  simpa using leaves_brackets ((hname.append hbar).append_leaves hname)

theorem printed_array {item : StructuralType} (h : item.Printed ε) : (array item).Printed ε := by
  rw [Printed, expr, tokens]
  split
  · rename_i text heq
    rw [Printed, heq, TypeExpr.printsType_inline] at h
    rw [heq, TypeExpr.arrayOf, TypeExpr.printsType_inline, String.toList_append]
    exact leaves_brackets h
  · rename_i hblock
    have hopen : Reads .between [.word "Array", .less] .between "Array<".toList := fun _ => rfl
    have harray := TypeExpr.prints_angles hopen h
    rw [TypeExpr.arrayOf_of_block hblock, TypeExpr.PrintsType, TypeExpr.code]
    exact harray

theorem printed_record {value : StructuralType} (h : value.Printed ε) :
    (record value).Printed ε := by
  have hopen : Reads .between [.word "Record", .less, .word "string", .comma] .between
      "Record<string, ".toList := fun _ => rfl
  rw [Printed, expr, tokens, TypeExpr.PrintsType, TypeExpr.code]
  exact TypeExpr.prints_angles hopen h

theorem expr_object (fields : List (Field StructuralType)) (index : Option StructuralType) :
    (object fields index).expr =
      .object
        (fieldExprs fields ++ index.toList.map fun type => TypeExpr.indexField type.expr) := by
  cases index <;> simp [expr]

theorem printsMember_fields {fields : List (Field StructuralType)}
    (hn : ∀ field ∈ fields, isIdentifier field.name)
    (h : ∀ field ∈ fields, field.type.Printed ε) :
    List.Forall₂ (TypeExpr.PrintsMember ε) (fieldExprs fields)
      (fields.map fun f => memberTokens (.property f.name f.required) f.type.tokens) := by
  rw [fieldExprs_eq_map, List.forall₂_map_left_iff, List.forall₂_map_right_iff, List.forall₂_same]
  intro field hf
  exact TypeExpr.printsMember (MemberKey.reads_head (hn field hf) _) (h field hf)

theorem printsMember_index {index : Option StructuralType}
    (h : ∀ type ∈ index.toList, type.Printed ε) :
    List.Forall₂ (TypeExpr.PrintsMember ε)
      (index.toList.map fun type => TypeExpr.indexField type.expr)
      (index.toList.map fun type => memberTokens .index type.tokens) := by
  rw [List.forall₂_map_left_iff, List.forall₂_map_right_iff, List.forall₂_same]
  exact fun type ht => TypeExpr.printsMember MemberKey.reads_head_index (h type ht)

theorem printed_object {fields : List (Field StructuralType)} {index : Option StructuralType}
    (hn : HasPlainNames (object fields index))
    (h : ∀ part ∈ (object fields index).parts, part.Printed ε) :
    (object fields index).Printed ε := by
  have hfields : ∀ field ∈ fields, field.type.Printed ε :=
    fun field hf => h _ (List.mem_append_left _ (List.mem_map_of_mem hf))
  have hindex : ∀ type ∈ index.toList, type.Printed ε :=
    fun type ht => h _ (List.mem_append_right _ ht)
  have hmembers := List.rel_append (printsMember_fields hn hfields) (printsMember_index hindex)
  rw [Printed, expr_object, tokens_object]
  simpa [bodyTokens, keyedParts, List.flatMap_def, Function.comp_def] using
    TypeExpr.printsType_object hmembers

/-- A type is printed as its tokens, however deep the nesting. -/
theorem printed {form : StructuralType} (hn : ∀ sub, form.Spans sub → sub.HasPlainNames) :
    form.Printed ε := by
  induction form using partInduction with
  | step form ih =>
    have hform := hn form .refl
    have hparts : ∀ part ∈ form.parts, part.Printed ε :=
      fun part hp => ih part hp fun sub hs => hn sub (hs.head hp)
    cases form with
    | primitive name | interface name =>
      rw [Printed, expr, tokens, TypeExpr.printsType_inline]
      exact leaves_word (isIdentifier_of_isTypeName hform)
    | oneOrMany name => exact printed_oneOrMany hform
    | array item => exact printed_array (hparts item (List.mem_singleton_self item))
    | record value => exact printed_record (hparts value (List.mem_singleton_self value))
    | object fields index => exact printed_object hform hparts

/-! ## Reading the text -/

/-- The text of a type is read as it is, up to brackets behind alternatives. -/
theorem ofText?_of_leaves {form : StructuralType} {text : String}
    (hn : ∀ sub, form.Spans sub → sub.HasPlainNames) (h : Leaves form.tokens text.toList) :
    TypeTerm.ofText? text = some form.reading := by
  have hread := readsBack hn (3 * form.tokens.length) 0 [] le_rfl nofun
  simp only [TypeToken.brackets, List.append_nil] at hread
  simp [TypeTerm.ofText?, h.tokens_eq, hread]

end StructuralType

/-- Are the names that the shape itself writes written as they are? -/
def Shape.hasPlainNames {α : Type} : Shape α → Bool
  | .primitive kind _ => isTypeName kind
  | .reference name => isTypeName name
  | .object properties _ => properties.all fun e => isIdentifier e.1
  | .array _ | .map _ => true

namespace Schema

def hasPlainNames (s : Schema) : Bool :=
  match s.shape with
  | .ok shape => shape.hasPlainNames
  | .error _ => true

/-- Is the schema an array of values that may each be given several times? -/
def isArrayOfRepeated (s : Schema) : Bool :=
  match s.shape with
  | .ok (.array item) =>
    match item.shape with
    | .ok (.primitive _ repeated) => repeated
    | _ => false
  | _ => false

end Schema

namespace StructuralType

variable {table : SchemaTable} {s : Schema} {form : StructuralType}

/-! ## From schemas -/

theorem isTypeName_primitiveName {kind : String} (h : isTypeName kind) :
    isTypeName (TypeExpr.primitiveName kind) := by
  unfold TypeExpr.primitiveName
  split
  · decide
  · split
    · decide
    · exact h

theorem hasPlainNames_of_schema (h : ofSchema table s = .ok form) (hn : s.hasPlainNames) :
    form.HasPlainNames := by
  obtain ⟨shape, hs, hforms⟩ := forms_of_ofSchema h
  rw [Schema.hasPlainNames, hs] at hn
  cases hforms with
  | one kind | oneOrMany kind => exact isTypeName_primitiveName hn
  | array | map => exact trivial
  | object hf _ =>
    intro field hfield
    obtain ⟨e, he, type, _, rfl⟩ := Outcomes.exists_right_of_mem (fieldsOf_eq_ok hf).flip hfield
    exact List.all_eq_true.mp hn e (Entries.mem_sortByKey.mp he)
  | any => exact (by decide : isTypeName "any")
  | interface => exact hn

theorem isArrayOfRepeated_iff (h : ofSchema table s = .ok form) :
    s.isArrayOfRepeated ↔ ∃ name, form = array (oneOrMany name) := by
  obtain ⟨shape, hs, hforms⟩ := forms_of_ofSchema h
  rw [Schema.isArrayOfRepeated, hs]
  cases hforms with
  | one | oneOrMany | map | object | any | interface => simp
  | array hitem =>
    obtain ⟨shape, hi, hforms⟩ := forms_of_ofSchema hitem
    simp only [hi]
    cases hforms <;> simp

theorem hasPlainNames_of_spans (h : ofSchema table s = .ok form)
    (hn : ∀ t, s.Spans t → t.hasPlainNames) {sub : StructuralType} (hs : form.Spans sub) :
    sub.HasPlainNames := by
  obtain ⟨t, ht, htyped⟩ := spans_of_form h hs
  exact hasPlainNames_of_schema htyped (hn t ht)

/-- The text of the type of a schema says what the schema says exactly if no array in the schema is
one of values that may each be given several times. -/
theorem reading_eq_term_iff_schema (h : ofSchema table s = .ok form) :
    form.reading = form.term ↔ ∀ t, s.Spans t → ¬t.isArrayOfRepeated := by
  rw [reading_eq_term_iff]
  constructor
  · intro hform t hs ht
    obtain ⟨sub, hsub, htyped⟩ := spans_of_schema h hs
    obtain ⟨name, rfl⟩ := (isArrayOfRepeated_iff htyped).mp ht
    exact hform name hsub
  · intro hschema name hsub
    obtain ⟨t, hs, htyped⟩ := spans_of_form h hsub
    exact hschema t hs ((isArrayOfRepeated_iff htyped).mpr ⟨name, rfl⟩)

end StructuralType

/-! ## The text of a schema -/

/-- Whatever is printed for a schema is a type, and says what the schema says at every depth, but
for brackets behind the two alternatives of a value that may be given several times. -/
theorem TypeExpr.text_says_schema {ε : Type} {table : SchemaTable} {schema : Schema}
    {type : TypeExpr} (h : ofSchema table schema = .ok type)
    (hn : ∀ t, schema.Spans t → t.hasPlainNames) {page : Page} (hp : page.Spaced) :
    ∃ form text, StructuralType.ofSchema table schema = .ok form ∧
      (type.code : Code ε).run page = (page.append text, none) ∧
      TypeTerm.ofText? text = some form.reading ∧
      (form.reading = form.term ↔ ∀ t, schema.Spans t → ¬t.isArrayOfRepeated) := by
  rw [StructuralType.expr_ofSchema] at h
  obtain ⟨form, hform, rfl⟩ := Outcomes.map_eq_ok_iff.mp h
  have hplain : ∀ sub, form.Spans sub → sub.HasPlainNames :=
    fun _ hs => StructuralType.hasPlainNames_of_spans hform hn hs
  obtain ⟨text, hrun, hleaves⟩ := StructuralType.printed hplain page hp
  exact ⟨form, text, hform, hrun, StructuralType.ofText?_of_leaves hplain hleaves,
    StructuralType.reading_eq_term_iff_schema hform⟩

/-! Albums, with every form of type inside one another. -/

namespace Album

def kind (name : String) : Schema := { Schema.blank with type := some name }

def repeated (name : String) : Schema := { kind name with repeated := some true }

def listOf (item : Schema) : Schema := { kind "array" with items := some item }

def mapOf (values : Schema) : Schema := { kind "object" with additionalProperties := some values }

def photo : Schema :=
  { kind "object" with
    properties := some
      [("caption", { kind "string" with required := some true, description := some "* /" }),
        ("tags", repeated "string")]
    additionalProperties := some (listOf (kind "object")) }

def album : Schema :=
  { kind "object" with
    properties := some
      [("cover", { Schema.blank with ref := some "Album" }), ("pages", listOf (listOf photo)),
        ("sizes", mapOf (listOf (kind "integer")))] }

theorem text_says_album :
    ∃ form text, StructuralType.ofSchema [("Album", album)] album = .ok form ∧
      (∃ type, TypeExpr.ofSchema [("Album", album)] album = .ok type ∧
        (type.code : Code RenderFault).run Page.empty = (Page.empty.append text, none)) ∧
      TypeTerm.ofText? text = some form.term := by
  obtain ⟨type, htype⟩ : ∃ type, TypeExpr.ofSchema [("Album", album)] album = .ok type := ⟨_, rfl⟩
  have hspanned : ∀ t ∈ album.spanned, t.hasPlainNames ∧ ¬t.isArrayOfRepeated := by decide
  have hall := fun t ht => hspanned t (Schema.mem_spanned ht)
  obtain ⟨form, text, hform, hrun, hread, hiff⟩ :=
    TypeExpr.text_says_schema htype (fun t ht => (hall t ht).1) Page.spaced_empty
  rw [hiff.mpr fun t ht => (hall t ht).2] at hread
  exact ⟨form, text, hform, ⟨type, htype, hrun⟩, hread⟩

end Album

namespace Labels

/-- Every label is a string or several strings. -/
def labels : Schema := Album.listOf (Album.repeated "string")

theorem repeated_labels_misread :
    (∀ t, labels.Spans t → t.hasPlainNames) ∧ ∃ type form text,
      TypeExpr.ofSchema [] labels = .ok type ∧ StructuralType.ofSchema [] labels = .ok form ∧
      (type.code : Code RenderFault).run Page.empty = (Page.empty.append text, none) ∧
      form.term = .array (.union (.name "string") (.array (.name "string"))) ∧
      TypeTerm.ofText? text =
        some (.union (.name "string") (.array (.array (.name "string")))) := by
  have hspanned : ∀ t ∈ labels.spanned, t.hasPlainNames := by decide
  have hnames : ∀ t, labels.Spans t → t.hasPlainNames :=
    fun t ht => hspanned t (Schema.mem_spanned ht)
  have hform : StructuralType.ofSchema [] labels = .ok (.array (.oneOrMany "string")) := rfl
  have hread : TypeTerm.ofText? "string | string[][]" =
      some (StructuralType.array (.oneOrMany "string")).reading :=
    StructuralType.ofText?_of_leaves
      (fun _ hs => StructuralType.hasPlainNames_of_spans hform hnames hs)
      (Reads.leaves fun _ => rfl)
  exact ⟨hnames, .inline "string | string[][]", _, _, rfl, hform, rfl, rfl, hread⟩

end Labels

end ApiTypings
