import ApiTypings.Proofs.InterfaceNames
import ApiTypings.Proofs.TypedParts

/-! # Generic types and interfaces of one name

Requests, arrays and records are printed by names that no namespace stands before. An interface of
the same name in the file is what such a name means then. A schema called `Request` is evaded by the
longer name of a request; for arrays and records there is no other name, so that a schema of theirs
takes the name wherever it is printed. -/

namespace ApiTypings

/-- The generic types that declaration files use. -/
inductive Generic where
  | request
  | array
  | record
deriving DecidableEq, Repr

/-- The name without a namespace. -/
def Generic.name : Generic → String
  | request => "Request"
  | array => "Array"
  | record => "Record"

/-- The type is printed with the name of a generic type in it. -/
inductive TypeExpr.Uses : Generic → TypeExpr → Prop
  | array {item : TypeExpr} : Uses .array (.array item)
  | record {value : TypeExpr} : Uses .record (.record value)
  | item {g : Generic} {item : TypeExpr} : Uses g item → Uses g (.array item)
  | value {g : Generic} {value : TypeExpr} : Uses g value → Uses g (.record value)
  | member {g : Generic} {fields : List (Field TypeExpr)} {field : Field TypeExpr} :
      field ∈ fields → Uses g field.type → Uses g (.object fields)

/-! ## What needs a generic type -/

/-- The generic type that the schema itself needs. An array of what fits into a line is written with
brackets behind it. -/
def Schema.generic? (s : Schema) : Option Generic :=
  match s.shape with
  | .ok (.map _) => some .record
  | .ok (.array item) =>
    match item.shape with
    | .ok (.object ..) | .ok (.map _) => some .array
    | _ => none
  | _ => none

theorem Schema.generic?_ne_request (s : Schema) : s.generic? ≠ some .request := by
  unfold Schema.generic?
  split
  · exact nofun
  · split <;> exact nofun
  · exact nofun

namespace StructuralType

variable {table : SchemaTable} {s : Schema} {form : StructuralType} {g : Generic}

/-- The same of a type. -/
def generic? : StructuralType → Option Generic
  | record _ => some .record
  | array (object ..) | array (record _) => some .array
  | _ => none

theorem generic?_of_schema (h : ofSchema table s = .ok form) : form.generic? = s.generic? := by
  obtain ⟨shape, hs, hf⟩ := forms_of_ofSchema h
  unfold Schema.generic?
  rw [hs]
  cases hf with
  | one | oneOrMany | any | interface | map | object => rfl
  | array hitem =>
    obtain ⟨inner, hi, hf⟩ := forms_of_ofSchema hitem
    dsimp only
    rw [hi]
    cases hf <;> rfl

/-! ## One step -/

/-- The members of an object are printed with the types of its parts. -/
theorem types_members (fields : List (Field StructuralType)) (index : Option StructuralType) :
    (object fields index).members.map Field.type = (object fields index).parts.map expr := by
  cases index <;> simp [members, parts, fieldExprs_eq_map, TypeExpr.indexField]

theorem members_use_iff {fields : List (Field StructuralType)} {index : Option StructuralType} :
    (∃ member ∈ (object fields index).members, member.type.Uses g) ↔
      ∃ part ∈ (object fields index).parts, part.expr.Uses g := by
  have htypes := types_members fields index
  constructor
  · rintro ⟨member, hm, hu⟩
    have ht := List.mem_map_of_mem (f := Field.type) hm
    rw [htypes] at ht
    obtain ⟨part, hp, he⟩ := List.mem_map.mp ht
    exact ⟨part, hp, he ▸ hu⟩
  · rintro ⟨part, hp, hu⟩
    have ht := List.mem_map_of_mem (f := expr) hp
    rw [← htypes] at ht
    obtain ⟨member, hm, he⟩ := List.mem_map.mp ht
    exact ⟨member, hm, he ▸ hu⟩

theorem uses_object_iff {fields : List (Field StructuralType)} {index : Option StructuralType} :
    (object fields index).expr.Uses g ↔ ∃ part ∈ (object fields index).parts, part.expr.Uses g := by
  have hmembers : (object fields index).expr = .object (object fields index).members := by
    cases index <;> simp only [expr, members]
  rw [hmembers, ← members_use_iff]
  constructor
  · intro h
    cases h with
    | member hm hu => exact ⟨_, hm, hu⟩
  · rintro ⟨member, hm, hu⟩
    exact .member hm hu

theorem uses_block_iff {item : TypeExpr} :
    (TypeExpr.array item).Uses g ↔ g = .array ∨ item.Uses g := by
  constructor
  · intro h
    cases h with
    | array => exact .inl rfl
    | item h => exact .inr h
  · rintro (rfl | h)
    · exact .array
    · exact .item h

theorem not_uses_inline (text : String) : ¬ (TypeExpr.inline text).Uses g := by
  intro h
  cases h

theorem uses_array_iff {item : StructuralType} :
    (array item).expr.Uses g ↔ (array item).generic? = some g ∨ item.expr.Uses g := by
  cases item with
  | primitive | oneOrMany | interface =>
    simp [expr, TypeExpr.arrayOf, generic?, not_uses_inline]
  | object fields index =>
    have hblock : (array (object fields index)).expr = .array (object fields index).expr := by
      cases index <;> simp only [expr, TypeExpr.arrayOf]
    rw [hblock, uses_block_iff, generic?, Option.some.injEq, eq_comm]
  | record value =>
    have hblock : (array (record value)).expr = .array (record value).expr := by
      simp only [expr, TypeExpr.arrayOf]
    rw [hblock, uses_block_iff, generic?, Option.some.injEq, eq_comm]
  | array inner =>
    -- An array of arrays takes several lines only if the inner one does, which is then in use too.
    have hnone : ¬ (array (array inner)).generic? = some g := by simp [generic?]
    rw [or_iff_right hnone]
    have hinner : (array inner).expr = .arrayOf inner.expr := by simp only [expr]
    have houter : (array (array inner)).expr = .arrayOf (array inner).expr := by simp only [expr]
    rw [houter]
    cases he : (array inner).expr with
    | inline text => simp [TypeExpr.arrayOf, not_uses_inline]
    | object | record =>
      rw [hinner] at he
      unfold TypeExpr.arrayOf at he
      split at he <;> cases he
    | array block =>
      rw [TypeExpr.arrayOf, uses_block_iff]
      · exact ⟨fun h => h.elim (fun hg => hg ▸ .array) id, .inr⟩
      · intro text h
        cases h

theorem uses_expr_iff :
    form.expr.Uses g ↔ form.generic? = some g ∨ ∃ part ∈ form.parts, part.expr.Uses g := by
  cases form with
  | primitive | oneOrMany | interface =>
    simp [expr, generic?, parts, not_uses_inline]
  | array item => rw [uses_array_iff, parts]; simp only [List.mem_singleton, exists_eq_left]
  | object fields index =>
    rw [uses_object_iff]
    simp only [generic?, reduceCtorEq, false_or]
  | record value =>
    simp only [expr, generic?, parts, List.mem_singleton, exists_eq_left, Option.some.injEq]
    constructor
    · intro h
      cases h with
      | record => exact .inl rfl
      | value h => exact .inr h
    · rintro (rfl | h)
      · exact .record
      · exact .value h

/-! ## Any number of steps -/

theorem uses_iff_spans : form.expr.Uses g ↔ ∃ sub, form.Spans sub ∧ sub.generic? = some g := by
  induction form using partInduction with
  | step form ih =>
    rw [uses_expr_iff]
    constructor
    · rintro (h | ⟨part, hp, hu⟩)
      · exact ⟨form, .refl, h⟩
      · obtain ⟨sub, hs, hg⟩ := (ih part hp).mp hu
        exact ⟨sub, .head hp hs, hg⟩
    · rintro ⟨sub, hs, hg⟩
      rcases hs.cases_head with rfl | ⟨part, hp, hs⟩
      · exact .inl hg
      · exact .inr ⟨part, hp, (ih part hp).mpr ⟨sub, hs, hg⟩⟩

/-- The type of a schema is printed with the name of a generic type exactly if the schema spans one
that needs it. -/
theorem uses_schema_iff (h : ofSchema table s = .ok form) :
    form.expr.Uses g ↔ ∃ t, s.Spans t ∧ t.generic? = some g := by
  rw [uses_iff_spans]
  constructor
  · rintro ⟨sub, hs, hg⟩
    obtain ⟨t, ht, hsub⟩ := spans_of_form h hs
    exact ⟨t, ht, generic?_of_schema hsub ▸ hg⟩
  · rintro ⟨t, ht, hg⟩
    obtain ⟨sub, hs, hsub⟩ := spans_of_schema h ht
    exact ⟨sub, hs, (generic?_of_schema hsub).trans hg⟩

theorem PartsAgree.uses_iff {ts : List Schema} {forms : List StructuralType}
    (h : PartsAgree table ts forms) :
    (∃ part ∈ forms, part.expr.Uses g) ↔ ∃ s ∈ ts, ∃ t, s.Spans t ∧ t.generic? = some g := by
  constructor
  · rintro ⟨part, hp, hu⟩
    obtain ⟨s, hs, ht⟩ := h.typing part hp
    exact ⟨s, hs, (uses_schema_iff ht).mp hu⟩
  · rintro ⟨s, hs, hg⟩
    obtain ⟨part, hp, ht⟩ := h.typed s hs
    exact ⟨part, hp, (uses_schema_iff ht).mpr hg⟩

end StructuralType

theorem SchemaTable.contains_of_declares {table : SchemaTable} {name : String}
    (h : table.Declares name) : table.contains name = true := by
  obtain ⟨schema, hm, _⟩ := h
  unfold SchemaTable.contains
  rw [Option.isSome_iff_ne_none]
  intro hn
  simpa using List.lookup_eq_none_iff.mp hn _ hm

namespace Declarations

variable {table : SchemaTable} {g : Generic}

/-! ## Uses in a file -/

/-- The signature is printed with the name of a generic type in it. -/
inductive Signature.Uses (table : SchemaTable) : Generic → Signature → Prop
  | answer {s : Signature} : requestType table = Generic.request.name → Uses table .request s
  | request {g : Generic} {s : Signature} {field : Field StructuralType} : field ∈ s.request →
      field.type.expr.Uses g → Uses table g s
  | body {g : Generic} {s : Signature} {type : StructuralType} : s.body = some type →
      type.expr.Uses g → Uses table g s

/-- The file is printed with the name of a generic type in it. -/
inductive Outline.Uses (table : SchemaTable) (g : Generic) (o : Outline) : Prop
  | schema {i : SchemaInterface} {member : Field TypeExpr} : i ∈ o.schemas →
      member ∈ i.type.members → member.type.Uses g → Uses table g o
  | method {i : ResourceInterface} {s : Signature} : i ∈ o.resources → s ∈ i.methods →
      s.Uses table g → Uses table g o

/-- The name of the generic type is in use, and an interface of the file has it. -/
structure Outline.Captures (table : SchemaTable) (g : Generic) (o : Outline) : Prop where
  used : o.Uses table g
  declared : g.name ∈ o.interfaceNames

/-- The schemas whose types a file prints: for the properties of what is declared, listed or not,
and for the parameters of its methods. -/
inductive Printed (api : Description) (s : Schema) : Prop
  | property {name key : String} {schema : Schema} :
      (name, schema) ∈ SchemaTable.ofDescription api → schema.isEmpty = false →
      (key, s) ∈ Entries.orEmpty schema.properties → Printed api s
  | further {name : String} {schema : Schema} :
      (name, schema) ∈ SchemaTable.ofDescription api → schema.isEmpty = false →
      schema.additionalProperties = some s → Printed api s
  | parameter {p : Resource.Place} {key name : String} {method : Method} :
      Resource.Place.Within (Entries.orEmpty api.resources) [] p → (key, method) ∈ p.methods →
      (name, s) ∈ requestParameters api method → Printed api s

theorem SchemaInterface.uses_iff {name : String} {schema : Schema} {i : SchemaInterface}
    (h : SchemaInterface.of table name schema = .ok i) :
    (∃ member ∈ i.type.members, member.type.Uses g) ↔
      ∃ s ∈ (Entries.orEmpty schema.properties).map Prod.snd ++ schema.additionalProperties.toList,
        ∃ t, s.Spans t ∧ t.generic? = some g := by
  obtain ⟨fields, index, hf, hi, hadditional⟩ :=
    StructuralType.objectOf_index (SchemaInterface.of_eq_ok h).2
  rw [Option.map_map] at hadditional
  rw [hi, StructuralType.members_use_iff]
  exact (StructuralType.PartsAgree.object hf hadditional).uses_iff

theorem Signature.uses_request_iff {api : Description} {method : Method} {s : Signature}
    (h : Signature.of api method = .ok s) :
    (∃ field ∈ s.request, field.type.expr.Uses g) ↔
      ∃ s ∈ (requestParameters api method).map Prod.snd,
        ∃ t, s.Spans t ∧ t.generic? = some g := by
  obtain ⟨_, _, _, _, hr, _⟩ := Signature.of_eq_ok h
  have hparts := @StructuralType.PartsAgree.object _ _ none _ none hr rfl
  simpa using hparts.uses_iff (g := g)

/-- A body is a reference. -/
theorem Signature.not_uses_body {api : Description} {method : Method} {s : Signature}
    {type : StructuralType} (h : Signature.of api method = .ok s) (hb : s.body = some type) :
    ¬ type.expr.Uses g := by
  obtain ⟨_, _, _, _, _, hbody, _⟩ := Signature.of_eq_ok h
  rw [hb, bodyType] at hbody
  split at hbody
  · cases hbody
  · obtain ⟨form, hf, he⟩ := Outcomes.map_eq_ok_iff.mp hbody
    cases he
    obtain ⟨empty, _, rfl⟩ := Outcomes.map_eq_ok_iff.mp hf
    cases empty
    · simp only [Bool.false_eq_true, if_false, StructuralType.expr]
      exact StructuralType.not_uses_inline _
    · simp only [if_true, StructuralType.any, StructuralType.expr]
      exact StructuralType.not_uses_inline _

section
variable {api : Description} {excluded : List String} {o : Outline} {s t : Schema}

theorem mem_declared {e : String × Schema} :
    e ∈ declaredSchemas table ↔ e ∈ table ∧ e.2.isEmpty = false := by
  simp [declaredSchemas, Entries.mem_sortByKey]

theorem Outline.uses_of_printed (h : Outline.of api excluded = .ok o) (hp : Printed api s)
    (hs : s.Spans t) (hg : t.generic? = some g) :
    o.Uses (SchemaTable.ofDescription api) g := by
  obtain ⟨hschemas, hresources, _⟩ := Outline.of_eq_ok h
  have hschema : ∀ e ∈ declaredSchemas (SchemaTable.ofDescription api),
      s ∈ (Entries.orEmpty e.2.properties).map Prod.snd ++ e.2.additionalProperties.toList →
      o.Uses (SchemaTable.ofDescription api) g := by
    intro e he hm
    obtain ⟨i, hi, hof⟩ := Outcomes.exists_right_of_mem hschemas he
    obtain ⟨member, hmember, hu⟩ := (SchemaInterface.uses_iff hof).mpr ⟨s, hm, t, hs, hg⟩
    exact .schema hi hmember hu
  cases hp with
  | @property name key schema he hn hm =>
    exact hschema (name, schema) (mem_declared.mpr ⟨he, hn⟩)
      (List.mem_append_left _ (List.mem_map_of_mem (f := Prod.snd) hm))
  | @further name schema he hn ha =>
    exact hschema (name, schema) (mem_declared.mpr ⟨he, hn⟩)
      (List.mem_append_right _ (Option.mem_toList.mpr ha))
  | @parameter p key name method hp hm hparameter =>
    obtain ⟨i, hi, hof⟩ := Outcomes.exists_right_of_mem hresources (Resource.mem_places.mpr hp)
    obtain ⟨_, hmethods, _⟩ := ResourceInterface.of_eq_ok hof
    obtain ⟨signature, hsig, hof⟩ :=
      Outcomes.exists_right_of_mem hmethods (Entries.mem_sortByKey.mpr hm)
    obtain ⟨field, hf, hu⟩ := (Signature.uses_request_iff hof).mpr
      ⟨s, List.mem_map_of_mem (f := Prod.snd) hparameter, t, hs, hg⟩
    exact .method hi hsig (.request hf hu)

/-- The name of a generic type is in use for the answers of methods, or for a type that needs it. -/
theorem Outline.Uses.origin (h : Outline.of api excluded = .ok o)
    (hu : o.Uses (SchemaTable.ofDescription api) g) :
    g = .request ∧ requestType (SchemaTable.ofDescription api) = Generic.request.name ∨
      ∃ s t, Printed api s ∧ s.Spans t ∧ t.generic? = some g := by
  obtain ⟨hschemas, hresources, _⟩ := Outline.of_eq_ok h
  cases hu with
  | schema hi hmember hu =>
    obtain ⟨⟨name, schema⟩, he, hof⟩ := Outcomes.exists_right_of_mem hschemas.flip hi
    obtain ⟨hm, hn⟩ := mem_declared.mp he
    obtain ⟨s, hs, t, ht, hg⟩ := (SchemaInterface.uses_iff hof).mp ⟨_, hmember, hu⟩
    refine .inr ⟨s, t, ?_, ht, hg⟩
    rcases List.mem_append.mp hs with hp | ha
    · obtain ⟨⟨key, _⟩, hkey, rfl⟩ := List.mem_map.mp hp
      exact .property hm hn hkey
    · exact .further hm hn (Option.mem_toList.mp ha)
  | method hi hsig hu =>
    obtain ⟨p, hp, hof⟩ := Outcomes.exists_right_of_mem hresources.flip hi
    obtain ⟨_, hmethods, _⟩ := ResourceInterface.of_eq_ok hof
    obtain ⟨⟨key, method⟩, hm, hof⟩ := Outcomes.exists_right_of_mem hmethods.flip hsig
    cases hu with
    | answer hrequest => exact .inl ⟨rfl, hrequest⟩
    | request hf hu =>
      obtain ⟨s, hs, t, ht, hg⟩ := (Signature.uses_request_iff hof).mp ⟨_, hf, hu⟩
      obtain ⟨⟨name, _⟩, hparameter, rfl⟩ := List.mem_map.mp hs
      exact .inr ⟨_, t, .parameter (Resource.mem_places.mp hp) (Entries.mem_sortByKey.mp hm)
        hparameter, ht, hg⟩
    | body hb hu => exact absurd hu (Signature.not_uses_body hof hb)

/-- No resource has an interface of such a name. -/
theorem Outline.declares_generic_iff (h : Outline.of api excluded = .ok o) (g : Generic) :
    g.name ∈ o.interfaceNames ↔ (SchemaTable.ofDescription api).Declares g.name := by
  rw [interfaceNames, List.mem_append, schema_names h, mem_declaredSchemas, resource_names h]
  refine or_iff_left fun hm => ?_
  obtain ⟨p, _, he⟩ := List.mem_map.mp hm
  have hl := congrArg String.length he
  rw [Naming.resourceInterface, String.length_append] at hl
  have hlong : "Resource".length = 8 := by decide
  have hshort : g.name.length < 8 := by cases g <;> decide
  omega

end

/-- No interface takes the name of requests. One takes that of arrays, or that of records, exactly
if a schema of this name declares something and a type is printed that needs the generic one. -/
theorem captures_iff {api : Description} {options : DeclarationOptions} {text : String}
    (h : render api options = .ok text) :
    ∃ o, Outline.of api options.excludedResources = .ok o ∧ o.text api options = text ∧
      ¬ o.Captures (SchemaTable.ofDescription api) .request ∧
      ∀ g, o.Captures (SchemaTable.ofDescription api) g ↔
        (SchemaTable.ofDescription api).Declares g.name ∧
          ∃ s t, Printed api s ∧ s.Spans t ∧ t.generic? = some g := by
  rw [render_eq] at h
  obtain ⟨o, ho, ht⟩ := Outcomes.map_eq_ok_iff.mp h
  have hrequest : ¬ o.Captures (SchemaTable.ofDescription api) .request := by
    rintro ⟨hu, hd⟩
    rcases hu.origin ho with ⟨_, hr⟩ | ⟨_, t, _, _, hg⟩
    · have hc : (SchemaTable.ofDescription api).contains "Request" = true :=
        SchemaTable.contains_of_declares ((Outline.declares_generic_iff ho _).mp hd)
      rw [requestType, if_pos hc] at hr
      exact absurd hr (by decide)
    · exact Schema.generic?_ne_request t hg
  refine ⟨o, ho, ht, hrequest, fun g => ⟨fun hc => ?_, fun ⟨hd, s, t, hp, hs, hg⟩ => ?_⟩⟩
  · refine ⟨(Outline.declares_generic_iff ho g).mp hc.declared, ?_⟩
    rcases hc.used.origin ho with ⟨rfl, _⟩ | hu
    · exact absurd hc hrequest
    · exact hu
  · exact ⟨Outline.uses_of_printed ho hp hs hg, (Outline.declares_generic_iff ho g).mpr hd⟩

end Declarations

/-! Shelves with a list of books, and a schema that has the name of a generic type. -/

namespace Shelves

open Declarations

def book : Schema :=
  { Schema.blank with type := some "object", properties := some [("title", Drive.text)] }

def books : Schema := { Schema.blank with type := some "array", items := some book }

def schemas (name : String) : Entries Schema :=
  [(name, { Schema.blank with
      type := some "object"
      properties := some [("size", Drive.text)] }),
    ("Shelf", { Schema.blank with type := some "object", properties := some [("books", books)] })]

def list : Method :=
  { Method.blank with id := some "library.shelves.list", response := some ⟨some "Shelf", none⟩ }

def api (name : String) : Description :=
  { Description.blank "library" "v1" with
    schemas := some (schemas name)
    resources := some [("shelves", ⟨some [("list", list)], none⟩)] }

/-- The books are an array of objects. -/
theorem printed (name : String) :
    ∃ s t, Printed (api name) s ∧ s.Spans t ∧ t.generic? = some .array :=
  ⟨books, books, .property (.tail _ (.head _)) (by decide) (.head _), .refl, by decide⟩

/-- A schema with the name of requests takes no name from the file. -/
theorem request_not_captured :
    ∃ (text : String) (o : Outline), render (api "Request") Drive.options = .ok text ∧
      o.text (api "Request") Drive.options = text ∧ "Request" ∈ o.interfaceNames ∧
      ∀ g, ¬ o.Captures (SchemaTable.ofDescription (api "Request")) g := by
  obtain ⟨o, ho⟩ : ∃ o, Outline.of (api "Request") Drive.options.excludedResources = .ok o :=
    ⟨_, rfl⟩
  have hr : render (api "Request") Drive.options = .ok (o.text (api "Request") Drive.options) := by
    rw [render_eq, ho]; rfl
  obtain ⟨o', ho', ht, hrequest, hiff⟩ := captures_iff hr
  cases ho.symm.trans ho'
  have hd := (Outline.declares_generic_iff ho .request).mpr ⟨_, .head _, by decide⟩
  refine ⟨_, o, hr, ht, hd, fun g hc => ?_⟩
  obtain ⟨⟨schema, hm, _⟩, _⟩ := (hiff g).mp hc
  have hname : g.name ∈ ["Request", "Shelf"] := List.mem_map_of_mem (f := Prod.fst) hm
  cases g with
  | request => exact hrequest hc
  | array => exact absurd hname (by decide)
  | record => exact absurd hname (by decide)

/-- A schema with the name of arrays takes that of the books. -/
theorem array_captured :
    ∃ (text : String) (o : Outline), render (api "Array") Drive.options = .ok text ∧
      Outline.of (api "Array") Drive.options.excludedResources = .ok o ∧
      o.text (api "Array") Drive.options = text ∧
      o.Captures (SchemaTable.ofDescription (api "Array")) .array := by
  obtain ⟨o, ho⟩ : ∃ o, Outline.of (api "Array") Drive.options.excludedResources = .ok o :=
    ⟨_, rfl⟩
  have hr : render (api "Array") Drive.options = .ok (o.text (api "Array") Drive.options) := by
    rw [render_eq, ho]; rfl
  obtain ⟨s, t, hp, hs, hg⟩ := printed "Array"
  exact ⟨_, o, hr, ho, rfl, Outline.uses_of_printed ho hp hs hg,
    (Outline.declares_generic_iff ho .array).mpr ⟨_, .head _, by decide⟩⟩

end Shelves

end ApiTypings
