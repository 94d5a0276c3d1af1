import ApiTypings.Proofs.StructuralType
import Mathlib.Logic.Relation

/-! # The types of parts

A schema has a type only if every part of its shape has one, and then the parts of the type are the
types of the parts. So what holds of all that a type is made of is read off the schema, and the
other way round, however deep the nesting. -/

namespace ApiTypings

theorem Shape.parts_mapParts {α β : Type} (f : α → β) (shape : Shape α) :
    (shape.mapParts f).parts = shape.parts.map f := by
  cases shape with
  | primitive | array | map | reference => rfl
  | object properties additional =>
    cases additional <;> simp [mapParts, parts, Entries.mapValues, Function.comp_def]

namespace Schema

/-- A step inwards, to a part of the shape. -/
def Part (s t : Schema) : Prop := ∃ shape, s.shape = .ok shape ∧ t ∈ shape.parts

/-- Any number of steps inwards. References are not followed. -/
abbrev Spans : Schema → Schema → Prop := Relation.ReflTransGen Part

/-- The schema and all that it spans. -/
def spanned : Schema → List Schema :=
  byShape fun s shape =>
    s :: match shape with
      | .ok shape => shape.parts.flatMap Prod.snd
      | .error _ => []

theorem mem_spanned {s t : Schema} (h : s.Spans t) : t ∈ s.spanned := by
  unfold spanned
  induction h using Relation.ReflTransGen.head_induction_on with
  | refl =>
    rw [byShape_eq]
    exact List.mem_cons_self ..
  | head hp _ ih =>
    obtain ⟨shape, hs, hpart⟩ := hp
    rw [byShape_eq, hs]
    refine List.mem_cons_of_mem _ (List.mem_flatMap.mpr ?_)
    rw [Shape.parts_mapParts]
    exact ⟨_, List.mem_map_of_mem hpart, ih⟩

end Schema

namespace StructuralType

variable {table : SchemaTable} {s t : Schema} {form : StructuralType}

/-- The types that a type is made of. -/
def parts : StructuralType → List StructuralType
  | array item => [item]
  | object fields index => fields.map Field.type ++ index.toList
  | record value => [value]
  | primitive _ | oneOrMany _ | interface _ => []

/-- A step inwards, to a part of the type. -/
def Part (form part : StructuralType) : Prop := part ∈ form.parts

abbrev Spans : StructuralType → StructuralType → Prop := Relation.ReflTransGen Part

theorem sizeOf_part {form part : StructuralType} (h : part ∈ form.parts) :
    sizeOf part < sizeOf form := by
  cases form with
  | primitive | oneOrMany | interface => cases h
  | array item =>
    cases List.mem_singleton.mp h
    simp
  | record value =>
    cases List.mem_singleton.mp h
    simp
  | object fields index =>
    rcases List.mem_append.mp h with hf | hi
    · obtain ⟨field, hm, rfl⟩ := List.mem_map.mp hf
      have hs := List.sizeOf_lt_of_mem hm
      obtain ⟨⟩ := field
      simp at hs ⊢
      omega
    · cases index with
      | none => cases hi
      | some type =>
        cases List.mem_singleton.mp hi
        simp
        omega

/-- What holds of a type whenever it holds of its parts holds of every type. -/
@[elab_as_elim]
theorem partInduction {motive : StructuralType → Prop}
    (step : ∀ form, (∀ part ∈ form.parts, motive part) → motive form) (form : StructuralType) :
    motive form :=
  step form fun part h => have := sizeOf_part h; partInduction step part
termination_by sizeOf form

/-! ## One step -/

/-- The type of further properties is the index signature. -/
theorem objectOf_index {properties : Entries (Schema × Except SchemaFault StructuralType)}
    {additional : Option (Schema × Except SchemaFault StructuralType)}
    (h : objectOf properties additional = .ok form) :
    ∃ fields index, fieldsOf properties = .ok fields ∧ form = object fields index ∧
      additional.map Prod.snd = index.map .ok := by
  rw [objectOf] at h
  cases hf : fieldsOf properties with
  | error fault => rw [hf] at h; cases h
  | ok fields =>
    rw [hf] at h
    rcases additional with _ | ⟨_, _ | type⟩
    · cases h
      exact ⟨fields, none, rfl, rfl, rfl⟩
    · cases h
    · cases h
      exact ⟨fields, some type, rfl, rfl, rfl⟩

/-- How the type of a schema comes of its shape. -/
inductive Forms (table : SchemaTable) : Shape Schema → StructuralType → Prop
  | one (kind : String) :
    Forms table (.primitive kind false) (primitive (TypeExpr.primitiveName kind))
  | oneOrMany (kind : String) :
    Forms table (.primitive kind true) (oneOrMany (TypeExpr.primitiveName kind))
  | array {t : Schema} {item : StructuralType} (h : ofSchema table t = .ok item) :
    Forms table (.array t) (array item)
  | map {t : Schema} {value : StructuralType} (h : ofSchema table t = .ok value) :
    Forms table (.map t) (record value)
  | object {properties : Entries Schema} {additional : Option Schema}
    {fields : List (Field StructuralType)} {index : Option StructuralType}
    (hf : fieldsOf (properties.mapValues fun s => (s, ofSchema table s)) = .ok fields)
    (hi : additional.map (ofSchema table) = index.map .ok) :
    Forms table (.object properties additional) (object fields index)
  | any {name : String} (h : table.isEmpty name = .ok true) :
    Forms table (.reference name) (primitive "any")
  | interface {name : String} (h : table.isEmpty name = .ok false) :
    Forms table (.reference name) (interface name)

theorem forms_of_shape {shape : Shape Schema} (h : ofSchema table s = .ok form)
    (hs : s.shape = .ok shape) : Forms table shape form := by
  rw [ofSchema_eq, hs] at h
  cases shape with
  | primitive kind repeated =>
    cases h
    cases repeated
    · exact .one kind
    · exact .oneOrMany kind
  | array item =>
    obtain ⟨part, hp, rfl⟩ := Outcomes.map_eq_ok_iff.mp h
    exact .array hp
  | map value =>
    obtain ⟨part, hp, rfl⟩ := Outcomes.map_eq_ok_iff.mp h
    exact .map hp
  | object properties additional =>
    obtain ⟨fields, index, hf, rfl, hi⟩ := objectOf_index h
    rw [Option.map_map] at hi
    exact .object hf hi
  | reference name =>
    obtain ⟨empty, he, rfl⟩ := Outcomes.map_eq_ok_iff.mp h
    cases empty
    · exact .interface he
    · exact .any he

/-- A schema with a type has a shape, and the type comes of it. -/
theorem forms_of_ofSchema (h : ofSchema table s = .ok form) :
    ∃ shape, s.shape = .ok shape ∧ Forms table shape form := by
  cases hs : s.shape with
  | error fault =>
    rw [ofSchema_eq, hs] at h
    cases h
  | ok shape => exact ⟨shape, rfl, forms_of_shape h hs⟩

/-- The parts of a schema and those of its type, each beside the other. -/
structure PartsAgree (table : SchemaTable) (ts : List Schema) (forms : List StructuralType) :
    Prop where
  typed : ∀ t ∈ ts, ∃ part ∈ forms, ofSchema table t = .ok part
  typing : ∀ part ∈ forms, ∃ t ∈ ts, ofSchema table t = .ok part

theorem PartsAgree.single {part : StructuralType} (h : ofSchema table t = .ok part) :
    PartsAgree table [t] [part] := by
  constructor
  case typed => exact fun u hu => ⟨part, by simp, List.mem_singleton.mp hu ▸ h⟩
  case typing => exact fun u hu => ⟨t, by simp, List.mem_singleton.mp hu ▸ h⟩

theorem PartsAgree.object {properties : Entries Schema} {additional : Option Schema}
    {fields : List (Field StructuralType)} {index : Option StructuralType}
    (hf : fieldsOf (properties.mapValues fun s => (s, ofSchema table s)) = .ok fields)
    (hi : additional.map (ofSchema table) = index.map .ok) :
    PartsAgree table (properties.map Prod.snd ++ additional.toList)
      (fields.map Field.type ++ index.toList) := by
  have hfields := fieldsOf_eq_ok hf
  constructor
  case typed =>
    intro t ht
    rcases List.mem_append.mp ht with hp | ha
    · obtain ⟨e, he, rfl⟩ := List.mem_map.mp hp
      obtain ⟨field, hfield, type, htype, rfl⟩ :=
        Outcomes.exists_right_of_mem hfields (Entries.mem_sortByKey.mpr he)
      exact ⟨type, List.mem_append_left _ (List.mem_map_of_mem hfield), htype⟩
    · cases additional with
      | none => cases ha
      | some further =>
        cases List.mem_singleton.mp ha
        cases index with
        | none => cases hi
        | some type => exact ⟨type, by simp, Option.some.inj hi⟩
  case typing =>
    intro part hpart
    rcases List.mem_append.mp hpart with hp | ha
    · obtain ⟨field, hfield, rfl⟩ := List.mem_map.mp hp
      obtain ⟨e, he, type, htype, rfl⟩ := Outcomes.exists_right_of_mem hfields.flip hfield
      have hm := List.mem_map_of_mem (f := Prod.snd) (Entries.mem_sortByKey.mp he)
      exact ⟨e.2, List.mem_append_left _ hm, htype⟩
    · cases index with
      | none => cases ha
      | some type =>
        cases List.mem_singleton.mp ha
        cases additional with
        | none => cases hi
        | some further => exact ⟨further, by simp, Option.some.inj hi⟩

theorem Forms.parts_agree {shape : Shape Schema} (h : Forms table shape form) :
    PartsAgree table shape.parts form.parts := by
  cases h with
  | one | oneOrMany | any | interface => exact ⟨nofun, nofun⟩
  | array h => exact .single h
  | map h => exact .single h
  | object hf hi => exact .object hf hi

/-! ## Any number of steps -/

/-- Every schema that a typed one spans is typed, and its type is one that the type spans. -/
theorem spans_of_schema (h : ofSchema table s = .ok form) (hs : s.Spans t) :
    ∃ sub, form.Spans sub ∧ ofSchema table t = .ok sub := by
  induction hs with
  | refl => exact ⟨form, .refl, h⟩
  | tail _ hp ih =>
    obtain ⟨mid, hm, ht⟩ := ih
    obtain ⟨shape, hshape, hpart⟩ := hp
    obtain ⟨sub, hsub, hs⟩ := (forms_of_shape ht hshape).parts_agree.typed _ hpart
    exact ⟨sub, hm.tail hsub, hs⟩

/-- Every type that a type spans is that of a schema the schema spans. -/
theorem spans_of_form {sub : StructuralType} (h : ofSchema table s = .ok form)
    (hs : form.Spans sub) : ∃ t, s.Spans t ∧ ofSchema table t = .ok sub := by
  induction hs with
  | refl => exact ⟨s, .refl, h⟩
  | tail _ hp ih =>
    obtain ⟨mid, hm, ht⟩ := ih
    obtain ⟨shape, hshape, hforms⟩ := forms_of_ofSchema ht
    obtain ⟨t, hpart, hs⟩ := hforms.parts_agree.typing _ hp
    exact ⟨t, hm.tail ⟨shape, hshape, hpart⟩, hs⟩

end StructuralType

end ApiTypings
