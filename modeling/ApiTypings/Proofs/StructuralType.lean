import ApiTypings.Proofs.SchemaShape
import ApiTypings.TypeExpr

/-! # Structural types

A type expression is text as soon as it names something: it no longer says whether a name is that of
a primitive or of an interface, nor that the last member of an object is an index signature. A
structural type keeps these apart. Printed, the structural type of a schema is its type expression,
and that of an interface is the members that are declared for it. -/

namespace ApiTypings

inductive StructuralType where
  | primitive (name : String)
  /-- A value of a primitive type, or an array of such values. -/
  | oneOrMany (name : String)
  /-- The interface of a named schema. -/
  | interface (name : String)
  | array (item : StructuralType)
  /-- Listed properties, and perhaps a type for those that are not listed. -/
  | object (fields : List (Field StructuralType)) (index : Option StructuralType)
  | record (value : StructuralType)

namespace StructuralType

/-- The type without any demand. -/
def any : StructuralType := primitive "any"

/-! ## From schemas -/

def primitiveOf (kind : String) (repeated : Bool) : StructuralType :=
  let name := TypeExpr.primitiveName kind
  if repeated then oneOrMany name else primitive name

def fieldOf (name : String) (schema : Schema) (type : StructuralType) : Field StructuralType :=
  ⟨name, type, schema.required == some true, schema.description⟩

def fieldsOf (properties : Entries (Schema × Except SchemaFault StructuralType)) :
    Except SchemaFault (List (Field StructuralType)) :=
  (Entries.sortByKey properties).mapM fun (name, schema, type) => type.map (fieldOf name schema)

def objectOf (properties : Entries (Schema × Except SchemaFault StructuralType))
    (additional : Option (Schema × Except SchemaFault StructuralType)) :
    Except SchemaFault StructuralType := do
  let fields ← fieldsOf properties
  match additional with
  | none => return object fields none
  | some (_, type) => return object fields (some (← type))

def ofShape (table : SchemaTable) :
    Except SchemaFault (Shape (Schema × Except SchemaFault StructuralType)) →
      Except SchemaFault StructuralType
  | .error fault => .error fault
  | .ok (.primitive kind repeated) => .ok (primitiveOf kind repeated)
  | .ok (.array (_, item)) => item.map array
  | .ok (.object properties additional) => objectOf properties additional
  | .ok (.map (_, value)) => value.map record
  | .ok (.reference name) =>
    (table.isEmpty name).map fun empty => if empty then any else interface name

def ofSchema (table : SchemaTable) : Schema → Except SchemaFault StructuralType :=
  Schema.byShape fun _ shape => ofShape table shape

/-- What the interface of a named schema asks for. -/
def ofInterface (table : SchemaTable) (schema : Schema) : Except SchemaFault StructuralType :=
  objectOf ((Entries.orEmpty schema.properties).mapValues fun s => (s, ofSchema table s))
    (schema.additionalProperties.map fun s => (s, ofSchema table s))

theorem ofSchema_eq (table : SchemaTable) (s : Schema) :
    ofSchema table s =
      ofShape table (s.shape.map (Shape.mapParts fun t => (t, ofSchema table t))) :=
  Schema.byShape_eq _ s

/-- The fields stand in key order, each with the type of its property. -/
theorem fieldsOf_eq_ok {table : SchemaTable} {properties : Entries Schema}
    {fields : List (Field StructuralType)}
    (h : fieldsOf (properties.mapValues fun s => (s, ofSchema table s)) = .ok fields) :
    List.Forall₂ (fun e field => ∃ type, ofSchema table e.2 = .ok type ∧
      fieldOf e.1 e.2 type = field) (Entries.sortByKey properties) fields := by
  rw [fieldsOf, Outcomes.mapM_eq_ok_iff, Entries.sortByKey_mapValues, Entries.mapValues,
    List.forall₂_map_left_iff] at h
  exact h.imp fun e field he => Outcomes.map_eq_ok_iff.mp he

theorem objectOf_eq_ok {properties : Entries (Schema × Except SchemaFault StructuralType)}
    {additional : Option (Schema × Except SchemaFault StructuralType)} {type : StructuralType}
    (h : objectOf properties additional = .ok type) :
    ∃ fields index, fieldsOf properties = .ok fields ∧ type = object fields index := by
  rw [objectOf] at h
  cases hf : fieldsOf properties with
  | error fault => rw [hf] at h; cases h
  | ok fields =>
    rw [hf] at h
    rcases additional with _ | ⟨s, _ | index⟩
    · cases h; exact ⟨fields, none, rfl, rfl⟩
    · cases h
    · cases h; exact ⟨fields, some index, rfl, rfl⟩

/-! ## As expressions -/

mutual

/-- The expression by which the type is printed. -/
def expr : StructuralType → TypeExpr
  | .primitive name => .inline name
  | .oneOrMany name => .inline (name ++ " | " ++ name ++ "[]")
  | .interface name => .inline name
  | .array item => .arrayOf item.expr
  | .object fields none => .object (fieldExprs fields)
  | .object fields (some type) => .object (fieldExprs fields ++ [TypeExpr.indexField type.expr])
  | .record value => .record value.expr

def fieldExprs : List (Field StructuralType) → List (Field TypeExpr)
  | [] => []
  | ⟨name, type, required, description⟩ :: rest =>
    ⟨name, type.expr, required, description⟩ :: fieldExprs rest

end

theorem fieldExprs_eq_map (fields : List (Field StructuralType)) :
    fieldExprs fields = fields.map fun f => ⟨f.name, f.type.expr, f.required, f.description⟩ := by
  induction fields with
  | nil => rw [fieldExprs]; rfl
  | cons field rest ih => rw [fieldExprs, ih]; rfl

theorem expr_primitiveOf (kind : String) (repeated : Bool) :
    (primitiveOf kind repeated).expr = TypeExpr.primitive kind repeated := by
  unfold primitiveOf TypeExpr.primitive
  cases repeated <;> simp [expr]

theorem fieldExprs_fieldsOf (properties : Entries (Schema × Except SchemaFault StructuralType)) :
    TypeExpr.fieldsOf (properties.mapValues fun part => (part.1, part.2.map expr)) =
      (fieldsOf properties).map fieldExprs := by
  rw [TypeExpr.fieldsOf, fieldsOf, Entries.sortByKey_mapValues, Entries.mapValues, List.mapM_map,
    funext fieldExprs_eq_map]
  refine Outcomes.mapM_map_results fun e _ => ?_
  obtain ⟨name, schema, type⟩ := e
  cases type <;> rfl

/-- An object is printed with the members that its parts are printed as. -/
theorem expr_objectOf (properties : Entries (Schema × Except SchemaFault StructuralType))
    (additional : Option (Schema × Except SchemaFault StructuralType)) :
    (TypeExpr.membersOf (properties.mapValues fun part => (part.1, part.2.map expr))
      (additional.map fun part => (part.1, part.2.map expr))).map .object =
      (objectOf properties additional).map expr := by
  rw [TypeExpr.membersOf, objectOf, fieldExprs_fieldsOf]
  cases fieldsOf properties with
  | error fault => rfl
  | ok fields =>
    rcases additional with _ | ⟨schema, _ | type⟩
    · simp [Except.map, bind, Except.bind, pure, Except.pure, expr]
    · rfl
    · simp [Except.map, bind, Except.bind, pure, Except.pure, expr]

/-- The structural type of a schema is printed as the type of the schema. -/
theorem expr_ofSchema (table : SchemaTable) (schema : Schema) :
    TypeExpr.ofSchema table schema = (ofSchema table schema).map expr := by
  refine Schema.byShape_fusion (fun s shape => ?_) schema
  cases shape with
  | error fault => rfl
  | ok shape =>
    cases shape with
    | primitive kind repeated => exact congrArg _ (expr_primitiveOf kind repeated).symm
    | array item =>
      rcases item with ⟨s, _ | type⟩ <;>
        simp [Except.map, Shape.mapParts, TypeExpr.ofShape, ofShape, expr]
    | object properties additional => exact expr_objectOf properties additional
    | map value =>
      rcases value with ⟨s, _ | type⟩ <;>
        simp [Except.map, Shape.mapParts, TypeExpr.ofShape, ofShape, expr]
    | reference name =>
      simp only [Except.map, Shape.mapParts, TypeExpr.ofShape, ofShape, TypeExpr.reference]
      cases table.isEmpty name with
      | error fault => rfl
      | ok empty => cases empty <;> simp [any, expr]

/-- The interface of a schema is declared with the members of its structural type. -/
theorem expr_ofInterface (table : SchemaTable) (schema : Schema) :
    (TypeExpr.membersOfSchema table schema).map .object = (ofInterface table schema).map expr := by
  rw [ofInterface, ← expr_objectOf, TypeExpr.membersOfSchema]
  simp only [expr_ofSchema, Entries.mapValues_mapValues, Option.map_map, Function.comp_def]

end StructuralType

/-! ## As code -/

namespace TypeExpr

variable {ε : Type}

theorem fieldsCode_cons (field : Field TypeExpr) (rest : List (Field TypeExpr)) :
    (fieldsCode (field :: rest) : Code ε) =
      fieldCode field.name field.type.operand field.required field.description ++
        fieldsCode rest := by
  obtain ⟨name, type, required, description⟩ := field
  cases type <;> rw [fieldsCode] <;> first | rfl | exact nofun

end TypeExpr

end ApiTypings
