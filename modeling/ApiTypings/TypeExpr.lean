import ApiTypings.Code.Typescript
import ApiTypings.Schema.Table

/-! Type expressions: what a schema is declared as. Named schemas are referred to and never
unfolded, so the expression of a schema is finite however its references run. -/

namespace ApiTypings

/-- A member of an object type. -/
structure Field (τ : Type) where
  name : String
  type : τ
  required : Bool
  description : Option String
deriving Repr

inductive TypeExpr where
  /-- A name, an array of it, or a union of the two. -/
  | inline (text : String)
  /-- An array of a type that takes several lines. -/
  | array (item : TypeExpr)
  | object (fields : List (Field TypeExpr))
  /-- Any string keys, with values of one type. -/
  | record (value : TypeExpr)
deriving Repr

/-- The name under which an index signature is written. -/
def indexSignature : String := "[key: string]"

namespace TypeExpr

/-! ## From schemas -/

/-- The type that a primitive kind is declared as; a kind without one of its own keeps its name. -/
def primitiveName (kind : String) : String :=
  if kind == "integer" then "number" else if kind == "object" then "any" else kind

/-- A value, or several of them. -/
def primitive (kind : String) (repeated : Bool) : TypeExpr :=
  let name := primitiveName kind
  .inline (if repeated then name ++ " | " ++ name ++ "[]" else name)

def arrayOf : TypeExpr → TypeExpr
  | .inline text => .inline (text ++ "[]")
  | block => .array block

/-- A reference is the name of the schema, or `any` for a schema that declares nothing. -/
def reference (table : SchemaTable) (name : String) : Except SchemaFault String :=
  (table.isEmpty name).map fun empty => if empty then "any" else name

def fieldOf (name : String) (schema : Schema) (type : TypeExpr) : Field TypeExpr :=
  ⟨name, type, schema.required == some true, schema.description⟩

/-- The member for properties that are not listed. -/
def indexField (type : TypeExpr) : Field TypeExpr := ⟨indexSignature, type, true, none⟩

/-- Members in key order, from properties whose types are known. -/
def fieldsOf (properties : Entries (Schema × Except SchemaFault TypeExpr)) :
    Except SchemaFault (List (Field TypeExpr)) :=
  (Entries.sortByKey properties).mapM fun (name, schema, type) => type.map (fieldOf name schema)

/-- The members of an object: its properties in key order, then the index signature. -/
def membersOf (properties : Entries (Schema × Except SchemaFault TypeExpr))
    (additional : Option (Schema × Except SchemaFault TypeExpr)) :
    Except SchemaFault (List (Field TypeExpr)) := do
  let fields ← fieldsOf properties
  match additional with
  | none => return fields
  | some (_, type) => return fields ++ [indexField (← type)]

/-- The type of a schema from its shape. Faults of nested schemas come out before anything could
be written, the first one in the order of the text. -/
def ofShape (table : SchemaTable) :
    Except SchemaFault (Shape (Schema × Except SchemaFault TypeExpr)) → Except SchemaFault TypeExpr
  | .error fault => .error fault
  | .ok (.primitive kind repeated) => .ok (primitive kind repeated)
  | .ok (.array (_, item)) => item.map arrayOf
  | .ok (.object properties additional) => (membersOf properties additional).map .object
  | .ok (.map (_, value)) => value.map .record
  | .ok (.reference name) => (reference table name).map .inline

/-- The type a schema is declared as. -/
def ofSchema (table : SchemaTable) : Schema → Except SchemaFault TypeExpr :=
  Schema.byShape fun _ shape => ofShape table shape

/-- The members that properties are declared as. -/
def fieldsOfProperties (table : SchemaTable) (properties : Entries Schema) :
    Except SchemaFault (List (Field TypeExpr)) :=
  fieldsOf (properties.mapValues fun schema => (schema, ofSchema table schema))

/-- The members of the interface that a named schema is declared as. -/
def membersOfSchema (table : SchemaTable) (schema : Schema) :
    Except SchemaFault (List (Field TypeExpr)) :=
  membersOf ((Entries.orEmpty schema.properties).mapValues fun s => (s, ofSchema table s))
    (schema.additionalProperties.map fun s => (s, ofSchema table s))

/-! ## As code -/

variable {ε : Type}

/-- A member with its description above it. -/
def fieldCode (name : String) (type : Operand ε) (required : Bool) (description : Option String) :
    Code ε :=
  Code.comment? description ++ Code.property name type required

mutual

def code : TypeExpr → Code ε
  | .inline text => .text text
  | .array item => .text "Array<" ++ item.code ++ .text ">"
  | .object fields => .anonymousType (fieldsCode fields)
  | .record value => .text "Record<string, " ++ value.code ++ .text ">"

def fieldsCode : List (Field TypeExpr) → Code ε
  | [] => .nil
  | ⟨name, .inline text, required, description⟩ :: rest =>
    fieldCode name (.inline text) required description ++ fieldsCode rest
  | ⟨name, type, required, description⟩ :: rest =>
    fieldCode name (.block type.code) required description ++ fieldsCode rest

end

/-- The type as an operand of a declaration. -/
def operand : TypeExpr → Operand ε
  | .inline text => .inline text
  | block => .block block.code

end TypeExpr

end ApiTypings
