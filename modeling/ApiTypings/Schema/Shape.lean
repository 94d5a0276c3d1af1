import ApiTypings.Schema

/-! The shape of a schema. A schema may combine its fields in any way; one fixed order of
precedence reduces it to a single shape, and everything that renders schemas goes by the shape. -/

namespace ApiTypings

/-- The text, unless it is absent or empty. -/
def nonEmpty? : Option String → Option String
  | some s => if s.isEmpty then none else some s
  | none => none

/-- A schema breaks an assumption of the renderer. -/
inductive SchemaFault where
  /-- A property that an owner of this kind must have is absent. -/
  | missingProperty (property owner : String)
  /-- A name that cannot be resolved, and why. -/
  | unresolved (name : String) (reason : Option String)
  | malformed (message : String)
deriving DecidableEq, Repr

namespace SchemaFault

/-- No schema of the document has the name. -/
def undefined (name : String) : SchemaFault :=
  unresolved name (some "schema is not defined in this API")

/-- Neither a type nor a reference. -/
def shapeless : SchemaFault := malformed "Unrenderable schema node: expected a type or a $ref"

def message : SchemaFault → String
  | missingProperty property owner =>
    "Expected property '" ++ property ++ "' on " ++ owner ++ " type but was None"
  | unresolved name reason =>
    "Failed to resolve reference '" ++ name ++ "'" ++
      match nonEmpty? reason with
      | some reason => ": " ++ reason
      | none => ""
  | malformed message => message

end SchemaFault

/-- A fault that ends the rendering of an API. -/
inductive RenderFault where
  | schema (fault : SchemaFault)
  /-- A primitive type without an example value. -/
  | unknownType (kind : Option String)
deriving DecidableEq, Repr

def RenderFault.message : RenderFault → String
  | schema fault => fault.message
  | unknownType kind => "Unknown scalar type " ++ kind.getD "None"

/-- What a schema is, once its fields have been weighed against each other. The parts are schemas,
or what has been made of them. -/
inductive Shape (α : Type) where
  /-- A type of this name, possibly given several times. -/
  | primitive (kind : String) (repeated : Bool)
  | array (items : α)
  /-- Fixed properties, and perhaps a type for further ones. -/
  | object (properties : Entries α) (additional : Option α)
  /-- Any keys, with values of one type. -/
  | map (values : α)
  | reference (name : String)
deriving Repr

/-- The shape that the fields of a schema add up to. The type decides first, a reference counts
only without one, and an object with neither properties nor a value type is a plain primitive. -/
def Shape.ofFields {α : Type} (type ref : Option String) (repeated : Option Bool) (items : Option α)
    (properties : Option (Entries α)) (additional : Option α) : Except SchemaFault (Shape α) :=
  if type == some "array" then
    match items with
    | some items => .ok (.array items)
    | none => .error (.missingProperty "items" "array")
  else
    match type == some "object", properties, additional with
    | true, some properties, additional => .ok (.object properties additional)
    | true, none, some values => .ok (.map values)
    | _, _, _ =>
      match nonEmpty? type, nonEmpty? ref with
      | some kind, _ => .ok (.primitive kind (repeated == some true))
      | none, some name => .ok (.reference name)
      | none, none => .error .shapeless

namespace Schema

def shape (s : Schema) : Except SchemaFault (Shape Schema) :=
  Shape.ofFields s.type s.ref s.repeated s.items s.properties s.additionalProperties

/-! ## Recursion by shape

What is computed from a schema is computed from its shape, whose parts come with their own
results. The recursion visits every nested schema once. -/

section
variable {β : Type} (step : Schema → Except SchemaFault (Shape (Schema × β)) → β)

mutual

def byShape : Schema → β
  | { id, type, ref, description, default, required, format, pattern, minimum, maximum, enum,
      enumDescriptions, repeated, location, readOnly, deprecated, items, properties,
      additionalProperties } =>
    step
      { id, type, ref, description, default, required, format, pattern, minimum, maximum, enum,
        enumDescriptions, repeated, location, readOnly, deprecated, items, properties,
        additionalProperties }
      (Shape.ofFields type ref repeated (byShapeOption items) (byShapeMap properties)
        (byShapeOption additionalProperties))

def byShapeOption : Option Schema → Option (Schema × β)
  | none => none
  | some s => some (s, byShape s)

def byShapeMap : Option (List (String × Schema)) → Option (Entries (Schema × β))
  | none => none
  | some entries => some (byShapeEntries entries)

def byShapeEntries : List (String × Schema) → Entries (Schema × β)
  | [] => []
  | (name, s) :: rest => (name, s, byShape s) :: byShapeEntries rest

end

end

end Schema

end ApiTypings
