import ApiTypings.Schema.Shape
import ApiTypings.Description

/-! The schemas of one document by name. -/

namespace ApiTypings

/-- The named schemas of a document. -/
abbrev SchemaTable := Entries Schema

namespace SchemaTable

def ofDescription (api : Description) : SchemaTable := Entries.orEmpty api.schemas

def contains (table : SchemaTable) (name : String) : Bool := (table.lookup name).isSome

/-- The schema of this name. -/
def resolve (table : SchemaTable) (name : String) : Except SchemaFault Schema :=
  match table.lookup name with
  | some schema => .ok schema
  | none => .error (.undefined name)

/-- Does the named schema declare nothing? -/
def isEmpty (table : SchemaTable) (name : String) : Except SchemaFault Bool :=
  (table.resolve name).map Schema.isEmpty

end SchemaTable

end ApiTypings
