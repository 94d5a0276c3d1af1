import ApiTypings.Stub.Session
import ApiTypings.Schema.Table

/-! Example values. A schema is given the value a caller could pass: a literal for a primitive, one
item for an array, every property of an object, one entry for a map. References are followed, and
one to a schema that is already being expanded is left undefined. -/

namespace ApiTypings.Stub

/-- The literal for a primitive kind. -/
def literal? (kind : String) : Option String :=
  if kind == "number" || kind == "integer" || kind == "any" then some "42"
  else if kind == "boolean" then some "true"
  else if kind == "string" then some "\"Test string\""
  else if kind == "object" then some "\x7b\x7d"
  else none

/-- The key of the one entry of a map. -/
def mapKey : String := "A"

open Synthesis

/-- Properties in key order, each on a line of its own and with a comma behind it. -/
def writeMembers (properties : Entries Synthesis) : Synthesis :=
  all ((Entries.sortByKey properties).map fun (name, value) =>
    all [emit (.beginNewLine (Naming.memberName name ++ ": ")), value, emit (.text ",")])

/-- The value of a shape. The type of further properties plays no part for an object that lists
properties of its own. -/
def writeShape (writeRef : String → Synthesis) :
    Except SchemaFault (Shape (Schema × Synthesis)) → Synthesis
  | .error fault => fail (.schema fault)
  | .ok (.reference name) => writeRef name
  | .ok (.array (_, item)) => scope (andThen (emit (.beginNewLine "")) item) "[" "]"
  | .ok (.object properties _) => scope (writeMembers (properties.mapValues (·.2))) "\x7b" "\x7d"
  | .ok (.map (_, value)) =>
    scope (andThen (emit (.beginNewLine (mapKey ++ ": "))) value) "\x7b" "\x7d"
  | .ok (.primitive kind _) =>
    match literal? kind with
    | some text => emit (.text text)
    | none => fail (.unknownType (some kind))

/-- The value of a schema, where references are written by `writeRef`. -/
def writeSchema (writeRef : String → Synthesis) : Schema → Synthesis :=
  Schema.byShape fun _ shape => writeShape writeRef shape

/-- The value of a named schema, with at most `depth` more references open inside each other. -/
def writeReference (table : SchemaTable) (depth : Nat) (name : String) : Synthesis := fun session =>
  if session.guard.contains name then emit (.text "undefined") session
  else
    match table.resolve name with
    | .error fault => fail (.schema fault) session
    | .ok schema =>
      match depth with
      | 0 => none
      | depth + 1 => entering name (writeSchema (writeReference table depth) schema) session

/-! A reference is followed only to a schema that is not open yet, so there are never more open
than the table has. -/

def writeRef (table : SchemaTable) (name : String) : Synthesis :=
  writeReference table table.length name

def writeValue (table : SchemaTable) (schema : Schema) : Synthesis :=
  writeSchema (writeRef table) schema

def writeProperties (table : SchemaTable) (properties : Entries Schema) : Synthesis :=
  writeMembers (properties.mapValues (writeValue table))

end ApiTypings.Stub
