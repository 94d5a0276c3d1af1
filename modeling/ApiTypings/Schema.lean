import ApiTypings.Json.Checked

/-! Schemas: the JSON Schema dialect in which discovery documents describe values. Fields that are
not listed here are accepted and ignored. -/

namespace ApiTypings

structure Schema where
  id : Option String
  type : Option String
  /-- The name of another schema of the same document. -/
  ref : Option String
  description : Option String
  default : Option Json
  required : Option Bool
  format : Option String
  pattern : Option String
  minimum : Option String
  maximum : Option String
  enum : Option (List String)
  enumDescriptions : Option (List String)
  repeated : Option Bool
  location : Option String
  readOnly : Option Bool
  deprecated : Option Bool
  items : Option Schema
  properties : Option (List (String × Schema))
  additionalProperties : Option Schema
deriving Repr

namespace Schema

/-- Neither properties nor a type for further ones: there is nothing to declare. -/
def isEmpty (s : Schema) : Bool :=
  (Entries.orEmpty s.properties).isEmpty && s.additionalProperties.isNone

/-- A reference stands under `$ref`. The key `field_ref` is read in its place only where `$ref` is
absent, not where it is null. -/
def refField (fields : List (String × Json)) : Checked (Option String) :=
  match fields.lookup "$ref" with
  | some _ => Json.optionalField "$ref" Json.asString fields
  | none => Json.optionalField "field_ref" Json.asString fields

mutual

def ofJson : Json → Checked Schema
  | .object fields =>
    Schema.mk
      <$> Json.optionalField "id" Json.asString fields
      <*> Json.optionalField "type" Json.asString fields
      <*> refField fields
      <*> Json.optionalField "description" Json.asString fields
      <*> Json.optionalField "default" .valid fields
      <*> Json.optionalField "required" Json.asBool fields
      <*> Json.optionalField "format" Json.asString fields
      <*> Json.optionalField "pattern" Json.asString fields
      <*> Json.optionalField "minimum" Json.asString fields
      <*> Json.optionalField "maximum" Json.asString fields
      <*> Json.optionalField "enum" (Json.asListOf Json.asString) fields
      <*> Json.optionalField "enumDescriptions" (Json.asListOf Json.asString) fields
      <*> Json.optionalField "repeated" Json.asBool fields
      <*> Json.optionalField "location" Json.asString fields
      <*> Json.optionalField "readOnly" Json.asBool fields
      <*> Json.optionalField "deprecated" Json.asBool fields
      <*> schemaField "items" fields
      <*> schemaMapField "properties" fields
      <*> schemaField "additionalProperties" fields
  | _ => .fault (.notRecord "JsonSchema")

/-- The schema under a key, if the key is there and not null. -/
def schemaField (key : String) : List (String × Json) → Checked (Option Schema)
  | [] => .valid none
  | (k, value) :: rest =>
    if k == key then
      if value.isNull then .valid none else (some <$> ofJson value).within (.field key)
    else schemaField key rest

/-- The named schemas under a key, if the key is there and not null. -/
def schemaMapField (key : String) : List (String × Json) → Checked (Option (Entries Schema))
  | [] => .valid none
  | (k, value) :: rest =>
    if k == key then
      match value with
      | .null => .valid none
      | .object entries => (some <$> schemaEntries entries).within (.field key)
      | _ => (Checked.fault .notMap).within (.field key)
    else schemaMapField key rest

def schemaEntries : List (String × Json) → Checked (Entries Schema)
  | [] => .valid []
  | (key, value) :: rest =>
    (fun s ss => (key, s) :: ss) <$> (ofJson value).within (.field key) <*> schemaEntries rest

end

/-- Named schemas, as a whole value. -/
def mapOfJson : Json → Checked (Entries Schema)
  | .object entries => schemaEntries entries
  | _ => .fault .notMap

end Schema

/-- A request or response body, by the name of its schema. -/
structure SchemaRef where
  ref : Option String
  parameterName : Option String
deriving Repr

def SchemaRef.ofJson : Json → Checked SchemaRef
  | .object fields =>
    SchemaRef.mk
      <$> Schema.refField fields
      <*> Json.optionalField "parameterName" Json.asString fields
  | _ => .fault (.notRecord "SchemaRef")

end ApiTypings
