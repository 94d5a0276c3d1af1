import ApiTypings.TypeExpr
import ApiTypings.Version

/-! The declaration file of an API: one interface for every schema that declares something, one
for every resource of the tree, and the functions that load the API. -/

namespace ApiTypings

/-- What a declaration file says beside the API itself. -/
structure DeclarationOptions where
  /-- Where the description was found. -/
  sourceUrl : String
  authors : List String
  typescriptVersion : String
  /-- Top-level resources that get no constant. -/
  excludedResources : List String

namespace Declarations

variable {ε : Type}

/-- The type of a pending request. A schema named `Request` would hide the short name. -/
def requestType (table : SchemaTable) : String :=
  if table.contains "Request" then "client.Request" else "Request"

/-! ## Header -/

/-- The parts of the package line that are there and not empty. -/
def packageWords (api : Description) : List String :=
  [api.ownerName.getD "", api.title.getD "", api.version, Version.display api.version].filter
    fun part => !part.isEmpty

/-- The first author stands behind a label, the others below that author. -/
def authorLines : List String → List String
  | [] => []
  | first :: rest =>
    ("// Definitions by: " ++ first) :: rest.map ("//                 " ++ ·)

def headerLines (api : Description) (options : DeclarationOptions) : List String :=
  [ "// Type definitions for non-npm package " ++ " ".intercalate (packageWords api),
    "// Project: " ++ api.documentationLink.getD "" ] ++
  authorLines options.authors ++
  [ "// Definitions: https://github.com/DefinitelyTyped/DefinitelyTyped",
    "// TypeScript Version: " ++ options.typescriptVersion,
    "",
    "// IMPORTANT",
    "// These definitions are for the Google API Javascript Client: " ++
      "https://github.com/google/google-api-javascript-client",
    "// This file was generated by discotyper. Please do not edit it manually.",
    "// Generated from: " ++ options.sourceUrl,
    "" ]

def header (api : Description) (options : DeclarationOptions) : Code ε :=
  .all ((headerLines api options).map .line)

/-! ## Schemas -/

/-- The interface of a named schema. -/
def schemaInterface (table : SchemaTable) (name : String) (schema : Schema) :
    Except SchemaFault (Code ε) := do
  return .interfaceBlock name (TypeExpr.fieldsCode (← TypeExpr.membersOfSchema table schema))

/-- The interfaces of all schemas that declare something, in key order. -/
def schemaInterfaces (table : SchemaTable) : Except SchemaFault (Code ε) := do
  let declared := (Entries.sortByKey table).filter fun (_, schema) => !schema.isEmpty
  return .all (← declared.mapM fun (name, schema) => schemaInterface table name schema)

/-! ## Methods and resources -/

/-- The parameters of a method, those every method takes among them. Where both name one, the
method's own schema holds. -/
def requestParameters (api : Description) (method : Method) : Entries Schema :=
  Entries.merge (Entries.orEmpty api.parameters) (Entries.orEmpty method.parameters)

/-- What a method answers with: nothing, an interface, or an object without known members. -/
def responseType (table : SchemaTable) (response : Option SchemaRef) : Except SchemaFault String :=
  match response with
  | none => return requestType table ++ "<void>"
  | some { ref, .. } =>
    match nonEmpty? ref with
    | none => return requestType table ++ "<\x7b\x7d>"
    | some name => do
      if ← table.isEmpty name then return requestType table ++ "<\x7b\x7d>"
      else return requestType table ++ "<" ++ name ++ ">"

/-- The type of the body, if the method sends one. -/
def bodyParameter (table : SchemaTable) (method : Method) :
    Except SchemaFault (List (String × Operand ε)) :=
  match method.bodyRef? with
  | none => return []
  | some name => do return [("body", .inline (← TypeExpr.reference table name))]

/-- The signature of a method, under the last segment of its id. -/
def methodCode (api : Description) (method : Method) : Except SchemaFault (Code ε) := do
  let table := SchemaTable.ofDescription api
  match nonEmpty? method.id with
  | none => .error (.missingProperty "id" "method")
  | some id =>
    let fields ← TypeExpr.fieldsOfProperties table (requestParameters api method)
    let request := Operand.block (.anonymousType (TypeExpr.fieldsCode fields))
    let body ← bodyParameter table method
    let returnType ← responseType table method.response
    return .comment? method.description ++
      .method (Naming.lastSegment id) (("request", request) :: body) returnType false

/-- The interface of a resource: its methods and its children, both in key order. -/
def resourceInterface (api : Description) (name : String) (resource : Resource) :
    Except SchemaFault (Code ε) := do
  let methods ← (Entries.sortByKey (Entries.orEmpty resource.methods)).mapM
    fun (_, method) => methodCode api method
  let children := (Entries.sortByKey (Entries.orEmpty resource.resources)).map fun (child, _) =>
    Code.property child (.inline (Naming.resourceInterface child)) true
  return .interfaceBlock (Naming.resourceInterface name) (.all methods ++ .all children)

/-- The interfaces of a resource and of everything below it, children before their parent. -/
def resourceTree (api : Description) : Resource → String → Except SchemaFault (Code ε) :=
  Resource.recurse fun resource children name => do
    let below ← (Entries.sortByKey children).mapM fun (child, _, interfaces) => interfaces child
    return .all below ++ (← resourceInterface api name resource)

def resourceInterfaces (api : Description) : Except SchemaFault (Code ε) := do
  let trees ← (Entries.sortByKey (Entries.orEmpty api.resources)).mapM
    fun (name, resource) => resourceTree api resource name
  return .all trees

/-- A constant for every top-level resource that is not excluded. -/
def constants (api : Description) (excluded : List String) : Code ε :=
  let exposed := (Entries.sortByKey (Entries.orEmpty api.resources)).filter
    fun (name, _) => !excluded.contains name
  .all (exposed.map fun (name, _) =>
    .endLine "" ++ .line ("const " ++ name ++ ": " ++ Naming.resourceInterface name ++ ";"))

/-! ## The file -/

/-- The two ways to load the API: with a promise, and with a callback. -/
def loaders (api : Description) : Code ε :=
  let name : String × Operand ε := ("name", .inline ("\"" ++ api.name ++ "\""))
  let version : String × Operand ε := ("version", .inline ("\"" ++ api.version ++ "\""))
  let callback : String × Operand ε := ("callback", .inline "() => any")
  .comment ("Load " ++ api.displayTitle ++ " " ++ api.version) true ++
  .method "function load" [name, version] "PromiseLike<void>" true ++
  .method "function load" [name, version, callback] "void" true

/-- The declaration file of an API as code. -/
def file (api : Description) (options : DeclarationOptions) : Except SchemaFault (Code ε) := do
  let schemas ← schemaInterfaces (.ofDescription api)
  let resources ← resourceInterfaces api
  let apiNamespace := .namespaceBlock api.name
    (schemas ++ resources ++ constants api options.excludedResources)
  return header api options ++ .referenceTypes "gapi.client" ++
    .declareNamespace "gapi.client" (loaders api ++ .endLine "" ++ apiNamespace)

/-- The text of the declaration file of an API. -/
def render (api : Description) (options : DeclarationOptions) : Except SchemaFault String := do
  let code : Code Empty ← file api options
  return (code.run Page.empty).1.text

end Declarations

end ApiTypings
