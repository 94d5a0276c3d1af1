import ApiTypings.Schema
import ApiTypings.Text.Case

/-! Discovery descriptions: what one API offers. A description names its schemas, the parameters
that every method takes, the scopes a caller may ask for, and a tree of resources with their
methods. -/

namespace ApiTypings

structure Method where
  id : Option String
  path : Option String
  flatPath : Option String
  httpMethod : Option String
  description : Option String
  parameters : Option (Entries Schema)
  parameterOrder : Option (List String)
  request : Option SchemaRef
  response : Option SchemaRef
  scopes : Option (List String)
  supportsMediaDownload : Option Bool
  supportsMediaUpload : Option Bool
deriving Repr

def Method.ofJson : Json → Checked Method
  | .object fields =>
    Method.mk
      <$> Json.optionalField "id" Json.asString fields
      <*> Json.optionalField "path" Json.asString fields
      <*> Json.optionalField "flatPath" Json.asString fields
      <*> Json.optionalField "httpMethod" Json.asString fields
      <*> Json.optionalField "description" Json.asString fields
      <*> Json.optionalField "parameters" Schema.mapOfJson fields
      <*> Json.optionalField "parameterOrder" (Json.asListOf Json.asString) fields
      <*> Json.optionalField "request" SchemaRef.ofJson fields
      <*> Json.optionalField "response" SchemaRef.ofJson fields
      <*> Json.optionalField "scopes" (Json.asListOf Json.asString) fields
      <*> Json.optionalField "supportsMediaDownload" Json.asBool fields
      <*> Json.optionalField "supportsMediaUpload" Json.asBool fields
  | _ => .fault (.notRecord "RestMethod")

/-- The schema a method sends as its body, if it sends one. -/
def Method.bodyRef? (m : Method) : Option String :=
  match m.request with
  | some { ref := some name, .. } => if name.isEmpty then none else some name
  | _ => none

/-- Methods under one name, and the resources below it. -/
structure Resource where
  methods : Option (Entries Method)
  resources : Option (List (String × Resource))
deriving Repr

namespace Resource

mutual

def ofJson : Json → Checked Resource
  | .object fields =>
    Resource.mk
      <$> Json.optionalField "methods" (Json.asMapOf Method.ofJson) fields
      <*> childrenField fields
  | _ => .fault (.notRecord "RestResource")

/-- The resources under the key `resources`, if the key is there and not null. -/
def childrenField : List (String × Json) → Checked (Option (Entries Resource))
  | [] => .valid none
  | (key, value) :: rest =>
    if key == "resources" then
      match value with
      | .null => .valid none
      | .object entries => (some <$> resourceEntries entries).within (.field key)
      | _ => (Checked.fault .notMap).within (.field key)
    else childrenField rest

def resourceEntries : List (String × Json) → Checked (Entries Resource)
  | [] => .valid []
  | (key, value) :: rest =>
    (fun r rs => (key, r) :: rs) <$> (ofJson value).within (.field key) <*> resourceEntries rest

end

def mapOfJson : Json → Checked (Entries Resource)
  | .object entries => resourceEntries entries
  | _ => .fault .notMap

mutual

/-- Methods and resources in key order, at every depth. -/
def sorted : Resource → Resource
  | ⟨methods, resources⟩ => ⟨methods.map Entries.sortByKey, sortedChildren? resources⟩

def sortedChildren? : Option (List (String × Resource)) → Option (Entries Resource)
  | none => none
  | some entries => some (Entries.sortByKey (sortedChildren entries))

def sortedChildren : List (String × Resource) → Entries Resource
  | [] => []
  | (name, resource) :: rest => (name, sorted resource) :: sortedChildren rest

end

/-! ## Recursion over the tree -/

section
variable {β : Type} (step : Resource → Entries (Resource × β) → β)

mutual

/-- What is computed from a resource and from its children, each with its own result. -/
def recurse : Resource → β
  | ⟨methods, resources⟩ => step ⟨methods, resources⟩ (recurseChildren resources)

def recurseChildren : Option (List (String × Resource)) → Entries (Resource × β)
  | none => []
  | some entries => recurseEntries entries

def recurseEntries : List (String × Resource) → Entries (Resource × β)
  | [] => []
  | (name, resource) :: rest => (name, resource, recurse resource) :: recurseEntries rest

end

end

end Resource

structure Scope where
  description : Option String
deriving Repr

def Scope.ofJson : Json → Checked Scope
  | .object fields => Scope.mk <$> Json.optionalField "description" Json.asString fields
  | _ => .fault (.notRecord "Scope")

structure OAuth2 where
  scopes : Option (Entries Scope)
deriving Repr

def OAuth2.ofJson : Json → Checked OAuth2
  | .object fields => OAuth2.mk <$> Json.optionalField "scopes" (Json.asMapOf Scope.ofJson) fields
  | _ => .fault (.notRecord "OAuth2")

structure Auth where
  oauth2 : Option OAuth2
deriving Repr

def Auth.ofJson : Json → Checked Auth
  | .object fields => Auth.mk <$> Json.optionalField "oauth2" OAuth2.ofJson fields
  | _ => .fault (.notRecord "Auth")

structure Description where
  kind : Option String
  discoveryVersion : Option String
  id : Option String
  name : String
  version : String
  revision : Option String
  title : Option String
  description : Option String
  ownerDomain : Option String
  ownerName : Option String
  documentationLink : Option String
  protocol : Option String
  rootUrl : Option String
  servicePath : Option String
  baseUrl : Option String
  batchPath : Option String
  labels : Option (List String)
  parameters : Option (Entries Schema)
  auth : Option Auth
  schemas : Option (Entries Schema)
  methods : Option (Entries Method)
  resources : Option (Entries Resource)
deriving Repr

namespace Description

/-- The kind of a description that does not state it. -/
def defaultKind : String := "discovery#restDescription"

def ofJson : Json → Checked Description
  | .object fields =>
    Description.mk
      <$> Json.fieldOr "kind" (some defaultKind) (Json.orNull Json.asString) fields
      <*> Json.optionalField "discoveryVersion" Json.asString fields
      <*> Json.optionalField "id" Json.asString fields
      <*> Json.requiredField "name" Json.asString fields
      <*> Json.requiredField "version" Json.asString fields
      <*> Json.optionalField "revision" Json.asString fields
      <*> Json.optionalField "title" Json.asString fields
      <*> Json.optionalField "description" Json.asString fields
      <*> Json.optionalField "ownerDomain" Json.asString fields
      <*> Json.optionalField "ownerName" Json.asString fields
      <*> Json.optionalField "documentationLink" Json.asString fields
      <*> Json.optionalField "protocol" Json.asString fields
      <*> Json.optionalField "rootUrl" Json.asString fields
      <*> Json.optionalField "servicePath" Json.asString fields
      <*> Json.optionalField "baseUrl" Json.asString fields
      <*> Json.optionalField "batchPath" Json.asString fields
      <*> Json.optionalField "labels" (Json.asListOf Json.asString) fields
      <*> Json.optionalField "parameters" Schema.mapOfJson fields
      <*> Json.optionalField "auth" Auth.ofJson fields
      <*> Json.optionalField "schemas" Schema.mapOfJson fields
      <*> Json.optionalField "methods" (Json.asMapOf Method.ofJson) fields
      <*> Json.optionalField "resources" Resource.mapOfJson fields
  | _ => .fault (.notRecord "RestDescription")

/-- The scopes a caller may ask for. -/
def scopes (api : Description) : Entries Scope :=
  Entries.orEmpty (api.auth.bind fun auth => auth.oauth2.bind OAuth2.scopes)

/-- The title, or the name where there is no title or an empty one. -/
def displayTitle (api : Description) : String :=
  match api.title with
  | some title => if title.isEmpty then api.name else title
  | none => api.name

/-- Scopes in key order; an absent map stays absent. -/
def sortScopes (auth : Auth) : Auth :=
  { auth with
    oauth2 := auth.oauth2.map fun o => { o with scopes := o.scopes.map Entries.sortByKey } }

/-- The form in which descriptions are rendered: name and version in lower case, and schemas,
parameters, scopes, resources and their methods in key order. Nothing else moves; the properties
of a schema keep their order. -/
def normalize (api : Description) : Description :=
  { api with
    name := Text.lower api.name
    version := Text.lower api.version
    schemas := api.schemas.map Entries.sortByKey
    parameters := api.parameters.map Entries.sortByKey
    resources := Resource.sortedChildren? api.resources
    auth := api.auth.map sortScopes }

end Description

end ApiTypings
