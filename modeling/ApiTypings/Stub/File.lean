import ApiTypings.Stub.Value

/-! The usage stub: a script that loads an API and calls every method of every resource once, with
example values for what the method takes. -/

namespace ApiTypings.Stub

open Synthesis

def banner (name : String) : String :=
  "/* This is stub file for gapi.client." ++ name ++ " definition tests */\n" ++
  "/* IMPORTANT.\n" ++
  "* This file was automatically generated by discotyper. Please do not edit it manually.\n" ++
  "**/"

/-- A comment that ends its line. -/
def remark {ε : Type} (text : String) : Code ε := .comment text true

/-- The scopes in key order, each a string with its description above it. -/
def scopeList {ε : Type} (scopes : Entries Scope) : Code ε :=
  .all ((Entries.sortByKey scopes).map fun (scope, info) =>
    .endLine "" ++ .comment? info.description ++ .beginLine ("'" ++ scope ++ "',"))

/-- What to do about the answer to a request for authorization. -/
def authorizationCallback {ε : Type} : Code ε :=
  .beginNewLine "if (authResult && !authResult.error) " ++
  .scope (.endLine "" ++ remark "handle successful authorization" ++ .beginLine "run();")
    "\x7b" "\x7d" ++
  .text " else " ++
  .scope (.endLine "" ++ .comment "handle authorization error" false) "\x7b" "\x7d"

def authorization {ε : Type} (scopes : Entries Scope) : Code ε :=
  remark "don't forget to authenticate your client before sending any request to resources:" ++
  remark "declare client_id registered in Google Developers Console" ++
  .line "const client_id = '<<PUT YOUR CLIENT ID HERE>>';" ++
  .beginLine "const scope = " ++
  .scope (scopeList scopes) "[" "]" ++
  .endLine ";" ++
  .line "const immediate = true;" ++
  .beginNewLine "gapi.auth.authorize(\x7b client_id, scope, immediate \x7d, authResult => " ++
  .scope authorizationCallback "\x7b" "\x7d" ++
  .endLine ");"

/-- What runs once the API is loaded. Only an API with scopes asks for authorization. -/
def whenLoaded {ε : Type} (api : Description) : Code ε :=
  .endLine "" ++
  remark ("now we can use gapi.client." ++ api.name) ++
  .endLine "" ++
  (if api.scopes.isEmpty then .nil else authorization api.scopes) ++
  .beginLine "run();"

/-- The call of one method, `path` being the resource it belongs to. -/
def writeCall (table : SchemaTable) (path name : String) (method : Method) : Synthesis :=
  all [
    emit (.endLine "" ++ .comment? method.description ++
      .beginLine ("await " ++ path ++ "." ++ name ++ "(")),
    match Entries.orEmpty method.parameters with
    | [] => emit (.text "\x7b\x7d")
    | parameters => scope (writeProperties table parameters) "\x7b" "\x7d",
    match method.bodyRef? with
    | none => done
    | some body => andThen (emit (.text ", ")) (writeRef table body),
    emit (.text ");")]

/-- The calls of a resource, its own methods first, then those of its children. -/
def writeCalls (table : SchemaTable) : Resource → String → Synthesis :=
  Resource.recurse fun resource children path =>
    andThen
      (all ((Entries.sortByKey (Entries.orEmpty resource.methods)).map fun (name, method) =>
        writeCall table path name method))
      (all ((Entries.sortByKey children).map fun (name, _, calls) => calls (path ++ "." ++ name)))

def writeRun (api : Description) : Synthesis :=
  all ((Entries.sortByKey (Entries.orEmpty api.resources)).map fun (name, resource) =>
    writeCalls (.ofDescription api) resource ("gapi.client." ++ api.name ++ "." ++ name))

def writeClientLoaded (api : Description) : Synthesis :=
  all [
    emit (.endLine "" ++ remark "now we can use gapi.client" ++
      .beginLine ("gapi.client.load('" ++ api.name ++ "', '" ++ api.version ++ "', () => ") ++
      .scope (whenLoaded api) "\x7b" "\x7d" ++
      .endLine ");" ++
      .endLine "" ++
      .beginLine "async function run() "),
    scope (writeRun api) "\x7b" "\x7d"]

def write (api : Description) : Synthesis :=
  all [
    emit (.text (banner api.name) ++ .line "" ++ .beginLine "gapi.load('client', () => "),
    scope (writeClientLoaded api) "\x7b" "\x7d",
    emit (.endLine ");")]

/-- The text of the usage stub of an API. -/
def render (api : Description) : Except RenderFault String :=
  match (write api).run Session.start with
  | (session, none) => .ok session.page.text
  | (_, some fault) => .error fault

end ApiTypings.Stub
