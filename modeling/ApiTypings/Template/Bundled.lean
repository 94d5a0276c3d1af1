import ApiTypings.Schema.Shape
import ApiTypings.Template

/-! The files that come with every package: a readme that shows how the API is loaded and called,
and the settings of the compiler and of the linter. -/

namespace ApiTypings

namespace TemplateContext

/-- Each line with its line feed. -/
def unlines (lines : List String) : String := String.join (lines.map (· ++ "\n"))

def nonEmptyLine (content : Option String) (line : String → String) : List String :=
  match nonEmpty? content with
  | some content => [line content]
  | none => []

/-! ## Readme -/

def codeStart : String := "```typescript"

def codeEnd : String := "```"

def introduction (c : TemplateContext) : List String :=
  ["# TypeScript typings for " ++ c.api.displayTitle ++ " " ++ c.api.version, ""] ++
    nonEmptyLine c.api.description (fun text => text) ++
    nonEmptyLine c.api.documentationLink (fun link =>
      "For detailed description please check [documentation](" ++ link ++ ").")

/-- The name to install: a version that is not the preferred one is asked for. -/
def installedName (c : TemplateContext) : String :=
  Naming.packageName c.api.name ++ if c.preferred then "" else "@" ++ c.packageVersion

def installation (c : TemplateContext) : List String :=
  ["", "## Installing", "",
    "Install typings for " ++ c.api.displayTitle ++ ":", "",
    "```", "npm install @types/" ++ c.installedName ++ " --save-dev", "```"]

def usage (c : TemplateContext) : List String :=
  ["", "## Usage", "",
    "You need to initialize Google API client in your code:", "",
    codeStart,
    "gapi.load('client', () => \x7b",
    "  // now we can use gapi.client",
    "  // ...",
    "\x7d);",
    codeEnd, "",
    "Then load api client wrapper:", "",
    codeStart,
    "gapi.client.load('" ++ c.api.name ++ "', '" ++ c.api.version ++ "', () => \x7b",
    "  // now we can use gapi.client." ++ c.api.name,
    "  // ...",
    "\x7d);",
    codeEnd]

def scopeLines : String × Scope → List String
  | (name, scope) => ["        // " ++ orMissing scope.description, "        '" ++ name ++ "',"]

/-- How a caller authenticates, for an API that has scopes. -/
def authentication (c : TemplateContext) : List String :=
  if c.api.scopes.isEmpty then []
  else
    ["", "Don't forget to authenticate your client before sending any request to resources:", "",
      codeStart,
      "// declare client_id registered in Google Developers Console",
      "var client_id = '',",
      "    scope = ["] ++
    c.api.scopes.flatMap scopeLines ++
    ["    ],",
      "    immediate = true;",
      "// ...",
      "",
      "gapi.auth.authorize(",
      "  \x7b client_id: client_id, scope: scope, immediate: immediate \x7d,",
      "  authResult => \x7b",
      "    if (authResult && !authResult.error) \x7b",
      "        /* handle successful authorization */",
      "    \x7d else \x7b",
      "        /* handle authorization error */",
      "    \x7d",
      "\x7d);",
      codeEnd]

def callLines (api : Description) (resource : String) : String × Method → List String
  | (name, method) =>
    ["", "/*", (nonEmpty? method.description).getD name, "*/",
      "await gapi.client." ++ api.name ++ "." ++ resource ++ "." ++ name ++
        "(\x7b /* ... */ \x7d);"]

/-- A call of every method of the top-level resources. -/
def calls (c : TemplateContext) : List String :=
  (Entries.orEmpty c.api.resources).flatMap fun (name, resource) =>
    (Entries.orEmpty resource.methods).flatMap (callLines c.api name)

def resourceUsage (c : TemplateContext) : List String :=
  ["", "After that you can use " ++ c.api.displayTitle ++ " resources:", "", codeStart] ++
    c.calls ++ [codeEnd]

def readme (c : TemplateContext) : String :=
  unlines (c.introduction ++ c.installation ++ c.usage ++ c.authentication ++ c.resourceUsage)

/-! ## Compiler and linter -/

/-- The way up to the directory of all packages. -/
def packagesRoot (c : TemplateContext) : String := if c.preferred then "../" else "../../"

def compilerSettings (c : TemplateContext) : String :=
  unlines
    ["\x7b",
      "    \"compilerOptions\": \x7b",
      "        \"module\": \"commonjs\",",
      "        \"lib\": [\"es6\", \"dom\"],",
      "        \"noImplicitAny\": true,",
      "        \"noImplicitThis\": true,",
      "        \"strictNullChecks\": false,",
      "        \"strictFunctionTypes\": true,",
      "        \"baseUrl\": \"" ++ c.packagesRoot ++ "\",",
      "        \"typeRoots\": [\"" ++ c.packagesRoot ++ "\"],",
      "        \"types\": [],",
      "        \"noEmit\": true,",
      "        \"forceConsistentCasingInFileNames\": true",
      "    \x7d,",
      "    \"files\": [\"index.d.ts\", \"" ++ Naming.packageName c.api.name ++ "-tests.ts\"]",
      "\x7d"]

def linterSettings : String :=
  unlines
    ["\x7b",
      "    \"extends\": \"dtslint/dtslint.json\",",
      "    \"rules\": \x7b",
      "        \"no-redundant-jsdoc\": false",
      "    \x7d",
      "\x7d"]

end TemplateContext

end ApiTypings
