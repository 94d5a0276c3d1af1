import ApiTypings.Decimal.Literal
import ApiTypings.Declarations
import ApiTypings.Json.Checked

/-! The settings of a run. A field that nobody sets has a default; a field that is set has to be of
its kind, and there are no other fields. -/

namespace ApiTypings

structure Settings where
  /-- The directory the packages are written to. -/
  output : String
  /-- Where the listing of all APIs is found. -/
  directoryUrl : String
  /-- The only API to generate, if there is one. -/
  service : Option String
  /-- The only description to generate from, in place of the listing. -/
  url : Option String
  /-- Are versions generated that are not the preferred ones? -/
  allVersions : Bool
  excludedApis : List String
  excludedResources : List String
  typescriptVersion : String
  /-- The authors that declaration files name. -/
  definitionsBy : List String
  /-- A directory of templates that replace the bundled ones. -/
  templatesDir : Option String
  /-- Seconds to wait for an answer from the network. -/
  timeout : Float

namespace Settings

def defaults : Settings where
  output := "./out"
  directoryUrl := "https://www.googleapis.com/discovery/v1/apis"
  service := none
  url := none
  allVersions := false
  excludedApis := ["replicapool", "replicapoolupdater"]
  excludedResources := ["debugger"]
  typescriptVersion := "3.7"
  definitionsBy := []
  templatesDir := none
  timeout := 30.0

/-! ## Checking -/

/-- A number, a text that writes one, or a boolean for zero or one. An integer beyond the doubles
is none. -/
def asFloat : Json → Checked Float
  | .number (.integer n) =>
    let x := (Number.integer n).toFloat
    if x.isInf then .fault .notNumber else .valid x
  | .number n => .valid n.toFloat
  | .bool b => .valid (if b then 1.0 else 0.0)
  | .string s =>
    match Decimal.ofText? s with
    | some n => .valid n.toFloat
    | none => .fault .unreadableNumber
  | _ => .fault .notNumber

def asTexts : Json → Checked (List String) := Json.asListOf Json.asString

/-- The fields in the order in which their faults are reported. -/
def fieldNames : List String :=
  ["output", "directory_url", "service", "url", "all_versions", "excluded_apis",
    "excluded_resources", "typescript_version", "definitions_by", "templates_dir", "timeout"]

/-- The fields that are lists of texts. -/
def listNames : List String := ["excluded_apis", "excluded_resources", "definitions_by"]

def known (fields : List (String × Json)) : Checked Settings :=
  Settings.mk
    <$> Json.fieldOr "output" defaults.output Json.asString fields
    <*> Json.fieldOr "directory_url" defaults.directoryUrl Json.asString fields
    <*> Json.optionalField "service" Json.asString fields
    <*> Json.optionalField "url" Json.asString fields
    <*> Json.fieldOr "all_versions" defaults.allVersions Json.asBool fields
    <*> Json.fieldOr "excluded_apis" defaults.excludedApis asTexts fields
    <*> Json.fieldOr "excluded_resources" defaults.excludedResources asTexts fields
    <*> Json.fieldOr "typescript_version" defaults.typescriptVersion Json.asString fields
    <*> Json.fieldOr "definitions_by" defaults.definitionsBy asTexts fields
    <*> Json.optionalField "templates_dir" Json.asString fields
    <*> Json.fieldOr "timeout" defaults.timeout asFloat fields

/-- The fields that are none of the settings'. -/
def unknownFaults (fields : List (String × Json)) : List Fault :=
  (fields.filter fun (name, _) => !fieldNames.contains name).map fun (name, _) =>
    ⟨[.field name], .unknownField⟩

/-- Names such as `_env_prefix`, under which a caller may say where variables are looked for, are no
fields either and are refused with the others. -/
def onlyKnown (fields : List (String × Json)) : Checked Unit :=
  if (unknownFaults fields).isEmpty then .valid () else .invalid (unknownFaults fields)

/-- The settings that fields stand for. Faults of known fields come before fields that are not
known. -/
def ofFields (fields : List (String × Json)) : Checked Settings :=
  (fun settings _ => settings) <$> known fields <*> onlyKnown fields

/-! ## Use -/

/-- What declaration files say for the description at an address. -/
def declarationOptions (s : Settings) (url : String) : DeclarationOptions :=
  ⟨url, s.definitionsBy, s.typescriptVersion, s.excludedResources⟩

end Settings

/-- Settings that a caller asks for on top of those that were found. -/
structure Overrides where
  url : Option String
  service : Option String
  allVersions : Bool
  output : Option String
deriving DecidableEq, Repr

/-- Settings under the overrides. A flag that is not given leaves the setting as it is. -/
def Settings.override (s : Settings) (o : Overrides) : Settings :=
  { s with
    url := o.url.or s.url
    service := o.service.or s.service
    allVersions := o.allVersions || s.allVersions
    output := o.output.getD s.output }

end ApiTypings
