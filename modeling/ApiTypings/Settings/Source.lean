import ApiTypings.Files.Text
import ApiTypings.Json.Reader
import ApiTypings.Settings
import ApiTypings.Text.Case
import ApiTypings.Toml.Reader
import ApiTypings.Yaml.Reader

/-! Where settings come from. A field has the value that the selected file gives it, or else that
of its environment variable, or else its default. One file is selected: the one that is asked for,
or the first that is there of two names for settings and the project's own file. -/

namespace ApiTypings

/-- Why there are no settings. -/
inductive SettingsFault where
  /-- The file cannot be read. -/
  | unreadable (cause : Cause)
  | badYaml (fault : Yaml.SyntaxFault)
  | badToml (fault : Toml.Fault)
  /-- The file holds a value of this kind where fields are expected. -/
  | notFields (kind : String)
  /-- A value of this kind holds no tables. -/
  | notTables (kind : String)
  /-- A field is named by something other than a text. -/
  | unnamedField
  /-- The variable of a list is no JSON. -/
  | badVariable (field : String)
  /-- Fields that no file gives have values of the wrong kind. -/
  | invalid (faults : List Fault)
  /-- A file is missing, or it gives fields values of the wrong kind. -/
  | configuration (message : String) (path field : Option String)

namespace SettingsFault

def message : SettingsFault → String
  | unreadable cause => cause.text
  | badYaml fault => fault.message
  | badToml fault => fault.message
  | notFields kind =>
    "discotyper.config.GeneratorConfig() argument after ** must be a mapping, not " ++ kind
  | notTables kind => "argument of type '" ++ kind ++ "' is not iterable"
  | unnamedField => "keywords must be strings"
  | badVariable field =>
    "error parsing value for field \"" ++ field ++ "\" from source \"EnvSettingsSource\""
  | invalid faults => "; ".intercalate (faults.map Fault.text)
  | configuration message path field => (Failure.configuration message path field).message

end SettingsFault

/-- The environment: names of variables and their values. -/
abbrev Environment := List (String × String)

namespace Environment

/-- What the names of variables start with. -/
def mark : String := "discotyper_"

/-- The variable of a field, in any letter case. Of several the last counts. -/
def value? (env : Environment) (field : String) : Option String :=
  (env.reverse.find? fun (name, _) => Text.lower name == mark ++ field).map (·.2)

/-- The value a variable gives a field: a list is written as JSON, and any other field as itself. A
list that is null is not given. -/
def field? (env : Environment) (field : String) : Except SettingsFault (Option Json) :=
  match env.value? field with
  | none => .ok none
  | some text =>
    if Settings.listNames.contains field then
      match Json.parse text.toList with
      | .ok .null => .ok none
      | .ok value => .ok (some value)
      | .error _ => .error (.badVariable field)
    else .ok (some (.string text))

def fieldsOf (env : Environment) : List String → Except SettingsFault (List (String × Json))
  | [] => .ok []
  | field :: rest => do
    let value? ← env.field? field
    let others ← env.fieldsOf rest
    return match value? with
      | some value => (field, value) :: others
      | none => others

/-- The fields that variables give. -/
def fields (env : Environment) : Except SettingsFault (List (String × Json)) :=
  env.fieldsOf Settings.fieldNames

end Environment

/-- Fields that a file gives, and what the file is called. -/
structure GivenFields where
  source : String
  fields : List (String × Json)

namespace Settings

/-- Settings of given fields. The variables are looked at behind them. -/
def create (env : Environment) (given : List (String × Json)) : Except SettingsFault Settings := do
  let others ← env.fields
  (ofFields (given ++ others)).toExcept.mapError .invalid

/-! ## Files -/

def kindName : Json → String
  | .null => "NoneType"
  | .bool _ => "bool"
  | .number (.integer _) => "int"
  | .number _ => "float"
  | .string _ => "str"
  | .array _ => "list"
  | .object _ => "dict"

/-- The value in a YAML file. A file that says nothing, or something empty, gives no fields. -/
def loadYaml (w : Workspace) (path : Path) : Except SettingsFault Yaml := do
  let text ← (w.readText path).mapError .unreadable
  let value ← (Yaml.parse text).mapError .badYaml
  return if value.isEmpty then .map [] else value

def fieldsOfYaml : Yaml → Except SettingsFault (List (String × Json))
  | .map entries =>
    if Yaml.hasTextKeys entries then .ok (Entries.ofList (Yaml.entriesToJson entries))
    else .error .unnamedField
  | value => .error (.notFields (kindName value.toJson))

def fieldsOfTable : Json → Except SettingsFault (List (String × Json))
  | .object fields => .ok fields
  | value => .error (.notFields (kindName value))

/-- The table of settings in a project's file, if it has one. -/
def projectTable? (project : Json) : Except SettingsFault (Option Json) :=
  match project.get? "tool" with
  | none => .ok none
  | some (.object tools) => .ok (tools.lookup "discotyper")
  | some (.array items) =>
    if items.any fun item => item matches .string "discotyper" then
      .error (.notFields "list")
    else .ok none
  | some (.string text) =>
    if (text.splitOn "discotyper").length > 1 then .error (.notFields "str") else .ok none
  | some value => .error (.notTables (kindName value))

def givenByYaml (w : Workspace) (path : Path) (source : String) :
    Except SettingsFault (Option GivenFields) := do
  return some ⟨source, ← fieldsOfYaml (← loadYaml w path)⟩

def givenByProject (w : Workspace) (path : Path) : Except SettingsFault (Option GivenFields) := do
  let text ← (w.readText path).mapError .unreadable
  let project ← (Toml.parse text).mapError .badToml
  match ← projectTable? project with
  | some table => return some ⟨path.text, ← fieldsOfTable table⟩
  | none => return none

/-- Names of files of settings, the first one preferred. -/
def fileNames : List String := ["discotyper.yaml", "discotyper.yml"]

def projectName : String := "pyproject.toml"

/-- The fields of the selected file, if a file is selected. -/
def given (w : Workspace) (path : Option String) : Except SettingsFault (Option GivenFields) :=
  match nonEmpty? path with
  | some path =>
    if w.contains (Path.ofString path) then givenByYaml w (Path.ofString path) path
    else .error (.configuration "Configuration file not found" (some path) none)
  | none =>
    match (fileNames.map w.path.child).find? w.contains with
    | some file => givenByYaml w file file.text
    | none =>
      let project := w.path.child projectName
      if w.contains project then givenByProject w project else .ok none

/-- Faults of fields are reported for the file, by the place of the first one. -/
def blame (source : String) : SettingsFault → SettingsFault
  | .invalid faults =>
    .configuration "Invalid configuration" (some source)
      (nonEmpty? (faults.head?.map Fault.location))
  | fault => fault

/-- The settings of a run. -/
def find (w : Workspace) (env : Environment) (path : Option String) :
    Except SettingsFault Settings := do
  match ← given w path with
  | some file => (create env file.fields).mapError (blame file.source)
  | none => create env []

end Settings

end ApiTypings
