import ApiTypings.Files.Output
import ApiTypings.Template.Bundled

/-! The templates of a run: for each file that is filled in, the template it is made from. A
template in the caller's directory stands before a bundled one of the same name. -/

namespace ApiTypings

inductive Template where
  | readme
  | compilerSettings
  | linterSettings
  /-- A template of the caller's own. -/
  | custom (program : TemplateProgram)

/-- The text of a template for an API. Only one of the caller's own may have none. -/
def Template.render : Template → TemplateProgram
  | readme, c => .ok c.readme
  | compilerSettings, c => .ok c.compilerSettings
  | linterSettings, _ => .ok TemplateContext.linterSettings
  | custom program, c => program c

/-- Names of files, each with its template. -/
abbrev TemplateSet := Entries Template

namespace TemplateSet

/-- The bundled templates by name. -/
def bundled : Entries Template :=
  [("readme.md.jinja", .readme), ("tsconfig.json.jinja", .compilerSettings),
    ("tslint.json.jinja", .linterSettings)]

/-- The files of every package, each with the name of its template. -/
def standardFiles : Entries String :=
  [("readme.md", "readme.md.jinja"), ("tsconfig.json", "tsconfig.json.jinja"),
    ("tslint.json", "tslint.json.jinja")]

/-- Why a template is not to be had. -/
inductive Fault where
  | missing (name : String) (directory : Option String)
  | unreadable (cause : Cause)
deriving DecidableEq, Repr

/-- A missing template is a fault of the settings. -/
def missingFailure (name : String) (directory : Option String) : Failure :=
  .configuration ("Can't find " ++ name ++ " file template") directory (some "templates_dir")

def Fault.message : Fault → String
  | missing name directory => (missingFailure name directory).message
  | unreadable cause => cause.text

/-- The content of the caller's own template, if the directory has one of that name. -/
def override? (w : Workspace) (directory : Option String) (name : String) : Option (List UInt8) :=
  directory.bind fun directory =>
    match w.node? ((Path.ofString directory).child name) with
    | some (.file content) => some content
    | _ => none

/-- The template in a file of the caller's. -/
def compile (engine : TemplateEngine) (content : List UInt8) : Except Cause Template := do
  return .custom (← engine (← decodeText content))

/-- The template of a name. Names do not lead out of the directories of templates. -/
def find (engine : TemplateEngine) (w : Workspace) (directory : Option String) (name : String) :
    Except Fault Template :=
  let own := if (Path.ofString name).parts.contains ".." then none else override? w directory name
  match own, bundled.lookup name with
  | some content, _ => (compile engine content).mapError .unreadable
  | none, some template => .ok template
  | none, none => .error (.missing name directory)

/-- The set for files and the names of their templates. An empty name of a directory is none. -/
def load (engine : TemplateEngine) (w : Workspace) (directory : Option String) :
    Entries String → Except Fault TemplateSet
  | [] => .ok []
  | (file, name) :: rest => do
    let template ← find engine w (nonEmpty? directory) name
    return (file, template) :: (← load engine w directory rest)

def render? (t : TemplateSet) (file : String) (c : TemplateContext) :
    Option (Except Cause String) :=
  (t.lookup file).map fun template => template.render c

/-- The files of the set, each with its text for an API if its template can be rendered. -/
def texts (t : TemplateSet) (c : TemplateContext) : Entries (Except Cause String) :=
  t.mapValues fun template => template.render c

end TemplateSet

end ApiTypings
