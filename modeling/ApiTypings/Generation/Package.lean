import ApiTypings.Log
import ApiTypings.Settings
import ApiTypings.Stub.File
import ApiTypings.Template.Set

/-! The package of an API: its declaration file, its usage stub and the files made from templates.
Both files of code are rendered before any file is written. A template is rendered when it is the
turn of its file, so that those before it are there already if it cannot be. -/

namespace ApiTypings.Package

def declarationsName : String := "index.d.ts"

def stubName (api : Description) : String := Naming.packageName api.name ++ "-tests.ts"

/-- Where packages of an API are kept. Each version that is not the preferred one has a directory of
its own in there. -/
def directory (output : Path) (name : String) (version : Option String) : Path :=
  let shared := output.child (Naming.packageName name)
  match version with
  | some version => shared.child version
  | none => shared

def versionDirectory (api : Description) (preferred : Bool) : Option String :=
  if preferred then none else some api.version

/-- Name and version, as a package is listed. -/
def label (api : Description) : String := api.name ++ ":" ++ api.version

def announce (origin : LogOrigin) (what : String) (api : Description) : LogRecord :=
  .debug origin ("Writing " ++ what ++ " for " ++ api.name ++ " " ++ api.version)

/-- The two files of code, and what is reported on the way to them. -/
def code (api : Description) (options : DeclarationOptions) :
    List LogRecord × Except RenderFault (Entries String) :=
  let first := announce .declarations "declarations" api
  match Declarations.render api options with
  | .error fault => ([first], .error (.schema fault))
  | .ok declarations =>
    let second := announce .stub "usage stub" api
    match Stub.render api with
    | .error fault => ([first, second], .error fault)
    | .ok stub => ([first, second], .ok [(declarationsName, declarations), (stubName api, stub)])

/-- All files of the package, those made from templates last. Code has its text already. -/
def files (templates : TemplateSet) (api : Description) (preferred : Bool)
    (code : Entries String) : Entries (Except Cause String) :=
  code.mapValues .ok ++ templates.texts ⟨api, preferred⟩

end ApiTypings.Package
