import ApiTypings.Generation.Package
import ApiTypings.Generation.Progress
import ApiTypings.Loading

/-! Generating packages: for one description, or for those that the directory lists. A description
that cannot be loaded, or whose code cannot be rendered, is skipped and the others go on; a template
that cannot be rendered or a file that cannot be written ends the run. -/

namespace ApiTypings

/-- What a run works with. -/
structure Generator where
  settings : Settings
  loader : Loader
  templates : TemplateSet
  /-- What the files are written on. -/
  medium : Medium := .lasting

namespace DirectoryItem

/-- Each text once, in the order of first appearance. -/
def distinct : List String → List String
  | [] => []
  | name :: rest => name :: (distinct rest).filter (· != name)

/-- The versions of each API, the APIs in the order of their first appearance. -/
def groups (items : List DirectoryItem) : List (List DirectoryItem) :=
  (distinct (items.map (·.name))).map fun name => items.filter (·.name == name)

/-- The versions of one API that are generated: the selected one first, then the others in the
order of the listing if they are asked for. -/
def chosen (all : Bool) (group : List DirectoryItem) : List DirectoryItem :=
  match selectedIndex? group with
  | none => []
  | some i => group[i]?.toList ++ if all then group.eraseIdx i else []

/-- Everything that is generated, in order. -/
def plan (all : Bool) (items : List DirectoryItem) : List DirectoryItem :=
  (groups items).flatMap (chosen all)

end DirectoryItem

namespace Generator

def output (g : Generator) : Path := Path.ofString g.settings.output

def announcement (api : Description) : LogRecord :=
  .info ("Generating " ++ (nonEmpty? api.id).getD api.name ++ " definitions... " ++
    ", ".intercalate (api.labels.getD []))

/-- The package of a description that has been loaded. Nothing is written unless all of its code
can be rendered. -/
def writePackage (g : Generator) (p : Progress) (api : Description) (url : String)
    (preferred : Bool) : Progress × Except Failure (Option (List Path)) :=
  match Package.code api (g.settings.declarationOptions url) with
  | (records, .error fault) =>
    let warning := LogRecord.warning
      ("Skipping " ++ api.name ++ " " ++ api.version ++ ": " ++ fault.message)
    ((p.report (records ++ [warning])).addSkipped url, .ok none)
  | (records, .ok code) =>
    let directory := Package.directory g.output api.name (Package.versionDirectory api preferred)
    let files := Package.files g.templates api preferred code
    match (p.report records).saveFiles g.medium directory files with
    | (failed, .error f) => (failed, .error f)
    | (saved, .ok paths) => (saved.addGenerated (Package.label api), .ok (some paths))

/-- The package of the description at an address: the paths that were written, or none if the
description is skipped. A package that is not of the preferred version goes to a directory of that
version. -/
def process (g : Generator) (p : Progress) (url : String) (preferred : Bool) :
    Progress × Except Failure (Option (List Path)) :=
  let asked := p.report (Loader.records url)
  match g.loader.description asked.workspace url with
  | .error f =>
    let warning := LogRecord.warning ("Could not process service " ++ url ++ ": " ++ f.message)
    ((asked.report [warning]).addSkipped url, .ok none)
  | .ok description =>
    let api := description.normalize
    g.writePackage (asked.report [announcement api]) api url preferred

/-- Items of the directory one after another, up to the first failure. -/
def processItems (g : Generator) (p : Progress) :
    List DirectoryItem → Progress × Except Failure (List Path)
  | [] => (p, .ok [])
  | item :: rest =>
    match g.process p item.discoveryRestUrl item.preferred with
    | (failed, .error f) => (failed, .error f)
    | (next, .ok paths?) =>
      match g.processItems next rest with
      | (failed, .error f) => (failed, .error f)
      | (done, .ok paths) => (done, .ok (paths?.getD [] ++ paths))

/-- May an item be generated? -/
def admits (g : Generator) (service : Option String) (item : DirectoryItem) : Bool :=
  (match service with
    | some name => item.name == name
    | none => true) && !g.settings.excludedApis.contains item.name

/-- The APIs of the directory, or the one of a name. -/
def discover (g : Generator) (p : Progress) (service : Option String) (all : Bool) :
    Progress × Except Failure (List Path) :=
  let source := g.settings.directoryUrl
  let asked := p.report (.info "Discovering Google services..." :: Loader.records source)
  match g.loader.directory asked.workspace source with
  | .error f => (asked, .error f)
  | .ok directory =>
    let admitted := directory.items.filter (g.admits service)
    if admitted.isEmpty then (asked, .error (.serviceNotFound service))
    else g.processItems asked (DirectoryItem.plan all admitted)

/-- What the settings ask for: the description at an address, or else the directory. -/
def generate (g : Generator) (p : Progress) : Progress × Except Failure (List Path) :=
  match nonEmpty? g.settings.url with
  | some url =>
    match g.process p url true with
    | (failed, .error f) => (failed, .error f)
    | (done, .ok paths?) => (done, .ok (paths?.getD []))
  | none => g.discover p g.settings.service g.settings.allVersions

end Generator

end ApiTypings
