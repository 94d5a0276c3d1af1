import ApiTypings.CommandLine.Arguments
import ApiTypings.Console.Lines
import ApiTypings.Generation
import ApiTypings.Settings.Source

/-! A run from the command line: what it prints, what it reports, the files it leaves and the
status it ends with. -/

namespace ApiTypings

structure RunResult where
  status : Nat
  /-- The printed lines. -/
  printed : List String
  log : List LogRecord
  workspace : Workspace

namespace RunResult

/-- The status of a command that was not understood. -/
def usage (w : Workspace) : RunResult := ⟨2, [], [], w⟩

/-- A run that fails after some lines. The message is marked up like any other text, so one with
faulty tags is not shown. -/
def failed (p : Progress) (printed : List String) (message : String) : RunResult :=
  ⟨1, printed ++ (Console.linesOf ["[red]Error:[/red] " ++ message]).1, p.log, p.workspace⟩

/-- The records that are shown: those for debugging only if they are asked for. -/
def shownLog (r : RunResult) (verbose : Bool) : List LogRecord :=
  r.log.filter fun record => verbose || record.level != .debug

end RunResult

namespace GenerateOptions

/-- What is printed at the end: what was generated, what was skipped, and how much was written. -/
def summary (p : Progress) (paths : List Path) : List String :=
  "[dim]Generated APIs:[/dim]" ::
    p.generated.map ("  - " ++ ·) ++
    p.skipped.map ("  [yellow]skipped[/yellow] " ++ ·) ++
    ["[green]Done[/green], " ++ toString paths.length ++ " files written"]

/-- Generate under settings, after the lines that are printed already. Templates of the caller's own
are literal text and values, and no write breaks off. -/
def generateWith (w : Workspace) (web : Web) (settings : Settings) (printed : List String) :
    RunResult :=
  match TemplateSet.load TemplatePiece.engine w settings.templatesDir TemplateSet.standardFiles with
  | .error fault => .failed (Progress.start w) printed fault.message
  | .ok templates =>
    let g : Generator := { settings, loader := ⟨web, true, w.path⟩, templates }
    match g.generate (Progress.start w) with
    | (p, .error f) => .failed p printed f.message
    | (p, .ok paths) =>
      match Console.linesOf (summary p paths) with
      | (lines, none) => ⟨0, printed ++ lines, p.log, p.workspace⟩
      | (lines, some fault) => .failed p (printed ++ lines) fault.message

/-- The settings that are found, with what the command line says on top of them. -/
def settings (o : GenerateOptions) (w : Workspace) (env : Environment) :
    Except SettingsFault Settings :=
  match Settings.find w env o.config with
  | .ok found => .ok (found.override o.overrides)
  | .error fault => .error fault

def generate (o : GenerateOptions) (w : Workspace) (env : Environment) (web : Web) : RunResult :=
  match o.settings w env with
  | .error fault => .failed (Progress.start w) [] fault.message
  | .ok settings =>
    match Console.linesOf ["Output directory: " ++ settings.output] with
    | (lines, some fault) => .failed (Progress.start w) lines fault.message
    | (lines, none) => generateWith w web settings lines

/-- The output directory as a path, if it is there. -/
def existingOut (w : Workspace) (o : GenerateOptions) : Option GenerateOptions :=
  match o.out with
  | .none => some o
  | some out =>
    let path := Path.ofString out
    if !out.isEmpty && w.hasDirectory path then some { o with out := some path.text } else .none

end GenerateOptions

namespace Command

def versionText : String := "discotyper version: 0.1.0"

/-- What a command does in a workspace. -/
def run (w : Workspace) (env : Environment) (web : Web) : Command → RunResult
  | .help => ⟨0, [], [], w⟩
  | .version => ⟨0, [versionText], [], w⟩
  | .generate options =>
    match options.existingOut w with
    | some options => options.generate w env web
    | none => .usage w

/-- What arguments do, and whether they ask for the records for debugging. -/
def runArguments (w : Workspace) (env : Environment) (web : Web) (arguments : List String) :
    RunResult × Bool :=
  match ofArguments arguments with
  | some (.generate options) => ((Command.generate options).run w env web, options.verbose)
  | some command => (command.run w env web, false)
  | none => (.usage w, false)

end Command

end ApiTypings
