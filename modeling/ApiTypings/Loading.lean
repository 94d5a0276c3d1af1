import ApiTypings.Description
import ApiTypings.Directory
import ApiTypings.Files.Text
import ApiTypings.Json.Reader
import ApiTypings.Log
import ApiTypings.Web.Http
import ApiTypings.Web.Source

/-! Loading documents. A source is a web address or the path of a file; what it leads to is read as
JSON and checked to be the document that is asked for. -/

namespace ApiTypings

/-- Where sources are looked up: the network, whether redirects are followed on it, and the path
that relative ones start from. -/
structure Loader where
  web : Web
  follow : Bool
  base : Path

namespace Loader

def syntaxCause (e : Json.SyntaxError) (text : List Char) : Cause := ⟨.syntaxError, e.message text⟩

def parse (text : List Char) : Except Cause Json :=
  (Json.parse text).mapError fun e => syntaxCause e text

def fromFile (l : Loader) (w : Workspace) (source : String) : Except Cause Json := do
  let path := l.base.join (Path.ofString source)
  if w.contains path then parse (← w.readText path)
  else throw ⟨.fileNotFound, "File not found: " ++ path.text⟩

def fromWeb (l : Loader) (source : String) : Except Cause Json := do
  parse (← l.web.get l.follow source)

def read (l : Loader) (w : Workspace) (source : String) : Except Cause Json :=
  if Url.isWebAddress source then l.fromWeb source else l.fromFile w source

/-- The document at a source, if it passes the check. The places of the faults are not reported. -/
def load {α : Type} (check : Json → Checked α) (l : Loader) (w : Workspace) (source : String) :
    Except Failure α :=
  match l.read w source with
  | .error cause => .error (.load source (some cause))
  | .ok document =>
    match check document with
    | .valid a => .ok a
    | .invalid faults => .error (.invalidDocument source (faults.map (·.cause.message)))

def description (l : Loader) (w : Workspace) (source : String) : Except Failure Description :=
  l.load Description.ofJson w source

def directory (l : Loader) (w : Workspace) (source : String) : Except Failure Directory :=
  l.load Directory.ofJson w source

/-- What is reported when a source is looked up. -/
def records (source : String) : List LogRecord :=
  if Url.isWebAddress source then [.debug .loading ("Fetching " ++ source)] else []

end Loader

end ApiTypings
