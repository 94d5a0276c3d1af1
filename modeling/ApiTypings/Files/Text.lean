import ApiTypings.Failure
import ApiTypings.Files.Tree
import ApiTypings.Text.Newline
import ApiTypings.Text.Utf8

/-! Reading the text of a file. -/

namespace ApiTypings

def FileFault.causeKind : FileFault → CauseKind
  | notFound => .fileNotFound
  | accessDenied => .accessDenied
  | alreadyExists => .fileExists
  | notDirectory => .notDirectory
  | isDirectory => .isDirectory
  | device _ => .device

def PathError.cause (e : PathError) : Cause := ⟨e.fault.causeKind, e.message⟩

def WriteError.cause : WriteError → Cause
  | unopened e => e.cause
  | e@(cut _ _) => ⟨.device, e.message⟩

/-- What octets stand for, with line feeds for line ends. -/
def decodeText (octets : List UInt8) : Except Cause (List Char) :=
  match Utf8.decode octets with
  | .ok text => .ok (Text.unifyNewlines text)
  | .error fault => .error ⟨.undecodable, fault.message⟩

/-- The text of a file. -/
def Workspace.readText (w : Workspace) (path : Path) : Except Cause (List Char) :=
  match w.read path with
  | .ok octets => decodeText octets
  | .error e => .error e.cause

end ApiTypings
