import ApiTypings.Files.Text
import ApiTypings.Log

/-! Output that reaches its file only when it is complete: chunks are kept until the end, and a
run that stops before it leaves the file alone. Only a medium that breaks off while the end is
written leaves half a file. -/

namespace ApiTypings

/-- A file being written: the chunks so far, and whether it has been written. -/
structure OutputFile where
  path : Path
  chunks : List String
  closed : Bool
deriving DecidableEq, Repr

namespace OutputFile

def create (path : Path) : OutputFile := ⟨path, [], false⟩

def content (f : OutputFile) : String := String.join f.chunks

def failure (f : OutputFile) (cause : Cause) : Failure := .output f.path.text (some cause)

/-- Nothing can be added to a file that is closed. -/
def write (f : OutputFile) (chunk : String) : Except Failure OutputFile :=
  if f.closed then .error (f.failure ⟨.invalidValue, "emitter is closed"⟩)
  else .ok { f with chunks := f.chunks ++ [chunk] }

/-- Make the directories above, then write the whole content. A fault leaves the file open. -/
def save (medium : Medium) (w : Workspace) (path : Path) (content : String) :
    Workspace × Option WriteError :=
  match w.makeDirectories medium path.parent with
  | (made, some e) => (made, some (.unopened e))
  | (made, none) => made.write medium path (Utf8.encode content)

/-- The end of the file. Ending a closed file does nothing. -/
def finish (f : OutputFile) (medium : Medium) (w : Workspace) :
    Workspace × OutputFile × Option Failure :=
  if f.closed then (w, f, none)
  else match save medium w f.path f.content with
    | (saved, none) => (saved, { f with closed := true }, none)
    | (failed, some e) => (failed, f, some (f.failure e.cause))

/-- What is reported of a file that has been written. -/
def record (path : Path) : LogRecord := .debug .output ("Wrote " ++ path.text)

/-- A file of one chunk. -/
def saveText (medium : Medium) (w : Workspace) (path : Path) (text : String) :
    Workspace × Option Failure :=
  match save medium w path text with
  | (saved, none) => (saved, none)
  | (failed, some e) => (failed, some (.output path.text (some e.cause)))

end OutputFile

end ApiTypings
