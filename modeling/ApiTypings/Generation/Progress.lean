import ApiTypings.Files.Output

/-! What a run has done so far: the files it has written, what it has reported, and which APIs it
has generated or skipped. Every step takes the progress and gives it back, also where it fails. -/

namespace ApiTypings

structure Progress where
  workspace : Workspace
  log : List LogRecord
  /-- Name and version of each API that was written. -/
  generated : List String
  /-- Where the descriptions of the others were found. -/
  skipped : List String
deriving DecidableEq, Repr

namespace Progress

/-- Nothing has been done in a workspace. -/
def start (w : Workspace) : Progress := ⟨w, [], [], []⟩

def report (p : Progress) (records : List LogRecord) : Progress :=
  { p with log := p.log ++ records }

def addGenerated (p : Progress) (label : String) : Progress :=
  { p with generated := p.generated ++ [label] }

def addSkipped (p : Progress) (url : String) : Progress := { p with skipped := p.skipped ++ [url] }

/-- A file is written and reported. A failure may leave directories that were made for it, and a
part of the file. -/
def saveFile (p : Progress) (medium : Medium) (path : Path) (text : String) :
    Progress × Except Failure Path :=
  match OutputFile.saveText medium p.workspace path text with
  | (saved, none) => ({ p with workspace := saved }.report [OutputFile.record path], .ok path)
  | (failed, some f) => ({ p with workspace := failed }, .error f)

/-- Files are written one after another, each when it has its text. A failure leaves those that
were written before it. -/
def saveFiles (p : Progress) (medium : Medium) (directory : Path) :
    Entries (Except Cause String) → Progress × Except Failure (List Path)
  | [] => (p, .ok [])
  | (_, .error cause) :: _ => (p, .error (.template cause))
  | (name, .ok text) :: rest =>
    match p.saveFile medium (directory.child name) text with
    | (failed, .error f) => (failed, .error f)
    | (saved, .ok path) =>
      match saved.saveFiles medium directory rest with
      | (failed, .error f) => (failed, .error f)
      | (done, .ok paths) => (done, .ok (path :: paths))

end Progress

end ApiTypings
