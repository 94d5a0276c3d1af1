import ApiTypings.Files.Path
import ApiTypings.Text.Quoted

/-! A tree of files and directories, and the ways to look into it and to change it. A location is
the list of names from the root; the root is a directory that is always there. -/

namespace ApiTypings

abbrev Location := List String

inductive Node where
  | directory
  | file (content : List UInt8)
deriving DecidableEq, Repr

/-- What is there, apart from the root. -/
structure FileTree where
  nodes : List (Location × Node)
deriving DecidableEq, Repr

/-- What may be wrong with the device that a tree is kept on. -/
inductive DeviceFault where
  | broken
  | tooLarge
  | full
deriving DecidableEq, Repr

def DeviceFault.number : DeviceFault → Nat
  | broken => 5
  | tooLarge => 27
  | full => 28

def DeviceFault.reason : DeviceFault → String
  | broken => "Input/output error"
  | tooLarge => "File too large"
  | full => "No space left on device"

/-- Why a path cannot be used. -/
inductive FileFault where
  | notFound
  | accessDenied
  | alreadyExists
  | notDirectory
  | isDirectory
  | device (fault : DeviceFault)
deriving DecidableEq, Repr

def FileFault.number : FileFault → Nat
  | notFound => 2
  | accessDenied => 13
  | alreadyExists => 17
  | notDirectory => 20
  | isDirectory => 21
  | device fault => fault.number

def FileFault.reason : FileFault → String
  | notFound => "No such file or directory"
  | accessDenied => "Permission denied"
  | alreadyExists => "File exists"
  | notDirectory => "Not a directory"
  | isDirectory => "Is a directory"
  | device fault => fault.reason

/-- A fault and the path that was asked for. -/
structure PathError where
  fault : FileFault
  path : Path
deriving DecidableEq, Repr

def PathError.message (e : PathError) : String :=
  "[Errno " ++ toString e.fault.number ++ "] " ++ e.fault.reason ++ ": " ++ Text.quoted e.path.text

/-- Why a file has not been written. -/
inductive WriteError where
  /-- It could not be opened, and is as it was. -/
  | unopened (e : PathError)
  /-- It was open, and no more than so many octets went into it. -/
  | cut (fault : DeviceFault) (taken : Nat)
deriving DecidableEq, Repr

/-- The path of an open file is not mentioned. -/
def WriteError.message : WriteError → String
  | unopened e => e.message
  | cut fault _ => "[Errno " ++ toString fault.number ++ "] " ++ fault.reason

namespace FileTree

def empty : FileTree := ⟨[]⟩

def node? (t : FileTree) : Location → Option Node
  | [] => some .directory
  | name :: rest => t.nodes.lookup (name :: rest)

/-- A node takes the place of the one that is at its location. -/
def setIn (l : Location) (n : Node) : List (Location × Node) → List (Location × Node)
  | [] => [(l, n)]
  | (k, old) :: rest => if k == l then (k, n) :: rest else (k, old) :: setIn l n rest

def set (t : FileTree) (l : Location) (n : Node) : FileTree := ⟨setIn l n t.nodes⟩

/-- The location that names lead to from another. Every place on the way has to be a directory; the
last may be missing. Two dots go up, and stay at the root. -/
def walk (t : FileTree) : Location → List String → Except FileFault Location
  | here, [] => .ok here
  | here, name :: rest =>
    match t.node? here with
    | some .directory => t.walk (if name == ".." then here.dropLast else here ++ [name]) rest
    | some (.file _) => .error .notDirectory
    | none => .error .notFound

/-- The files, with where they are. -/
def files (t : FileTree) : List (Location × List UInt8) :=
  t.nodes.filterMap fun (l, n) =>
    match n with
    | .file content => some (l, content)
    | .directory => none

end FileTree

/-- A tree as seen from a directory of it: relative paths start there. -/
structure Workspace where
  tree : FileTree
  directory : Location
deriving DecidableEq, Repr

/-- What keeps changes from being made that the tree itself has room for: a place may be closed to
the writer, and the space may come to an end. -/
structure Medium where
  /-- Why a directory is not made, if it is not. -/
  making : Workspace → Path → Option FileFault
  /-- Why these octets are not written to a path, if they are not. -/
  writing : Workspace → Path → List UInt8 → Option WriteError

/-- Whatever the tree has room for is done. -/
def Medium.lasting : Medium := ⟨fun _ _ => none, fun _ _ _ => none⟩

namespace Workspace

/-- The absolute path of the directory one stands in. -/
def path (w : Workspace) : Path := ⟨"/", w.directory⟩

def locate (w : Workspace) (p : Path) : Except FileFault Location :=
  w.tree.walk (if p.isAbsolute then [] else w.directory) p.parts

/-- What a path leads to. -/
def node? (w : Workspace) (p : Path) : Option Node :=
  match w.locate p with
  | .ok l => w.tree.node? l
  | .error _ => none

def contains (w : Workspace) (p : Path) : Bool := (w.node? p).isSome

def hasDirectory (w : Workspace) (p : Path) : Bool := w.node? p == some .directory

def read (w : Workspace) (p : Path) : Except PathError (List UInt8) :=
  match w.locate p with
  | .error fault => .error ⟨fault, p⟩
  | .ok l =>
    match w.tree.node? l with
    | some (.file content) => .ok content
    | some .directory => .error ⟨.isDirectory, p⟩
    | none => .error ⟨.notFound, p⟩

def put (w : Workspace) (l : Location) (content : List UInt8) : Workspace :=
  { w with tree := w.tree.set l (.file content) }

/-- A file takes new content; one that is missing is made if its directory is there. The old content
is gone as soon as the file is open, so a write that breaks off leaves a beginning of the new one. -/
def write (w : Workspace) (medium : Medium) (p : Path) (content : List UInt8) :
    Workspace × Option WriteError :=
  match w.locate p with
  | .error fault => (w, some (.unopened ⟨fault, p⟩))
  | .ok l =>
    if w.tree.node? l == some .directory then (w, some (.unopened ⟨.isDirectory, p⟩))
    else
      match medium.writing w p content with
      | none => (w.put l content, none)
      | some (.unopened e) => (w, some (.unopened e))
      | some (.cut fault taken) => (w.put l (content.take taken), some (.cut fault taken))

/-- One directory, inside one that is there. -/
def makeDirectory (w : Workspace) (medium : Medium) (p : Path) : Except FileFault Workspace :=
  match w.locate p with
  | .error fault => .error fault
  | .ok l =>
    if (w.tree.node? l).isSome then .error .alreadyExists
    else
      match medium.making w p with
      | none => .ok { w with tree := w.tree.set l .directory }
      | some fault => .error fault

/-- A directory that is there already is as good as a new one. -/
def makeIfMissing (w : Workspace) (medium : Medium) (p : Path) : Workspace × Option PathError :=
  match w.makeDirectory medium p with
  | .ok made => (made, none)
  | .error fault => if w.hasDirectory p then (w, none) else (w, some ⟨fault, p⟩)

/-- A directory and those above it that are missing; the names come last first. What was made
before a fault stays. -/
def makeUpward (w : Workspace) (medium : Medium) (root : String) :
    List String → Workspace × Option PathError
  | [] => (w, none)
  | name :: above =>
    let p : Path := ⟨root, (name :: above).reverse⟩
    match w.makeDirectory medium p with
    | .error .notFound =>
      match w.makeUpward medium root above with
      | (made, none) => made.makeIfMissing medium p
      | failed => failed
    | _ => w.makeIfMissing medium p

def makeDirectories (w : Workspace) (medium : Medium) (p : Path) : Workspace × Option PathError :=
  w.makeUpward medium p.root p.parts.reverse

end Workspace

end ApiTypings
