import ApiTypings.Text.Split

/-! Paths as they are written: a root and the names below it. Nothing is looked up: two dots stay,
since what they lead to depends on the files that are there. -/

namespace ApiTypings

/-- The names between slashes. A relative path has the root `""`, an absolute one `"/"`, or `"//"`
if it is written with exactly two slashes. -/
structure Path where
  root : String
  parts : List String
deriving DecidableEq, Repr

namespace Path

def rootOf : List Char → String
  | '/' :: '/' :: '/' :: _ => "/"
  | '/' :: '/' :: _ => "//"
  | '/' :: _ => "/"
  | _ => ""

/-- Repeated slashes and single dots are left out. -/
def ofString (text : String) : Path :=
  let names := (Text.split '/' text.toList).map String.ofList
  ⟨rootOf text.toList, names.filter fun name => name != "" && name != "."⟩

/-- The path in writing; that of the place where one stands is a dot. -/
def text (p : Path) : String :=
  let written := p.root ++ "/".intercalate p.parts
  if written.isEmpty then "." else written

def isAbsolute (p : Path) : Bool := p.root != ""

/-- The second path as seen from the first: an absolute one stands for itself. -/
def join (base p : Path) : Path := if p.isAbsolute then p else ⟨base.root, base.parts ++ p.parts⟩

/-- A name below a path. The name is read as a path of its own, so it may hold slashes. -/
def child (base : Path) (name : String) : Path := base.join (ofString name)

/-- Without the last name. -/
def parent (p : Path) : Path := { p with parts := p.parts.dropLast }

end Path

end ApiTypings
