import ApiTypings.Text.Newline
import ApiTypings.Toml.Value

/-! Reading TOML: entries and table headers, a statement a line. No key takes two values, and no
table is declared twice. -/

namespace ApiTypings.Toml

/-- What has been read: the tables so far, the header under which entries stand, the tables that
are declared, those made by dotted keys under the present header, and the paths that are closed. -/
structure Document where
  root : Json
  header : List String
  declared : List (List String)
  dotted : List (List String)
  closed : List (List String)

def Document.empty : Document := ⟨.object [], [], [], [], []⟩

namespace Document

/-- Dotted keys declare their tables when the next header comes. -/
def settle (d : Document) : Document := { d with declared := d.dotted ++ d.declared, dotted := [] }

/-- The header of a table. -/
def openTable (key : List String) (d : Document) : Except Fault Document := do
  if d.declared.contains key || isBelow d.closed key then throw (.redeclared key)
  let root ← within (fun fields => .ok fields) key key d.root
  return { d with root := root, header := key, declared := key :: d.declared }

/-- One table more at the end of a list. -/
def appendTable (key : List String) (name : String) (fields : List (String × Json)) :
    Except Fault (List (String × Json)) :=
  match fields.lookup name with
  | none => .ok (fields ++ [(name, .array [.object []])])
  | some (.array items) => .ok (Entries.set name (.array (items ++ [.object []])) fields)
  | some _ => .error (.overwritten key)

/-- The header of one more table of a list. What was declared in the tables before does not
count. -/
def openListTable (key : List String) (d : Document) : Except Fault Document := do
  if isBelow d.closed key then throw (.redeclared key)
  match key.getLast? with
  | none => throw .badKey
  | some name =>
    let root ← within (appendTable key name) key key.dropLast d.root
    let kept := fun (paths : List (List String)) => paths.filter fun p => !key.isPrefixOf p
    return { d with
      root := root, header := key, declared := key :: kept d.declared, closed := kept d.closed }

/-- The tables that a dotted key goes through. -/
def tablesOf (header key : List String) : List (List String) :=
  (List.range (key.length - 1)).map fun i => header ++ key.take (i + 1)

def addPair (key : List String) (value : Json) (d : Document) : Except Fault Document := do
  let path := d.header ++ key
  let tables := tablesOf d.header key
  match tables.find? d.declared.contains with
  | some t => throw (.redeclared t)
  | none => pure ()
  if isBelow d.closed path.dropLast then throw (.redeclared path.dropLast)
  let root ← addValue path value d.root
  return { d with
    root := root, dotted := tables ++ d.dotted,
    closed := if isCompound value then path :: d.closed else d.closed }

end Document

/-- The key of a header between its brackets. -/
def readHeader (marks : List Char) (cs : List Char) : Except Fault (List String × List Char) := do
  let (key, rest) ← readKey (cs.length + 1) (skipSpaces cs)
  if marks.isPrefixOf rest then return (key, rest.drop marks.length) else throw .badStatement

/-- One statement, and what follows it. -/
def readStatement (d : Document) (cs : List Char) : Except Fault (Document × List Char) :=
  match cs with
  | '[' :: '[' :: rest => do
    let (key, after) ← readHeader [']', ']'] rest
    return (← d.settle.openListTable key, after)
  | '[' :: rest => do
    let (key, after) ← readHeader [']'] rest
    return (← d.settle.openTable key, after)
  | _ => do
    let (key, afterKey) ← readKey (cs.length + 1) cs
    match afterKey with
    | '=' :: behind =>
      let (value, after) ← readValue (2 * behind.length + 2) (skipSpaces behind)
      return (← d.addPair key value, after)
    | _ => throw .badKey

/-- Statements up to the end, each on lines of its own. -/
def readStatements : Nat → Document → List Char → Except Fault Document
  | 0, d, _ => .ok d
  | fuel + 1, d, cs => do
    match skipSpaces cs with
    | [] => return d
    | '\n' :: rest => readStatements fuel d rest
    | '#' :: rest => readStatements fuel d (← skipComment ('#' :: rest))
    | start =>
      let (next, rest) ← readStatement d start
      match ← skipComment (skipSpaces rest) with
      | [] => return next
      | '\n' :: more => readStatements fuel next more
      | _ => throw .badStatement

/-- The table that a text stands for. Every statement takes a character at least. -/
def parse (text : List Char) : Except Fault Json := do
  return (← readStatements (text.length + 1) .empty text).root

end ApiTypings.Toml
