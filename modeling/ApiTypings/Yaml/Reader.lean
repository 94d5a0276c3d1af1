import ApiTypings.Text.Split
import ApiTypings.Yaml.Flow

/-! Reading YAML: one document of mappings and lists, in lines or in brackets, with quoted and plain
scalars and comments. How far a line is indented says what it belongs to.

This is a part of the language. Block scalars, anchors and aliases, tags, directives and keys behind
a question mark are refused as faults, and a merge key is a key like any other. -/

namespace ApiTypings.Yaml

/-- A line without the spaces before it, and how many there were. -/
structure Line where
  indent : Nat
  body : List Char
deriving Repr

def Line.ofChars (cs : List Char) : Line :=
  let spaces := cs.takeWhile (· == ' ')
  ⟨spaces.length, cs.drop spaces.length⟩

def linesOf (cs : List Char) : List Line := (Text.split '\n' cs).map Line.ofChars

/-- The text of lines again. -/
def unlines : List Line → List Char
  | [] => []
  | [l] => List.replicate l.indent ' ' ++ l.body
  | l :: rest => List.replicate l.indent ' ' ++ l.body ++ '\n' :: unlines rest

/-- Nothing, or a comment. -/
def isIdle (cs : List Char) : Bool := cs.isEmpty || cs.head? == some '#'

/-- From the first line that says something. -/
def skipIdle (lines : List Line) : List Line := lines.dropWhile fun l => isIdle l.body

/-- Does what follows an indicator let it be one? -/
def isCut (rest : List Char) : Bool := rest.isEmpty || (rest.head?.map isBlank).getD true

def isItem (body : List Char) : Bool :=
  match body with
  | '-' :: rest => isCut rest
  | _ => false

/-- The characters of a plain scalar on one line: up to a comment. -/
def takePlain : List Char → List Char
  | [] => []
  | ' ' :: '#' :: _ => []
  | c :: rest => c :: takePlain rest

/-- A plain scalar and what follows a colon behind it, if there is one on the line. -/
def cutAtColon? : List Char → Option (List Char × List Char)
  | [] => none
  | ' ' :: '#' :: _ => none
  | c :: rest =>
    if c == ':' && isCut rest then some ([], rest)
    else (cutAtColon? rest).map fun (key, after) => (c :: key, after)

/-- The key of a mapping's line and what follows its colon. -/
def splitKey? (body : List Char) : Option (Yaml × List Char) :=
  match readQuoted? body with
  | some (.ok (text, rest)) =>
    match rest.dropWhile (· == ' ') with
    | ':' :: after => if isCut after then some (.string (String.ofList text), after) else none
    | _ => none
  | some (.error _) => none
  | none =>
    if startsPlain body || body.head? == some ':' then
      (cutAtColon? body).map fun (key, after) => (ofPlain (trimBlanks key), after)
    else none

/-- A later entry of one key replaces the value and keeps the place of the first. -/
def setEntry (key value : Yaml) : List (Yaml × Yaml) → List (Yaml × Yaml)
  | [] => [(key, value)]
  | (k, v) :: rest =>
    if k.keyText == key.keyText && k.isText == key.isText then (k, value) :: rest
    else (k, v) :: setEntry key value rest

def entriesOf (pairs : List (Yaml × Yaml)) : List (Yaml × Yaml) :=
  pairs.foldl (fun entries (k, v) => setEntry k v entries) []

/-! ## Scalars and brackets in a line -/

/-- The lines that carry a plain scalar on: indented more than what the scalar belongs to. The
blank lines among them are counted, so that they can be told from line ends. -/
def continuation (parent : Int) : List Line → List (List Char) × List Line
  | [] => ([], [])
  | l :: rest =>
    if l.body.isEmpty then
      match continuation parent rest with
      | ([], _) => ([], l :: rest)
      | (more, after) => ([] :: more, after)
    else if parent < l.indent && !isIdle l.body then
      let taken := takePlain l.body
      if taken.length < l.body.length then ([taken], rest)
      else
        let (more, after) := continuation parent rest
        (taken :: more, after)
    else ([], l :: rest)

/-- A plain scalar that starts in a line and may go on in those below. -/
def plainScalar (parent : Int) (body : List Char) (rest : List Line) :
    Except SyntaxFault (Yaml × List Line) :=
  if !startsPlain body then
    match body with
    | '\t' :: _ => .error .tab
    | c :: _ => .error (.unexpected c)
    | [] => .ok (.null, rest)
  else
    let first := takePlain body
    let (more, after) :=
      if first.length < body.length then ([], rest) else continuation parent rest
    if (first :: more).any fun part => (cutAtColon? part).isSome then .error .nestedMapping
    else if (first :: more).any (·.contains '\t') then .error .tab
    else
      let text := (first :: more).foldr (fun part tail => part ++ '\n' :: tail) []
      .ok (ofPlain (foldLines text.length (trimBlanks text)), after)

/-- Nothing but a comment may follow a closed value in its line. -/
def finishLine (rest : List Char) : Except SyntaxFault (List Line) :=
  let line := rest.takeWhile (· != '\n')
  let tail := line.dropWhile (· == ' ')
  if isIdle tail then
    .ok (linesOf ((rest.drop line.length).drop 1))
  else if tail.head? == some ':' then .error .nestedMapping
  else .error (.unexpected (tail.headD ' '))

/-- A value that starts in a line: in quotes, in brackets or plain. -/
def inlineValue (parent : Int) (body : List Char) (rest : List Line) :
    Except SyntaxFault (Yaml × List Line) := do
  let whole := if rest.isEmpty then body else body ++ '\n' :: unlines rest
  match body.head? with
  | some '[' | some '\x7b' =>
    let (value, after) ← flowValue (2 * whole.length + 2) whole
    return (value, ← finishLine after)
  | _ =>
    match readQuoted? whole with
    | some quoted =>
      let (text, after) ← quoted
      return (.string (String.ofList text), ← finishLine after)
    | none => plainScalar parent body rest

/-! ## Lists and mappings in lines -/

mutual

/-- The value in the lines that are indented more than `parent`. -/
def block : Nat → Int → List Line → Except SyntaxFault (Yaml × List Line)
  | 0, _, _ => .error .badIndentation
  | fuel + 1, parent, lines =>
    match skipIdle lines with
    | [] => .ok (.null, [])
    | l :: rest =>
      if (l.indent : Int) ≤ parent then .ok (.null, l :: rest)
      else if isItem l.body then items fuel l.indent [] (l :: rest)
      else match splitKey? l.body with
        | some _ => members fuel l.indent [] (l :: rest)
        | none => inlineValue parent l.body rest

/-- The items of a list: lines of one indentation that start with a dash. -/
def items : Nat → Nat → List Yaml → List Line → Except SyntaxFault (Yaml × List Line)
  | 0, _, _, _ => .error .badIndentation
  | fuel + 1, indent, read, lines => do
    match skipIdle lines with
    | [] => return (.list read.reverse, [])
    | l :: rest =>
      if indent < l.indent then throw .badIndentation
      else if l.indent < indent || !isItem l.body then return (.list read.reverse, l :: rest)
      else
        let behind := l.body.drop 1
        let content := behind.dropWhile (· == ' ')
        let (item, after) ←
          if isIdle content then block fuel indent rest
          else
            let line : Line := ⟨indent + 1 + (behind.length - content.length), content⟩
            block fuel indent (line :: rest)
        items fuel indent (item :: read) after

/-- The entries of a mapping: lines of one indentation with a key. A list that is the value of a
key may be indented as far as the key. -/
def members : Nat → Nat → List (Yaml × Yaml) → List Line → Except SyntaxFault (Yaml × List Line)
  | 0, _, _, _ => .error .badIndentation
  | fuel + 1, indent, read, lines => do
    match skipIdle lines with
    | [] => return (.map (entriesOf read.reverse), [])
    | l :: rest =>
      if indent < l.indent then throw .badIndentation
      else if l.indent < indent then return (.map (entriesOf read.reverse), l :: rest)
      else match splitKey? l.body with
        | none => throw .missingColon
        | some (key, behind) =>
          let content := behind.dropWhile (· == ' ')
          let (value, after) ←
            if isIdle content then
              match skipIdle rest with
              | next :: more =>
                if next.indent == indent && isItem next.body then
                  items fuel indent [] (next :: more)
                else block fuel indent rest
              | [] => pure (Yaml.null, [])
            else inlineValue indent content rest
          members fuel indent ((key, value) :: read) after

end

/-! ## The document -/

/-- Does a line hold a mark of three characters? -/
def isMark (mark : List Char) (l : Line) : Bool :=
  l.indent == 0 && mark.isPrefixOf l.body && isCut (l.body.drop 3)

def isStart : Line → Bool := isMark ['-', '-', '-']

def isEnd : Line → Bool := isMark ['.', '.', '.']

/-- The lines of the only document. -/
def documentLines (lines : List Line) : Except SyntaxFault (List Line) :=
  let inside := lines.takeWhile fun l => !isStart l && !isEnd l
  let after := lines.drop inside.length
  match after with
  | [] => .ok inside
  | l :: rest =>
    if isStart l || !(skipIdle (rest.dropWhile isEnd)).isEmpty then .error .severalDocuments
    else .ok inside

/-- Controls that no text may hold. -/
def isForbidden (c : Char) : Bool :=
  let n := c.toNat
  (n < 0x20 && n != 0x09 && n != 0x0A && n != 0x0D) || (0x7F ≤ n && n ≤ 0x9F && n != 0x85) ||
    n == 0xFFFE || n == 0xFFFF

/-- A byte order mark at the start says nothing. -/
def dropMark : List Char → List Char
  | '\ufeff' :: rest => rest
  | cs => cs

/-- The value of a document; what follows a start mark in its line belongs to it. Every step goes
down a level or takes a line, so twice the length is enough fuel. -/
def parse (text : List Char) : Except SyntaxFault Yaml := do
  match text.find? isForbidden with
  | some c => throw (.unexpected c)
  | none => pure ()
  let fuel := 2 * text.length + 4
  let (value, rest) ←
    match skipIdle (linesOf (dropMark text)) with
    | [] => pure (Yaml.null, [])
    | l :: rest =>
      if isStart l then do
        let content := (l.body.drop 3).dropWhile (· == ' ')
        let inside ← documentLines rest
        if isIdle content then block fuel (-1) inside else inlineValue (-1) content inside
      else do block fuel (-1) (← documentLines (l :: rest))
  match skipIdle rest with
  | [] => return value
  | l :: _ => throw (match l.body with | '\t' :: _ => .tab | _ => .badIndentation)

end ApiTypings.Yaml
