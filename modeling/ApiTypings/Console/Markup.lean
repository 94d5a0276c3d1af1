import ApiTypings.Text.Blank

/-! Marked up text for a console. A tag in square brackets opens a style and one with a slash closes
it. A console without styles shows the text between the tags; a tag that closes nothing is a
fault. -/

namespace ApiTypings.Markup

/-- A tag as it is written, without its brackets: the name, and what follows an equals sign. -/
structure Tag where
  name : List Char
  parameters : Option (List Char)
deriving DecidableEq, Repr

def Tag.text (t : Tag) : String :=
  "[" ++ String.ofList t.name ++
    (match t.parameters with
      | some parameters => "=" ++ String.ofList parameters
      | none => "") ++ "]"

inductive Piece where
  | text (content : List Char)
  | tag (position : Nat) (tag : Tag)
deriving DecidableEq, Repr

/-- Can a tag begin with this? Brackets before anything else are text. -/
def startsTag (c : Char) : Bool :=
  ('a' ≤ c && c ≤ 'z') || c == '#' || c == '/' || c == '@'

/-- The inside of a tag and what follows it, where a tag begins. No bracket opens inside a tag. -/
def takeTag? : List Char → Option (List Char × List Char)
  | '[' :: c :: rest =>
    if startsTag c then
      let inside := rest.takeWhile fun d => d != '[' && d != ']'
      match rest.drop inside.length with
      | ']' :: after => some (c :: inside, after)
      | _ => none
    else none
  | _ => none

/-- A bracket behind a backslash stands for itself. -/
def unescape : List Char → List Char
  | '\\' :: '[' :: rest => '[' :: unescape rest
  | c :: rest => c :: unescape rest
  | [] => []

def Tag.ofInside (inside : List Char) : Tag :=
  let name := inside.takeWhile (· != '=')
  match inside.drop name.length with
  | _ :: parameters => ⟨name, some parameters⟩
  | [] => ⟨name, none⟩

/-- Text read so far, last character first, as a piece. -/
def flush (read : List Char) : List Piece :=
  if read.isEmpty then [] else [.text (unescape read.reverse)]

/-- The pieces of a text from a position on. Backslashes before a tag stand for half as many, and
an odd one makes the tag a text. Every step takes a character, so that the length is enough fuel. -/
def piecesFrom : Nat → Nat → List Char → List Char → List Piece
  | 0, _, read, _ => flush read
  | _, _, read, [] => flush read
  | fuel + 1, position, read, c :: rest =>
    let slashes := (c :: rest).takeWhile (· == '\\')
    match takeTag? ((c :: rest).drop slashes.length) with
    | some (inside, after) =>
      let half := slashes.length / 2
      let shown := if half = 0 then [] else [Piece.text (List.replicate half '\\')]
      let next := position + slashes.length + inside.length + 2
      let piece :=
        if slashes.length % 2 = 1 then Piece.text ('[' :: inside ++ [']'])
        else .tag (position + 2 * half) (Tag.ofInside inside)
      flush read ++ shown ++ piece :: piecesFrom fuel next [] after
    | none => piecesFrom fuel (position + 1) (c :: read) rest

def pieces (text : List Char) : List Piece := piecesFrom (text.length + 1) 0 [] text

/-- A tag that closes what is not open, and where it stands. -/
inductive Fault where
  | unmatched (tag : Tag) (position : Nat)
  | nothingOpen (position : Nat)
deriving DecidableEq, Repr

def Fault.message : Fault → String
  | unmatched tag position =>
    "closing tag '" ++ tag.text ++ "' at position " ++ toString position ++
      " doesn't match any open tag"
  | nothingOpen position =>
    "closing tag '[/]' at position " ++ toString position ++ " has nothing to close"

/-- The name by which styles are matched. -/
def styleName (cs : List Char) : List Char := (Text.trim cs).map Char.toLower

/-- The open styles after a tag, the last opened first. A closing tag without a name closes the
last one. -/
def step (opened : List (List Char)) (position : Nat) (tag : Tag) :
    Except Fault (List (List Char)) :=
  match tag.name with
  | '/' :: name =>
    let style := styleName name
    match style, opened with
    | [], [] => .error (.nothingOpen position)
    | [], _ :: rest => .ok rest
    | _, _ =>
      if opened.contains style then .ok (opened.erase style)
      else .error (.unmatched tag position)
  | name => .ok (styleName name :: opened)

def plainFrom (opened : List (List Char)) : List Piece → Except Fault (List Char)
  | [] => .ok []
  | .text content :: rest =>
    match plainFrom opened rest with
    | .ok shown => .ok (content ++ shown)
    | .error f => .error f
  | .tag position tag :: rest =>
    match step opened position tag with
    | .ok next => plainFrom next rest
    | .error f => .error f

/-- What a console without styles shows of a text. -/
def plain (text : List Char) : Except Fault (List Char) := plainFrom [] (pieces text)

end ApiTypings.Markup
