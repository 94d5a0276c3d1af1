import ApiTypings.Json.Reader

/-! Quoted scalars. Between quotes a line end counts as a space, and empty lines as line ends. -/

namespace ApiTypings.Yaml

/-- Why a text is refused. -/
inductive SyntaxFault where
  | unclosedQuote
  | unclosedBracket
  | unknownEscape
  | tab
  /-- A mapping starts where none may. -/
  | nestedMapping
  | missingColon
  | badIndentation
  | unexpected (c : Char)
  | severalDocuments
deriving DecidableEq, Repr

def SyntaxFault.message : SyntaxFault → String
  | unclosedQuote => "found unexpected end of stream"
  | unclosedBracket => "expected ',' or a closing bracket"
  | unknownEscape => "found unknown escape character"
  | tab => "found character '\\t' that cannot start any token"
  | nestedMapping => "mapping values are not allowed here"
  | missingColon => "could not find expected ':'"
  | badIndentation => "did not find expected indentation"
  | unexpected c => "found unexpected character " ++ String.ofList ['\'', c, '\'']
  | severalDocuments => "expected a single document in the stream"

def isBlank (c : Char) : Bool := c == ' ' || c == '\t' || c == '\n'

/-- Blanks as they are read: those around line ends are left out. -/
def foldBlanks (blanks : List Char) : List Char :=
  match blanks.count '\n' with
  | 0 => blanks
  | 1 => [' ']
  | n + 1 => List.replicate n '\n'

/-- The text up to a single quote that stands alone, and what follows it. A doubled one is a quote
of the text. `read` is what has been read, last first. -/
def readSingle : Nat → List Char → List Char → Except SyntaxFault (List Char × List Char)
  | 0, _, _ | _, _, [] => .error .unclosedQuote
  | fuel + 1, read, '\'' :: '\'' :: rest => readSingle fuel ('\'' :: read) rest
  | _ + 1, read, '\'' :: rest => .ok (read.reverse, rest)
  | fuel + 1, read, c :: rest =>
    if isBlank c then
      let blanks := (c :: rest).takeWhile isBlank
      readSingle fuel ((foldBlanks blanks).reverse ++ read) ((c :: rest).drop blanks.length)
    else readSingle fuel (c :: read) rest

/-- The character a letter stands for behind a backslash. -/
def escapes : List (Char × Char) :=
  [('0', '\x00'), ('a', '\x07'), ('b', '\x08'), ('t', '\t'), ('\t', '\t'), ('n', '\n'),
   ('v', '\x0b'), ('f', '\x0c'), ('r', '\r'), ('e', '\x1b'), (' ', ' '), ('"', '"'),
   ('\\', '\\'), ('/', '/'),
   ('N', '\u0085'), ('_', '\u00a0'), ('L', '\u2028'), ('P', '\u2029')]

/-- How many hexadecimal digits follow a letter. -/
def escapeWidth? : Char → Option Nat
  | 'x' => some 2
  | 'u' => some 4
  | 'U' => some 8
  | _ => none

/-- The character that digits name. -/
def namedChar? (digits : List Char) (width : Nat) : Option Char := do
  if digits.length < width then none
  else
    let values ← digits.mapM Json.hexDigit?
    return Char.ofNat (values.foldl (fun n d => n * 16 + d) 0)

/-- The text up to a double quote, with its escapes read, and what follows it. -/
def readDouble : Nat → List Char → List Char → Except SyntaxFault (List Char × List Char)
  | 0, _, _ | _, _, [] => .error .unclosedQuote
  | _ + 1, read, '"' :: rest => .ok (read.reverse, rest)
  | fuel + 1, read, '\\' :: '\n' :: rest => readDouble fuel read (rest.dropWhile isBlank)
  | fuel + 1, read, '\\' :: letter :: rest =>
    match escapes.lookup letter, escapeWidth? letter with
    | some c, _ => readDouble fuel (c :: read) rest
    | none, some width =>
      match namedChar? (rest.take width) width with
      | some c => readDouble fuel (c :: read) (rest.drop width)
      | none => .error .unknownEscape
    | none, none => .error .unknownEscape
  | fuel + 1, read, c :: rest =>
    if isBlank c then
      let blanks := (c :: rest).takeWhile isBlank
      readDouble fuel ((foldBlanks blanks).reverse ++ read) ((c :: rest).drop blanks.length)
    else readDouble fuel (c :: read) rest

/-- A text that starts with a quote, and what follows the closing one. Each step takes a character,
so that the length is enough fuel. -/
def readQuoted? : List Char → Option (Except SyntaxFault (List Char × List Char))
  | '\'' :: rest => some (readSingle (rest.length + 1) [] rest)
  | '"' :: rest => some (readDouble (rest.length + 1) [] rest)
  | _ => none

end ApiTypings.Yaml
