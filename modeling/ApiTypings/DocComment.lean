import ApiTypings.Text.Blank
import ApiTypings.Text.Split

/-! The lines of a doc comment. A text is trimmed and cut at its line breaks; a line that is too
long is wrapped at its spaces; asterisks are escaped so that no text can end the comment; irregular
spaces become plain ones. -/

namespace ApiTypings.DocComment

open Text

/-- The most characters on a line, unless a single word is longer. -/
def maxWidth : Nat := 150

/-- Line breaks are CR LF, CR, LF and the symbol U+240A. -/
def isBreak (c : Char) : Bool := c == '\r' || c == '\n' || c == '\u240a'

/-- The lines of a text; a text without breaks is one line. -/
def splitLines : List Char → List (List Char)
  | [] => [[]]
  | '\r' :: '\n' :: rest => [] :: splitLines rest
  | c :: rest => if isBreak c then [] :: splitLines rest else consFirst c (splitLines rest)

/-- The pieces between spaces; neighbouring spaces have an empty piece between them. -/
def splitWords (line : List Char) : List (List Char) := split ' ' line

/-- Greedy filling: a word joins the pending line while both together, not counting the space
between them, stay within the width. A pending line is written even when it is empty. -/
def fill (pending : List Char) : List (List Char) → List (List Char)
  | [] => [pending]
  | word :: rest =>
    if pending.length + word.length > maxWidth then pending :: fill word rest
    else if pending.isEmpty then fill word rest
    else fill (pending ++ ' ' :: word) rest

def wrap (line : List Char) : List (List Char) :=
  if line.length ≤ maxWidth then [line] else fill [] (splitWords line)

/-- An asterisk as a character reference. -/
def escape (c : Char) : List Char := if c == '*' then ['&', '#', '4', '2', ';'] else [c]

def plainSpace (c : Char) : Char := if isIrregularSpace c then ' ' else c

/-- Escaping, then trimming, and only then plain spaces: an irregular space that is no blank
stays at the end of a line as a space. -/
def polish (line : List Char) : List Char := (trim (line.flatMap escape)).map plainSpace

/-- The lines that a description takes in a doc comment, none if there is no text. -/
def lines (text : String) : List String :=
  if text.isEmpty then []
  else (((splitLines (trim text.toList)).flatMap wrap).map polish).map String.ofList

end ApiTypings.DocComment
