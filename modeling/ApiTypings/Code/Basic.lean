/-! Code: text to be written with indentation. A piece of code is a value; running it on a page
writes its text at the level of indentation the page is at. A piece may fail, and then what was
written before stays, and so does the level that was reached. -/

namespace ApiTypings

/-- Where code is written: what has been written so far and how deep the next line is. The level
may fall below zero, where lines are not indented. -/
structure Page where
  text : String
  level : Int
  newLine : String
  tab : String
deriving DecidableEq, Repr

namespace Page

def empty : Page := ⟨"", 0, "\n", "    "⟩

def append (page : Page) (s : String) : Page := { page with text := page.text ++ s }

def shift (page : Page) (by_ : Int) : Page := { page with level := page.level + by_ }

/-- What stands in front of a line at the page's level. -/
def indentation (page : Page) : String := String.join (List.replicate page.level.toNat page.tab)

end Page

/-- A piece of code that may fail with an `ε`. -/
inductive Code (ε : Type) where
  | nil
  | text (s : String)
  | newLine
  | indent
  | append (first second : Code ε)
  /-- A body one level deeper. -/
  | nest (body : Code ε)
  /-- A lasting change of level. -/
  | shift (by_ : Int)
  | fail (fault : ε)

namespace Code

variable {ε : Type}

/-- Write the code on the page. A fault stops everything after it; a body it stops is not left, so
the page stays at the body's level. -/
def run : Code ε → Page → Page × Option ε
  | nil, page => (page, none)
  | text s, page => (page.append s, none)
  | newLine, page => (page.append page.newLine, none)
  | indent, page => (page.append page.indentation, none)
  | append first second, page =>
    match first.run page with
    | (page, none) => second.run page
    | stopped => stopped
  | nest body, page =>
    match body.run (page.shift 1) with
    | (page, none) => (page.shift (-1), none)
    | stopped => stopped
  | shift by_, page => (page.shift by_, none)
  | fail fault, page => (page, some fault)

instance : Append (Code ε) := ⟨append⟩

/-- One piece after the other. -/
def all (pieces : List (Code ε)) : Code ε := pieces.foldr append nil

/-! ## Lines -/

/-- An indented text that stays open at its end. -/
def beginLine (s : String) : Code ε := indent ++ text s

def endLine (s : String) : Code ε := text s ++ newLine

def line (s : String) : Code ε := indent ++ text s ++ newLine

/-- A new line that stays open at its end. -/
def beginNewLine (s : String) : Code ε := newLine ++ beginLine s

end Code

end ApiTypings
