import ApiTypings.Json.Reader

/-! The strings of TOML: in double quotes with escapes or in single quotes without, on one line or
between triple quotes on several. -/

namespace ApiTypings.Toml

/-- Why a text is refused. -/
inductive Fault where
  | badStatement
  | badKey
  | badValue
  | badEscape
  | unclosed
  /-- A key has a value already. -/
  | overwritten (key : List String)
  /-- A table is declared twice, or after it was closed. -/
  | redeclared (key : List String)
deriving DecidableEq, Repr

def keyText (key : List String) : String := ".".intercalate key

def Fault.message : Fault → String
  | badStatement => "Invalid statement"
  | badKey => "Invalid key"
  | badValue => "Invalid value"
  | badEscape => "Unescaped '\\' in a string"
  | unclosed => "Unterminated string"
  | overwritten key => "Cannot overwrite a value (" ++ keyText key ++ ")"
  | redeclared key => "Cannot declare " ++ keyText key ++ " twice"

/-- Spaces within a line. -/
def isSpace (c : Char) : Bool := c == ' ' || c == '\t'

def skipSpaces (cs : List Char) : List Char := cs.dropWhile isSpace

/-- Controls that may stand in no string and no comment. -/
def isControl (c : Char) : Bool := (c.toNat < 0x20 && c != '\t') || c.toNat == 0x7F

def escaped? : Char → Option Char
  | 'b' => some '\x08'
  | 't' => some '\t'
  | 'n' => some '\n'
  | 'f' => some '\x0c'
  | 'r' => some '\r'
  | '"' => some '"'
  | '\\' => some '\\'
  | _ => none

def escapeWidth? : Char → Option Nat
  | 'u' => some 4
  | 'U' => some 8
  | _ => none

/-- The character that digits name; surrogates are none. -/
def namedChar? (digits : List Char) (width : Nat) : Option Char := do
  if digits.length < width then none
  else
    let values ← digits.mapM Json.hexDigit?
    let n := values.foldl (fun n d => n * 16 + d) 0
    if n < 0xD800 || (0xDFFF < n && n ≤ 0x10FFFF) then some (Char.ofNat n) else none

/-- What ends a string: one quote or three. Up to two more quotes before three belong to the
string. -/
def closing? (quote : Char) (lines : Bool) (cs : List Char) : Option (List Char × List Char) :=
  if lines then
    let run := cs.takeWhile (· == quote)
    if 3 ≤ run.length then
      let extra := min (run.length - 3) 2
      some (List.replicate extra quote, cs.drop (extra + 3))
    else none
  else match cs with
    | c :: rest => if c == quote then some ([], rest) else none
    | [] => none

/-- The characters of a string up to its end; `read` is what has been read, last first. Each step
takes a character, so that the length is enough fuel. -/
def readChars (quote : Char) (lines : Bool) :
    Nat → List Char → List Char → Except Fault (String × List Char)
  | 0, _, _ => .error .unclosed
  | fuel + 1, read, cs =>
    match closing? quote lines cs with
    | some (extra, rest) => .ok (String.ofList (read.reverse ++ extra), rest)
    | none =>
      match cs with
      | [] => .error .unclosed
      | '\\' :: rest =>
        if quote == '\'' then readChars quote lines fuel ('\\' :: read) rest
        else
          let behind := skipSpaces rest
          if lines && behind.head? == some '\n' then
            readChars quote lines fuel read (behind.dropWhile fun c => isSpace c || c == '\n')
          else match rest with
            | [] => .error .unclosed
            | letter :: more =>
              match escaped? letter, escapeWidth? letter with
              | some c, _ => readChars quote lines fuel (c :: read) more
              | none, some width =>
                match namedChar? (more.take width) width with
                | some c => readChars quote lines fuel (c :: read) (more.drop width)
                | none => .error .badEscape
              | none, none => .error .badEscape
      | c :: rest =>
        if isControl c && !(lines && c == '\n') then .error .badValue
        else readChars quote lines fuel (c :: read) rest

/-- A string on one line, behind its first quote. -/
def readLine (quote : Char) (cs : List Char) : Except Fault (String × List Char) :=
  readChars quote false (cs.length + 1) [] cs

/-- A string behind its first quote. A line end right behind three quotes is left out. -/
def readText (quote : Char) (cs : List Char) : Except Fault (String × List Char) :=
  match cs with
  | a :: b :: rest =>
    if a == quote && b == quote then
      let inside := match rest with
        | '\n' :: more => more
        | _ => rest
      readChars quote true (inside.length + 1) [] inside
    else readLine quote cs
  | _ => readLine quote cs

end ApiTypings.Toml
