import ApiTypings.Json.Basic

/-! Reading JSON text. A text that is no JSON is refused at a position, counted in characters from
the start; the position shown is that of the first thing that cannot stand where it does. Beside
standard JSON the words `NaN`, `Infinity` and `-Infinity` are numbers. -/

namespace ApiTypings.Json

/-- Why a text is refused. -/
inductive SyntaxCause where
  | expectingValue
  | expectingName
  | expectingColon
  | expectingComma
  | extraData
  | unterminatedString
  | controlCharacter
  | invalidEscape
  | invalidUnicodeEscape
  | byteOrderMark
deriving DecidableEq, Repr

structure SyntaxError where
  cause : SyntaxCause
  position : Nat
deriving DecidableEq, Repr

def SyntaxCause.message : SyntaxCause → String
  | expectingValue => "Expecting value"
  | expectingName => "Expecting property name enclosed in double quotes"
  | expectingColon => "Expecting ':' delimiter"
  | expectingComma => "Expecting ',' delimiter"
  | extraData => "Extra data"
  | unterminatedString => "Unterminated string starting at"
  | controlCharacter => "Invalid control character at"
  | invalidEscape => "Invalid \\escape"
  | invalidUnicodeEscape => "Invalid \\uXXXX escape"
  | byteOrderMark => "Unexpected UTF-8 BOM (decode using utf-8-sig)"

/-- The message with the line and column of the position: lines end at a line feed, and the first
line and column are 1. -/
def SyntaxError.message (e : SyntaxError) (text : List Char) : String :=
  let before := text.take e.position
  let line := before.count '\n' + 1
  let column := (before.reverse.takeWhile (· != '\n')).length + 1
  e.cause.message ++ ": line " ++ toString line ++ " column " ++ toString column ++
    " (char " ++ toString e.position ++ ")"

/-- What is still to be read, and its position in the text. -/
structure Cursor where
  rest : List Char
  position : Nat

def Cursor.fail {α : Type} (c : Cursor) (cause : SyntaxCause) : Except SyntaxError α :=
  .error ⟨cause, c.position⟩

/-- `n` characters further on. -/
def Cursor.advance (c : Cursor) (n : Nat) : Cursor := ⟨c.rest.drop n, c.position + n⟩

def isSpace (c : Char) : Bool := c == ' ' || c == '\t' || c == '\n' || c == '\r'

def Cursor.skipSpace (c : Cursor) : Cursor := c.advance (c.rest.takeWhile isSpace).length

/-! ## Strings -/

def hexDigit? (c : Char) : Option Nat :=
  if '0' ≤ c ∧ c ≤ '9' then some (c.toNat - '0'.toNat)
  else if 'a' ≤ c ∧ c ≤ 'f' then some (c.toNat - 'a'.toNat + 10)
  else if 'A' ≤ c ∧ c ≤ 'F' then some (c.toNat - 'A'.toNat + 10)
  else none

/-- The number four hexadecimal digits stand for. -/
def hex4? (a b c d : Char) : Option Nat := do
  return (← hexDigit? a) * 4096 + (← hexDigit? b) * 256 + (← hexDigit? c) * 16 + (← hexDigit? d)

/-- The character a letter stands for behind a backslash. -/
def escaped? : Char → Option Char
  | '"' => some '"'
  | '\\' => some '\\'
  | '/' => some '/'
  | 'b' => some '\x08'
  | 'f' => some '\x0c'
  | 'n' => some '\n'
  | 'r' => some '\r'
  | 't' => some '\t'
  | _ => none

def isHighSurrogate (n : Nat) : Bool := 0xD800 ≤ n && n ≤ 0xDBFF

def isLowSurrogate (n : Nat) : Bool := 0xDC00 ≤ n && n ≤ 0xDFFF

/-- A unit that is half of a pair has no character of its own and becomes U+FFFD. -/
def charOfUnit (n : Nat) : Char :=
  if isHighSurrogate n || isLowSurrogate n then '\ufffd' else Char.ofNat n

def charOfPair (high low : Nat) : Char :=
  Char.ofNat (0x10000 + (high - 0xD800) * 0x400 + (low - 0xDC00))

/-- The characters of a string up to its closing quote. `opening` is the position of the opening
quote, `read` what has been read, last first. -/
def readString (opening : Nat) (read : List Char) :
    List Char → Nat → Except SyntaxError (String × Cursor)
  | [], _ => .error ⟨.unterminatedString, opening⟩
  | '"' :: rest, position => .ok (String.ofList read.reverse, ⟨rest, position + 1⟩)
  | ['\\'], _ => .error ⟨.unterminatedString, opening⟩
  | '\\' :: 'u' :: rest, position =>
    match rest with
    | a :: b :: c :: d :: next :: tail =>
      match hex4? a b c d with
      | none => .error ⟨.invalidUnicodeEscape, position + 1⟩
      | some unit =>
        match next, tail with
        | '\\', 'u' :: e :: f :: g :: h :: last :: tail' =>
          if isHighSurrogate unit then
            match hex4? e f g h with
            | none => .error ⟨.invalidUnicodeEscape, position + 7⟩
            | some low =>
              if isLowSurrogate low then
                readString opening (charOfPair unit low :: read) (last :: tail') (position + 12)
              else
                readString opening (charOfUnit unit :: read)
                  ('\\' :: 'u' :: e :: f :: g :: h :: last :: tail') (position + 6)
          else
            readString opening (charOfUnit unit :: read)
              ('\\' :: 'u' :: e :: f :: g :: h :: last :: tail') (position + 6)
        | next, tail => readString opening (charOfUnit unit :: read) (next :: tail) (position + 6)
    | _ => .error ⟨.invalidUnicodeEscape, position + 1⟩
  | '\\' :: letter :: rest, position =>
    match escaped? letter with
    | some c => readString opening (c :: read) rest (position + 2)
    | none => .error ⟨.invalidEscape, position⟩
  | c :: rest, position =>
    if c.toNat < 0x20 then .error ⟨.controlCharacter, position⟩
    else readString opening (c :: read) rest (position + 1)
termination_by text => text.length

/-! ## Numbers -/

def natOfDigits (digits : List Char) : Nat :=
  digits.foldl (fun n c => n * 10 + (c.toNat - '0'.toNat)) 0

/-- The digits of the integral part: one zero, or a run that starts with another digit. -/
def integralDigits (cs : List Char) : List Char :=
  match cs with
  | '0' :: _ => ['0']
  | _ => cs.takeWhile Char.isDigit

/-- The digits behind a point that has at least one. -/
def fractionDigits : List Char → List Char
  | '.' :: rest => rest.takeWhile Char.isDigit
  | _ => []

/-- An exponent as its length and its value: a mark, perhaps a sign, and at least one digit. -/
def exponent? : List Char → Option (Nat × Int)
  | mark :: rest =>
    if mark == 'e' || mark == 'E' then
      let (signLength, negative, digits) := match rest with
        | '-' :: rest' => (1, true, rest'.takeWhile Char.isDigit)
        | '+' :: rest' => (1, false, rest'.takeWhile Char.isDigit)
        | _ => (0, false, rest.takeWhile Char.isDigit)
      if digits.isEmpty then none
      else
        let value : Int := natOfDigits digits
        some (1 + signLength + digits.length, if negative then -value else value)
    else none
  | [] => none

/-- A number behind its sign, if one starts here. A point without digits and an exponent without
digits are not part of it. -/
def readUnsigned? (negative : Bool) (c : Cursor) : Option (Number × Cursor) :=
  let whole := integralDigits c.rest
  if whole.isEmpty then none
  else
    let afterWhole := c.advance whole.length
    let fraction := fractionDigits afterWhole.rest
    let afterFraction :=
      if fraction.isEmpty then afterWhole else afterWhole.advance (fraction.length + 1)
    match exponent? afterFraction.rest with
    | some (length, exponent) =>
      some (.decimal negative (natOfDigits (whole ++ fraction)) (exponent - fraction.length),
        afterFraction.advance length)
    | none =>
      if fraction.isEmpty then
        let value : Int := natOfDigits whole
        some (.integer (if negative then -value else value), afterWhole)
      else
        some (.decimal negative (natOfDigits (whole ++ fraction)) (-fraction.length), afterFraction)

/-! ## Values -/

/-- The words that are values. -/
def words : List (String × Json) :=
  [("null", .null), ("true", .bool true), ("false", .bool false), ("NaN", .number .notANumber),
   ("Infinity", .number (.infinity false)), ("-Infinity", .number (.infinity true))]

def readWord? (c : Cursor) : Option (Json × Cursor) :=
  words.findSome? fun (word, value) =>
    if word.toList.isPrefixOf c.rest then some (value, c.advance word.length) else none

def readNumber? (c : Cursor) : Option (Json × Cursor) :=
  let signed := match c.rest with
    | '-' :: _ => readUnsigned? true (c.advance 1)
    | _ => readUnsigned? false c
  signed.map fun (n, after) => (.number n, after)

mutual

/-- The value that starts at the cursor. `fuel` bounds the nesting still allowed. -/
def readValue : Nat → Cursor → Except SyntaxError (Json × Cursor)
  | 0, c => c.fail .expectingValue
  | fuel + 1, c =>
    match c.rest with
    | '"' :: rest => do
      let (s, after) ← readString c.position [] rest (c.position + 1)
      return (.string s, after)
    | '{' :: _ =>
      let inside := (c.advance 1).skipSpace
      match inside.rest with
      | '}' :: _ => .ok (.object [], inside.advance 1)
      | _ => readMembers fuel [] inside
    | '[' :: _ =>
      let inside := (c.advance 1).skipSpace
      match inside.rest with
      | ']' :: _ => .ok (.array [], inside.advance 1)
      | _ => readItems fuel [] inside
    | _ =>
      match readWord? c with
      | some found => .ok found
      | none =>
        match readNumber? c with
        | some found => .ok found
        | none => c.fail .expectingValue

/-- Members up to the closing brace; `read` holds those before, last first. A repeated name keeps
its first place and its last value. -/
def readMembers : Nat → List (String × Json) → Cursor → Except SyntaxError (Json × Cursor)
  | 0, _, c => c.fail .expectingName
  | fuel + 1, read, c =>
    match c.rest with
    | '"' :: rest => do
      let (name, afterName) ← readString c.position [] rest (c.position + 1)
      let colon := afterName.skipSpace
      match colon.rest with
      | ':' :: _ =>
        let (value, afterValue) ← readValue fuel (colon.advance 1).skipSpace
        let mark := afterValue.skipSpace
        match mark.rest with
        | '}' :: _ =>
          return (.object (Entries.ofList ((name, value) :: read).reverse), mark.advance 1)
        | ',' :: _ => readMembers fuel ((name, value) :: read) (mark.advance 1).skipSpace
        | _ => mark.fail .expectingComma
      | _ => colon.fail .expectingColon
    | _ => c.fail .expectingName

/-- Items up to the closing bracket; `read` holds those before, last first. -/
def readItems : Nat → List Json → Cursor → Except SyntaxError (Json × Cursor)
  | 0, _, c => c.fail .expectingValue
  | fuel + 1, read, c => do
    let (value, afterValue) ← readValue fuel c
    let mark := afterValue.skipSpace
    match mark.rest with
    | ']' :: _ => return (.array (value :: read).reverse, mark.advance 1)
    | ',' :: _ => readItems fuel (value :: read) (mark.advance 1).skipSpace
    | _ => mark.fail .expectingComma

end

/-- The JSON value a text stands for. Every nested value is at least one character shorter than
what holds it, and a bracket and its first item take two steps, so twice the length is enough. -/
def parse (text : List Char) : Except SyntaxError Json :=
  match text with
  | '\ufeff' :: _ => .error ⟨.byteOrderMark, 0⟩
  | _ => do
    let start : Cursor := ⟨text, 0⟩
    let (value, after) ← readValue (2 * text.length + 2) start.skipSpace
    let finish := after.skipSpace
    if finish.rest.isEmpty then return value else finish.fail .extraData

end ApiTypings.Json
