import ApiTypings.Proofs.TypeGrammar

/-! # Reading values

The text of an example value, read by the grammar of JavaScript expressions as far as such values
go: `undefined`, truth values, decimal integers, strings between double quotes, arrays and objects.
A comma may stand behind the last element of an array and behind the last member of an object. A
text that uses anything else, such as an escape in a string, is not read. -/

namespace ApiTypings

/-- A value as its text says it. -/
inductive ValueTerm where
  | undefined
  | number (n : Nat)
  | boolean (b : Bool)
  | string (s : String)
  | array (items : List ValueTerm)
  /-- Members in the order of the text. -/
  | object (members : List (String × ValueTerm))
deriving Repr

namespace ValueTerm

/-! ## Words and strings -/

/-- Without the white space in front. -/
def skip (cs : List Char) : List Char := cs.dropWhile TypeToken.isSpace

/-- What follows the sign, if it comes next. -/
def after? (sign : Char) (cs : List Char) : Option (List Char) :=
  match skip cs with
  | c :: rest => if c = sign then some rest else none
  | [] => none

/-- Does the character stand for itself in a string? The line and paragraph separators do. -/
def isStringChar (c : Char) : Bool := !(c == '"' || c == '\\' || c == '\n' || c == '\r')

/-- The characters up to the quote that ends the string. -/
def readString (cs : List Char) : Option (String × List Char) :=
  match cs.dropWhile isStringChar with
  | '"' :: rest => some (String.ofList (cs.takeWhile isStringChar), rest)
  | _ => none

/-- The number of a decimal numeral, which has no zero in front. -/
def numeral? (word : String) : Option Nat :=
  match word.toList with
  | [] => none
  | c :: rest =>
    if (c :: rest).all Char.isDigit && (c != '0' || rest.isEmpty) then
      some (Nat.ofDigitChars 10 (c :: rest) 0)
    else none

/-- The value of a word, which is all that stands up to the next sign or space. -/
def ofWord? (word : String) : Option ValueTerm :=
  if word == "undefined" then some undefined
  else if word == "true" then some (boolean true)
  else if word == "false" then some (boolean false)
  else (numeral? word).map number

/-! ## Grammar -/

/-- The name of a property, which is an identifier or a string. -/
def readKey (cs : List Char) : Option (String × List Char) :=
  match skip cs with
  | '"' :: rest => readString rest
  | rest =>
    let word := String.ofList (rest.takeWhile isNameChar)
    if isIdentifier word then some (word, rest.dropWhile isNameChar) else none

/-- A property with its value. -/
def readMember (read : List Char → Option (ValueTerm × List Char)) (cs : List Char) :
    Option ((String × ValueTerm) × List Char) := do
  let (key, rest) ← readKey cs
  let rest ← after? ':' rest
  let (value, rest) ← read rest
  return ((key, value), rest)

/-- Elements up to the closing sign, with commas between them and perhaps one behind the last. -/
def readList {α : Type} (read : List Char → Option (α × List Char)) (closing : Char) :
    Nat → List Char → Option (List α × List Char)
  | 0, _ => none
  | fuel + 1, cs =>
    match after? closing cs with
    | some rest => some ([], rest)
    | none => do
      let (x, rest) ← read cs
      match after? ',' rest with
      | some rest => (readList read closing fuel rest).map fun (xs, rest) => (x :: xs, rest)
      | none => (after? closing rest).map fun rest => ([x], rest)

/-! A call is allowed so many calls inside each other. A list has a character for each element, and
two that are not part of any, so an allowance of one for each character is never used up. -/

def readValue : Nat → List Char → Option (ValueTerm × List Char)
  | 0, _ => none
  | fuel + 1, cs =>
    match skip cs with
    | '[' :: rest =>
      (readList (readValue fuel) ']' fuel rest).map fun (items, rest) => (array items, rest)
    | '\x7b' :: rest =>
      (readList (readMember (readValue fuel)) '\x7d' fuel rest).map fun (members, rest) =>
        (object members, rest)
    | '"' :: rest => (readString rest).map fun (s, rest) => (string s, rest)
    | rest =>
      (ofWord? (String.ofList (rest.takeWhile isNameChar))).map fun value =>
        (value, rest.dropWhile isNameChar)

/-- The value that a text says, if the whole text is a value. -/
def ofText? (text : String) : Option ValueTerm :=
  match readValue text.toList.length text.toList with
  | some (value, rest) => if (skip rest).isEmpty then some value else none
  | none => none

end ValueTerm

end ApiTypings
