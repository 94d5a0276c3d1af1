import ApiTypings.Decimal.Literal
import ApiTypings.Toml.Text

/-! The values of TOML: strings, numbers, booleans, lists and tables in braces. Dates and times are
refused. -/

namespace ApiTypings.Toml

/-! ## Keys -/

def isBareChar (c : Char) : Bool := c.isAlphanum || c == '-' || c == '_'

/-- One part of a key. -/
def readKeyPart (cs : List Char) : Except Fault (String × List Char) :=
  match cs with
  | '"' :: rest => readLine '"' rest
  | '\'' :: rest => readLine '\'' rest
  | _ =>
    let bare := cs.takeWhile isBareChar
    if bare.isEmpty then .error .badKey else .ok (String.ofList bare, cs.drop bare.length)

/-- The parts of a key, with points between them. -/
def readKey : Nat → List Char → Except Fault (List String × List Char)
  | 0, _ => .error .badKey
  | fuel + 1, cs => do
    let (part, rest) ← readKeyPart cs
    match skipSpaces rest with
    | '.' :: more =>
      let (parts, after) ← readKey fuel (skipSpaces more)
      return (part :: parts, after)
    | after => return ([part], after)

/-! ## Tables being filled -/

/-- The table in which a path ends, changed by `f`. Tables that are missing on the way are made;
where the way leads through a list of tables it takes the last one. -/
def within (f : List (String × Json) → Except Fault (List (String × Json)))
    (whole : List String) : List String → Json → Except Fault Json
  | [], .object fields => return .object (← f fields)
  | name :: rest, .object fields => do
    let below ← within f whole rest ((fields.lookup name).getD (.object []))
    return .object (Entries.set name below fields)
  | path, .array items =>
    match items.getLast? with
    | some (.object fields) => do
      let last ← match path with
        | [] => do pure (Json.object (← f fields))
        | name :: rest => do
          let below ← within f whole rest ((fields.lookup name).getD (.object []))
          pure (.object (Entries.set name below fields))
      return .array (items.dropLast ++ [last])
    | _ => .error (.overwritten whole)
  | _, _ => .error (.overwritten whole)

/-- A new entry of a table; no entry is replaced. -/
def addEntry (whole : List String) (name : String) (value : Json) (fields : List (String × Json)) :
    Except Fault (List (String × Json)) :=
  if (fields.lookup name).isSome then .error (.overwritten whole)
  else .ok (fields ++ [(name, value)])

/-- A value at the end of a path. -/
def addValue (key : List String) (value : Json) (table : Json) : Except Fault Json :=
  match key.getLast? with
  | some name => within (addEntry key name value) key key.dropLast table
  | none => .error .badKey

/-- Does a path lead to or below one of these? -/
def isBelow (closed : List (List String)) (path : List String) : Bool :=
  closed.any fun c => c.isPrefixOf path

def isCompound : Json → Bool
  | .array _ | .object _ => true
  | _ => false

/-! ## Numbers -/

/-- Digits with single underscores between them, from the start of the text. -/
def takeDigits (isDigit : Char → Bool) : List Char → List Char
  | c :: '_' :: d :: rest =>
    if isDigit c then
      if isDigit d then c :: '_' :: takeDigits isDigit (d :: rest) else [c]
    else []
  | c :: rest => if isDigit c then c :: takeDigits isDigit rest else []
  | [] => []

/-- The number that digits of a base stand for. -/
def natOfBase (base : Nat) (cs : List Char) : Nat :=
  (cs.filter (· != '_')).foldl (fun n c => n * base + (Json.hexDigit? c).getD 0) 0

def basedNumber? (cs : List Char) : Option (Number × List Char) :=
  let read := fun (base : Nat) (isDigit : Char → Bool) (rest : List Char) =>
    let digits := takeDigits isDigit rest
    if digits.isEmpty then none
    else some (Number.integer (natOfBase base digits), rest.drop digits.length)
  match cs with
  | '0' :: 'x' :: rest => read 16 (fun c => (Json.hexDigit? c).isSome) rest
  | '0' :: 'o' :: rest => read 8 (fun c => '0' ≤ c && c ≤ '7') rest
  | '0' :: 'b' :: rest => read 2 (fun c => c == '0' || c == '1') rest
  | _ => none

/-- The length of a fraction that starts here. -/
def fractionLength : List Char → Nat
  | '.' :: rest =>
    let digits := takeDigits Char.isDigit rest
    if digits.isEmpty then 0 else digits.length + 1
  | _ => 0

/-- The length of an exponent that starts here. -/
def exponentLength : List Char → Nat
  | mark :: rest =>
    if mark == 'e' || mark == 'E' then
      let behind := (Decimal.splitSign rest).2
      let digits := takeDigits Char.isDigit behind
      if digits.isEmpty then 0 else 1 + (rest.length - behind.length) + digits.length
    else 0
  | [] => 0

def decimalNumber? (cs : List Char) : Option (Number × List Char) :=
  let behind := (Decimal.splitSign cs).2
  let whole := match behind with
    | '0' :: _ => ['0']
    | _ => takeDigits Char.isDigit behind
  if whole.isEmpty || whole.head? == some '_' then none
  else
    let afterWhole := behind.drop whole.length
    let fraction := fractionLength afterWhole
    let exponent := exponentLength (afterWhole.drop fraction)
    let rest := afterWhole.drop (fraction + exponent)
    let written := (cs.take (cs.length - rest.length)).filter (· != '_')
    if fraction + exponent == 0 then
      let value : Int := natOfBase 10 whole
      some (.integer (if cs.head? == some '-' then -value else value), rest)
    else (Decimal.literal? written).map fun n => (n, rest)

/-- The words for values that no digits write. -/
def words : List (String × Json) :=
  [("true", .bool true), ("false", .bool false), ("inf", .number (.infinity false)),
   ("+inf", .number (.infinity false)), ("-inf", .number (.infinity true)),
   ("nan", .number .notANumber), ("+nan", .number .notANumber), ("-nan", .number .notANumber)]

def readWord? (cs : List Char) : Option (Json × List Char) :=
  words.findSome? fun (word, value) =>
    if word.toList.isPrefixOf cs then some (value, cs.drop word.length) else none

/-! ## Values -/

/-- A comment up to the end of its line. -/
def skipComment (cs : List Char) : Except Fault (List Char) :=
  match cs with
  | '#' :: rest =>
    let comment := rest.takeWhile (· != '\n')
    if comment.any isControl then .error .badStatement else .ok (rest.drop comment.length)
  | _ => .ok cs

/-- Spaces, line ends and comments between the items of a list. -/
def skipLines : Nat → List Char → Except Fault (List Char)
  | 0, cs => .ok cs
  | fuel + 1, cs => do
    let after ← skipComment (cs.dropWhile fun c => isSpace c || c == '\n')
    if after.length == cs.length then return cs else skipLines fuel after

mutual

def readValue : Nat → List Char → Except Fault (Json × List Char)
  | 0, _ => .error .badValue
  | fuel + 1, cs =>
    match cs with
    | '"' :: rest => do
      let (s, after) ← readText '"' rest
      return (.string s, after)
    | '\'' :: rest => do
      let (s, after) ← readText '\'' rest
      return (.string s, after)
    | '[' :: rest => do readItems fuel [] (← skipLines rest.length rest)
    | '\x7b' :: rest =>
      match skipSpaces rest with
      | '\x7d' :: after => .ok (.object [], after)
      | inside => readPairs fuel (.object []) [] inside
    | _ =>
      match readWord? cs, (basedNumber? cs).or (decimalNumber? cs) with
      | some found, _ => .ok found
      | none, some (n, after) => .ok (.number n, after)
      | none, none => .error .badValue

/-- Items up to the closing bracket; a comma may stand behind the last one. -/
def readItems : Nat → List Json → List Char → Except Fault (Json × List Char)
  | 0, _, _ => .error .badValue
  | _, read, ']' :: after => .ok (.array read.reverse, after)
  | fuel + 1, read, cs => do
    let (item, rest) ← readValue fuel cs
    match ← skipLines rest.length rest with
    | ',' :: more => readItems fuel (item :: read) (← skipLines more.length more)
    | ']' :: after => return (.array (item :: read).reverse, after)
    | _ => throw .badValue

/-- Entries up to the closing brace, all on one line. -/
def readPairs :
    Nat → Json → List (List String) → List Char → Except Fault (Json × List Char)
  | 0, _, _, _ => .error .badValue
  | fuel + 1, table, closed, cs => do
    let (key, afterKey) ← readKey (cs.length + 1) cs
    match afterKey with
    | '=' :: behind =>
      let (value, rest) ← readValue fuel (skipSpaces behind)
      if isBelow closed key then throw (.redeclared key)
      let filled ← addValue key value table
      match skipSpaces rest with
      | ',' :: more =>
        readPairs fuel filled (if isCompound value then key :: closed else closed) (skipSpaces more)
      | '\x7d' :: after => return (filled, after)
      | _ => throw .badValue
    | _ => throw .badKey

end

end ApiTypings.Toml
