import ApiTypings.Json.Basic

/-! Writing JSON values on one line without spaces. -/

namespace ApiTypings.Json

/-- The lower-case hexadecimal digits of a number below 65536, four of them. -/
def hex4 (n : Nat) : String :=
  let digits := Nat.toDigits 16 n
  String.ofList (List.replicate (4 - digits.length) '0' ++ digits)

/-- A character inside a string: quotes, backslashes and controls are escaped. -/
def escapeChar (c : Char) : String :=
  if c == '"' then "\\\""
  else if c == '\\' then "\\\\"
  else if c.toNat < 0x20 || c.toNat == 0x7f then "\\u" ++ hex4 c.toNat
  else String.singleton c

def quote (s : String) : String :=
  s.foldl (fun out c => out ++ escapeChar c) "\"" ++ "\""

def printNumber : Number → String
  | .integer n => toString n
  | .decimal negative digits exponent =>
    (if negative then "-" else "") ++ toString digits ++ "e" ++ toString exponent
  | .infinity negative => if negative then "-Infinity" else "Infinity"
  | .notANumber => "NaN"

mutual

def print : Json → String
  | .null => "null"
  | .bool value => if value then "true" else "false"
  | .number value => printNumber value
  | .string value => quote value
  | .array items => "[" ++ printItems items ++ "]"
  | .object fields => "\x7b" ++ printFields fields ++ "\x7d"

def printItems : List Json → String
  | [] => ""
  | [item] => print item
  | item :: rest => print item ++ "," ++ printItems rest

def printFields : List (String × Json) → String
  | [] => ""
  | [(name, value)] => quote name ++ ":" ++ print value
  | (name, value) :: rest => quote name ++ ":" ++ print value ++ "," ++ printFields rest

end

end ApiTypings.Json
