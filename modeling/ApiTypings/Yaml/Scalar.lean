import ApiTypings.Decimal.Literal
import ApiTypings.Text.Split
import ApiTypings.Yaml.Basic

/-! Plain scalars: what a text without quotes stands for. A text that is no null, boolean or number
is a string, also where the language has dates and times. -/

namespace ApiTypings.Yaml

def nullWords : List String := ["", "~", "null", "Null", "NULL"]

def trueWords : List String := ["yes", "Yes", "YES", "true", "True", "TRUE", "on", "On", "ON"]

def falseWords : List String := ["no", "No", "NO", "false", "False", "FALSE", "off", "Off", "OFF"]

def infinityWords : List String := [".inf", ".Inf", ".INF"]

def nanWords : List String := [".nan", ".NaN", ".NAN"]

def withoutUnderscores (cs : List Char) : List Char := cs.filter (· != '_')

/-- The number that digits of a base stand for. -/
def natOfBase (base : Nat) (cs : List Char) : Nat :=
  cs.foldl (fun n c => n * base + (Json.hexDigit? c).getD 0) 0

/-- A run of digits of a base, with underscores among them. -/
def isRun (isDigit : Char → Bool) (cs : List Char) : Bool :=
  cs.any isDigit && cs.all fun c => isDigit c || c == '_'

/-- A run as a number. -/
def naturalOfBase? (base : Nat) (isDigit : Char → Bool) (cs : List Char) : Option Nat :=
  if isRun isDigit cs then some (natOfBase base (withoutUnderscores cs)) else none

def isBinaryDigit (c : Char) : Bool := c == '0' || c == '1'

def isOctalDigit (c : Char) : Bool := '0' ≤ c && c ≤ '7'

/-- One of the parts behind a colon in a number of base sixty. -/
def isSixtieth : List Char → Bool
  | [a] => a.isDigit
  | [a, b] => '0' ≤ a && a ≤ '5' && b.isDigit
  | _ => false

/-- Parts of base sixty as one number. -/
def natOfSixtieths (parts : List (List Char)) : Nat :=
  parts.foldl (fun n part => n * 60 + Json.natOfDigits part) 0

/-- A number without its sign: of base two, eight or sixteen by its first characters, of base sixty
if it holds colons, of base ten otherwise. -/
def natural? (cs : List Char) : Option Nat :=
  match cs with
  | ['0'] => some 0
  | '0' :: 'b' :: rest => naturalOfBase? 2 isBinaryDigit rest
  | '0' :: 'x' :: rest => naturalOfBase? 16 (fun c => (Json.hexDigit? c).isSome) rest
  | '0' :: rest => naturalOfBase? 8 isOctalDigit rest
  | _ =>
    match Text.split ':' cs with
    | first :: more =>
      if isRun Char.isDigit first && first.head? != some '_' && more.all isSixtieth then
        some (natOfSixtieths (withoutUnderscores first :: more))
      else none
    | [] => none

def integer? (cs : List Char) : Option Number :=
  let (negative, rest) := Decimal.splitSign cs
  (natural? rest).map fun (n : Nat) => .integer (if negative then -(n : Int) else n)

/-- An exponent with its sign, or none at all. -/
def isExponent : List Char → Bool
  | [] => true
  | mark :: sign :: digits =>
    (mark == 'e' || mark == 'E') && (sign == '-' || sign == '+') && !digits.isEmpty &&
      digits.all Char.isDigit
  | _ => false

/-- What a number with a point may look like behind its sign: a digit stands before the point, or
behind it if there is no sign. -/
def hasPointForm (signed : Bool) (cs : List Char) : Bool :=
  let isPart := fun (c : Char) => c.isDigit || c == '_'
  let whole := cs.takeWhile isPart
  match cs.drop whole.length with
  | '.' :: rest =>
    let fraction := rest.takeWhile isPart
    let starts := fun (run : List Char) => (run.head?.map Char.isDigit).getD false
    (starts whole || (whole.isEmpty && !signed && starts fraction)) &&
      isExponent (rest.drop fraction.length)
  | _ => false

/-- A number of base sixty with a point in its last part. -/
def sixtiethDecimal? (negative : Bool) (cs : List Char) : Option Number :=
  let parts := Text.split ':' cs
  match parts.getLast?, parts.head? with
  | some last, some first =>
    let whole := last.takeWhile Char.isDigit
    let fraction := last.drop whole.length
    let inner := (parts.drop 1).dropLast
    if 2 ≤ parts.length && isRun Char.isDigit first && first.head? != some '_' &&
        inner.all isSixtieth && isSixtieth whole && fraction.head? == some '.' &&
        (fraction.drop 1).all (fun c => c.isDigit || c == '_') then
      let behind := withoutUnderscores (fraction.drop 1)
      let units := natOfSixtieths (withoutUnderscores first :: inner ++ [whole])
      let digits := units * Nat.pow 10 behind.length + Json.natOfDigits behind
      some (.decimal negative digits (-behind.length))
    else none
  | _, _ => none

def decimal? (cs : List Char) : Option Number :=
  let (negative, rest) := Decimal.splitSign cs
  let signed := rest.length < cs.length
  if infinityWords.contains (String.ofList rest) then some (.infinity negative)
  else if nanWords.contains (String.ofList cs) then some .notANumber
  else if hasPointForm signed rest then Decimal.literal? (withoutUnderscores cs)
  else sixtiethDecimal? negative rest

def ofPlain (cs : List Char) : Yaml :=
  let text := String.ofList cs
  if nullWords.contains text then .null
  else if trueWords.contains text then .bool true
  else if falseWords.contains text then .bool false
  else match (integer? cs).or (decimal? cs) with
    | some n => .number n
    | none => .string text

end ApiTypings.Yaml
