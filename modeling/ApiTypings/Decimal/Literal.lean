import ApiTypings.Json.Reader
import ApiTypings.Text.Blank

/-! Decimal numbers as people write them in a setting: an optional sign, digits with a point
anywhere among them, an exponent, or a word for what is no finite number. -/

namespace ApiTypings.Decimal

/-- The white space that may stand around a number: blanks, but not the separators U+001C to
U+001F. -/
def isSpace (c : Char) : Bool := Text.isBlank c && !(0x1C ≤ c.toNat && c.toNat ≤ 0x1F)

/-- A sign before a number: is it negative, and what follows. -/
def splitSign : List Char → Bool × List Char
  | '-' :: rest => (true, rest)
  | '+' :: rest => (false, rest)
  | cs => (false, cs)

/-- Words for numbers that no digits can write, compared without regard to case. -/
def word? (negative : Bool) (cs : List Char) : Option Number :=
  match (String.ofList cs).toLower with
  | "inf" | "infinity" => some (.infinity negative)
  | "nan" => some .notANumber
  | _ => none

/-- The exponent that ends a number; no exponent is zero. -/
def exponent? : List Char → Option Int
  | [] => some 0
  | mark :: rest =>
    let (negative, digits) := splitSign rest
    if (mark == 'e' || mark == 'E') && !digits.isEmpty && digits.all Char.isDigit then
      let value : Int := Json.natOfDigits digits
      some (if negative then -value else value)
    else none

/-- Digits before or behind a point, or on both sides of it, and an exponent. -/
def digits? (negative : Bool) (cs : List Char) : Option Number :=
  let whole := cs.takeWhile Char.isDigit
  let (fraction, rest) := match cs.drop whole.length with
    | '.' :: more => (more.takeWhile Char.isDigit, more.dropWhile Char.isDigit)
    | more => ([], more)
  if whole.isEmpty && fraction.isEmpty then none
  else (exponent? rest).map fun e =>
    .decimal negative (Json.natOfDigits (whole ++ fraction)) (e - fraction.length)

def literal? (cs : List Char) : Option Number :=
  let (negative, rest) := splitSign cs
  (word? negative rest).or (digits? negative rest)

/-- Does an underscore follow another one somewhere? -/
def hasDoubleUnderscore : List Char → Bool
  | '_' :: '_' :: _ => true
  | _ :: rest => hasDoubleUnderscore rest
  | [] => false

/-- The text without the underscores between its characters. One at an end or next to another
separates nothing. -/
def dropUnderscores? (cs : List Char) : Option (List Char) :=
  if cs.head? == some '_' || cs.getLast? == some '_' || hasDoubleUnderscore cs then none
  else if !cs.contains '_' then none
  else some (cs.filter (· != '_'))

/-- A number between spaces, or one with underscores among its characters and no spaces. -/
def ofText? (text : String) : Option Number :=
  let cs := text.toList
  (literal? (Text.trimWhile isSpace cs)).or ((dropUnderscores? cs).bind literal?)

end ApiTypings.Decimal
