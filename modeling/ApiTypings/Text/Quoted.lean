import ApiTypings.Text.HiddenTable

/-! A text between quotes, as messages show a path: nothing in it is mistaken for the end of the
quotation, and every character can be seen. -/

namespace ApiTypings.Text

/-- A lower-case hexadecimal numeral of exactly `width` digits. -/
def hexDigits : Nat → Nat → List Char
  | 0, _ => []
  | width + 1, n => hexDigits width (n / 16) ++ [Nat.digitChar (n % 16)]

/-- A hidden character is shown by its code point, in the shortest of three widths. -/
def escapeHidden (n : Nat) : List Char :=
  if n < 0x100 then '\\' :: 'x' :: hexDigits 2 n
  else if n < 0x10000 then '\\' :: 'u' :: hexDigits 4 n
  else '\\' :: 'U' :: hexDigits 8 n

def escapeWithin (quote : Char) (c : Char) : List Char :=
  if c == quote || c == '\\' then ['\\', c]
  else if c == '\n' then ['\\', 'n']
  else if c == '\r' then ['\\', 'r']
  else if c == '\t' then ['\\', 't']
  else if isHidden c then escapeHidden c.toNat
  else [c]

/-- Apostrophes stand around the text, unless it holds an apostrophe and no double quote. -/
def quoteMark (cs : List Char) : Char := if cs.contains '\'' && !cs.contains '"' then '"' else '\''

def quoted (s : String) : String :=
  let cs := s.toList
  let mark := quoteMark cs
  String.ofList (mark :: cs.flatMap (escapeWithin mark) ++ [mark])

end ApiTypings.Text
