import ApiTypings.Json.Reader
import ApiTypings.Text.Split

/-! Numeric host addresses, as they stand between brackets in a web address. -/

namespace ApiTypings.HostAddress

/-- One to four hexadecimal digits. -/
def isGroup (cs : List Char) : Bool :=
  !cs.isEmpty && cs.length ≤ 4 && cs.all fun c => (Json.hexDigit? c).isSome

/-- A number up to 255 without a leading zero. -/
def isOctet (cs : List Char) : Bool :=
  !cs.isEmpty && cs.length ≤ 3 && cs.all Char.isDigit && (cs.length == 1 || cs.head? != some '0') &&
    Json.natOfDigits cs ≤ 255

def isDotted (cs : List Char) : Bool :=
  let parts := Text.split '.' cs
  parts.length == 4 && parts.all isOctet

/-- The groups with a dotted last part written as two groups. -/
def expandDotted (parts : List (List Char)) : Option (List (List Char)) :=
  match parts.getLast? with
  | some last =>
    if last.contains '.' then
      if isDotted last then some (parts.dropLast ++ [['0'], ['0']]) else none
    else some parts
  | none => none

/-- Eight groups between colons. One double colon may stand for one or more groups of zeros. -/
def isGroups (parts : List (List Char)) : Bool :=
  let inner := (parts.drop 1).dropLast
  let groups := parts.filter fun p => !p.isEmpty
  let startsOpen := parts.head? == some []
  let endsOpen := parts.getLast? == some []
  let gaps := (inner.filter List.isEmpty).length
  groups.all isGroup && 3 ≤ parts.length && parts.length ≤ 9 &&
    if gaps == 0 then parts.length == 8 && !startsOpen && !endsOpen
    else gaps == 1 && groups.length ≤ 7 &&
      (!startsOpen || inner.head? == some []) && (!endsOpen || inner.getLast? == some [])

/-- A zone behind a percent sign is not empty and holds no second one. -/
def isZone (cs : List Char) : Bool := !cs.isEmpty && !cs.contains '%'

def isVersionSix (cs : List Char) : Bool :=
  let address := cs.takeWhile (· != '%')
  let zone := cs.dropWhile (· != '%')
  (zone.isEmpty || isZone (zone.drop 1)) &&
    match expandDotted (Text.split ':' address) with
    | some parts => isGroups parts
    | none => false

/-- An address of a version to come: a mark, hexadecimal digits, a point and something more. -/
def isFuture (cs : List Char) : Bool :=
  let version := (cs.drop 1).takeWhile fun c => (Json.hexDigit? c).isSome
  let rest := cs.drop (1 + version.length)
  !version.isEmpty && rest.head? == some '.' && 2 ≤ rest.length

/-- What may stand between brackets. -/
def isBracketed (cs : List Char) : Bool :=
  if cs.head? == some 'v' then isFuture cs else isVersionSix cs

end ApiTypings.HostAddress
