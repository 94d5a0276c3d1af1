import ApiTypings.Text.DecimalDigit

/-! Version labels such as `v1`, `v1.2beta3` or `vm_beta`. What stands before the first `v` plays
no part. A package version keeps everything after it; a header shows the major and minor number. -/

namespace ApiTypings.Version

open Text

/-- What follows the first `v`, if there is one. -/
def afterMarker? : List Char → Option (List Char)
  | [] => none
  | c :: rest => if c == 'v' then some rest else afterMarker? rest

/-- The longest run of decimal digits at the front, and what follows it. -/
def splitDigits (cs : List Char) : List Char × List Char :=
  (cs.takeWhile isDecimalDigit, cs.dropWhile isDecimalDigit)

/-- A point with at least one digit behind it, as those digits and what follows them. -/
def splitMinor? : List Char → Option (List Char × List Char)
  | '.' :: rest =>
    match splitDigits rest with
    | ([], _) => none
    | split => some split
  | _ => none

/-- The digits, or a zero where there are none. -/
def orZero (digits : List Char) : List Char := if digits.isEmpty then ['0'] else digits

/-- The version a package is published under: the major number, then the minor number if there is
one, then what is left of the line after a hyphen. No `v`, no package version. -/
def package? (label : String) : Option String :=
  (afterMarker? label.toList).map fun rest =>
    let (major, afterMajor) := splitDigits rest
    let (minor, afterMinor) := match splitMinor? afterMajor with
      | some (digits, after) => ('.' :: digits, after)
      | none => ([], afterMajor)
    let patch := afterMinor.takeWhile (· != '\n')
    let suffix := if patch.isEmpty then [] else '-' :: patch
    String.ofList (orZero major ++ minor ++ suffix)

/-- The major and minor number shown in a header, `0.0` for a label without `v`. -/
def display (label : String) : String :=
  match afterMarker? label.toList with
  | none => "0.0"
  | some rest =>
    let major := rest.takeWhile isDecimalDigit
    let minor := match rest.dropWhile isDecimalDigit with
      | '.' :: after => after.takeWhile isDecimalDigit
      | _ => []
    String.ofList (orZero major ++ '.' :: orZero minor)

end ApiTypings.Version
