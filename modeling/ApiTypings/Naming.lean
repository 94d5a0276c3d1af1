import ApiTypings.Text.Case

/-! Names that appear in the generated text. -/

namespace ApiTypings.Naming

open Text

/-- The first character in upper case, the rest as it is. -/
def capitalize (name : String) : String :=
  match name.toList with
  | [] => ""
  | c :: rest => String.ofList (upper c ++ rest)

/-- Is the name written between quotes as a member? Only a point, a hyphen or an at sign asks
for it. -/
def needsQuotes (name : String) : Bool := name.toList.any fun c => c == '.' || c == '-' || c == '@'

/-- A property name as the name of a member. What stands between the quotes is not escaped. -/
def memberName (name : String) : String :=
  if needsQuotes name then "\"" ++ name ++ "\"" else name

/-- The interface of the resource with this name. -/
def resourceInterface (name : String) : String := capitalize name ++ "Resource"

/-- What follows the last point of a method id. -/
def lastSegment (id : String) : String :=
  String.ofList ((id.toList.reverse.takeWhile (· != '.')).reverse)

/-- The package that holds the typings of an API. -/
def packageName (api : String) : String := "gapi.client." ++ api

end ApiTypings.Naming
