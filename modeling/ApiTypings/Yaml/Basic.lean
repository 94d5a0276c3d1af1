import ApiTypings.Decimal.Shortest
import ApiTypings.Json.Basic
import ApiTypings.Json.Printer

/-! YAML values. Unlike JSON, a mapping may have keys of any kind. -/

namespace ApiTypings

inductive Yaml where
  | null
  | bool (value : Bool)
  | number (value : Number)
  | string (value : String)
  | list (items : List Yaml)
  | map (entries : List (Yaml × Yaml))
deriving Repr, Inhabited

namespace Yaml

/-- Zero and whatever is empty, null or false. -/
def isEmpty : Yaml → Bool
  | null => true
  | bool b => !b
  | number (.integer n) => n == 0
  | number (.decimal _ digits _) => digits == 0
  | number _ => false
  | string s => s.isEmpty
  | list items => items.isEmpty
  | map entries => entries.isEmpty

/-- The key of a JSON object that stands for a key. -/
def keyText : Yaml → String
  | string s => s
  | null => "null"
  | bool b => if b then "true" else "false"
  | number (.integer n) => toString n
  | number n => Decimal.text n.toFloat
  | list _ | map _ => ""

def isText : Yaml → Bool
  | string _ => true
  | _ => false

mutual

/-- The value in JSON. -/
def toJson : Yaml → Json
  | null => .null
  | bool b => .bool b
  | number n => .number n
  | string s => .string s
  | list items => .array (itemsToJson items)
  | map entries => .object (Entries.ofList (entriesToJson entries))

def itemsToJson : List Yaml → List Json
  | [] => []
  | item :: rest => item.toJson :: itemsToJson rest

def entriesToJson : List (Yaml × Yaml) → List (String × Json)
  | [] => []
  | (key, value) :: rest => (key.keyText, value.toJson) :: entriesToJson rest

end

/-- Are all keys of the mapping texts? -/
def hasTextKeys (entries : List (Yaml × Yaml)) : Bool :=
  entries.all fun (key, _) => key.isText

end Yaml

end ApiTypings
