import ApiTypings.Json.Checked

/-! The directory: a listing of the APIs there are, each with where its description is found. -/

namespace ApiTypings

/-- One version of one API in the listing. -/
structure DirectoryItem where
  kind : Option String
  id : Option String
  name : String
  version : String
  title : Option String
  description : Option String
  discoveryRestUrl : String
  documentationLink : Option String
  preferred : Bool
deriving Repr, DecidableEq

namespace DirectoryItem

def ofJson : Json → Checked DirectoryItem
  | .object fields =>
    DirectoryItem.mk
      <$> Json.optionalField "kind" Json.asString fields
      <*> Json.optionalField "id" Json.asString fields
      <*> Json.requiredField "name" Json.asString fields
      <*> Json.requiredField "version" Json.asString fields
      <*> Json.optionalField "title" Json.asString fields
      <*> Json.optionalField "description" Json.asString fields
      <*> Json.requiredField "discoveryRestUrl" Json.asString fields
      <*> Json.optionalField "documentationLink" Json.asString fields
      <*> Json.fieldOr "preferred" false Json.asBool fields
  | _ => .fault (.notRecord "DirectoryItem")

/-- The earliest item whose version no other item's version precedes. Versions compare as texts,
so `v10` precedes `v2`. -/
def lowest? : List DirectoryItem → Option DirectoryItem
  | [] => none
  | item :: rest =>
    match lowest? rest with
    | none => some item
    | some other => if other.version < item.version then some other else some item

/-- The place of the item that stands for an API among its versions: the first preferred one, or
else the earliest with the lowest version. Items are told apart by their place, since a listing may
hold the same item twice. -/
def selectedIndex? (items : List DirectoryItem) : Option Nat :=
  match items.findIdx? (·.preferred) with
  | some i => some i
  | none => (lowest? items).bind fun item => items.findIdx? (·.version == item.version)

/-- The version that stands for an API, unless there is none at all. -/
def select? (items : List DirectoryItem) : Option DirectoryItem :=
  (selectedIndex? items).bind fun i => items[i]?

end DirectoryItem

structure Directory where
  kind : Option String
  discoveryVersion : Option String
  items : List DirectoryItem
deriving Repr

def Directory.defaultKind : String := "discovery#directoryList"

def Directory.ofJson : Json → Checked Directory
  | .object fields =>
    Directory.mk
      <$> Json.fieldOr "kind" (some Directory.defaultKind) (Json.orNull Json.asString) fields
      <*> Json.optionalField "discoveryVersion" Json.asString fields
      <*> Json.fieldOr "items" [] (Json.asListOf DirectoryItem.ofJson) fields
  | _ => .fault (.notRecord "DirectoryList")

end ApiTypings
