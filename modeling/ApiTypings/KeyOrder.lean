/-! String-keyed maps are lists of entries in the order of their document. What is printed from
one is printed in key order: keys compare by code point. -/

namespace ApiTypings

/-- The entries of a map whose keys are strings, in the order they were written. -/
abbrev Entries (α : Type) := List (String × α)

namespace Entries

/-- Insertion before the first entry whose key is greater, so that equal keys keep their order. -/
def insertByKey {α : Type} (key : String) (value : α) : Entries α → Entries α
  | [] => [(key, value)]
  | (k, v) :: rest =>
    if k < key then (k, v) :: insertByKey key value rest else (key, value) :: (k, v) :: rest

/-- The entries in ascending order of their keys. -/
def sortByKey {α : Type} (entries : Entries α) : Entries α :=
  entries.foldr (fun e sorted => insertByKey e.1 e.2 sorted) []

/-- A present key takes the new value where it stands; a new key goes to the end. -/
def set {α : Type} (key : String) (value : α) : Entries α → Entries α
  | [] => [(key, value)]
  | (k, v) :: rest => if k == key then (k, value) :: rest else (k, v) :: set key value rest

/-- Later entries of one key replace the value and keep the position of the first. -/
def ofList {α : Type} (pairs : List (String × α)) : Entries α :=
  pairs.foldl (fun entries e => set e.1 e.2 entries) []

/-- `added` laid on `base`: its values win, its new keys follow. -/
def merge {α : Type} (base added : Entries α) : Entries α :=
  added.foldl (fun entries e => set e.1 e.2 entries) base

def keys {α : Type} (entries : Entries α) : List String := entries.map (·.1)

def mapValues {α β : Type} (f : α → β) (entries : Entries α) : Entries β :=
  entries.map fun e => (e.1, f e.2)

/-- The map that may be missing: a missing one has no entries. -/
def orEmpty {α : Type} (entries? : Option (Entries α)) : Entries α := entries?.getD []

end Entries

end ApiTypings
