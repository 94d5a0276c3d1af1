import ApiTypings.Proofs.SchemaReach
import ApiTypings.Stub.Value

/-! # Example values as trees

The generator writes a value while a guard keeps track of the open names. The same value is a tree
that a plain recursion computes from a schema and the names on the path to it, with no page and no
guard. What the generator writes is the code of that tree, and where the recursion meets a fault the
generator stops with the same fault. Either way the guard is left as it was found. -/

namespace ApiTypings.Stub

/-! ## Values -/

/-- What stands for a primitive. -/
inductive Literal where
  | number
  | boolean
  | string
  | emptyObject
deriving DecidableEq, Repr

namespace Literal

def text : Literal → String
  | number => "42"
  | boolean => "true"
  | string => "\"Test string\""
  | emptyObject => "\x7b\x7d"

/-- The literal for a primitive kind. -/
def ofKind? (kind : String) : Option Literal :=
  if kind == "number" || kind == "integer" || kind == "any" then some number
  else if kind == "boolean" then some boolean
  else if kind == "string" then some string
  else if kind == "object" then some emptyObject
  else none

theorem literal?_eq (kind : String) : literal? kind = (ofKind? kind).map text := by
  unfold literal? ofKind?
  repeat' split
  all_goals rfl

end Literal

/-- An example value. -/
inductive Value where
  | undefined
  | literal (value : Literal)
  /-- An array of one item. -/
  | array (item : Value)
  | object (members : List (String × Value))
  /-- A map of one entry. -/
  | entry (value : Value)
deriving Repr

namespace Value

variable {ε : Type}

mutual

def code : Value → Code ε
  | .undefined => .text "undefined"
  | .literal value => .text value.text
  | .array item => .scope (.beginNewLine "" ++ item.code) "[" "]"
  | .object members => .scope (membersCode members) "\x7b" "\x7d"
  | .entry value => .scope (.beginNewLine (mapKey ++ ": ") ++ value.code) "\x7b" "\x7d"

def membersCode : List (String × Value) → Code ε
  | [] => .nil
  | (name, value) :: rest =>
    .beginNewLine (Naming.memberName name ++ ": ") ++ (value.code ++ .text ",") ++ membersCode rest

end

end Value

/-! ## Expansion -/

/-- The value of a shape, where `expandRef` gives the values of references. -/
def expandShape (expandRef : String → Except RenderFault Value) :
    Except SchemaFault (Shape (Schema × Except RenderFault Value)) → Except RenderFault Value
  | .error fault => .error (.schema fault)
  | .ok (.reference name) => expandRef name
  | .ok (.array (_, item)) => item.map .array
  | .ok (.object properties _) =>
    (Entries.collect (Entries.sortByKey (properties.mapValues (·.2)))).map .object
  | .ok (.map (_, value)) => value.map .entry
  | .ok (.primitive kind _) =>
    match Literal.ofKind? kind with
    | some value => .ok (.literal value)
    | none => .error (.unknownType (some kind))

def expandSchema (expandRef : String → Except RenderFault Value) :
    Schema → Except RenderFault Value :=
  Schema.byShape fun _ shape => expandShape expandRef shape

/-- The value of the schema of a name: nothing for a name on the path, and otherwise the value of
the schema with the name on the path. -/
def expandReference (table : SchemaTable) (path : List String) (name : String) :
    Except RenderFault Value :=
  if _hn : name ∈ path then .ok .undefined
  else
    match _hs : table.lookup name with
    | none => .error (.schema (.undefined name))
    | some schema => expandSchema (expandReference table (name :: path)) schema
termination_by table.unopened path
decreasing_by exact SchemaTable.unopened_cons _hn _hs

/-- The value of a schema below the names of a path. -/
def expand (table : SchemaTable) (path : List String) (schema : Schema) :
    Except RenderFault Value :=
  expandSchema (expandReference table path) schema

/-! ### By shape -/

section
variable {table : SchemaTable} {path : List String} {schema : Schema}

theorem expandReference_of_mem {name : String} (h : name ∈ path) :
    expandReference table path name = .ok .undefined := by
  rw [expandReference, dif_pos h]

theorem expandReference_of_lookup {name : String} {target : Schema} (hn : name ∉ path)
    (hs : table.lookup name = some target) :
    expandReference table path name = expand table (name :: path) target := by
  rw [expandReference, dif_neg hn]
  split
  next h => rw [hs] at h; cases h
  next h => rw [hs] at h; cases h; rfl

theorem expandReference_of_undefined {name : String} (hn : name ∉ path)
    (hs : table.lookup name = none) :
    expandReference table path name = .error (.schema (.undefined name)) := by
  rw [expandReference, dif_neg hn]
  split
  next => rfl
  next h => rw [hs] at h; cases h

theorem expandSchema_eq (expandRef : String → Except RenderFault Value) (s : Schema) :
    expandSchema expandRef s =
      expandShape expandRef (s.shape.map (Shape.mapParts fun t => (t, expandSchema expandRef t))) :=
  Schema.byShape_eq _ s

theorem expand_of_fault {fault : SchemaFault} (h : schema.shape = .error fault) :
    expand table path schema = .error (.schema fault) := by
  rw [expand, expandSchema_eq, h]; rfl

theorem expand_of_primitive {kind : String} {repeated : Bool}
    (h : schema.shape = .ok (.primitive kind repeated)) :
    expand table path schema =
      match Literal.ofKind? kind with
      | some value => .ok (.literal value)
      | none => .error (.unknownType (some kind)) := by
  rw [expand, expandSchema_eq, h]; rfl

theorem expand_of_array {item : Schema} (h : schema.shape = .ok (.array item)) :
    expand table path schema = (expand table path item).map .array := by
  rw [expand, expandSchema_eq, h]; rfl

theorem expand_of_map {values : Schema} (h : schema.shape = .ok (.map values)) :
    expand table path schema = (expand table path values).map .entry := by
  rw [expand, expandSchema_eq, h]; rfl

theorem expand_of_object {properties : Entries Schema} {additional : Option Schema}
    (h : schema.shape = .ok (.object properties additional)) :
    expand table path schema =
      (Entries.collect ((Entries.sortByKey properties).mapValues (expand table path))).map
        .object := by
  rw [expand, expandSchema_eq, h]
  simp only [Except.map, Shape.mapParts, expandShape, Entries.mapValues_mapValues,
    Entries.sortByKey_mapValues]
  rfl

theorem expand_of_reference {name : String} (h : schema.shape = .ok (.reference name)) :
    expand table path schema = expandReference table path name := by
  rw [expand, expandSchema_eq, h]; rfl

end

end ApiTypings.Stub
