import ApiTypings.Json.Basic

/-! Checking a JSON value against what is expected of it. A check does not stop at its first
fault: the faults of all fields are gathered, in the order the fields are declared, each with the
place where it was found. -/

namespace ApiTypings

/-- One step into a document. -/
inductive PathStep where
  | field (name : String)
  | index (position : Nat)
deriving DecidableEq, Repr

def PathStep.text : PathStep → String
  | field name => name
  | index position => toString position

/-- What is wrong with a value. -/
inductive FaultCause where
  | missing
  | notString
  | notList
  | notMap
  /-- A record of this name was expected. -/
  | notRecord (name : String)
  | notBoolean
  /-- A text or a number, but none that stands for true or false. -/
  | unreadableBoolean
  | notNumber
  /-- A text, but none that stands for a number. -/
  | unreadableNumber
  | unknownField
deriving DecidableEq, Repr

def FaultCause.message : FaultCause → String
  | missing => "Field required"
  | notString => "Input should be a valid string"
  | notList => "Input should be a valid list"
  | notMap => "Input should be a valid dictionary"
  | notRecord name => "Input should be a valid dictionary or instance of " ++ name
  | notBoolean => "Input should be a valid boolean"
  | unreadableBoolean => "Input should be a valid boolean, unable to interpret input"
  | notNumber => "Input should be a valid number"
  | unreadableNumber => "Input should be a valid number, unable to parse string as a number"
  | unknownField => "Extra inputs are not permitted"

/-- A fault and where it lies. -/
structure Fault where
  path : List PathStep
  cause : FaultCause
deriving DecidableEq, Repr

/-- The steps of the path joined by points. -/
def Fault.location (f : Fault) : String := ".".intercalate (f.path.map PathStep.text)

/-- Location and message of one fault. -/
def Fault.text (f : Fault) : String := f.location ++ ": " ++ f.cause.message

/-- The result of a check: the value, or every fault found. -/
inductive Checked (α : Type) where
  | valid (value : α)
  | invalid (faults : List Fault)

namespace Checked

variable {α β : Type}

def fault (cause : FaultCause) : Checked α := .invalid [⟨[], cause⟩]

def map (f : α → β) : Checked α → Checked β
  | valid a => .valid (f a)
  | invalid faults => .invalid faults

/-- Both checks are made, and the faults of the first come first. -/
def apply : Checked (α → β) → Checked α → Checked β
  | valid f, valid a => .valid (f a)
  | valid _, invalid faults => .invalid faults
  | invalid faults, valid _ => .invalid faults
  | invalid faults, invalid more => .invalid (faults ++ more)

instance : Applicative Checked where
  pure := .valid
  map f x := x.map f
  seq f x := f.apply (x ())

/-- The faults of a part, placed in the whole. -/
def within (step : PathStep) : Checked α → Checked α
  | valid a => .valid a
  | invalid faults => .invalid (faults.map fun f => { f with path := step :: f.path })

def toExcept : Checked α → Except (List Fault) α
  | valid a => .ok a
  | invalid faults => .error faults

end Checked

namespace Json

variable {α : Type}

/-! ## Plain values -/

def asString : Json → Checked String
  | .string s => .valid s
  | _ => .fault .notString

/-- The words for false and true, compared without regard to ASCII case. -/
def falseWords : List String := ["0", "off", "f", "false", "n", "no"]

def trueWords : List String := ["1", "on", "t", "true", "y", "yes"]

/-- Is the double a whole number strictly between the bounds of 64-bit integers? -/
def isWhole (x : Float) : Bool :=
  x.floor == x && -9223372036854775808.0 < x && x < 9223372036854775808.0

/-- A boolean, a word for one, or the number 0 or 1. Other words, other 64-bit integers and
doubles that hold such an integer could have stood for a boolean and do not; anything else is
none. -/
def asBool : Json → Checked Bool
  | .bool b => .valid b
  | .string s =>
    if falseWords.contains s.toLower then .valid false
    else if trueWords.contains s.toLower then .valid true
    else .fault .unreadableBoolean
  | .number (.integer n) =>
    if n == 0 then .valid false
    else if n == 1 then .valid true
    else if -9223372036854775808 ≤ n && n ≤ 9223372036854775807 then .fault .unreadableBoolean
    else .fault .notBoolean
  | .number n =>
    let x := n.toFloat
    if x == 0.0 then .valid false
    else if x == 1.0 then .valid true
    else if isWhole x then .fault .unreadableBoolean
    else .fault .notBoolean
  | _ => .fault .notBoolean

/-- Check each item; a fault is placed at the item's index. -/
def checkItems (check : Json → Checked α) (start : Nat) : List Json → Checked (List α)
  | [] => .valid []
  | item :: rest =>
    List.cons <$> (check item).within (.index start) <*> checkItems check (start + 1) rest

def asListOf (check : Json → Checked α) : Json → Checked (List α)
  | .array items => checkItems check 0 items
  | _ => .fault .notList

/-- Check each value; a fault is placed at the entry's key. -/
def checkEntries (check : Json → Checked α) : List (String × Json) → Checked (Entries α)
  | [] => .valid []
  | (key, value) :: rest =>
    (fun a as => (key, a) :: as) <$> (check value).within (.field key) <*> checkEntries check rest

def asMapOf (check : Json → Checked α) : Json → Checked (Entries α)
  | .object fields => checkEntries check fields
  | _ => .fault .notMap

/-! ## Fields of a record -/

/-- A field that may be missing or null. -/
def optionalField (key : String) (check : Json → Checked α) (fields : List (String × Json)) :
    Checked (Option α) :=
  match fields.lookup key with
  | none | some .null => .valid none
  | some value => (some <$> check value).within (.field key)

/-- A field with a value for when it is missing. -/
def fieldOr (key : String) (default : α) (check : Json → Checked α)
    (fields : List (String × Json)) : Checked α :=
  match fields.lookup key with
  | none => .valid default
  | some value => (check value).within (.field key)

/-- A field that must be there. -/
def requiredField (key : String) (check : Json → Checked α) (fields : List (String × Json)) :
    Checked α :=
  match fields.lookup key with
  | none => .invalid [⟨[.field key], .missing⟩]
  | some value => (check value).within (.field key)

/-- A check that lets null stand for nothing. -/
def orNull (check : Json → Checked α) : Json → Checked (Option α)
  | .null => .valid none
  | value => some <$> check value

end Json

end ApiTypings
