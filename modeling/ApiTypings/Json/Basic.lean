import ApiTypings.KeyOrder

/-! JSON values as documents hold them: objects keep the order of their keys and numbers keep
whether they were written as integers. -/

namespace ApiTypings

/-- A number as it is written. -/
inductive Number where
  | integer (value : Int)
  /-- `digits * 10 ^ exponent`, with its sign kept apart because zero has one too. -/
  | decimal (negative : Bool) (digits : Nat) (exponent : Int)
  | infinity (negative : Bool)
  | notANumber
deriving DecidableEq, Repr

inductive Json where
  | null
  | bool (value : Bool)
  | number (value : Number)
  | string (value : String)
  | array (items : List Json)
  | object (fields : List (String × Json))
deriving Repr, Inhabited

namespace Json

/-- The value of a field, if this is an object that has it. -/
def get? (key : String) : Json → Option Json
  | object fields => fields.lookup key
  | _ => none

def isNull : Json → Bool
  | null => true
  | _ => false

end Json

/-- The nearest double. -/
def Number.toFloat : Number → Float
  | integer n =>
    let magnitude := Float.ofScientific n.natAbs false 0
    if n < 0 then -magnitude else magnitude
  | decimal negative digits exponent =>
    let magnitude := Float.ofScientific digits (exponent < 0) exponent.natAbs
    if negative then -magnitude else magnitude
  | infinity negative => if negative then -1.0 / 0.0 else 1.0 / 0.0
  | notANumber => 0.0 / 0.0

end ApiTypings
