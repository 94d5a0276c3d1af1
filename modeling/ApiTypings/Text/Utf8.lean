/-! Text as octets. Decoding reads one octet at a time and keeps what the character under way is
still owed, so that it is plain recursion over the octets. Octets that are no UTF-8 are faults with
a place; a reader either refuses at the first fault or puts U+FFFD for each. -/

namespace ApiTypings.Utf8

def encode (text : String) : List UInt8 := text.toUTF8.data.toList

inductive FaultCause where
  /-- No character starts with this octet. -/
  | badStart
  /-- The octet after those named does not continue their character. -/
  | badContinuation
  /-- The octets end within a character. -/
  | truncated
deriving DecidableEq, Repr

/-- The octets of a broken character: the place and value of the first, and how many there are. -/
structure Fault where
  cause : FaultCause
  first : UInt8
  position : Nat
  length : Nat
deriving DecidableEq, Repr

def FaultCause.text : FaultCause → String
  | badStart => "invalid start byte"
  | badContinuation => "invalid continuation byte"
  | truncated => "unexpected end of data"

def hexOctet (b : UInt8) : String :=
  String.ofList [Nat.digitChar (b.toNat / 16), Nat.digitChar (b.toNat % 16)]

def Fault.message (f : Fault) : String :=
  let place :=
    if f.length ≤ 1 then "byte 0x" ++ hexOctet f.first ++ " in position " ++ toString f.position
    else "bytes in position " ++ toString f.position ++ "-" ++ toString (f.position + f.length - 1)
  "'utf-8' codec can't decode " ++ place ++ ": " ++ f.cause.text

/-- A character under way: its first octet and place, the octets read, the bits gathered, how many
octets are still owed and the bounds of the next one. -/
structure Pending where
  first : UInt8
  position : Nat
  read : Nat
  bits : Nat
  owed : Nat
  low : UInt8
  high : UInt8
deriving Repr

def Pending.fault (p : Pending) (cause : FaultCause) : Fault :=
  ⟨cause, p.first, p.position, p.read⟩

/-- What an octet between characters is: a character, the first octet of a longer one, or a fault.
The bounds of the second octet keep out overlong forms, surrogates and numbers past U+10FFFF. -/
inductive Start where
  | char (c : Char)
  | pending (p : Pending)
  | fault (f : Fault)

def start (position : Nat) (b : UInt8) : Start :=
  if b < 0x80 then .char (Char.ofNat b.toNat)
  else if b < 0xC2 then .fault ⟨.badStart, b, position, 1⟩
  else if b < 0xE0 then .pending ⟨b, position, 1, b.toNat % 32, 1, 0x80, 0xBF⟩
  else if b < 0xF0 then
    .pending ⟨b, position, 1, b.toNat % 16, 2, if b == 0xE0 then 0xA0 else 0x80,
      if b == 0xED then 0x9F else 0xBF⟩
  else if b < 0xF5 then
    .pending ⟨b, position, 1, b.toNat % 8, 3, if b == 0xF0 then 0x90 else 0x80,
      if b == 0xF4 then 0x8F else 0xBF⟩
  else .fault ⟨.badStart, b, position, 1⟩

/-- The characters and faults of the octets from `position` on. An octet that breaks the character
under way is read again as a start. -/
def pieces : Option Pending → Nat → List UInt8 → List (Except Fault Char)
  | none, _, [] => []
  | some p, _, [] => [.error (p.fault .truncated)]
  | none, position, b :: rest =>
    match start position b with
    | .char c => .ok c :: pieces none (position + 1) rest
    | .pending p => pieces (some p) (position + 1) rest
    | .fault f => .error f :: pieces none (position + 1) rest
  | some p, position, b :: rest =>
    if p.low ≤ b && b ≤ p.high then
      let bits := p.bits * 64 + b.toNat % 64
      if p.owed == 1 then .ok (Char.ofNat bits) :: pieces none (position + 1) rest
      else
        let next :=
          { p with read := p.read + 1, bits := bits, owed := p.owed - 1, low := 0x80, high := 0xBF }
        pieces (some next) (position + 1) rest
    else
      .error (p.fault .badContinuation) ::
        match start position b with
        | .char c => .ok c :: pieces none (position + 1) rest
        | .pending p => pieces (some p) (position + 1) rest
        | .fault f => .error f :: pieces none (position + 1) rest

/-- Refuses at the first fault. -/
def decode (octets : List UInt8) : Except Fault (List Char) := (pieces none 0 octets).mapM id

/-- Shows U+FFFD for each fault. -/
def decodeLossy (octets : List UInt8) : List Char :=
  (pieces none 0 octets).map fun
    | .ok c => c
    | .error _ => '\ufffd'

end ApiTypings.Utf8
