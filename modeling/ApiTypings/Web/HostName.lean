import ApiTypings.Text.Case
import ApiTypings.Text.Split

/-! Host names in ASCII. A label with other characters keeps its ASCII ones, and behind them come
the places and values of the others as numbers of base 36. A number ends at the first digit below a
threshold, which moves with the numbers written so far. -/

namespace ApiTypings.HostName

/-- The letters are the digits below 26. -/
def digit (n : Nat) : Char := if n < 26 then Char.ofNat (97 + n) else Char.ofNat (22 + n)

/-- What ends a number at a place, the places being multiples of 36. -/
def threshold (bias place : Nat) : Nat := min 26 (max 1 (place - bias))

theorem threshold_pos (bias place : Nat) : 0 < threshold bias place := by
  unfold threshold
  omega

/-- A number, lowest digit first. -/
def number (bias place n : Nat) : List Char :=
  let t := threshold bias place
  if n < t then [digit n]
  else digit (t + (n - t) % (36 - t)) :: number bias (place + 36) ((n - t) / (36 - t))
termination_by n
decreasing_by
  have positive := threshold_pos bias place
  have := Nat.div_le_self (n - threshold bias place) (36 - threshold bias place)
  omega

/-- How often 35 divides a number that is too large, and what is left of it. -/
def scaled (places n : Nat) : Nat × Nat :=
  if 455 < n then scaled (places + 1) (n / 35) else (places, n)
termination_by n
decreasing_by omega

/-- The bias after a number, `count` characters being written. The first number weighs less. -/
def nextBias (n count : Nat) (first : Bool) : Nat :=
  let halved := if first then n / 700 else n / 2
  let (places, left) := scaled 0 (halved + halved / count)
  36 * places + 36 * left / (left + 38)

/-- A label on the way: what is written, how many characters it stands for, and the steps since
the last one. -/
structure Pending where
  written : List Char
  count : Nat
  steps : Nat
  bias : Nat

/-- The character at the next place of the label, when those of `value` are being written. -/
def visit (plain value : Nat) (p : Pending) (c : Char) : Pending :=
  if c.toNat < value then { p with steps := p.steps + 1 }
  else if c.toNat == value then
    { written := p.written ++ number p.bias 36 p.steps
      count := p.count + 1
      steps := 0
      bias := nextBias p.steps (p.count + 1) (p.count == plain) }
  else p

/-- The characters of each value, from `start` on, in ascending order. -/
def writeValues (plain : Nat) (label : List Char) : Nat → List Nat → Pending → Pending
  | _, [], p => p
  | start, value :: rest, p =>
    let skipped := { p with steps := p.steps + (value - start) * (p.count + 1) }
    let done := label.foldl (visit plain value) skipped
    writeValues plain label (value + 1) rest { done with steps := done.steps + 1 }

def isAscii (c : Char) : Bool := c.toNat < 0x80

def labelText (label : List Char) : List Char :=
  if label.all isAscii then label
  else
    let plain := label.filter isAscii
    let values := ((label.filter (!isAscii ·)).map Char.toNat).mergeSort.eraseDups
    let written := (writeValues plain.length label 0x80 values ⟨[], plain.length, 0, 72⟩).written
    'x' :: 'n' :: '-' :: '-' :: plain ++ (if plain.isEmpty then [] else ['-']) ++ written

/-- Labels may be separated by an ideographic or a wide point. -/
def plainPoint (c : Char) : Char :=
  if c == '\u3002' || c == '\uff0e' || c == '\uff61' then '.' else c

/-- Of ASCII a label has lower-case letters, digits and hyphens, but no hyphen at an end and no two
in the third and fourth place. -/
def isLabel (label : List Char) : Bool :=
  !label.isEmpty && label.head? != some '-' && label.getLast? != some '-' &&
    (label.drop 2).take 2 != ['-', '-'] &&
    label.all fun c => !isAscii c || c.isLower || c.isDigit || c == '-'

/-- The labels of a name, the last of which may be empty. -/
def areLabels (labels : List (List Char)) : Bool :=
  if labels.getLast? == some [] then labels.length > 1 && labels.dropLast.all isLabel
  else labels.all isLabel

/-- A name in lower case with every label in ASCII. -/
def ascii? (host : List Char) : Option (List Char) :=
  let lower := (Text.lower (String.ofList host)).toList
  let labels := Text.split '.' (lower.map plainPoint)
  if areLabels labels then some (List.intercalate ['.'] (labels.map labelText)) else none

end ApiTypings.HostName
