/-! The shortest decimal text of a double: of the decimals that read back as the double, one with
the fewest digits, and of those the nearest. The search is exact arithmetic on natural numbers; it
tries one digit, then two, up to the seventeen that always suffice. -/

namespace ApiTypings.Decimal

/-- A positive double as `mantissa * 2 ^ exponent`. A mantissa that is the smallest of its exponent
has its lower neighbour at half the distance of the upper one. -/
structure Binary where
  mantissa : Nat
  exponent : Int
  smallest : Bool
deriving DecidableEq, Repr

/-- Two to the 52nd: how many fractions an exponent has. -/
def fractions : Nat := 4503599627370496

/-- Doubles with a sign have bits from here on. -/
def signBit : Nat := 9223372036854775808

/-- The parts of a finite double, its sign set aside. -/
def Binary.ofFloat (x : Float) : Binary :=
  let bits := x.toBits.toNat
  let biased : Nat := bits / fractions % 2048
  let fraction : Nat := bits % fractions
  if biased == 0 then ⟨fraction, -1074, false⟩
  else ⟨fraction + fractions, (biased : Int) - 1075, fraction == 0 && biased > 1⟩

/-- `digits * 10 ^ exponent`. -/
structure Scientific where
  digits : Nat
  exponent : Int
deriving DecidableEq, Repr

namespace Binary

/-- Four times the mantissa, so that half the way to each neighbour is a whole number too. -/
def quarters (b : Binary) : Nat := 4 * b.mantissa

def low (b : Binary) : Nat := b.quarters - (if b.smallest then 1 else 2)

def high (b : Binary) : Nat := b.quarters + 2

/-- `n` quarters and `d * 10 ^ k` as numbers over one denominator. -/
def scale (b : Binary) (n d : Nat) (k : Int) : Nat × Nat :=
  let e := b.exponent - 2
  (n * Nat.pow 2 e.toNat * Nat.pow 10 (-k).toNat, d * Nat.pow 2 (-e).toNat * Nat.pow 10 k.toNat)

/-- Does `d * 10 ^ k` read back as the double? The ends of the interval do if the mantissa is
even. -/
def readsBack (b : Binary) (d : Nat) (k : Int) : Bool :=
  let (low, atLow) := b.scale b.low d k
  let (high, atHigh) := b.scale b.high d k
  if b.mantissa % 2 == 0 then low ≤ atLow && atHigh ≤ high else low < atLow && atHigh < high

/-- The decimals of the grid `10 ^ k` next to the double: the last one not above it. -/
def below (b : Binary) (k : Int) : Nat :=
  let (value, unit) := b.scale b.quarters 1 k
  value / unit

/-- Is the double nearer to `d * 10 ^ k` than to the next decimal of the grid? A tie goes to the
even one. -/
def nearerBelow (b : Binary) (d : Nat) (k : Int) : Bool :=
  let (value, half) := b.scale (2 * b.quarters) (2 * d + 1) k
  value < half || (value == half && d % 2 == 0)

/-- The decimal of one grid that reads back, if there is one. -/
def onGrid? (b : Binary) (k : Int) : Option Scientific :=
  let d := b.below k
  match b.readsBack d k, b.readsBack (d + 1) k with
  | true, true => some ⟨if b.nearerBelow d k then d else d + 1, k⟩
  | true, false => some ⟨d, k⟩
  | false, true => some ⟨d + 1, k⟩
  | false, false => none

/-- The exponent of the first digit. -/
def magnitude (b : Binary) : Int :=
  let e := b.exponent - 2
  let above := b.quarters * Nat.pow 2 e.toNat
  let under := Nat.pow 2 (-e).toNat
  let guess : Int := (Nat.toDigits 10 above).length - (Nat.toDigits 10 under).length
  let (value, unit) := b.scale b.quarters 1 guess
  if value < unit then guess - 1 else guess

def shortest (b : Binary) : Scientific :=
  let top := b.magnitude
  match (List.range 17).findSome? fun (n : Nat) => b.onGrid? (top - n) with
  | some found => found
  | none => ⟨b.below (top - 16), top - 16⟩

end Binary

/-! ## In writing -/

def zeros (n : Nat) : List Char := List.replicate n '0'

/-- The digits of a number without the zeros at its end, and how many digits stand before the
point. -/
def pointed (s : Scientific) : List Char × Int :=
  let all := Nat.toDigits 10 s.digits
  ((all.reverse.dropWhile (· == '0')).reverse, all.length + s.exponent)

/-- Written with a point where the exponent is at least -4 and less than 16, and always with a
digit on each side of it. -/
def positional (digits : List Char) (point : Int) : List Char :=
  if point ≤ 0 then '0' :: '.' :: zeros (-point).toNat ++ digits
  else
    let n := point.toNat
    if digits.length ≤ n then digits ++ zeros (n - digits.length) ++ ['.', '0']
    else digits.take n ++ '.' :: digits.drop n

/-- Written with an exponent that has a sign and at least two digits. -/
def exponential (digits : List Char) (point : Int) : List Char :=
  let exponent := point - 1
  let tail := Nat.toDigits 10 exponent.natAbs
  let fraction := match digits.drop 1 with
    | [] => []
    | rest => '.' :: rest
  let sign := if exponent < 0 then '-' else '+'
  digits.take 1 ++ fraction ++ 'e' :: sign :: zeros (2 - tail.length) ++ tail

def unsignedText (x : Float) : List Char :=
  if x == 0.0 then ['0', '.', '0']
  else
    let (digits, point) := pointed (Binary.ofFloat x).shortest
    if -4 < point && point ≤ 16 then positional digits point else exponential digits point

/-- The text of a double. -/
def text (x : Float) : String :=
  let negative := signBit ≤ x.toBits.toNat
  if x.isNaN then "nan"
  else
    let body := if x.isInf then ['i', 'n', 'f'] else unsignedText x
    String.ofList (if negative then '-' :: body else body)

end ApiTypings.Decimal
