/-!
Floating-point numbers in decimal digits: as few digits as identify the number, written
positionally.
-/

namespace Inliner.Data

/-- A finite number: its sign, and `mantissa * 2 ^ exponent`. `narrow` tells that the next
smaller number is only half as far away as the next larger one. -/
structure Binary where
  negative : Bool
  mantissa : Nat
  exponent : Int
  narrow : Bool
deriving DecidableEq, Repr

/-- The parts of a finite number; `none` for the others. -/
def Binary.ofFloat? (value : Float) : Option Binary :=
  let bits := value.toBits.toNat
  let negative := bits / Nat.pow 2 63 == 1
  let exponent : Nat := bits / Nat.pow 2 52 % Nat.pow 2 11
  let fraction : Nat := bits % Nat.pow 2 52
  if exponent = 2047 then
    none
  else if exponent = 0 then
    some ⟨negative, fraction, -1074, false⟩
  else
    some ⟨negative, Nat.pow 2 52 + fraction, Int.ofNat exponent - 1075,
      fraction == 0 && exponent > 1⟩

structure Ratio where
  numerator : Nat
  denominator : Nat

namespace Ratio

def scaled (count base : Nat) (exponent : Int) : Ratio :=
  let power := Nat.pow base exponent.natAbs
  if exponent < 0 then ⟨count, power⟩ else ⟨count * power, 1⟩

def less (left right : Ratio) : Bool :=
  left.numerator * right.denominator < right.numerator * left.denominator

def quotient (left right : Ratio) : Nat :=
  (left.numerator * right.denominator) / (left.denominator * right.numerator)

def distance (left right : Ratio) : Ratio :=
  let first := left.numerator * right.denominator
  let second := right.numerator * left.denominator
  ⟨(first - second) + (second - first), left.denominator * right.denominator⟩

end Ratio

namespace Binary

/-- Whether a fraction is nearer to a number than to its neighbours. -/
def identifiedBy (binary : Binary) (ratio : Ratio) : Bool :=
  let below := if binary.narrow then 1 else 2
  let lower := Ratio.scaled (4 * binary.mantissa - below) 2 (binary.exponent - 2)
  let upper := Ratio.scaled (4 * binary.mantissa + 2) 2 (binary.exponent - 2)
  if binary.mantissa % 2 = 0 then
    !ratio.less lower && !upper.less ratio
  else
    lower.less ratio && ratio.less upper

/-- The position of the first digit of a number that is not zero: the least power of ten above
it. The search starts at `guess` and goes down. -/
def magnitude (value : Ratio) : Nat → Int → Int
  | 0, guess => guess
  | fuel + 1, guess =>
      if value.less (Ratio.scaled 1 10 (guess - 1)) then magnitude value fuel (guess - 1) else guess

/-- The fewest digits that identify a number: their value and the power of ten they count. The
number of digits starts at `count`. -/
def shortestFrom (binary : Binary) (value : Ratio) (top : Int) : Nat → Nat → Nat × Int
  | 0, count => (value.quotient (Ratio.scaled 1 10 (top - count)), top - count)
  | fuel + 1, count =>
      let unit := Ratio.scaled 1 10 (top - count)
      let below := value.quotient unit
      let candidate (digits : Nat) := Ratio.scaled digits 10 (top - count)
      let lower := binary.identifiedBy (candidate below)
      let upper := binary.identifiedBy (candidate (below + 1))
      let upperNearer :=
        ((candidate (below + 1)).distance value).less ((candidate below).distance value)
      if lower && !(upper && upperNearer) then
        (below, top - count)
      else if upper then
        (below + 1, top - count)
      else
        shortestFrom binary value top fuel (count + 1)

/-- The same number with the zeros at the end of its digits, at most `fuel` of them, counted by
the power of ten. -/
def withoutZeros : Nat → Nat × Int → Nat × Int
  | 0, number => number
  | fuel + 1, (digits, exponent) =>
      if digits % 10 = 0 then
        withoutZeros fuel (digits / 10, exponent + 1)
      else
        (digits, exponent)

/-- The fewest digits that identify a number: their value and the power of ten they count. -/
def shortest (binary : Binary) : Nat × Int :=
  let value := Ratio.scaled binary.mantissa 2 binary.exponent
  withoutZeros 17 (shortestFrom binary value (magnitude value 700 310) 17 1)

/-- A number that is `digits * 10 ^ exponent`, written positionally with at least one digit after
the point. -/
def positional (digits : Nat) (exponent : Int) : List Char :=
  let written := Nat.toDigits 10 digits
  if exponent < 0 then
    let places := exponent.natAbs
    let padded := List.replicate (places + 1 - written.length) '0' ++ written
    let whole := padded.take (padded.length - places)
    whole ++ '.' :: padded.drop (padded.length - places)
  else
    written ++ List.replicate exponent.natAbs '0' ++ ['.', '0']

end Binary

def floatText (value : Float) : String :=
  match Binary.ofFloat? value with
  | some binary =>
      let text :=
        if binary.mantissa = 0 then
          ['0', '.', '0']
        else
          let (digits, exponent) := binary.shortest
          Binary.positional digits exponent
      String.ofList (if binary.negative then '-' :: text else text)
  | none => if value.isNaN then "NaN" else if value < 0 then "-inf" else "inf"

end Inliner.Data
