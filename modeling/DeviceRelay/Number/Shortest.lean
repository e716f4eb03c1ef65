/-
# The fewest decimal digits that read back

A positive double owns the interval of reals that round to it, ends included
exactly when its significand is even. For one digit, then two, and so on, the
two decimals of that many digits around the value are tried; the first count with
a decimal inside the interval wins, and of two the nearer, a tie going to the even
digit. Seventeen digits always suffice.

Key definitions: `Decimal`, `Shortest.decimal`, `FloatLayout`, `FloatLayout.text`.
-/
import DeviceRelay.Number.Double

namespace DeviceRelay

/-- The number `digits * 10 ^ exponent`. -/
structure Decimal where
  digits : Nat
  exponent : Int
  deriving DecidableEq, Repr

namespace Shortest

/-- The interval of reals that round to a double, in units of `1 / denominator`. -/
structure Interval where
  low : Nat
  value : Nat
  high : Nat
  denominator : Nat
  closed : Bool

/-- The interval of a positive finite double. Below a power of two the neighbour
is half as far away. -/
def interval (x : Double) : Interval :=
  let m := x.significand
  let unit := twoTo x.scale
  let below := if m = twoTo 52 ∧ 0 < x.scale then 1 else 2
  { low := (4 * m - below) * unit
    value := 4 * m * unit
    high := (4 * m + 2) * unit
    denominator := 4 * twoTo 1074
    closed := m % 2 = 0 }

/-- Whether `num / den` rounds to the double. -/
def Interval.contains (i : Interval) (num den : Nat) : Bool :=
  let scaled := num * i.denominator
  if i.closed then i.low * den ≤ scaled && scaled ≤ i.high * den
  else i.low * den < scaled && scaled < i.high * den

/-- A grid of decimals `k * num / den`. -/
def gridRatio (exponent : Int) : Nat × Nat :=
  if 0 ≤ exponent then (tenTo exponent.toNat, 1) else (1, tenTo (-exponent).toNat)

/-- The better of the two decimals on the grid of `10 ^ exponent` around the value. -/
def onGrid (i : Interval) (exponent : Int) : Option Decimal :=
  let (num, den) := gridRatio exponent
  let floor := i.value * den / (i.denominator * num)
  let low := i.contains (floor * num) den
  let high := i.contains ((floor + 1) * num) den
  if low && high then
    let twice := 2 * (i.value * den)
    let middle := (2 * floor + 1) * num * i.denominator
    if twice < middle then some ⟨floor, exponent⟩
    else if middle < twice then some ⟨floor + 1, exponent⟩
    else if floor % 2 = 0 then some ⟨floor, exponent⟩
    else some ⟨floor + 1, exponent⟩
  else if low then some ⟨floor, exponent⟩
  else if high then some ⟨floor + 1, exponent⟩
  else none

/-- The largest `e` with `10 ^ e ≤ value / denominator`, starting from a guess that
is not too large. -/
def leadingExponent (i : Interval) : Nat → Int → Int
  | 0, e => e
  | fuel + 1, e =>
    let (num, den) := gridRatio (e + 1)
    if num * i.denominator ≤ i.value * den then leadingExponent i fuel (e + 1) else e

/-- The first of the grids with `count` digits and more that holds a decimal. -/
def search (i : Interval) (lead : Int) : Nat → Nat → Decimal
  | 0, _ => ⟨0, 0⟩
  | fuel + 1, count =>
    match onGrid i (lead - (count : Int) + 1) with
    | some d => d
    | none => search i lead fuel (count + 1)

/-- Divides the digits by ten while they end in zero. -/
def dropZeros : Nat → Decimal → Decimal
  | 0, d => d
  | fuel + 1, d =>
    if d.digits ≠ 0 ∧ d.digits % 10 = 0 then dropZeros fuel ⟨d.digits / 10, d.exponent + 1⟩ else d

/-- The shortest decimal that reads back as a positive finite double. -/
def decimal (x : Double) : Decimal :=
  let i := interval x
  let guess := ((i.value.log2 : Int) - (i.denominator.log2 : Int)) * 30103 / 100000 - 2
  dropZeros 20 (search i (leadingExponent i 8 guess) 18 1)

end Shortest

/-- How the digits of a floating-point number are laid out. -/
structure FloatLayout where
  /-- Numbers from `10 ^ lowest` on are written positionally. -/
  lowest : Int
  /-- Numbers below `10 ^ highest` are written positionally. -/
  highest : Int
  /-- The sign of a positive exponent. -/
  plus : List Char

namespace FloatLayout

def digitsOf (d : Decimal) : List Char := Nat.toDigits 10 d.digits

/-- Positional notation with at least one digit on either side of the point. -/
def positional (digits : List Char) (exponent : Int) : List Char :=
  if 0 ≤ exponent then digits ++ List.replicate exponent.toNat '0' ++ ['.', '0']
  else
    let places := (-exponent).toNat
    if places < digits.length then
      digits.take (digits.length - places) ++ '.' :: digits.drop (digits.length - places)
    else '0' :: '.' :: List.replicate (places - digits.length) '0' ++ digits

/-- One digit before the point, and the exponent of ten. -/
def scientific (layout : FloatLayout) (digits : List Char) (lead : Int) : List Char :=
  let fraction := digits.drop 1
  let mantissa := digits.take 1 ++ (if fraction.isEmpty then [] else '.' :: fraction)
  let exponent := (if lead < 0 then ['-'] else layout.plus) ++ Nat.toDigits 10 lead.natAbs
  mantissa ++ 'e' :: exponent

/-- The text of a finite double. -/
def text (layout : FloatLayout) (x : Double) : List Char :=
  let sign := if x.isNegative then ['-'] else []
  if x.isZero then sign ++ ['0', '.', '0']
  else
    let d := Shortest.decimal x
    let digits := digitsOf d
    let lead := d.exponent + (digits.length : Int) - 1
    if layout.lowest ≤ lead ∧ lead < layout.highest then sign ++ positional digits d.exponent
    else sign ++ layout.scientific digits lead

end FloatLayout
end DeviceRelay
