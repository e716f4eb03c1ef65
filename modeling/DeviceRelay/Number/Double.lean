/-
# Binary floating point in exact arithmetic

A `Double` is the 64 bits of a binary floating-point number. A finite one stands
for `± m * 2 ^ (q - 1074)`, and its magnitude bits are then
`q * 2 ^ 52 + m`, for subnormal and normal numbers alike. Rounding takes an exact
ratio to the nearest double, a tie to the even one, so every operation here is
arithmetic on natural numbers and one rounding.

Key definitions: `Double.ofRatio`, `Double.significand`, `Double.scale`,
`Double.mul`, `Double.div`, `Double.ofSingleBits`.
-/
import DeviceRelay.Number.Power

namespace DeviceRelay

/-- A binary floating-point number of 64 bits. -/
structure Double where
  bits : UInt64
  deriving DecidableEq, Repr, Inhabited

namespace Double

/-- The bits below the sign. -/
def magnitude (x : Double) : Nat := x.bits.toNat % twoTo 63

/-- Whether the sign bit is set. -/
def isNegative (x : Double) : Bool := twoTo 63 ≤ x.bits.toNat

/-- The magnitude of the infinities. -/
def infinity : Nat := 0x7FF * twoTo 52

/-- Whether `x` is neither an infinity nor undefined. -/
def isFinite (x : Double) : Bool := x.magnitude < infinity

/-- Whether `x` is zero of either sign. -/
def isZero (x : Double) : Bool := x.magnitude == 0

/-- The whole number `m` of `m * 2 ^ (q - 1074)`. -/
def significand (x : Double) : Nat :=
  if x.magnitude < twoTo 52 then x.magnitude else x.magnitude % twoTo 52 + twoTo 52

/-- The `q` of `m * 2 ^ (q - 1074)`. -/
def scale (x : Double) : Nat :=
  if x.magnitude < twoTo 52 then 0 else x.magnitude / twoTo 52 - 1

/-- The double with the given sign and magnitude bits. -/
def ofMagnitude (negative : Bool) (magnitude : Nat) : Double :=
  ⟨UInt64.ofNat (if negative then twoTo 63 + magnitude else magnitude)⟩

def zero (negative : Bool) : Double := ofMagnitude negative 0

/-- `num / den` to the nearest whole number, a tie to the even one. -/
def roundHalfEven (num den : Nat) : Nat :=
  let floor := num / den
  let twice := 2 * (num % den)
  if twice < den then floor
  else if den < twice then floor + 1
  else if floor % 2 = 0 then floor else floor + 1

/-- The double nearest to `num / den`, infinite if that is beyond the largest one. -/
def ofRatio (negative : Bool) (num den : Nat) : Double :=
  if num = 0 then zero negative
  else
    -- the ratio over the smallest positive double, whose exponent is `e`
    let shifted := num * twoTo 1074
    let guess := shifted.log2 - den.log2
    let e := if shifted < den * twoTo guess then guess - 1 else guess
    let q := e - 52
    let magnitude := q * twoTo 52 + roundHalfEven shifted (den * twoTo q)
    ofMagnitude negative (min magnitude infinity)

/-- The double nearest to a natural number. -/
def ofNat (n : Nat) : Double := ofRatio false n 1

/-- The double with the opposite sign. -/
def neg (x : Double) : Double := ofMagnitude (!x.isNegative) x.magnitude

/-- The product of two finite doubles, rounded. -/
def mul (x y : Double) : Double :=
  ofRatio (x.isNegative != y.isNegative)
    (x.significand * y.significand * twoTo (x.scale + y.scale)) (twoTo 2148)

/-- The quotient of two finite doubles, the second not zero, rounded. -/
def div (x y : Double) : Double :=
  ofRatio (x.isNegative != y.isNegative)
    (x.significand * twoTo x.scale) (y.significand * twoTo y.scale)

/-- The double that stands for the same number as 32 bits of single precision. -/
def ofSingleBits (single : Nat) : Double :=
  let negative := single / twoTo 31 % 2 = 1
  let exponent := single / twoTo 23 % twoTo 8
  let fraction := single % twoTo 23
  if exponent = 255 then ofMagnitude negative (infinity + fraction * twoTo 29)
  else if exponent = 0 then ofRatio negative fraction (twoTo 149)
  else ofRatio negative ((twoTo 23 + fraction) * twoTo exponent) (twoTo 150)

/-- Whether two doubles compare equal: zeros of either sign do. -/
def equal (x y : Double) : Bool := x.bits == y.bits || (x.isZero && y.isZero)

end Double
end DeviceRelay
