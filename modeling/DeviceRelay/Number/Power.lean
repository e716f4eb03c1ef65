/-
# Powers of two and of ten

The widths of words and the values of digits are powers of these two numbers.

Key definitions: `twoTo`, `tenTo`.
-/

namespace DeviceRelay

/-- The power of two with the exponent `n`: how many words of `n` bits there are. -/
def twoTo (n : Nat) : Nat := Nat.pow 2 n

/-- The power of ten with the exponent `n`: how many numbers have at most `n` digits. -/
def tenTo (n : Nat) : Nat := Nat.pow 10 n

end DeviceRelay
