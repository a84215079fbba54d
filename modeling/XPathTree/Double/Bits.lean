import XPathTree.Double.Basic

/-!
# The interchange encoding of doubles

The 64 bits of a double: a sign bit, eleven bits of exponent and 52 of fraction.
Read as one number, the lower 63 bits of a finite double grow by one from each
magnitude to the next.
-/

namespace XPathTree.Double

/-- The lower 63 bits of the infinities. -/
def infinityBits : Nat := 2047 * Nat.pow 2 52

/-- The sign bit. -/
def signBit (negative : Bool) : Nat := if negative then Nat.pow 2 63 else 0

/-- The bits of a double; for NaN those of the quiet NaN without payload. -/
def toBits : Double → Nat
  | nan => infinityBits + Nat.pow 2 51
  | infinity negative => signBit negative + infinityBits
  | finite negative magnitude =>
    signBit negative + (magnitude.ticks.log2 - 52) * Nat.pow 2 52 +
      magnitude.ticks / spacing magnitude.ticks

/-- The double with the given 64 bits. -/
def ofBits (bits : Nat) : Double :=
  let negative := bits / Nat.pow 2 63 % 2 = 1
  let exponent := bits / Nat.pow 2 52 % Nat.pow 2 11
  let fraction := bits % Nat.pow 2 52
  if exponent = 2047 then
    if fraction = 0 then infinity negative else nan
  else if exponent = 0 then ofRatio negative fraction 1
  else ofRatio negative ((Nat.pow 2 52 + fraction) * Nat.pow 2 (exponent - 1)) 1

end XPathTree.Double
