import XPathTree.Double.Basic

/-!
# Arithmetic of doubles

The five operations and the three roundings to whole numbers. Finite operands
are combined exactly on ticks; the special cases are those of IEEE 754, with
`mod` keeping the sign of the dividend.
-/

namespace XPathTree.Double

/-- The same magnitude with the other sign. -/
def neg : Double → Double
  | nan => nan
  | infinity negative => infinity (!negative)
  | finite negative magnitude => finite (!negative) magnitude

/-- The sum. A sum of zero is negative only if both operands are. -/
def add : Double → Double → Double
  | nan, _ => nan
  | _, nan => nan
  | infinity a, infinity b => if a = b then infinity a else nan
  | infinity a, finite _ _ => infinity a
  | finite _ _, infinity b => infinity b
  | finite a m, finite b n => ofTicks (a && b) (signedTicks a m + signedTicks b n)

/-- The difference, as the sum with the negated second operand. -/
def sub (a b : Double) : Double := a.add b.neg

/-- The product; zero times infinity is NaN. -/
def mul : Double → Double → Double
  | nan, _ => nan
  | _, nan => nan
  | infinity a, infinity b => infinity (a != b)
  | infinity a, finite b n => if n.ticks = 0 then nan else infinity (a != b)
  | finite a m, infinity b => if m.ticks = 0 then nan else infinity (a != b)
  | finite a m, finite b n => ofRatio (a != b) (m.ticks * n.ticks) unit

/-- The quotient; zero by zero and infinity by infinity are NaN. -/
def div : Double → Double → Double
  | nan, _ => nan
  | _, nan => nan
  | infinity _, infinity _ => nan
  | infinity a, finite b _ => infinity (a != b)
  | finite a _, infinity b => zero (a != b)
  | finite a m, finite b n =>
    if n.ticks = 0 then
      if m.ticks = 0 then nan else infinity (a != b)
    else ofRatio (a != b) (m.ticks * unit) n.ticks

/-- The remainder of the quotient truncated towards zero, with the sign of the
dividend. -/
def mod : Double → Double → Double
  | nan, _ => nan
  | _, nan => nan
  | infinity _, _ => nan
  | finite a m, infinity _ => finite a m
  | finite a m, finite _ n =>
    if n.ticks = 0 then nan else ofRatio a (m.ticks % n.ticks) 1

instance : Neg Double := ⟨neg⟩
instance : Add Double := ⟨add⟩
instance : Sub Double := ⟨sub⟩
instance : Mul Double := ⟨mul⟩
instance : Div Double := ⟨div⟩
instance : Mod Double := ⟨mod⟩

/-- The largest whole number that is not above the operand; a zero keeps its
sign. -/
def floor : Double → Double
  | finite negative magnitude =>
    ofTicks negative (Int.fdiv (signedTicks negative magnitude) unit * unit)
  | special => special

/-- The smallest whole number that is not below the operand. -/
def ceiling (a : Double) : Double := a.neg.floor.neg

/-- The nearest whole number, halves upwards. What rounds to zero from below
gives the negative zero. -/
def round : Double → Double
  | finite negative magnitude =>
    ofTicks negative
      (Int.fdiv (2 * signedTicks negative magnitude + unit) (2 * unit) * unit)
  | special => special

end XPathTree.Double
