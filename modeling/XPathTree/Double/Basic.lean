import XPathTree.Double.Rounding

/-!
# Doubles

The numbers of XPath are binary64: a NaN, two infinities, and signed magnitudes
that are whole numbers of ticks. Every operation is computed exactly on ticks
and rounded once, to nearest with halves to even, by `Double.ofRatio`.
-/

namespace XPathTree

/-- The magnitude of a finite double: a number of ticks below the limit that is
a multiple of the spacing at its size. -/
structure Magnitude where
  ticks : Nat
  lt_limit : ticks < Double.limit
  spacing_dvd : Double.spacing ticks ∣ ticks
  deriving DecidableEq

/-- A binary64 number. Zero has a sign, and there is one NaN. -/
inductive Double where
  | nan
  | infinity (negative : Bool)
  | finite (negative : Bool) (magnitude : Magnitude)
  deriving DecidableEq

namespace Double

/-- The double nearest to `num / den` ticks with the given sign; infinite when
that rounds beyond the largest magnitude. -/
def ofRatio (negative : Bool) (num den : Nat) : Double :=
  if h : roundTicks num den < limit then
    finite negative ⟨roundTicks num den, h, spacing_dvd_roundTicks num den⟩
  else
    infinity negative

/-- The double nearest to a signed number of ticks; a zero gets the given sign. -/
def ofTicks (zeroNegative : Bool) (ticks : Int) : Double :=
  ofRatio (if ticks = 0 then zeroNegative else decide (ticks < 0)) ticks.natAbs 1

/-- The double nearest to a whole number. -/
def ofInt (n : Int) : Double := ofTicks false (n * unit)

/-- The double nearest to a natural number. -/
def ofNat (n : Nat) : Double := ofInt n

/-- Zero with the given sign. -/
def zero (negative : Bool) : Double := ofTicks negative 0

/-- One for true and zero for false. -/
def ofBool (b : Bool) : Double := ofNat b.toNat

/-- The ticks of a magnitude with its sign. -/
def signedTicks (negative : Bool) (magnitude : Magnitude) : Int :=
  if negative then -magnitude.ticks else magnitude.ticks

/-- Where a double stands on the number line, in ticks: the infinities stand
beyond every finite double, both zeros at the origin, and NaN nowhere. -/
def position? : Double → Option Int
  | nan => none
  | infinity negative => some (if negative then -limit else limit)
  | finite negative magnitude => some (signedTicks negative magnitude)

/-- Numeric equality: NaN equals nothing, and the zeros are equal. -/
def equals (a b : Double) : Bool :=
  match a.position?, b.position? with
  | some x, some y => x == y
  | _, _ => false

/-- Numeric order; false as soon as one side is NaN. -/
def lessThan (a b : Double) : Bool :=
  match a.position?, b.position? with
  | some x, some y => decide (x < y)
  | _, _ => false

/-- Numeric order or equality; false as soon as one side is NaN. -/
def lessOrEqual (a b : Double) : Bool :=
  match a.position?, b.position? with
  | some x, some y => decide (x ≤ y)
  | _, _ => false

/-- Neither NaN nor one of the zeros. -/
def isNonzero (a : Double) : Bool :=
  match a.position? with
  | some x => x != 0
  | none => false

end Double

end XPathTree
