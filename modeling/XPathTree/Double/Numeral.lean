import XPathTree.Double.Basic
import XPathTree.Text.Split

/-!
# Decimal numerals

The written form of numbers: an optional minus sign, digits, and possibly a point
among or around them. Writing takes the fewest significant digits that read back
as the same double, and never an exponent; reading rounds correctly and gives NaN
for every text that is no numeral.
-/

namespace XPathTree

/-- A decimal numeral: the digits as one number, the last `places` of which stand
behind the point. -/
structure Numeral where
  negative : Bool
  digits : Nat
  places : Nat
  deriving DecidableEq

namespace Numeral

/-- The number that a sequence of decimal digits denotes. -/
def digitsValue (digits : List Char) : Nat :=
  digits.foldl (fun value digit => 10 * value + (digit.toNat - '0'.toNat)) 0

/-- Reads digits with at most one point and at least one digit. -/
def readUnsigned? (negative : Bool) (text : List Char) : Option Numeral :=
  let (whole, fraction) := (Text.splitAtFirst '.' text).getD (text, [])
  let digits := whole ++ fraction
  if digits.isEmpty || !digits.all Char.isDigit then none
  else some ⟨negative, digitsValue digits, fraction.length⟩

/-- Reads a numeral with an optional minus sign. -/
def read? : List Char → Option Numeral
  | '-' :: text => readUnsigned? true text
  | text => readUnsigned? false text

/-- The text of a numeral; at least one digit stands before the point, and a
numeral without places has no point. -/
def write (numeral : Numeral) : List Char :=
  let sign := if numeral.negative then ['-'] else []
  let digits := Nat.toDigits 10 numeral.digits
  if numeral.places = 0 then sign ++ digits
  else
    let padded := List.replicate (numeral.places + 1 - digits.length) '0' ++ digits
    let whole := padded.length - numeral.places
    sign ++ padded.take whole ++ '.' :: padded.drop whole

/-- The double nearest to a numeral. -/
def toDouble (numeral : Numeral) : Double :=
  .ofRatio numeral.negative (numeral.digits * Double.unit) (Nat.pow 10 numeral.places)

/-- The numeral of a whole number. -/
def ofInt (k : Int) : Numeral := ⟨decide (k < 0), k.natAbs, 0⟩

/-- A numeral without the zeros that end its places. -/
def dropZeros (negative : Bool) (digits : Nat) : Nat → Numeral
  | 0 => ⟨negative, digits, 0⟩
  | places + 1 =>
    if digits % 10 = 0 then dropZeros negative (digits / 10) places
    else ⟨negative, digits, places + 1⟩

end Numeral

namespace Magnitude

/-- One tick has this many decimal places. -/
def tickPlaces : Nat := 1074

/-- The numeral for `digits` units of the decimal place that lies `dropped` places
to the left of the last place of a tick. -/
def gridNumeral (negative : Bool) (digits dropped : Nat) : Numeral :=
  if tickPlaces ≤ dropped then ⟨negative, digits * Nat.pow 10 (dropped - tickPlaces), 0⟩
  else .dropZeros negative digits (tickPlaces - dropped)

/-- The neighbours of a magnitude on a decimal grid, the nearer one first and the
upper one halfway between them. -/
def neighbours (negative : Bool) (magnitude : Magnitude) (dropped : Nat) :
    List Numeral :=
  let scaled := magnitude.ticks * Nat.pow 5 tickPlaces
  let below := scaled / Nat.pow 10 dropped
  let lower := gridNumeral negative below dropped
  let upper := gridNumeral negative (below + 1) dropped
  if 2 * (scaled % Nat.pow 10 dropped) < Nat.pow 10 dropped then [lower, upper]
  else [upper, lower]

/-- A numeral of at most seventeen significant digits that reads back as the given
double: one with the fewest digits, and of those the nearest. -/
def shortest (negative : Bool) (magnitude : Magnitude) : Numeral :=
  let scaled := magnitude.ticks * Nat.pow 5 tickPlaces
  let width := (Nat.toDigits 10 scaled).length
  let found := (List.range 17).findSome? fun n =>
    (neighbours negative magnitude (width - (n + 1))).find? fun numeral =>
      numeral.toDouble = .finite negative magnitude
  found.getD (gridNumeral negative scaled 0)

end Magnitude

namespace Double

/-- Whole numbers below this bound are written with all their digits. -/
def exactBound : Nat := Nat.pow 10 18

/-- A double as a 64-bit whole number: its fraction is dropped, out of range it becomes
the bound on its side, and NaN becomes zero. -/
def toInt64 : Double → Int64
  | nan => 0
  | infinity negative => if negative then Int64.minValue else Int64.maxValue
  | finite negative magnitude => .ofIntClamp (Int.tdiv (signedTicks negative magnitude) unit)

/-- The numeral for a magnitude: that of the 64-bit whole number for whole numbers
below the bound, else the shortest that reads back. Zero is written without its sign. -/
def numeral (negative : Bool) (magnitude : Magnitude) : Numeral :=
  if magnitude.ticks = 0 then ⟨false, 0, 0⟩
  else if magnitude.ticks % unit = 0 ∧ magnitude.ticks / unit < exactBound then
    .ofInt (toInt64 (finite negative magnitude)).toInt
  else magnitude.shortest negative

/-- The text of a double. -/
def format : Double → String
  | nan => "NaN"
  | infinity false => "Infinity"
  | infinity true => "-Infinity"
  | finite negative magnitude => String.ofList (numeral negative magnitude).write

/-- The double that a text denotes, blanks of markup around the numeral aside; NaN
if it is no numeral. -/
def parse (text : String) : Double :=
  match Numeral.read? (Text.trim Text.isMarkupBlank text.toList) with
  | some numeral => numeral.toDouble
  | none => nan

end Double

end XPathTree
