/-!
# Percentages

Shares of ticks are shown with one decimal.  They are computed in binary
numbers with 53 significant bits, where every step is rounded to the nearest
such number and a half goes to the even neighbour.  All of it is done exactly,
in fractions.
-/

namespace RuntimeLog
namespace Text

/-- The whole number nearest to a fraction; a half goes to the even one. -/
def roundToEven (numerator denominator : Nat) : Nat :=
  let quotient := numerator / denominator
  let twice := 2 * (numerator % denominator)
  if twice < denominator then quotient
  else if denominator < twice then quotient + 1
  else quotient + quotient % 2

/-- A fraction of whole numbers, which is not negative. -/
structure Fraction where
  numerator : Nat
  denominator : Nat
deriving DecidableEq, Repr

namespace Fraction

/-- The number of significant bits. -/
def precision : Nat := 53

/-- The nearest fraction with `precision` significant bits, given how far its
last bit stands behind the point (`up`) or in front of it (`down`). -/
def roundAt (fraction : Fraction) (up down : Nat) : Fraction :=
  { numerator :=
      roundToEven (fraction.numerator <<< up) (fraction.denominator <<< down) <<< down
    denominator := 1 <<< up }

/-- The nearest fraction with `precision` significant bits. -/
def rounded (fraction : Fraction) : Fraction :=
  if fraction.numerator = 0 then { numerator := 0, denominator := 1 }
  else
    let wanted := precision - 1 + fraction.denominator.log2
    let present := fraction.numerator.log2
    let up := wanted - present
    let down := present - wanted
    if fraction.numerator <<< up < fraction.denominator <<< (precision - 1 + down) then
      if down = 0 then fraction.roundAt (up + 1) 0 else fraction.roundAt 0 (down - 1)
    else fraction.roundAt up down

/-- The nearest fraction to a whole number. -/
def ofNat (number : Nat) : Fraction :=
  rounded { numerator := number, denominator := 1 }

/-- The nearest fraction to a multiple. -/
def scale (fraction : Fraction) (factor : Nat) : Fraction :=
  rounded { fraction with numerator := fraction.numerator * factor }

/-- The nearest fraction to a quotient. -/
def divide (fraction divisor : Fraction) : Fraction :=
  rounded
    { numerator := fraction.numerator * divisor.denominator
      denominator := fraction.denominator * divisor.numerator }

end Fraction

/-- The share of some ticks in all ticks, in percent.  Of no ticks at all every
share is nothing. -/
def percentage (ticks total : UInt64) : Fraction :=
  if total = 0 then .ofNat 0
  else ((Fraction.ofNat ticks.toNat).scale 100).divide (.ofNat total.toNat)

/-- Whether a percentage is too small to be shown. -/
def isBelowOne (share : Fraction) : Bool :=
  share.numerator < share.denominator

/-- A text behind as many blanks as bring it to a width. -/
def padLeft (width : Nat) (text : String) : String :=
  String.ofList (List.replicate (width - text.length) ' ') ++ text

/-- A percentage with one decimal, at least five characters wide. -/
def percentText (share : Fraction) : String :=
  let tenths := roundToEven (share.numerator * 10) share.denominator
  padLeft 5 (toString (tenths / 10) ++ "." ++ toString (tenths % 10))

end Text
end RuntimeLog
