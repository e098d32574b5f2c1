/-!
The shortest decimal inside an interval: of all decimals with the fewest digits that lie between
two bounds, the one nearest to a given point, an exact tie going to the even coefficient.
-/
namespace PatchPanel.Decimal

/-- The number `coefficient * 10 ^ exponent`. -/
structure Scaled where
  coefficient : Nat
  exponent : Int
  deriving DecidableEq, Repr

/-- An interval around a positive point. The three numbers are numerators over one denominator;
`closed` says whether the two bounds belong to the interval. -/
structure Interval where
  low : Nat
  point : Nat
  high : Nat
  denominator : Nat
  closed : Bool
  deriving Repr

namespace Interval

/-- The numerator `p` lies in the interval. -/
def contains (i : Interval) (p : Nat) : Bool :=
  if i.closed then i.low ≤ p ∧ p ≤ i.high else i.low < p ∧ p < i.high

/-- All numerators and the denominator times one factor above and one below. -/
def rescale (i : Interval) (above below : Nat) : Interval :=
  { i with
    low := i.low * above
    point := i.point * above
    high := i.high * above
    denominator := i.denominator * below }

/-- The exponent of the leading digit of the point, for points down to `10 ^ -400`. -/
def leadingExponent (i : Interval) : Int :=
  if i.denominator ≤ i.point then (Nat.toDigits 10 (i.point / i.denominator)).length - 1
  else
    match (List.range 400).find? (fun s => i.denominator ≤ i.point * Nat.pow 10 (s + 1)) with
    | some s => -(s + 1 : Nat)
    | none => -401

/-- The interval measured in units of `10 ^ exponent`: a numerator over the denominator is then a
number of units. -/
def inUnits (i : Interval) (exponent : Int) : Interval :=
  if 0 ≤ exponent then i.rescale 1 (Nat.pow 10 exponent.toNat)
  else i.rescale (Nat.pow 10 (-exponent).toNat) 1

/-- The multiple of `10 ^ exponent` in the interval that is nearest to its point, looked for at the
two neighbours of the point. -/
def nearest? (i : Interval) (exponent : Int) : Option Scaled :=
  let u := i.inUnits exponent
  let below := u.point / u.denominator
  let above := below + 1
  let gapBelow := u.point - below * u.denominator
  let gapAbove := above * u.denominator - u.point
  let belowFits := u.contains (below * u.denominator)
  let aboveFits := u.contains (above * u.denominator)
  let takeBelow := gapBelow < gapAbove ∨ (gapBelow = gapAbove ∧ below % 2 = 0)
  if belowFits && (!aboveFits || takeBelow) then some ⟨below, exponent⟩
  else if aboveFits then some ⟨above, exponent⟩
  else none

/-- The shortest decimal of the interval, with at most 17 digits. -/
def shortest? (i : Interval) : Option Scaled :=
  let leading := i.leadingExponent
  (List.range 17).findSome? fun (more : Nat) => i.nearest? (leading - more)

end Interval
end PatchPanel.Decimal
