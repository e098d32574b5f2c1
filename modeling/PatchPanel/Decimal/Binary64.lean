import PatchPanel.Decimal.Shortest

/-!
Binary floating-point numbers of 64 bits, kept by their bits: how a decimal is read into one and
how one is written with the fewest digits that tell it from its neighbours.
-/
namespace PatchPanel

/-- A floating-point number of 64 bits. -/
structure Binary64 where
  bits : UInt64
  deriving DecidableEq, Repr, Inhabited

namespace Binary64

def ofFloat (x : Float) : Binary64 := ⟨x.toBits⟩

def isNegative (x : Binary64) : Bool := 0x8000000000000000 ≤ x.bits.toNat

/-- The eleven exponent bits. -/
def exponentField (x : Binary64) : Nat := x.bits.toNat / 0x10000000000000 % 0x800

/-- The 52 fraction bits. -/
def fractionField (x : Binary64) : Nat := x.bits.toNat % 0x10000000000000

/-- A finite magnitude is `significand * 2 ^ exponent`; a number of the normal range has a
leading one before its fraction. -/
def significand (x : Binary64) : Nat :=
  if x.exponentField = 0 then x.fractionField else 0x10000000000000 + x.fractionField

/-- The power of two that the significand counts. -/
def exponent (x : Binary64) : Int :=
  if x.exponentField = 0 then -1074 else x.exponentField - 1075

/-- The magnitudes that round to the magnitude of `x`. The gap below a power of two is half as
wide as the gap above; the bounds round to `x` when its significand is even. -/
def interval (x : Binary64) : Decimal.Interval :=
  let m := 4 * x.significand
  let gap := if x.fractionField = 0 ∧ 1 < x.exponentField then 1 else 2
  let e := x.exponent - 2
  let i : Decimal.Interval := ⟨m - gap, m, m + 2, 1, x.significand % 2 = 0⟩
  if 0 ≤ e then i.rescale (Nat.pow 2 e.toNat) 1 else i.rescale 1 (Nat.pow 2 (-e).toNat)

/-- `10 ^ k` rounded to nearest. -/
def powerOfTen (k : Nat) : Float := Float.ofScientific 1 false k

/-- `significand * 10 ^ exponent`, computed by one rounded multiplication or division, or two
divisions below `10 ^ -308`; none where the result is not finite. -/
def scaled? (significand : UInt64) (exponent : Int) : Option Float :=
  let f := significand.toFloat
  if 0 ≤ exponent ∧ exponent ≤ 308 then
    let r := f * powerOfTen exponent.toNat
    if r.isFinite then some r else none
  else if significand = 0 then some f
  else if 0 < exponent then none
  else if -308 ≤ exponent then some (f / powerOfTen (-exponent).toNat)
  else if -616 ≤ exponent then
    some (f / powerOfTen 308 / powerOfTen (-exponent - 308).toNat)
  else some 0

/-- The floating-point number read for a decimal with the given sign, significand and power of
ten. -/
def ofDecimal? (negative : Bool) (significand : UInt64) (exponent : Int) : Option Binary64 :=
  (scaled? significand exponent).map fun f => ofFloat (if negative then -f else f)

def twoDigits (n : Nat) : List Char :=
  if n < 10 then '0' :: Nat.toDigits 10 n else Nat.toDigits 10 n

/-- Digits with a point after the first, an exponent mark and a signed exponent of two digits or
more. -/
def scientificText (digits : List Char) (exponent : Int) : List Char :=
  let mantissa :=
    match digits with
    | [] => ['0']
    | [d] => [d]
    | d :: rest => d :: '.' :: rest
  let sign := if exponent < 0 then '-' else '+'
  mantissa ++ 'e' :: sign :: twoDigits exponent.natAbs

/-- Digits with a point where the exponent puts it, and at least one digit on either side. -/
def positionalText (digits : List Char) (exponent : Int) : List Char :=
  if exponent < 0 then '0' :: '.' :: List.replicate (-exponent - 1).toNat '0' ++ digits
  else
    let whole := exponent.toNat + 1
    let padded := digits ++ List.replicate (whole - digits.length) '0'
    let fraction := padded.drop whole
    padded.take whole ++ '.' :: (if fraction.isEmpty then ['0'] else fraction)

def dropTrailingZeros (digits : List Char) : List Char :=
  (digits.reverse.dropWhile (· = '0')).reverse

/-- The written form of a finite number: the fewest digits that read back, with a point from
`10 ^ -5` up to below `10 ^ 16` and with an exponent elsewhere. -/
def text (x : Binary64) : List Char :=
  let magnitude :=
    match if x.significand = 0 then none else x.interval.shortest? with
    | none => ['0', '.', '0']
    | some d =>
      let written := Nat.toDigits 10 d.coefficient
      let exponent := d.exponent + written.length - 1
      let digits := dropTrailingZeros written
      if -5 ≤ exponent ∧ exponent < 16 then positionalText digits exponent
      else scientificText digits exponent
  if x.isNegative then '-' :: magnitude else magnitude

end Binary64
end PatchPanel
