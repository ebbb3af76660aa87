import DocFilter.Value.Basic

/-!
# Numbers as values

A number in a written value is an integer when it has neither point nor
exponent and fits 64 bits; every other number is a double. Reading keeps
a significand of 64 bits: digits that no longer fit only move the decimal
point or are left out, and the power of ten is applied by one product or
quotient of doubles. The result can differ in the last place from the
nearest double, and it is this result that a document shows.

A number past the range of doubles has no value.
-/

namespace DocFilter

open Decimal (Double Numeral)

/-- **A 64-bit significand and a power of ten**, as gathered digit by
digit. -/
structure Gathered where
  /-- The digits that were taken, as one number. -/
  significand : Nat
  /-- The power of ten. -/
  scale : Int
  /-- Whether a digit did not fit any more. -/
  full : Bool

namespace Gathered

/-- The largest significand. -/
def limit : Nat := 0xffffffffffffffff

/-- The significand after one more digit. -/
def extended (g : Gathered) (d : Char) : Nat :=
  10 * g.significand + (d.toNat - '0'.toNat)

/-- A digit before the point: once one does not fit, it and all later ones
count as a power of ten. -/
def pushWhole (g : Gathered) (d : Char) : Gathered :=
  if g.full ∨ limit < g.extended d then { g with scale := g.scale + 1, full := true }
  else { g with significand := g.extended d }

/-- A digit after the point: once one does not fit, it and all later ones
are left out. -/
def pushFraction (g : Gathered) (d : Char) : Gathered :=
  if g.full ∨ limit < g.extended d then { g with full := true }
  else { g with significand := g.extended d, scale := g.scale - 1 }

/-- The digits of a numeral. -/
def ofNumeral (n : Numeral) : Gathered :=
  let whole := n.whole.foldl pushWhole ⟨0, 0, false⟩
  let all := (n.fraction.getD []).foldl pushFraction { whole with full := false }
  { all with scale := all.scale + (match n.exponent with | none => 0 | some e => e.value) }

/-- Divide by a power of ten of any size, `10 ^ 308` at a time; three such
steps bring every significand to zero. -/
def divide : Nat → Double → Nat → Double
  | 0, d, _ => d
  | steps + 1, d, power =>
    if power ≤ 308 then d.scaleDown (Double.ofDecimal false 1 power)
    else divide steps (d.scaleDown (Double.ofDecimal false 1 308)) (power - 308)

/-- The double of a significand and its power of ten, unless it is out of
range. -/
def toDouble? (g : Gathered) : Option Double :=
  let d := Double.ofNat g.significand
  if g.scale < 0 then some (divide 4 d (-g.scale).toNat)
  else if g.significand = 0 then some d
  else if 308 < g.scale then none
  else
    let scaled := d.scaleUp (Double.ofDecimal false 1 g.scale)
    if scaled.isFinite then some scaled else none

end Gathered

/-- Whether a numeral is spelled as written values demand: no plus sign
in front, a whole part without leading zeros, and digits after a point. -/
def Value.isNumberSpelling (n : Numeral) : Bool :=
  n.sign != ['+'] && !n.whole.isEmpty && (n.whole.head? != some '0' || n.whole.length == 1)
    && n.fraction != some []

/-- **The value of a number.** Minus zero is a double, since no integer is
that. -/
def Value.ofNumeral? (n : Numeral) : Option Value :=
  let g := Gathered.ofNumeral n
  let isInteger := n.isInteger && g.scale == 0
  if isInteger && !n.isNegative then some (.int g.significand)
  else if isInteger && g.significand != 0 && g.significand ≤ 0x8000000000000000 then
    some (.int (-(g.significand : Int)))
  else (g.toDouble?).map fun d => .float (d.withSign n.isNegative)

end DocFilter
