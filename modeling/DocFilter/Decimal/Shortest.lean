import DocFilter.Decimal.Double

/-!
# The shortest decimal that reads back

A finite double stands for every real that rounds to it, an interval
around its own value. Its **shortest decimal** is the one with the fewest
digits in that interval, and of two such the nearer. The search runs over
grids of one digit, two digits, and so on; on each grid only the two
neighbours of the value need a test, for if any point of the grid lies in
the interval then one of these does.

Everything is compared in exact natural-number arithmetic. When both
neighbours lie in the interval at the same distance, `Tie` decides.
-/

namespace DocFilter.Decimal

/-- **Which of two equally near decimals is taken.** -/
inductive Tie where
  /-- The one whose last digit is even. -/
  | even
  /-- The greater one. -/
  | away
  deriving DecidableEq

/-- **A positive decimal** `digits * 10 ^ scale`. -/
structure Scaled where
  /-- The digits as one number. -/
  digits : Nat
  /-- The power of ten. -/
  scale : Int
  deriving DecidableEq

/-- The interval that rounds to a magnitude, in quarters of its last
binary place, scaled by `2 ^ (shift - 1076)`. -/
structure Interval where
  /-- The lower end. -/
  lower : Nat
  /-- The value itself. -/
  value : Nat
  /-- The upper end. -/
  upper : Nat
  /-- Whether the ends belong to the interval. -/
  closed : Bool
  /-- The power of two above the least one. -/
  shift : Nat

namespace Interval

/-- The interval of a rank. Below a power of two the neighbours lie twice
as dense, so the lower half is shorter there. -/
def ofRank (rank : Nat) : Interval :=
  let m := Double.significand rank
  let narrow := rank % Double.ranksPerPower = 0 ∧ 1 < rank / Double.ranksPerPower
  { lower := 4 * m - (if narrow then 1 else 2)
    value := 4 * m
    upper := 4 * m + 2
    closed := m % 2 = 0
    shift := Double.shift rank }

/-- Units in which a point `k * 10 ^ scale` of a grid and an end of the
interval can be compared: `k` times the first against the end times the
second. -/
def units (i : Interval) (scale : Int) : Nat × Nat :=
  (Nat.pow 10 scale.toNat * Nat.pow 2 1076, Nat.pow 2 i.shift * Nat.pow 10 (-scale).toNat)

/-- Whether the point `k * 10 ^ scale` rounds to the value. -/
def holds (i : Interval) (scale : Int) (k : Nat) : Bool :=
  let (a, b) := i.units scale
  if i.closed then i.lower * b ≤ k * a && k * a ≤ i.upper * b
  else i.lower * b < k * a && k * a < i.upper * b

/-- The place of the first digit: the `e` with `10 ^ e ≤ value < 10 ^ (e + 1)`. -/
def leading (i : Interval) : Int :=
  let scaled := i.value * Nat.pow 2 i.shift * Nat.pow 10 400 / Nat.pow 2 1076
  ((Nat.toDigits 10 scaled).length : Int) - 401

/-- The better of the value's two neighbours on a grid, if one of them
rounds to it. -/
def onGrid (i : Interval) (tie : Tie) (scale : Int) : Option Nat :=
  let (a, b) := i.units scale
  let k := i.value * b / a
  match i.holds scale k, i.holds scale (k + 1) with
  | false, false => none
  | true, false => some k
  | false, true => some (k + 1)
  | true, true =>
    let twice := 2 * i.value * b
    let middle := (2 * k + 1) * a
    if twice < middle then some k
    else if middle < twice then some (k + 1)
    else match tie with
      | .even => if k % 2 = 0 then some k else some (k + 1)
      | .away => some (k + 1)

end Interval

/-- Move trailing zeros of the digits into the power of ten, at most
`fuel` of them. -/
def Scaled.strip : Nat → Scaled → Scaled
  | 0, s => s
  | fuel + 1, s =>
    if s.digits ≠ 0 ∧ s.digits % 10 = 0 then Scaled.strip fuel ⟨s.digits / 10, s.scale + 1⟩ else s

/-- **The shortest decimal of a positive rank.** Seventeen digits always
tell two doubles apart, so the search ends by then. -/
def shortest (tie : Tie) (rank : Nat) : Scaled :=
  let i := Interval.ofRank rank
  let e := i.leading
  let found := (List.range 17).findSome? fun (n : Nat) =>
    (i.onGrid tie (e - n)).map fun k => Scaled.mk k (e - n)
  (found.getD ⟨0, 0⟩).strip 20

end DocFilter.Decimal
