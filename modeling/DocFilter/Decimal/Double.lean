import DocFilter.Decimal.Numeral

/-!
# Double-precision numbers

A **double** is a binary64 number: finite, infinite or not a number. The
finite magnitudes are kept by **rank**, their place in ascending order:
rank 0 is zero, rank 1 the least positive double, and the ranks end where
infinity begins. A rank is also the magnitude's bit pattern, which is why
`significand` and `exponent` can be read off it.

Every value enters through one rounding, `Double.ofRatio`: to the nearest
double, a tie going to the even significand. Products and quotients are
exact ratios first and rounded once.
-/

namespace DocFilter.Decimal

/-- The number of finite magnitudes. -/
def Double.ranks : Nat := 0x7ff0000000000000

/-- **A binary64 number.** -/
inductive Double where
  /-- A finite number: its sign and the place of its magnitude among all
  finite magnitudes. -/
  | finite (negative : Bool) (rank : Fin Double.ranks)
  /-- An infinity of either sign. -/
  | infinity (negative : Bool)
  /-- The value that is not a number. -/
  | nan
  deriving DecidableEq

/-- **Round a quotient to the nearest natural number**, ties to even. -/
def roundDiv (num den : Nat) : Nat :=
  let q := num / den
  let twice := 2 * (num % den)
  if twice < den then q
  else if den < twice then q + 1
  else if q % 2 = 0 then q else q + 1

namespace Double

/-- Zero of either sign. -/
def zero (negative : Bool) : Double :=
  .finite negative ⟨0, by decide⟩

/-- The double of a magnitude's rank; past the last rank lies infinity. -/
def ofRank (negative : Bool) (rank : Nat) : Double :=
  if h : rank < ranks then .finite negative ⟨rank, h⟩ else .infinity negative

/-- Whether the number is finite. -/
def isFinite : Double → Bool
  | .finite _ _ => true
  | _ => false

/-- How many ranks share a power of two. -/
def ranksPerPower : Nat := 0x10000000000000

/-- The integer that a rank's power of two is multiplied by. -/
def significand (rank : Nat) : Nat :=
  if rank < ranksPerPower then rank else ranksPerPower + rank % ranksPerPower

/-- How far a rank's power of two lies above the least one, `2 ^ -1074`. -/
def shift (rank : Nat) : Nat :=
  rank / ranksPerPower - 1

/-- A magnitude as an exact ratio. -/
def ratio (rank : Nat) : Nat × Nat :=
  (significand rank * Nat.pow 2 (shift rank), Nat.pow 2 1074)

/-- **The double nearest to a ratio.** The power of two is chosen so that
the quotient has 53 bits, or is the least one there is. -/
def ofRatio (negative : Bool) (num den : Nat) : Double :=
  if num = 0 ∨ den = 0 then zero negative
  else
    let span : Int := num.log2 - den.log2
    let reaches : Bool :=
      den * Nat.pow 2 span.toNat ≤ num * Nat.pow 2 (-span).toNat
    let power : Int := max (-1074) ((if reaches then span else span - 1) - 52)
    let rounded := roundDiv (num * Nat.pow 2 (-power).toNat) (den * Nat.pow 2 power.toNat)
    ofRank negative ((power + 1074).toNat * ranksPerPower + rounded)

/-- **The double nearest to `digits * 10 ^ scale`.** Far outside the range
of doubles the answer is known without computing the power. -/
def ofDecimal (negative : Bool) (digits : Nat) (scale : Int) : Double :=
  if digits = 0 then zero negative
  else
    let magnitude : Int := (Nat.toDigits 10 digits).length + scale
    if magnitude > 400 then .infinity negative
    else if magnitude < -400 then zero negative
    else ofRatio negative (digits * Nat.pow 10 scale.toNat) (Nat.pow 10 (-scale).toNat)

/-- The double nearest to a natural number. -/
def ofNat (n : Nat) : Double :=
  ofRatio false n 1

/-- Multiply a double by the magnitude of another, rounding once. -/
def scaleUp : Double → Double → Double
  | .finite s a, .finite _ b =>
    let (num, den) := ratio a
    let (num', den') := ratio b
    ofRatio s (num * num') (den * den')
  | .finite s _, .infinity _ => .infinity s
  | x, _ => x

/-- Divide a double by the magnitude of another, rounding once. -/
def scaleDown : Double → Double → Double
  | .finite s a, .finite _ b =>
    let (num, den) := ratio a
    let (num', den') := ratio b
    ofRatio s (num * den') (den * num')
  | .finite s _, .infinity _ => zero s
  | x, _ => x

/-- The same magnitude with a given sign. -/
def withSign (negative : Bool) : Double → Double
  | .finite _ r => .finite negative r
  | .infinity _ => .infinity negative
  | .nan => .nan

end Double

/-- **The double nearest to a numeral's value.** -/
def Numeral.toDouble (n : Numeral) : Double :=
  Double.ofDecimal n.isNegative n.significand n.scale

/-- The double that a text names: a numeral, or one of the words `inf`,
`infinity` and `nan` in any case, with an optional sign. -/
def Double.ofText? (cs : List Char) : Option Double :=
  match Numeral.ofChars? cs with
  | some n => some n.toDouble
  | none =>
    let (sign, word) := scanSign cs
    let word := word.map Char.toLower
    if word = "inf".toList ∨ word = "infinity".toList then some (.infinity (sign = ['-']))
    else if word = "nan".toList then some .nan
    else none

end DocFilter.Decimal
