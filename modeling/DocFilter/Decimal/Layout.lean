import DocFilter.Decimal.Shortest

/-!
# How a double is written

The digits of a double are settled by `shortest`; a **layout** says how
they are set out: which exponents are written positionally, whether a
whole number keeps a point, how an exponent is signed and what stands for
the values that are not finite.
-/

namespace DocFilter.Decimal

/-- **The choices of a written form.** -/
structure Layout where
  /-- The least and the greatest exponent written positionally; `none`
  when every one is. -/
  positional : Option (Int × Int)
  /-- Whether a positional whole number ends in `.0`. -/
  keepsPoint : Bool
  /-- Whether a positive exponent carries a plus sign. -/
  signsExponent : Bool
  /-- Which of two equally near shortest decimals is written. -/
  tie : Tie

namespace Layout

/-- Digits with the point in its place: `scale` is the power of ten of the
last digit. -/
def positionalChars (l : Layout) (digits : List Char) (scale : Int) : List Char :=
  if 0 ≤ scale then
    digits ++ List.replicate scale.toNat '0' ++ (if l.keepsPoint then ['.', '0'] else [])
  else
    let places := (-scale).toNat
    let padded := List.replicate (places + 1 - digits.length) '0' ++ digits
    let split := padded.length - places
    padded.take split ++ '.' :: padded.drop split

/-- One digit before the point and an exponent. -/
def scientificChars (l : Layout) (digits : List Char) (exponent : Int) : List Char :=
  let mantissa := match digits with
    | [] => []
    | [d] => [d]
    | d :: ds => d :: '.' :: ds
  let sign := if exponent < 0 then ['-'] else if l.signsExponent then ['+'] else []
  mantissa ++ 'e' :: sign ++ Nat.toDigits 10 exponent.natAbs

/-- A finite magnitude, by rank. -/
def magnitudeChars (l : Layout) (rank : Nat) : List Char :=
  if rank = 0 then l.positionalChars ['0'] 0
  else
    let s := shortest l.tie rank
    let digits := Nat.toDigits 10 s.digits
    let exponent := s.scale + digits.length - 1
    let isPositional := match l.positional with
      | none => true
      | some (least, greatest) => decide (least ≤ exponent ∧ exponent ≤ greatest)
    if isPositional then l.positionalChars digits s.scale
    else l.scientificChars digits exponent

/-- **The written form of a double.** -/
def write (l : Layout) : Double → String
  | .finite negative rank =>
    String.ofList ((if negative then ['-'] else []) ++ l.magnitudeChars rank)
  | .infinity negative => if negative then "-inf" else "inf"
  | .nan => "NaN"

end Layout

end DocFilter.Decimal
