/-!
# Decimal numerals

A **numeral** is a number as it is spelled: an optional sign, digits with
an optional point among, before or after them, and an optional power of
ten. `Numeral.scan` reads the longest numeral at the head of a text and
`Numeral.chars` spells it again, so nothing of the spelling is lost on
the way to a value.

The value of a numeral is kept exact: its digits as one natural number
(`Numeral.significand`) and a power of ten (`Numeral.scale`). Rounding is
a matter of the type it is read into.
-/

namespace DocFilter.Decimal

/-- The value of a run of decimal digits, most significant first. -/
def digitsValue (ds : List Char) : Nat :=
  ds.foldl (fun n d => 10 * n + (d.toNat - '0'.toNat)) 0

/-- A natural number in decimal digits. -/
def natText (n : Nat) : String :=
  String.ofList (Nat.toDigits 10 n)

/-- The characters of an integer in decimal digits, a minus sign first if
it is negative. -/
def intChars (n : Int) : List Char :=
  (if n < 0 then ['-'] else []) ++ Nat.toDigits 10 n.natAbs

/-- An integer in decimal digits. -/
def intText (n : Int) : String :=
  String.ofList (intChars n)

/-- **An exponent part**: the mark `e` or `E`, a sign or none, and digits. -/
structure Exponent where
  /-- The mark as it is spelled. -/
  mark : Char
  /-- The sign as it is spelled, empty if there is none. -/
  sign : List Char
  /-- The digits, at least one. -/
  digits : List Char
  deriving DecidableEq

/-- **A decimal numeral**, part by part as it is spelled. -/
structure Numeral where
  /-- The sign as it is spelled, empty if there is none. -/
  sign : List Char
  /-- The digits before the point. -/
  whole : List Char
  /-- The digits after the point; `none` when there is no point. -/
  fraction : Option (List Char)
  /-- The power of ten, if one is written. -/
  exponent : Option Exponent
  deriving DecidableEq

/-- The characters of an exponent part. -/
def Exponent.chars (e : Exponent) : List Char :=
  e.mark :: e.sign ++ e.digits

/-- The characters of an optional exponent part. -/
def exponentChars : Option Exponent → List Char
  | none => []
  | some e => e.chars

/-- The characters of an optional fraction, its point first. -/
def fractionChars : Option (List Char) → List Char
  | none => []
  | some ds => '.' :: ds

/-- The exponent as a number. -/
def Exponent.value (e : Exponent) : Int :=
  if e.sign = ['-'] then -(digitsValue e.digits : Int) else digitsValue e.digits

/-! ## Scanning

Each part is the longest one that stands at the head of what is left, and
comes with what follows it. -/

/-- A sign at the head of the text, or nothing. -/
def scanSign : List Char → List Char × List Char
  | '+' :: cs => (['+'], cs)
  | '-' :: cs => (['-'], cs)
  | cs => ([], cs)

/-- The run of digits at the head of the text. -/
def scanDigits (cs : List Char) : List Char × List Char :=
  (cs.takeWhile Char.isDigit, cs.dropWhile Char.isDigit)

/-- A point and the digits after it. -/
def scanFraction : List Char → Option (List Char) × List Char
  | '.' :: cs => (some (scanDigits cs).1, (scanDigits cs).2)
  | cs => (none, cs)

/-- An exponent part; a mark without digits after it is none. -/
def scanExponent : List Char → Option Exponent × List Char
  | [] => (none, [])
  | c :: cs =>
    let (sign, afterSign) := scanSign cs
    let (digits, rest) := scanDigits afterSign
    if (c = 'e' ∨ c = 'E') ∧ digits ≠ [] then (some ⟨c, sign, digits⟩, rest)
    else (none, c :: cs)

/-- **The longest numeral at the head of a text**, with the rest. There
must be a digit on one side of the point. -/
def Numeral.scan (cs : List Char) : Option (Numeral × List Char) :=
  let (sign, afterSign) := scanSign cs
  let (whole, afterWhole) := scanDigits afterSign
  let (fraction, afterFraction) := scanFraction afterWhole
  if whole = [] ∧ fraction.getD [] = [] then none
  else
    let (exponent, rest) := scanExponent afterFraction
    some (⟨sign, whole, fraction, exponent⟩, rest)

/-- The numeral that the whole text spells, if it spells one. -/
def Numeral.ofChars? (cs : List Char) : Option Numeral :=
  match Numeral.scan cs with
  | some (n, []) => some n
  | _ => none

namespace Numeral

/-- The characters of a numeral. -/
def chars (n : Numeral) : List Char :=
  n.sign ++ n.whole ++ fractionChars n.fraction ++ exponentChars n.exponent

/-- Whether a minus sign is written. -/
def isNegative (n : Numeral) : Bool :=
  n.sign = ['-']

/-- Whether the numeral is a sign and digits only, without point and
exponent. -/
def isInteger (n : Numeral) : Bool :=
  n.fraction.isNone && n.exponent.isNone

/-- All digits before the exponent, read as one number. -/
def significand (n : Numeral) : Nat :=
  digitsValue (n.whole ++ n.fraction.getD [])

/-- The power of ten that the significand is multiplied by. -/
def scale (n : Numeral) : Int :=
  (match n.exponent with | none => 0 | some e => e.value) - (n.fraction.getD []).length

/-- **The value of a numeral without point and exponent.** -/
def integerValue (n : Numeral) : Int :=
  if n.isNegative then -(digitsValue n.whole : Int) else digitsValue n.whole

end Numeral

/-! ## Nothing is lost -/

/-- A sign and the rest make up the text. -/
theorem scanSign_append (cs : List Char) : (scanSign cs).1 ++ (scanSign cs).2 = cs := by
  unfold scanSign; split <;> simp

/-- A run of digits and the rest make up the text. -/
theorem scanDigits_append (cs : List Char) : (scanDigits cs).1 ++ (scanDigits cs).2 = cs :=
  List.takeWhile_append_dropWhile

/-- An exponent part and the rest make up the text. -/
theorem scanExponent_append (cs : List Char) :
    exponentChars (scanExponent cs).1 ++ (scanExponent cs).2 = cs := by
  cases cs with
  | nil => rfl
  | cons c cs =>
    have hs := scanSign_append cs
    have hd := scanDigits_append (scanSign cs).2
    by_cases h : (c = 'e' ∨ c = 'E') ∧ (scanDigits (scanSign cs).2).1 ≠ []
    · simp [scanExponent, h, exponentChars, Exponent.chars, hd, hs]
    · simp [scanExponent, h, exponentChars]

/-- A fraction and the rest make up the text. -/
theorem scanFraction_append (cs : List Char) :
    fractionChars (scanFraction cs).1 ++ (scanFraction cs).2 = cs := by
  fun_cases scanFraction cs with
  | case1 r => simp [fractionChars, scanDigits_append r]
  | case2 => simp [fractionChars]

/-- **A scanned numeral and the rest make up the text.** -/
theorem Numeral.scan_append {cs rest : List Char} {n : Numeral}
    (h : Numeral.scan cs = some (n, rest)) : n.chars ++ rest = cs := by
  have hs := scanSign_append cs
  have hw := scanDigits_append (scanSign cs).2
  have hf := scanFraction_append (scanDigits (scanSign cs).2).2
  have he := scanExponent_append (scanFraction (scanDigits (scanSign cs).2).2).2
  simp only [Numeral.scan] at h
  split at h
  · cases h
  · simp only [Option.some.injEq, Prod.mk.injEq] at h
    obtain ⟨rfl, rfl⟩ := h
    simp only [Numeral.chars, List.append_assoc]
    rw [he, hf, hw, hs]

/-- A scanned numeral has at least one character. -/
theorem Numeral.chars_ne_nil {cs rest : List Char} {n : Numeral}
    (h : Numeral.scan cs = some (n, rest)) : n.chars ≠ [] := by
  simp only [Numeral.scan] at h
  split at h
  · cases h
  · rename_i hd
    simp only [Option.some.injEq, Prod.mk.injEq] at h
    obtain ⟨rfl, rfl⟩ := h
    intro hn
    simp only [Numeral.chars, List.append_eq_nil_iff] at hn
    obtain ⟨⟨⟨_, hw⟩, hf⟩, _⟩ := hn
    refine hd ⟨hw, ?_⟩
    cases hfr : (scanFraction (scanDigits (scanSign cs).2).2).1 with
    | none => rfl
    | some ds => simp [hfr, fractionChars] at hf

/-- What follows a scanned numeral is shorter than the text. -/
theorem Numeral.scan_length_lt {cs rest : List Char} {n : Numeral}
    (h : Numeral.scan cs = some (n, rest)) : rest.length < cs.length := by
  have hlen := congrArg List.length (Numeral.scan_append h)
  have hpos := List.length_pos_iff.2 (Numeral.chars_ne_nil h)
  rw [List.length_append] at hlen
  omega

end DocFilter.Decimal
