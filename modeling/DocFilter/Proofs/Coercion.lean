import DocFilter.Proofs.Refusals
import Mathlib.Data.Nat.Digits.Defs

/-!
# Numbers are read exactly

Two readers have to agree on what a number is. The lexer takes a run of
characters for a number, and only later, when it is known that a literal
is wanted, is the run read as a value. The value reader would refuse what
is no number, with the same error as for a number that is too large; what
is shown here is that it never has to.

Every number token is a numeral of the grammar (`isNumeral_of_tokenize`).
Without point and exponent it is a sign and digits, and it is read as the
integer that these spell, leading zeros and all, if that fits 64 bits
(`Literal.ofNumber_integer`). Otherwise it is read as the double nearest
to it, if that is finite (`Literal.ofNumber_double`).
-/

namespace DocFilter

open Decimal (IsNumeral IsSign Numeral digitsValue)

/-- A number is spelled as a double if a point or an exponent mark can be
seen in it. -/
theorem isDoubleSpelling_iff {cs : List Char} :
    isDoubleSpelling cs = true ↔ ∃ c ∈ cs, c = '.' ∨ c = 'e' ∨ c = 'E' := by
  simp [isDoubleSpelling, or_assoc]

/-! ## Values -/

namespace Decimal

/-- The value of a digit. -/
def digitValue (c : Char) : Nat :=
  c.toNat - '0'.toNat

/-- **The integer that a sign and digits spell.** -/
def signedValue (sign digits : List Char) : Int :=
  (if sign = ['-'] then -1 else 1) * (Nat.ofDigits 10 (digits.map digitValue).reverse : Nat)

/-- Digits are read from the left as they count from the right. -/
theorem digitsValue_eq_ofDigits (ds : List Char) :
    digitsValue ds = Nat.ofDigits 10 (ds.map digitValue).reverse := by
  rw [Nat.ofDigits_eq_foldr, List.foldr_reverse, List.foldl_map, digitsValue]
  refine congrArg (fun f => ds.foldl f 0) ?_
  funext n d
  exact Nat.add_comm (10 * n) (digitValue d)

theorem Numeral.integerValue_eq (n : Numeral) : n.integerValue = signedValue n.sign n.whole := by
  rw [integerValue, isNegative, digitsValue_eq_ofDigits, signedValue]
  by_cases h : n.sign = ['-'] <;> simp [h]

/-- A numeral that is not spelled as a double has neither point nor
exponent. -/
theorem Numeral.parts_of_not_isDoubleSpelling {n : Numeral} (h : n.Spelled)
    (hint : ¬ isDoubleSpelling n.chars = true) : n.fraction = none ∧ n.exponent = none := by
  constructor
  · by_contra hne
    obtain ⟨ds, hds⟩ := Option.ne_none_iff_exists'.mp hne
    have hpoint : '.' ∈ n.chars := by simp [chars, hds, fractionChars]
    exact hint (isDoubleSpelling_iff.mpr ⟨'.', hpoint, .inl rfl⟩)
  · by_contra hne
    obtain ⟨e, he⟩ := Option.ne_none_iff_exists'.mp hne
    have hmark : e.mark ∈ n.chars := by simp [chars, he, exponentChars, Exponent.chars]
    exact hint (isDoubleSpelling_iff.mpr ⟨e.mark, hmark, .inr (h.exponent e he).mark⟩)

end Decimal

/-! ## Literals -/

namespace Literal

variable {text : String} (h : IsNumeral text.toList) (position : Nat)

include h

/-- **A sign and digits are read as the integer they spell**, if it fits. -/
theorem ofNumber_integer (hint : ¬ isDoubleSpelling text.toList = true) :
    ∃ sign digits, text.toList = sign ++ digits ∧ IsSign sign
      ∧ digits ≠ [] ∧ (∀ d ∈ digits, d.isDigit = true)
      ∧ ofNumber text position
        = if fitsInt64 (Decimal.signedValue sign digits)
          then .ok (.int (Decimal.signedValue sign digits))
          else .error (.integerOutOfRange position text) := by
  obtain ⟨n, hn, hchars⟩ := h
  rw [← hchars] at hint
  obtain ⟨hfraction, hexponent⟩ := n.parts_of_not_isDoubleSpelling hn hint
  have hwhole : n.whole ≠ [] := by simpa [hfraction] using hn.digit
  refine ⟨n.sign, n.whole, ?_, hn.sign, hwhole, hn.whole, ?_⟩
  · rw [← hchars]
    simp [Numeral.chars, hfraction, hexponent, Decimal.fractionChars, Decimal.exponentChars]
  · rw [ofNumber, ← hchars, if_neg hint, Numeral.ofChars?_chars hn]
    dsimp only
    rw [n.integerValue_eq]

/-- **Any other number is read as the nearest double**, if that is finite. -/
theorem ofNumber_double (hdouble : isDoubleSpelling text.toList = true) :
    ∃ n : Numeral, n.Spelled ∧ n.chars = text.toList
      ∧ ofNumber text position
        = if n.toDouble.isFinite then .ok (.float n.toDouble)
          else .error (.nonFiniteNumber position text) := by
  obtain ⟨n, hn, hchars⟩ := h
  refine ⟨n, hn, hchars, ?_⟩
  rw [ofNumber, if_pos hdouble, ← hchars, Decimal.Double.ofText?, Numeral.ofChars?_chars hn]

end Literal

/-! ## Tokens -/

/-- **A number token is a numeral.** -/
theorem isNumeral_of_tokenize {s : String} {placed : List Placed} (h : tokenize s = .ok placed)
    {text : String} {position : Nat} (hmem : ⟨.literal (.number text), position⟩ ∈ placed) :
    IsNumeral text.toList := by
  obtain ⟨ts, hlexes, hts⟩ := Token.lexes_of_tokensFrom h
  have htoken : .literal (.number text) ∈ ts ++ [Token.eof] := by
    rw [hts]
    exact List.mem_map_of_mem hmem
  have hts : .literal (.number text) ∈ ts := by simpa using htoken
  exact Parser.writable_of_lexes hlexes _ hts

/-- **Numbers are read exactly.** Take any number token of any text. If it
has neither a point nor an exponent mark, it is a sign, or none, and
digits, and it is read as the integer that they spell just when this is a
64-bit integer; otherwise it is out of range, and the error has the token's
text and place. If it has a point or an exponent mark, it is of the grammar
of numerals, and it is read as the double nearest to its value; only where
this is not finite is it refused. -/
theorem tokenize_numbers_exact (s : String) (placed : List Placed) (h : tokenize s = .ok placed)
    (text : String) (position : Nat)
    (hmem : ⟨.literal (.number text), position⟩ ∈ placed) :
    ((∀ c ∈ text.toList, c ≠ '.' ∧ c ≠ 'e' ∧ c ≠ 'E') →
      ∃ sign digits, text.toList = sign ++ digits ∧ IsSign sign
        ∧ digits ≠ [] ∧ (∀ d ∈ digits, d.isDigit = true)
        ∧ (Literal.ofRaw (.number text) position = .ok (.int (Decimal.signedValue sign digits))
          ↔ -2 ^ 63 ≤ Decimal.signedValue sign digits
            ∧ Decimal.signedValue sign digits ≤ 2 ^ 63 - 1)
        ∧ (¬ (-2 ^ 63 ≤ Decimal.signedValue sign digits
            ∧ Decimal.signedValue sign digits ≤ 2 ^ 63 - 1) →
          Literal.ofRaw (.number text) position = .error (.integerOutOfRange position text)))
    ∧ ((∃ c ∈ text.toList, c = '.' ∨ c = 'e' ∨ c = 'E') →
      ∃ n : Numeral, n.Spelled ∧ n.chars = text.toList
        ∧ Literal.ofRaw (.number text) position
          = if n.toDouble.isFinite then .ok (.float n.toDouble)
            else .error (.nonFiniteNumber position text)) := by
  have hnum : IsNumeral text.toList := isNumeral_of_tokenize h hmem
  refine ⟨fun hint => ?_, fun hdouble => ?_⟩
  · have hspelling : ¬ isDoubleSpelling text.toList = true := by
      rw [isDoubleSpelling_iff]
      rintro ⟨c, hc, hmark⟩
      have hnone := hint c hc
      tauto
    obtain ⟨sign, digits, htext, hsign, hne, hdigits, hread⟩ :=
      Literal.ofNumber_integer hnum position hspelling
    have hfits : fitsInt64 (Decimal.signedValue sign digits) = true
        ↔ -2 ^ 63 ≤ Decimal.signedValue sign digits
          ∧ Decimal.signedValue sign digits ≤ 2 ^ 63 - 1 := by
      simp only [fitsInt64, Bool.and_eq_true, decide_eq_true_eq]
      omega
    refine ⟨sign, digits, htext, hsign, hne, hdigits, ?_, fun hout => ?_⟩
    · rw [← hfits, Literal.ofRaw, hread]
      split <;> simp_all
    · rw [Literal.ofRaw, hread, if_neg (fun hf => hout (hfits.mp hf))]
  · exact Literal.ofNumber_double hnum position (isDoubleSpelling_iff.mpr hdouble)

/-- The least 64-bit integer with a zero in front, the integer after the
greatest, and a number that is a point and a digit. -/
theorem tokenize_numbers_exact_bounds :
    tokenize "-09223372036854775808 9223372036854775808 .5"
      = .ok [⟨.literal (.number "-09223372036854775808"), 0⟩,
        ⟨.literal (.number "9223372036854775808"), 22⟩, ⟨.literal (.number ".5"), 42⟩, ⟨.eof, 44⟩]
    ∧ Literal.ofRaw (.number "-09223372036854775808") 0 = .ok (.int (-9223372036854775808))
    ∧ Literal.ofRaw (.number "9223372036854775808") 22
      = .error (.integerOutOfRange 22 "9223372036854775808")
    ∧ ∃ n : Numeral, n.Spelled ∧ n.chars = ['.', '5']
      ∧ Literal.ofRaw (.number ".5") 42
        = if n.toDouble.isFinite then .ok (.float n.toDouble)
          else .error (.nonFiniteNumber 42 ".5") := by
  have htokens : tokenize "-09223372036854775808 9223372036854775808 .5"
      = .ok [⟨.literal (.number "-09223372036854775808"), 0⟩,
        ⟨.literal (.number "9223372036854775808"), 22⟩, ⟨.literal (.number ".5"), 42⟩,
        ⟨.eof, 44⟩] := by
    cbv
  have hnumbers := tokenize_numbers_exact _ _ htokens
  refine ⟨htokens, ?_, ?_, (hnumbers ".5" 42 (by simp)).2 (by simp)⟩
  · obtain ⟨sign, digits, htext, hsign, -, hdigits, hread, -⟩ :=
      (hnumbers "-09223372036854775808" 0 (by simp)).1 (by simp)
    rcases hsign with rfl | rfl | rfl
    · subst htext
      exact absurd (hdigits '-' List.mem_cons_self) (by decide)
    · cases htext
    · obtain rfl := (List.cons.inj htext).2
      exact hread.mpr (by decide)
  · obtain ⟨sign, digits, htext, hsign, -, -, -, hout⟩ :=
      (hnumbers "9223372036854775808" 22 (by simp)).1 (by simp)
    rcases hsign with rfl | rfl | rfl
    · subst htext
      exact hout (by decide)
    · cases htext
    · cases htext

end DocFilter
