import DocFilter.Proofs.Lexing
import DocFilter.Proofs.Predicates

/-!
# The grammar of numerals

```text
numeral  = sign? (digit+ ("." digit*)? | "." digit+) exponent?
exponent = ("e" | "E") sign? digit+
sign     = "+" | "-"
```

A numeral is kept part by part, and it is one of the grammar if each part
is (`Numeral.Spelled`). Scanning reads exactly these. What it reads is of
the grammar (`Numeral.spelled_of_scan`), and it reads a numeral of the
grammar to its end, wherever the next character cannot go on with one
(`Numeral.scan_chars_append`). So whether a text as a whole is a numeral
can be decided by scanning it (`isNumeral_iff`).
-/

namespace DocFilter

/-! ## Runs of characters -/

/-- What follows a run of characters is left by it. -/
theorem Text.dropWhile_run {p : Char → Bool} {a b : List Char} (ha : ∀ c ∈ a, p c = true)
    (hb : ∀ c, b.head? = some c → p c = false) : (a ++ b).dropWhile p = b := by
  have happ := List.takeWhile_append_dropWhile (p := p) (l := a ++ b)
  rw [takeWhile_run ha hb] at happ
  exact List.append_cancel_left happ

namespace Decimal

/-! ## The grammar -/

/-- **A sign, or none.** -/
def IsSign (cs : List Char) : Prop :=
  cs = [] ∨ cs = ['+'] ∨ cs = ['-']

/-- **An exponent part of the grammar.** -/
structure Exponent.Spelled (e : Exponent) : Prop where
  /-- The mark is an `e` of either case. -/
  mark : e.mark = 'e' ∨ e.mark = 'E'
  /-- There may be a sign. -/
  sign : IsSign e.sign
  /-- The digits are digits. -/
  digits : ∀ d ∈ e.digits, d.isDigit = true
  /-- There is a digit. -/
  ne_nil : e.digits ≠ []

/-- **A numeral of the grammar.** -/
structure Numeral.Spelled (n : Numeral) : Prop where
  /-- There may be a sign. -/
  sign : IsSign n.sign
  /-- The digits before the point are digits. -/
  whole : ∀ d ∈ n.whole, d.isDigit = true
  /-- So are those after it. -/
  fraction : ∀ ds, n.fraction = some ds → ∀ d ∈ ds, d.isDigit = true
  /-- There is a digit before the point or after it. -/
  digit : n.whole ≠ [] ∨ n.fraction.getD [] ≠ []
  /-- There may be an exponent part. -/
  exponent : ∀ e, n.exponent = some e → e.Spelled

/-- **A text that is a numeral as a whole.** -/
def IsNumeral (cs : List Char) : Prop :=
  ∃ n : Numeral, n.Spelled ∧ n.chars = cs

/-! ## What is scanned is of the grammar -/

theorem isSign_scanSign (cs : List Char) : IsSign (scanSign cs).1 := by
  fun_cases scanSign cs with
  | case1 => exact .inr (.inl rfl)
  | case2 => exact .inr (.inr rfl)
  | case3 => exact .inl rfl

theorem isDigit_of_mem_scanDigits (cs : List Char) : ∀ d ∈ (scanDigits cs).1, d.isDigit = true :=
  List.all_eq_true.mp List.all_takeWhile

theorem spelled_of_scanExponent {cs rest : List Char} {e : Exponent}
    (h : scanExponent cs = (some e, rest)) : e.Spelled := by
  cases cs with
  | nil => cases h
  | cons c cs =>
    rw [scanExponent] at h
    dsimp only at h
    split at h
    · rename_i hmark
      obtain ⟨rfl, -⟩ := Prod.mk.inj h |>.imp_left Option.some.inj
      exact ⟨hmark.1, isSign_scanSign cs, isDigit_of_mem_scanDigits _, hmark.2⟩
    · cases h

/-- **A scanned numeral is of the grammar.** -/
theorem Numeral.spelled_of_scan {cs rest : List Char} {n : Numeral}
    (h : Numeral.scan cs = some (n, rest)) : n.Spelled := by
  unfold Numeral.scan at h
  dsimp only at h
  split at h
  · cases h
  · rename_i hdigit
    obtain ⟨rfl, -⟩ := Prod.mk.inj (Option.some.inj h)
    refine ⟨isSign_scanSign cs, isDigit_of_mem_scanDigits _, fun ds hds => ?_, ?_, fun e he => ?_⟩
    · dsimp only at hds
      revert hds
      fun_cases scanFraction (scanDigits (scanSign cs).2).2 with
      | case1 more =>
        intro hds
        rw [← Option.some.inj hds]
        exact isDigit_of_mem_scanDigits more
      | case2 => exact fun hds => by cases hds
    · exact Decidable.not_and_iff_not_or_not.mp hdigit
    · exact spelled_of_scanExponent (Prod.ext he rfl)

/-! ## What is of the grammar is scanned -/

/-- A character that can go on with a numeral. -/
def continuesNumeral (c : Char) : Bool :=
  c.isDigit || c == '.' || c == 'e' || c == 'E'

/-- **What follows a numeral and is not part of it.** -/
def EndsNumeral (rest : List Char) : Prop :=
  ∀ c, rest.head? = some c → continuesNumeral c = false

theorem EndsNumeral.not_isDigit {rest : List Char} (h : EndsNumeral rest) :
    ∀ c, rest.head? = some c → c.isDigit = false := by
  intro c hc
  have hcont := h c hc
  simp only [continuesNumeral, Bool.or_eq_false_iff] at hcont
  exact hcont.1.1.1

/-- A digit is not a sign. -/
theorem ne_sign_of_isDigit {c : Char} (h : c.isDigit = true) : c ≠ '+' ∧ c ≠ '-' := by
  constructor
  · rintro rfl
    exact absurd h (by decide)
  · rintro rfl
    exact absurd h (by decide)

theorem scanSign_append_of_isSign {sign rest : List Char} (hs : IsSign sign)
    (hrest : ∀ c, rest.head? = some c → c ≠ '+' ∧ c ≠ '-') :
    scanSign (sign ++ rest) = (sign, rest) := by
  rcases hs with rfl | rfl | rfl
  · refine scanSign.eq_3 rest (fun more hmore => ?_) (fun more hmore => ?_)
    · exact (hrest '+' (by rw [hmore]; rfl)).1 rfl
    · exact (hrest '-' (by rw [hmore]; rfl)).2 rfl
  · rfl
  · rfl

theorem scanDigits_append_of_isDigit {ds rest : List Char} (hd : ∀ d ∈ ds, d.isDigit = true)
    (hrest : ∀ c, rest.head? = some c → c.isDigit = false) :
    scanDigits (ds ++ rest) = (ds, rest) := by
  unfold scanDigits
  rw [Text.takeWhile_run hd hrest, Text.dropWhile_run hd hrest]

theorem scanFraction_append_of_isDigit {fraction : Option (List Char)} {rest : List Char}
    (hf : ∀ ds, fraction = some ds → ∀ d ∈ ds, d.isDigit = true)
    (hrest : ∀ c, rest.head? = some c → c.isDigit = false ∧ c ≠ '.') :
    scanFraction (fractionChars fraction ++ rest) = (fraction, rest) := by
  cases fraction with
  | none =>
    refine scanFraction.eq_2 rest (fun more hmore => ?_)
    exact (hrest '.' (by rw [hmore]; rfl)).2 rfl
  | some ds =>
    show scanFraction ('.' :: (ds ++ rest)) = _
    rw [scanFraction, scanDigits_append_of_isDigit (hf ds rfl) (fun c hc => (hrest c hc).1)]

theorem scanExponent_append_of_spelled {exponent : Option Exponent} {rest : List Char}
    (he : ∀ e, exponent = some e → e.Spelled) (hrest : EndsNumeral rest) :
    scanExponent (exponentChars exponent ++ rest) = (exponent, rest) := by
  cases exponent with
  | none =>
    cases rest with
    | nil => rfl
    | cons c cs =>
      have hc := hrest c rfl
      simp only [continuesNumeral, Bool.or_eq_false_iff, beq_eq_false_iff_ne] at hc
      show scanExponent (c :: cs) = _
      rw [scanExponent]
      exact if_neg (fun h => h.1.elim hc.1.2 hc.2)
  | some e =>
    obtain ⟨mark, sign, digits⟩ := e
    obtain ⟨hmark, hsign, hdigits, hne⟩ := he _ rfl
    -- the sign is followed by a digit
    have hnext : ∀ c, (digits ++ rest).head? = some c → c ≠ '+' ∧ c ≠ '-' := by
      intro c hc
      obtain ⟨d, ds, rfl⟩ := List.exists_cons_of_ne_nil hne
      obtain rfl := Option.some.inj hc
      exact ne_sign_of_isDigit (hdigits d List.mem_cons_self)
    have hchars : exponentChars (some ⟨mark, sign, digits⟩) ++ rest
        = mark :: (sign ++ (digits ++ rest)) := by
      simp [exponentChars, Exponent.chars]
    rw [hchars, scanExponent, scanSign_append_of_isSign hsign hnext]
    dsimp only
    rw [scanDigits_append_of_isDigit hdigits hrest.not_isDigit]
    exact if_pos ⟨hmark, hne⟩

/-- What is spelled before the exponent part does not run into it. -/
theorem exponentChars_head {exponent : Option Exponent} {rest : List Char}
    (he : ∀ e, exponent = some e → e.Spelled) (hrest : EndsNumeral rest) (c : Char)
    (hc : (exponentChars exponent ++ rest).head? = some c) : c.isDigit = false ∧ c ≠ '.' := by
  cases exponent with
  | none =>
    have hcont := hrest c hc
    simp only [continuesNumeral, Bool.or_eq_false_iff, beq_eq_false_iff_ne] at hcont
    exact ⟨hcont.1.1.1, hcont.1.1.2⟩
  | some e =>
    obtain rfl : e.mark = c := Option.some.inj hc
    rcases (he e rfl).mark with hmark | hmark <;> rw [hmark] <;> decide

/-- **A numeral of the grammar is scanned to its end.** -/
theorem Numeral.scan_chars_append {n : Numeral} (h : n.Spelled) {rest : List Char}
    (hrest : EndsNumeral rest) : Numeral.scan (n.chars ++ rest) = some (n, rest) := by
  obtain ⟨sign, whole, fraction, exponent⟩ := n
  obtain ⟨hsign, hwhole, hfraction, hdigit, hexponent⟩ := h
  have hchars : Numeral.chars ⟨sign, whole, fraction, exponent⟩ ++ rest
      = sign ++ (whole ++ (fractionChars fraction ++ (exponentChars exponent ++ rest))) := by
    simp [Numeral.chars]
  have hexp := exponentChars_head hexponent hrest
  -- the digits before the point end at the point, or where the exponent part begins
  have hpoint : ∀ c, (fractionChars fraction ++ (exponentChars exponent ++ rest)).head? = some c →
      c.isDigit = false := by
    intro c hc
    cases fraction with
    | none => exact (hexp c hc).1
    | some ds =>
      obtain rfl := Option.some.inj hc
      decide
  -- the sign is followed by a digit or by the point
  have hnext : ∀ c, (whole ++ (fractionChars fraction ++ (exponentChars exponent ++ rest))).head?
      = some c → c ≠ '+' ∧ c ≠ '-' := by
    intro c hc
    cases whole with
    | cons d ds =>
      obtain rfl := Option.some.inj hc
      exact ne_sign_of_isDigit (hwhole d List.mem_cons_self)
    | nil =>
      cases fraction with
      | none => exact absurd rfl (hdigit.resolve_left (fun hne => hne rfl))
      | some ds =>
        obtain rfl := Option.some.inj hc
        decide
  unfold Numeral.scan
  rw [hchars, scanSign_append_of_isSign hsign hnext]
  dsimp only
  rw [scanDigits_append_of_isDigit hwhole hpoint]
  dsimp only
  rw [scanFraction_append_of_isDigit hfraction hexp]
  dsimp only
  rw [if_neg (Decidable.not_and_iff_not_or_not.mpr hdigit),
    scanExponent_append_of_spelled hexponent hrest]

/-- **A numeral is read back from its characters.** -/
theorem Numeral.ofChars?_chars {n : Numeral} (h : n.Spelled) :
    Numeral.ofChars? n.chars = some n := by
  have hend : EndsNumeral [] := fun c hc => by cases hc
  have hscan := Numeral.scan_chars_append h hend
  rw [List.append_nil] at hscan
  rw [Numeral.ofChars?, hscan]

/-- **A text is a numeral exactly when scanning leaves nothing of it.** -/
theorem isNumeral_iff {cs : List Char} : IsNumeral cs ↔ (Numeral.ofChars? cs).isSome = true := by
  constructor
  · rintro ⟨n, hn, rfl⟩
    rw [Numeral.ofChars?_chars hn]
    rfl
  · intro h
    unfold Numeral.ofChars? at h
    split at h
    · rename_i n hscan
      refine ⟨n, Numeral.spelled_of_scan hscan, ?_⟩
      rw [← Numeral.scan_append hscan, List.append_nil]
    · cases h

instance : DecidablePred IsNumeral := fun _ => decidable_of_iff _ isNumeral_iff.symm

/-! ## The characters of numerals -/

/-- A character that a numeral can have. -/
def isNumeralChar (c : Char) : Bool :=
  continuesNumeral c || c == '+' || c == '-'

theorem isNumeralChar_of_isDigit {c : Char} (h : c.isDigit = true) : isNumeralChar c = true := by
  simp [isNumeralChar, continuesNumeral, h]

theorem IsSign.chars {sign : List Char} (h : IsSign sign) :
    ∀ c ∈ sign, isNumeralChar c = true := by
  rcases h with rfl | rfl | rfl <;> simp [isNumeralChar]

/-- **A numeral has no other characters.** -/
theorem IsNumeral.chars {cs : List Char} (h : IsNumeral cs) :
    ∀ c ∈ cs, isNumeralChar c = true := by
  obtain ⟨n, hn, rfl⟩ := h
  have hfraction : ∀ c ∈ fractionChars n.fraction, isNumeralChar c = true := by
    cases hf : n.fraction with
    | none => exact fun c hc => by cases hc
    | some ds =>
      refine List.forall_mem_cons.mpr ⟨by decide, fun c hc => ?_⟩
      exact isNumeralChar_of_isDigit (hn.fraction ds hf c hc)
  have hexponent : ∀ c ∈ exponentChars n.exponent, isNumeralChar c = true := by
    cases he : n.exponent with
    | none => exact fun c hc => by cases hc
    | some e =>
      have hs := hn.exponent e he
      refine List.forall_mem_append.mpr ⟨List.forall_mem_cons.mpr ⟨?_, hs.sign.chars⟩, ?_⟩
      · rcases hs.mark with hmark | hmark <;> rw [hmark] <;> decide
      · exact fun c hc => isNumeralChar_of_isDigit (hs.digits c hc)
  unfold Numeral.chars
  simp only [List.forall_mem_append]
  exact ⟨⟨⟨hn.sign.chars, fun c hc => isNumeralChar_of_isDigit (hn.whole c hc)⟩, hfraction⟩,
    hexponent⟩

/-- **A numeral has a digit.** -/
theorem IsNumeral.exists_digit {cs : List Char} (h : IsNumeral cs) :
    ∃ d ∈ cs, d.isDigit = true := by
  obtain ⟨n, hn, rfl⟩ := h
  rcases hn.digit with hne | hne
  · obtain ⟨d, hd⟩ := List.exists_mem_of_ne_nil n.whole hne
    exact ⟨d, by simp [Numeral.chars, hd], hn.whole d hd⟩
  · cases hf : n.fraction with
    | none =>
      rw [hf] at hne
      exact absurd rfl hne
    | some ds =>
      rw [hf] at hne
      obtain ⟨d, hd⟩ := List.exists_mem_of_ne_nil ds hne
      have hd' : d ∈ ds := hd
      exact ⟨d, by simp [Numeral.chars, hf, fractionChars, hd'], hn.fraction ds hf d hd⟩

/-! ## Integers -/

/-- The numeral of an integer, in decimal digits. -/
def intNumeral (n : Int) : Numeral :=
  ⟨if n < 0 then ['-'] else [], Nat.toDigits 10 n.natAbs, none, none⟩

theorem intNumeral_chars (n : Int) : (intNumeral n).chars = intChars n := by
  simp [Numeral.chars, intNumeral, intChars, fractionChars, exponentChars]

theorem intNumeral_spelled (n : Int) : (intNumeral n).Spelled where
  sign := by
    show IsSign (if n < 0 then ['-'] else [])
    split
    · exact .inr (.inr rfl)
    · exact .inl rfl
  whole := fun d hd => Nat.isDigit_of_mem_toDigits (by decide) (by decide) hd
  fraction := fun ds hds => by cases hds
  digit := .inl Nat.toDigits_ne_nil
  exponent := fun e he => by cases he

/-- **The numeral of an integer has its value.** -/
theorem intNumeral_integerValue (n : Int) : (intNumeral n).integerValue = n := by
  have hdigits : digitsValue (Nat.toDigits 10 n.natAbs) = n.natAbs := Nat.ofDigitChars_ten_toDigits
  have hsign : (intNumeral n).isNegative = decide (n < 0) := by
    by_cases hn : n < 0 <;> simp [Numeral.isNegative, intNumeral, hn]
  have hwhole : digitsValue (intNumeral n).whole = n.natAbs := hdigits
  rw [Numeral.integerValue, hsign, hwhole]
  by_cases hn : n < 0
  · rw [if_pos (decide_eq_true hn)]
    omega
  · rw [if_neg (by simpa using hn)]
    omega

end Decimal

end DocFilter
