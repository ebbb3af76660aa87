import DocFilter.Decimal.Layout
import Mathlib.Data.Nat.Log
import Mathlib.Tactic.Ring

/-!
# Whole numbers as doubles

A whole number of at most 53 bits is a double, and written in its shortest
form it has the digits it always had. Neither is plain to see. The shortest
form is found by a search over grids of one digit, two digits and so on,
which stops at the first point that rounds to the double. The interval of
reals that do so reaches less than one to either side, so the only whole
number in it is the number itself (`IsWhole.holds_iff`). The grids that
the search tries first are of whole numbers, and it stops at the first of
them that the number lies on (`IsWhole.onGrid_eq`), with all its digits or
with all but some zeros at its end (`IsWhole.shortest_eq`), which the
layout puts back (`write_ofNat`).

In the other direction little can be said of a double, which may have been
rounded. But digits alone are written for whole numbers only, without a
zero in front and up to the size from which on there is an exponent
(`magnitudeChars_of_digits`).
-/

namespace DocFilter.Decimal

/-! ## Digits -/

/-- A digit is the digit of its value. -/
theorem digitChar_of_isDigit {c : Char} (h : c.isDigit = true) :
    Nat.digitChar (c.toNat - '0'.toNat) = c ∧ c.toNat - '0'.toNat < 10 := by
  have hrange : 48 ≤ c.toNat ∧ c.toNat ≤ 57 := Char.isDigit_iff_toNat.mp h
  have hzero : '0'.toNat = 48 := rfl
  refine ⟨Char.toNat_inj.mp ?_, by omega⟩
  rw [Nat.toNat_digitChar_of_lt_ten (by omega)]
  omega

/-- **More digits are written behind a number** as they are spelled. -/
theorem toDigits_append {n : Nat} (hn : 0 < n) {ds : List Char}
    (hds : ∀ d ∈ ds, d.isDigit = true) :
    Nat.toDigits 10 n ++ ds = Nat.toDigits 10 (Nat.ofDigitChars 10 ds n) := by
  induction ds generalizing n with
  | nil => simp
  | cons d ds ih =>
    obtain ⟨hd, hds⟩ := List.forall_mem_cons.mp hds
    obtain ⟨hchar, hlt⟩ := digitChar_of_isDigit hd
    have hone := Nat.toDigits_append_toDigits (b := 10) (by decide) hn hlt
    rw [Nat.toDigits_of_lt_base hlt, hchar] at hone
    rw [Nat.ofDigitChars_cons, ← ih (by omega) hds, ← hone]
    simp

/-- Zeros at the end are a power of ten. -/
theorem toDigits_mul_pow {n : Nat} (hn : 0 < n) (k : Nat) :
    Nat.toDigits 10 (n * 10 ^ k) = Nat.toDigits 10 n ++ List.replicate k '0' := by
  rw [toDigits_append hn (by simp), Nat.ofDigitChars_replicate_zero, Nat.mul_comm]

/-- **A number has no zero in front.** -/
theorem head_toDigits {n : Nat} (hn : 0 < n) : (Nat.toDigits 10 n).head? ≠ some '0' := by
  induction n using Nat.strongRecOn with
  | ind n ih =>
    rw [Nat.toDigits_eq_if (by decide)]
    split
    · rename_i hlt
      intro hzero
      have hchar : n.digitChar = '0' := by simpa using hzero
      have hval := Nat.toNat_digitChar_of_lt_ten hlt
      rw [hchar] at hval
      have : '0'.toNat = 48 := rfl
      omega
    · rw [List.head?_append, Option.or_of_isSome (by simp [Nat.toDigits_ne_nil])]
      exact ih (n / 10) (by omega) (by omega)

/-- **Digits without a zero in front are those of their value.** -/
theorem toDigits_digitsValue {d : Char} {ds : List Char} (hd : d ≠ '0')
    (hds : ∀ c ∈ d :: ds, c.isDigit = true) :
    Nat.toDigits 10 (digitsValue (d :: ds)) = d :: ds := by
  obtain ⟨hdigit, hds⟩ := List.forall_mem_cons.mp hds
  obtain ⟨hchar, hlt⟩ := digitChar_of_isDigit hdigit
  have hpos : 0 < d.toNat - '0'.toNat := by
    refine Nat.pos_of_ne_zero fun hzero => hd ?_
    rw [hzero] at hchar
    exact hchar.symm
  have happ := toDigits_append hpos hds
  rw [Nat.toDigits_of_lt_base hlt, hchar] at happ
  have hvalue : digitsValue (d :: ds) = Nat.ofDigitChars 10 ds (d.toNat - '0'.toNat) := by
    rw [digitsValue, List.foldl_cons, Nat.mul_zero, Nat.zero_add]
    rfl
  rw [hvalue, ← happ]
  rfl

/-! ## Intervals -/

namespace Interval

/-- One, on the scale of the ends of an interval. -/
def one : Nat := Nat.pow 2 1076

theorem one_pos : 0 < one := by
  unfold one
  generalize 1076 = k
  exact Nat.two_pow_pos k

/-- One in powers of two. -/
theorem one_eq {k : Nat} (hk : k + 2 = 1076) : one = 4 * 2 ^ k := by
  unfold one
  rw [← hk, Nat.pow_eq, Nat.pow_add]
  omega

/-- **The interval of a whole number** holds the number inside it and
reaches less than one to either side. -/
structure IsWhole (i : Interval) (n : Nat) : Prop where
  /-- The value is the number. -/
  value_eq : i.value * 2 ^ i.shift = n * one
  /-- The lower end is below the number. -/
  lower_lt : i.lower < i.value
  /-- The upper end is above it. -/
  lt_upper : i.value < i.upper
  /-- The lower end is above the number before. -/
  lt_lower : n * one < i.lower * 2 ^ i.shift + one
  /-- The upper end is below the number after. -/
  upper_lt : i.upper * 2 ^ i.shift < n * one + one

/-- The units of a grid of whole numbers. -/
theorem units_natCast (i : Interval) (j : Nat) : i.units j = (10 ^ j * one, 2 ^ i.shift) := by
  unfold units one
  generalize Nat.pow 2 1076 = unit
  rw [Int.toNat_natCast, Int.toNat_neg_natCast]
  exact congrArg (Prod.mk _) (Nat.mul_one _)

section

variable {i : Interval} {n : Nat}

/-- **The only whole number in it** is the number itself. -/
theorem IsWhole.holds_iff (h : i.IsWhole n) (j k : Nat) :
    i.holds j k = true ↔ k * 10 ^ j = n := by
  obtain ⟨hvalue, hlow, hupp, hlower, hupper⟩ := h
  rw [holds, units_natCast]
  dsimp only
  rw [← mul_assoc]
  generalize k * 10 ^ j = x
  have hlow := Nat.mul_lt_mul_of_pos_right hlow (Nat.two_pow_pos i.shift)
  have hupp := Nat.mul_lt_mul_of_pos_right hupp (Nat.two_pow_pos i.shift)
  have hends : i.lower * 2 ^ i.shift ≤ x * one ∧ x * one ≤ i.upper * 2 ^ i.shift → x = n := by
    rintro ⟨hl, hu⟩
    have hle : n * one < (x + 1) * one := by rw [Nat.add_mul]; omega
    have hge : x * one < (n + 1) * one := by rw [Nat.add_mul]; omega
    exact Nat.le_antisymm (Nat.lt_succ_iff.mp (Nat.lt_of_mul_lt_mul_right hge))
      (Nat.lt_succ_iff.mp (Nat.lt_of_mul_lt_mul_right hle))
  -- With its ends or without them, the interval holds the number and no other.
  split
  · simp only [Bool.and_eq_true, decide_eq_true_eq]
    refine ⟨hends, ?_⟩
    rintro rfl
    omega
  · simp only [Bool.and_eq_true, decide_eq_true_eq]
    refine ⟨fun hin => hends ⟨hin.1.le, hin.2.le⟩, ?_⟩
    rintro rfl
    omega

/-- **A grid of whole numbers has a point in it** if the number lies on the
grid, and the point is the number. -/
theorem IsWhole.onGrid_eq (h : i.IsWhole n) (tie : Tie) (j : Nat) :
    i.onGrid tie j = if 10 ^ j ∣ n then some (n / 10 ^ j) else none := by
  have hpos : 0 < 10 ^ j := Nat.pow_pos (by decide)
  have hquot : i.value * 2 ^ i.shift / (10 ^ j * one) = n / 10 ^ j := by
    rw [h.value_eq, Nat.mul_div_mul_right _ _ one_pos]
  have hnext : i.holds j (n / 10 ^ j + 1) = false := by
    refine Bool.eq_false_iff.mpr fun hin => ?_
    have heq := (h.holds_iff j _).mp hin
    have hlt := Nat.lt_mul_div_succ n hpos
    rw [Nat.mul_comm] at hlt
    omega
  rw [onGrid, units_natCast]
  dsimp only
  rw [hquot, hnext]
  by_cases hdvd : 10 ^ j ∣ n
  · rw [if_pos hdvd, (h.holds_iff j _).mpr (Nat.div_mul_cancel hdvd)]
  · have hout : i.holds j (n / 10 ^ j) = false := by
      refine Bool.eq_false_iff.mpr fun hin => hdvd ?_
      exact ⟨n / 10 ^ j, by rw [Nat.mul_comm]; exact ((h.holds_iff j _).mp hin).symm⟩
    rw [if_neg hdvd, hout]

/-- The first digit of a whole number stands as far up as it has digits. -/
theorem IsWhole.leading_eq (h : i.IsWhole n) (hn : 0 < n) :
    i.leading = (((Nat.toDigits 10 n).length - 1 : Nat) : Int) := by
  have hscaled : ∀ k, (Nat.toDigits 10 (i.value * Nat.pow 2 i.shift * Nat.pow 10 k / one)).length
      = (Nat.toDigits 10 n).length + k := by
    intro k
    have hvalue : i.value * Nat.pow 2 i.shift = n * one := h.value_eq
    rw [hvalue, Nat.mul_right_comm, Nat.mul_div_cancel _ one_pos, Nat.pow_eq, toDigits_mul_pow hn,
      List.length_append, List.length_replicate]
  have hlen : 0 < (Nat.toDigits 10 n).length := Nat.length_toDigits_pos
  unfold one at hscaled
  rw [leading, hscaled 400]
  omega

end

/-- A significand whose last places are zeros, as far as they lie behind
the point, is that of a whole number. -/
theorem isWhole_ofRank {rank n up : Nat} (hn : 0 < n) (hsig : Double.significand rank = n * 2 ^ up)
    (hshift : up + Double.shift rank = 1074) : (ofRank rank).IsWhole n := by
  have hpos : 0 < n * 2 ^ up := Nat.mul_pos hn (Nat.two_pow_pos up)
  have hplace := Nat.two_pow_pos (Double.shift rank)
  have hone : one = 4 * (2 ^ up * 2 ^ Double.shift rank) := by
    rw [one_eq (k := up + Double.shift rank) (by omega), Nat.pow_add]
  have hvalue : 4 * (n * 2 ^ up) * 2 ^ Double.shift rank = n * one := by
    rw [hone]
    ring
  have hbelow : 2 * 2 ^ Double.shift rank < one := by
    have hle := Nat.le_mul_of_pos_left (2 ^ Double.shift rank) (Nat.two_pow_pos up)
    omega
  have hlower : (ofRank rank).lower < (ofRank rank).value
      ∧ (ofRank rank).value ≤ (ofRank rank).lower + 2 := by
    unfold ofRank
    rw [hsig]
    dsimp only
    split
    · omega
    · omega
  have hupper : (ofRank rank).upper = (ofRank rank).value + 2 := rfl
  have hscaled := Nat.mul_le_mul_right (2 ^ Double.shift rank) hlower.2
  have hval : (ofRank rank).value = 4 * (n * 2 ^ up) := congrArg (4 * ·) hsig
  have hsh : (ofRank rank).shift = Double.shift rank := rfl
  refine ⟨?_, hlower.1, ?_, ?_, ?_⟩
  · rw [hval, hsh, hvalue]
  · omega
  · rw [hsh]
    rw [hval, hvalue, Nat.add_mul] at hscaled
    omega
  · rw [hupper, hsh, hval, Nat.add_mul, hvalue]
    omega

section

variable {i : Interval} {tie : Tie} {scale : Int} {k : Nat}

/-- What is found on a grid rounds to the value. -/
theorem holds_of_onGrid (h : i.onGrid tie scale = some k) : i.holds scale k = true := by
  rw [onGrid] at h
  dsimp only at h
  generalize i.value * (i.units scale).2 / (i.units scale).1 = q at h
  generalize i.units scale = u at h
  -- Each of the two neighbours is taken only if it was tested.
  generalize i.holds scale = rounds at *
  grind

/-- Zero rounds to no positive value. -/
theorem pos_of_holds (hlower : 0 < i.lower) (h : i.holds scale k = true) : 0 < k := by
  have hunits : 0 < (i.units scale).2 := by
    unfold units
    exact Nat.mul_pos (Nat.two_pow_pos _) (Nat.pow_pos (by decide))
  have hend := Nat.mul_pos hlower hunits
  have hle : i.lower * (i.units scale).2 ≤ k * (i.units scale).1 := by
    rw [holds] at h
    dsimp only at h
    split at h
    · simp only [Bool.and_eq_true, decide_eq_true_eq] at h
      exact h.1
    · simp only [Bool.and_eq_true, decide_eq_true_eq] at h
      exact h.1.le
  exact Nat.pos_of_mul_pos_right (hend.trans_le hle)

end

end Interval

/-! ## The search -/

/-- Moving zeros into the power of ten leaves a whole number as it is. -/
theorem Scaled.strip_natCast (fuel d j : Nat) :
    ∃ d' j' : Nat, Scaled.strip fuel ⟨d, j⟩ = ⟨d', j'⟩ ∧ d' * 10 ^ j' = d * 10 ^ j := by
  induction fuel generalizing d j with
  | zero => exact ⟨d, j, rfl, rfl⟩
  | succ fuel ih =>
    rw [strip]
    split
    · rename_i hzero
      obtain ⟨d', j', hstrip, heq⟩ := ih (d / 10) (j + 1)
      refine ⟨d', j', hstrip, heq.trans ?_⟩
      rw [Nat.pow_succ', ← Nat.mul_assoc, Nat.div_mul_cancel (Nat.dvd_of_mod_eq_zero hzero.2)]
    · exact ⟨d, j, rfl, rfl⟩

/-- No zero is made by moving zeros into the power of ten. -/
theorem Scaled.digits_strip_pos (fuel : Nat) {s : Scaled} (h : 0 < s.digits) :
    0 < (s.strip fuel).digits := by
  fun_induction Scaled.strip fuel s with
  | case1 s => exact h
  | case2 fuel s hzero ih => exact ih (by dsimp only; omega)
  | case3 fuel s hzero => exact h

section

variable {rank n : Nat} (h : (Interval.ofRank rank).IsWhole n)

include h

/-- What the search finds on a grid of whole numbers, which are those down
to the place of the last digit. -/
theorem Interval.IsWhole.candidate_eq (tie : Tie) {place m : Nat} (hm : m ≤ place) :
    ((Interval.ofRank rank).onGrid tie ((place : Int) - m)).map
        (fun k => Scaled.mk k ((place : Int) - m))
      = if 10 ^ (place - m) ∣ n then some ⟨n / 10 ^ (place - m), ((place - m : Nat) : Int)⟩
        else none := by
  rw [← Int.ofNat_sub hm, h.onGrid_eq]
  split <;> rfl

/-- **The search finds the number**, if it has no more digits than the
search goes through. -/
theorem Interval.IsWhole.shortest_eq (hn : 0 < n) (hlen : (Nat.toDigits 10 n).length ≤ 17)
    (tie : Tie) : ∃ d j : Nat, shortest tie rank = ⟨d, j⟩ ∧ d * 10 ^ j = n := by
  obtain ⟨place, hplace⟩ : ∃ place, (Nat.toDigits 10 n).length = place + 1 :=
    ⟨_, (Nat.sub_add_cancel Nat.length_toDigits_pos).symm⟩
  rw [shortest, h.leading_eq hn, hplace, Nat.add_sub_cancel]
  have hsplit : List.range 17
      = List.range (place + 1) ++ (List.range (16 - place)).map (place + 1 + ·) := by
    rw [← List.range_add]
    congr 1
    omega
  rw [hsplit, List.findSome?_append]
  cases hfound : (List.range (place + 1)).findSome? fun (m : Nat) =>
      ((Interval.ofRank rank).onGrid tie ((place : Int) - m)).map
        fun k => Scaled.mk k ((place : Int) - m) with
  | none =>
    -- The number lies on the last of these grids.
    have hlast := List.findSome?_eq_none_iff.mp hfound place (by simp)
    rw [h.candidate_eq tie le_rfl, Nat.sub_self] at hlast
    simp at hlast
  | some s =>
    obtain ⟨m, hm, hs⟩ := List.exists_of_findSome?_eq_some hfound
    rw [h.candidate_eq tie (Nat.lt_succ_iff.mp (List.mem_range.mp hm))] at hs
    split at hs
    · rename_i hdvd
      obtain ⟨d, j, hstrip, heq⟩ := Scaled.strip_natCast 20 (n / 10 ^ (place - m)) (place - m)
      refine ⟨d, j, ?_, heq.trans (Nat.div_mul_cancel hdvd)⟩
      cases hs
      exact hstrip
    · cases hs

end

/-- The search comes back with a positive decimal, or with nothing. -/
theorem shortest_pos {rank : Nat} (hrank : rank ≠ 0) (tie : Tie) :
    0 < (shortest tie rank).digits ∨ shortest tie rank = ⟨0, 0⟩ := by
  have hlower : 0 < (Interval.ofRank rank).lower := by
    have hsig : 0 < Double.significand rank := by
      unfold Double.significand Double.ranksPerPower
      split
      · omega
      · omega
    unfold Interval.ofRank
    dsimp only
    split
    · omega
    · omega
  rw [shortest]
  generalize Interval.ofRank rank = i at *
  cases hfound : (List.range 17).findSome? fun (m : Nat) =>
      (i.onGrid tie (i.leading - m)).map fun k => Scaled.mk k (i.leading - m) with
  | none => exact .inr rfl
  | some s =>
    obtain ⟨m, -, hm⟩ := List.exists_of_findSome?_eq_some hfound
    obtain ⟨k, hk, rfl⟩ := Option.map_eq_some_iff.mp hm
    exact .inl (Scaled.digits_strip_pos 20
      (Interval.pos_of_holds hlower (Interval.holds_of_onGrid hk)))

/-! ## Doubles -/

theorem roundDiv_one (n : Nat) : roundDiv n 1 = n := by
  simp [roundDiv, Nat.mod_one]

namespace Double

theorem ofRank_cases (negative : Bool) (rank : Nat) :
    (∃ r, ofRank negative rank = .finite negative r)
      ∨ ofRank negative rank = .infinity negative := by
  rw [ofRank]
  split
  · exact .inl ⟨_, rfl⟩
  · exact .inr rfl

/-- A natural number is no negative double. -/
theorem ofNat_cases (n : Nat) :
    (∃ rank, ofNat n = .finite false rank) ∨ ofNat n = .infinity false := by
  rw [ofNat, ofRatio]
  by_cases hzero : n = 0 ∨ 1 = 0
  · rw [if_pos hzero]
    exact .inl ⟨_, rfl⟩
  · rw [if_neg hzero]
    exact ofRank_cases false _

/-- What stands above the lowest power of two has its significand and its
power of two side by side in its rank. -/
theorem significand_shift {e m : Nat} (hlow : ranksPerPower ≤ m) (hhigh : m < 2 * ranksPerPower) :
    significand (e * ranksPerPower + m) = m ∧ shift (e * ranksPerPower + m) = e := by
  unfold significand shift
  unfold ranksPerPower at *
  split
  · omega
  · omega

/-- The double of a whole number: its bits are moved up to the first of the
53 of the significand. -/
theorem ofNat_eq_ofRank {n : Nat} (hn : n ≠ 0) (hlog : n.log2 ≤ 52) :
    ofNat n = ofRank false ((n.log2 + 1022) * ranksPerPower + n * 2 ^ (52 - n.log2)) := by
  have hreaches : Nat.pow 2 n.log2 ≤ n := Nat.log2_self_le hn
  have hpower : max (-1074) ((n.log2 : Int) - 52) = n.log2 - 52 := by omega
  have hup : (-((n.log2 : Int) - 52)).toNat = 52 - n.log2 := by omega
  have hdown : ((n.log2 : Int) - 52).toNat = 0 := by omega
  have hrank : ((n.log2 : Int) - 52 + 1074).toNat = n.log2 + 1022 := by omega
  have hspan : (n.log2 : Int) - (Nat.log2 1 : Nat) = n.log2 := by
    have hone : Nat.log2 1 = 0 := by decide
    rw [hone]
    exact Int.sub_zero _
  have hdone : decide (1 * Nat.pow 2 n.log2 ≤ n * Nat.pow 2 0) = true := by
    rw [decide_eq_true_iff, Nat.one_mul]
    exact hreaches.trans (Nat.mul_one n).ge
  rw [ofNat, ofRatio, if_neg (by omega), hspan]
  dsimp only
  rw [Int.toNat_natCast, Int.toNat_neg_natCast, hdone, if_pos rfl, hpower, hup, hdown,
    hrank]
  exact congrArg (fun m => ofRank false ((n.log2 + 1022) * ranksPerPower + m)) (roundDiv_one _)

/-- **A whole number of at most 53 bits is a double.** -/
theorem ofNat_isWhole {n : Nat} (hn : 0 < n) (hlt : n < 2 ^ 53) :
    ∃ rank : Fin ranks, ofNat n = .finite false rank ∧ rank.val ≠ 0
      ∧ (Interval.ofRank rank).IsWhole n := by
  have hlog : n.log2 ≤ 52 := Nat.lt_succ_iff.mp ((Nat.log2_lt hn.ne').mpr hlt)
  obtain ⟨up, hup⟩ : ∃ up, n.log2 + up = 52 := ⟨52 - n.log2, by omega⟩
  -- The significand has 53 bits.
  have hlow : ranksPerPower ≤ n * 2 ^ up := by
    calc ranksPerPower = 2 ^ n.log2 * 2 ^ up := by rw [← Nat.pow_add, hup]; rfl
      _ ≤ n * 2 ^ up := Nat.mul_le_mul_right _ (Nat.log2_self_le hn.ne')
  have hhigh : n * 2 ^ up < 2 * ranksPerPower := by
    calc n * 2 ^ up < 2 ^ (n.log2 + 1) * 2 ^ up :=
          Nat.mul_lt_mul_of_pos_right Nat.lt_log2_self (Nat.two_pow_pos up)
      _ = 2 * ranksPerPower := by rw [← Nat.pow_add, Nat.add_right_comm, hup]; rfl
  obtain ⟨hsig, hshift⟩ := significand_shift (e := n.log2 + 1022) hlow hhigh
  have heq := ofNat_eq_ofRank hn.ne' hlog
  rw [show 52 - n.log2 = up by omega] at heq
  generalize hrank : (n.log2 + 1022) * ranksPerPower + n * 2 ^ up = rank at *
  have hlt : rank < ranks := by
    unfold ranksPerPower at *
    unfold ranks
    omega
  have hplaces : up + shift rank = 1074 := by omega
  refine ⟨⟨rank, hlt⟩, ?_, ?_, Interval.isWhole_ofRank hn hsig hplaces⟩
  · rw [heq, ofRank, dif_pos hlt]
  · unfold ranksPerPower at *
    dsimp only
    omega

end Double

/-! ## Written forms -/

namespace Layout

variable {l : Layout}

/-- Whether a number whose first digit stands at an exponent is written
without one. -/
def IsPositional (l : Layout) (exponent : Int) : Prop :=
  ∀ least greatest, l.positional = some (least, greatest) → least ≤ exponent ∧ exponent ≤ greatest

/-- **A magnitude is written in one of two ways**, by the place of its first
digit. -/
theorem magnitudeChars_cases {rank : Nat} (hrank : rank ≠ 0) {s : Scaled}
    (hs : shortest l.tie rank = s) :
    (l.IsPositional (s.scale + (Nat.toDigits 10 s.digits).length - 1)
      ∧ l.magnitudeChars rank = l.positionalChars (Nat.toDigits 10 s.digits) s.scale)
    ∨ (¬ l.IsPositional (s.scale + (Nat.toDigits 10 s.digits).length - 1)
      ∧ l.magnitudeChars rank = l.scientificChars (Nat.toDigits 10 s.digits)
        (s.scale + (Nat.toDigits 10 s.digits).length - 1)) := by
  rw [magnitudeChars, if_neg hrank, hs]
  unfold IsPositional
  cases l.positional with
  | none => simp
  | some range =>
    simp only [Option.some.injEq]
    by_cases hin : range.1 ≤ s.scale + (Nat.toDigits 10 s.digits).length - 1
        ∧ s.scale + (Nat.toDigits 10 s.digits).length - 1 ≤ range.2
    · refine .inl ⟨?_, ?_⟩
      · rintro least greatest rfl
        exact hin
      · rw [if_pos (decide_eq_true hin)]
    · refine .inr ⟨fun hall => hin (hall _ _ rfl), ?_⟩
      rw [if_neg (fun h => hin (of_decide_eq_true h))]

/-- A positional whole number is its digits and the zeros after them. -/
theorem positionalChars_natCast (hpoint : l.keepsPoint = false) (digits : List Char) (j : Nat) :
    l.positionalChars digits j = digits ++ List.replicate j '0' := by
  rw [positionalChars, if_pos (Int.natCast_nonneg j), hpoint]
  simp

/-- **A whole number of at most 53 bits is written with its own digits**,
if numbers of its size are written without an exponent. -/
theorem write_ofNat (hpoint : l.keepsPoint = false)
    (hrange : ∀ e : Int, 0 ≤ e → e ≤ 15 → l.IsPositional e) {n : Nat} (hlt : n < 2 ^ 53) :
    l.write (Double.ofNat n) = String.ofList (Nat.toDigits 10 n) := by
  rcases Nat.eq_zero_or_pos n with rfl | hn
  · have hzero : Double.ofNat 0 = Double.zero false := rfl
    rw [hzero, Double.zero, write, magnitudeChars, if_pos rfl]
    exact congrArg String.ofList (positionalChars_natCast hpoint ['0'] 0)
  · obtain ⟨rank, heq, hrank, hwhole⟩ := Double.ofNat_isWhole hn hlt
    have hlen : (Nat.toDigits 10 n).length ≤ 16 :=
      (Nat.length_toDigits_le_iff (by decide) (by decide)).mpr (hlt.trans (by decide))
    obtain ⟨d, j, hshort, rfl⟩ := hwhole.shortest_eq hn (by omega) l.tie
    have hdigits := toDigits_mul_pow (Nat.pos_of_mul_pos_right hn) j
    have hfirst : 0 < (Nat.toDigits 10 d).length := Nat.length_toDigits_pos
    rw [hdigits, List.length_append, List.length_replicate] at hlen
    rcases magnitudeChars_cases hrank hshort with ⟨-, hchars⟩ | ⟨hout, -⟩
    · rw [heq, write, hchars, positionalChars_natCast hpoint, hdigits]
      rfl
    · exact absurd (hrange _ (by dsimp only; omega) (by dsimp only; omega)) hout

/-- **Digits alone are written for a whole number only**: there is no zero
in front, and the number is of a size that needs no exponent. -/
theorem magnitudeChars_of_digits (hpoint : l.keepsPoint = false) {rank : Nat}
    (hall : ∀ c ∈ l.magnitudeChars rank, c.isDigit = true) :
    l.magnitudeChars rank = ['0']
      ∨ (l.magnitudeChars rank).head? ≠ some '0'
        ∧ l.IsPositional ((l.magnitudeChars rank).length - 1) := by
  by_cases hrank : rank = 0
  · refine .inl ?_
    rw [magnitudeChars, if_pos hrank]
    exact positionalChars_natCast hpoint ['0'] 0
  rcases magnitudeChars_cases hrank rfl with ⟨hin, hchars⟩ | ⟨-, hchars⟩
  · rw [hchars] at hall ⊢
    rcases Int.lt_or_le (shortest l.tie rank).scale 0 with hneg | hnonneg
    · -- A point stands before the places.
      refine absurd (hall '.' ?_) (by decide)
      rw [positionalChars, if_neg (by omega)]
      simp
    · obtain ⟨j, hj⟩ := Int.eq_ofNat_of_zero_le hnonneg
      rw [hj] at hin ⊢
      rw [positionalChars_natCast hpoint]
      rcases shortest_pos hrank l.tie with hpos | hzero
      · refine .inr ⟨?_, ?_⟩
        · rw [List.head?_append, Option.or_of_isSome (by simp [Nat.toDigits_ne_nil])]
          exact head_toDigits hpos
        · rw [List.length_append, List.length_replicate]
          convert hin using 1
          push_cast
          omega
      · rw [hzero] at hj ⊢
        obtain rfl : j = 0 := Int.ofNat_eq_zero.mp hj.symm
        exact .inl rfl
  · refine absurd (hall 'e' ?_) (by decide)
    rw [hchars]
    unfold scientificChars
    simp

end Layout

end DocFilter.Decimal
