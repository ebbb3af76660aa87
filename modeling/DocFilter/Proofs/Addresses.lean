import DocFilter.Proofs.Paths
import DocFilter.Proofs.WholeNumbers

/-!
# What the code of a field addresses

Code is read by rules of its own. A member after a dot is called what is
written there. A member in brackets is called what its **number** is called,
and a number is read and named again on the way: a zero in front makes the
digits octal, a number is rounded to a double, and a double is written in
its shortest form, from `10 ^ 21` on with an exponent. So `[10]` is the
member `10`, but `[010]` is the member `8`, and a document that has both
members `10` and `010` is asked about the wrong one.

`path_addresses` says which members the code of a field addresses, for
every field that has code, and when these are the segments of the field:
always for identifiers, and for an index if its digits have no zero in
front and stand for a number of at most 53 bits.
-/

namespace DocFilter.Predicate

open Decimal (Double Layout digitsValue)

/-! ## Numbers in code -/

/-- Code writes a whole number without a point, and turns to an exponent
below `10 ^ -6` and from `10 ^ 21` on. -/
def numberLayout : Layout where
  positional := some (-6, 20)
  keepsPoint := false
  signsExponent := true
  tie := .even

/-- **What code calls a number.** -/
def numberName : Double → List Char
  | .finite negative rank => (numberLayout.write (.finite negative rank)).toList
  | .infinity negative => (if negative then "-Infinity" else "Infinity").toList
  | .nan => "NaN".toList

/-- A digit below eight. -/
def isOctalDigit (c : Char) : Bool :=
  c.isDigit && c != '8' && c != '9'

/-- **The number that digits stand for in code.** After a zero in front they
are octal, unless there is an eight or a nine among them. -/
def literalValue (digits : List Char) : Nat :=
  if digits.head? = some '0' ∧ digits.all isOctalDigit = true then Nat.ofDigitChars 8 digits 0
  else digitsValue digits

/-- **The member that digits in brackets address.** -/
def indexName (digits : List Char) : List Char :=
  numberName (Double.ofNat (literalValue digits))

/-! ## Reading code -/

/-- **Going down members**: the code after `this`, and the names of the
members it goes down to. A name after a dot is as long as it can be. -/
inductive GoesDown : List Char → List (List Char) → Prop where
  /-- The end of the code. -/
  | done : GoesDown [] []
  /-- A member by its name. -/
  | name {segment rest : List Char} {names : List (List Char)} (h : IsIdentifier segment)
    (hrest : ∀ c, rest.head? = some c → isIdentifierChar c = false) (hnames : GoesDown rest names) :
    GoesDown ('.' :: segment ++ rest) (segment :: names)
  /-- A member by its number. -/
  | index {digits rest : List Char} {names : List (List Char)} (h : IsIndex digits)
    (hnames : GoesDown rest names) :
    GoesDown ('[' :: digits ++ ']' :: rest) (indexName digits :: names)

/-- **The members that code addresses**, from the document at hand down. -/
def Addresses (code : String) (names : List (List Char)) : Prop :=
  ∃ rest, code.toList = "this".toList ++ rest ∧ GoesDown rest names

/-- **What a segment is called in code**: an index by its number, anything
else by its name. -/
def nameInCode (segment : List Char) : List Char :=
  if isIndex segment then indexName segment else segment

/-- An identifier is not an index. -/
theorem IsIdentifier.not_isIndex {segment : List Char} (h : IsIdentifier segment) :
    ¬ IsIndex segment := by
  intro hindex
  exact Bool.eq_false_iff.mp hindex.isIdentifier_eq_false (isIdentifier_iff.mpr h)

theorem nameInCode_of_isIndex {segment : List Char} (h : IsIndex segment) :
    nameInCode segment = indexName segment :=
  if_pos (isIndex_iff.mpr h)

theorem nameInCode_of_isIdentifier {segment : List Char} (h : IsIdentifier segment) :
    nameInCode segment = segment :=
  if_neg fun hindex => h.not_isIndex (isIndex_iff.mp hindex)

section

variable {segment digits rest : List Char} {names : List (List Char)}

theorem goesDown_nil_iff : GoesDown [] names ↔ names = [] := by
  constructor
  · intro h
    generalize hcode : ([] : List Char) = code at h
    cases h with
    | done => rfl
    | name => cases hcode
    | index => cases hcode
  · rintro rfl
    exact .done

/-- After a dot there is one way to read on. -/
theorem goesDown_name_iff (h : IsIdentifier segment)
    (hrest : ∀ c, rest.head? = some c → isIdentifierChar c = false) :
    GoesDown ('.' :: segment ++ rest) names
      ↔ ∃ more, names = segment :: more ∧ GoesDown rest more := by
  constructor
  · intro hdown
    generalize hcode : '.' :: segment ++ rest = code at hdown
    cases hdown with
    | done => cases hcode
    | name h' hrest' hmore =>
      obtain ⟨rfl, rfl⟩ := Text.run_unique (isIdentifierChar_of_mem (isIdentifier_iff.mpr h))
        (isIdentifierChar_of_mem (isIdentifier_iff.mpr h')) hrest hrest' (List.cons.inj hcode).2
      exact ⟨_, rfl, hmore⟩
    | index => cases hcode
  · rintro ⟨more, rfl, hmore⟩
    exact .name h hrest hmore

/-- In brackets likewise. -/
theorem goesDown_index_iff (h : IsIndex digits) :
    GoesDown ('[' :: digits ++ ']' :: rest) names
      ↔ ∃ more, names = indexName digits :: more ∧ GoesDown rest more := by
  have hclose : ∀ {rest : List Char} (c : Char),
      (']' :: rest).head? = some c → c.isDigit = false := by
    intro rest c hc
    obtain rfl := Option.some.inj hc
    decide
  constructor
  · intro hdown
    generalize hcode : '[' :: digits ++ ']' :: rest = code at hdown
    cases hdown with
    | done => cases hcode
    | name => cases hcode
    | index h' hmore =>
      obtain ⟨rfl, htail⟩ := Text.run_unique h.digits h'.digits hclose hclose
        (List.cons.inj hcode).2
      obtain rfl := (List.cons.inj htail).2
      exact ⟨_, rfl, hmore⟩
  · rintro ⟨more, rfl, hmore⟩
    exact .index h hmore

end

/-- **A chain goes down what its segments are called.** -/
theorem goesDown_chainChars_iff {segments names : List (List Char)} {cs : List Char}
    (h : chainChars segments = some cs) :
    GoesDown cs names ↔ names = segments.map nameInCode := by
  induction segments generalizing cs names with
  | nil =>
    obtain rfl := Option.some.inj h
    exact goesDown_nil_iff
  | cons segment rest ih =>
    obtain ⟨member, more, hm, hr, rfl⟩ := chainChars_cons_eq_some h
    have hstep : GoesDown (member ++ more) names
        ↔ ∃ later, names = nameInCode segment :: later ∧ GoesDown more later := by
      cases memberChars_eq_some_iff.mp hm with
      | name hi =>
        rw [nameInCode_of_isIdentifier hi]
        exact goesDown_name_iff hi fun c hc => chainChars_head hr hc
      | index hi =>
        rw [nameInCode_of_isIndex hi, List.append_assoc]
        exact goesDown_index_iff hi
    rw [hstep, List.map_cons]
    constructor
    · rintro ⟨later, rfl, hlater⟩
      rw [(ih hr).mp hlater]
    · rintro rfl
      exact ⟨_, rfl, (ih hr).mpr rfl⟩

/-- **The code of a field addresses** what the segments of the field are
called in code, and nothing else. -/
theorem addresses_path_iff {field p : String} (h : path field = .ok p)
    {names : List (List Char)} :
    Addresses p names ↔ names = (field.toList.splitOn '.').map nameInCode := by
  obtain ⟨cs, hcs, hp⟩ := path_eq_ok h
  rw [← Text.segments_eq_splitOn, ← goesDown_chainChars_iff hcs]
  constructor
  · rintro ⟨rest, hrest, hdown⟩
    obtain rfl : rest = cs := List.append_cancel_left (hrest.symm.trans hp)
    exact hdown
  · intro hdown
    exact ⟨cs, hp, hdown⟩

/-! ## Plain indices -/

/-- **A plain index**: no zero stands in front of other digits. -/
def IsPlain (digits : List Char) : Prop :=
  digits = ['0'] ∨ digits.head? ≠ some '0'

/-- Plain digits are decimal. -/
theorem IsPlain.literalValue_eq {digits : List Char} (h : IsPlain digits) :
    literalValue digits = digitsValue digits := by
  rcases h with rfl | h
  · rfl
  · exact if_neg fun hoctal => h hoctal.1

/-- Plain digits are the digits of their value. -/
theorem IsPlain.toDigits_eq {digits : List Char} (h : IsPlain digits) (hindex : IsIndex digits) :
    Nat.toDigits 10 (digitsValue digits) = digits := by
  rcases h with rfl | h
  · rfl
  · obtain ⟨d, ds, rfl⟩ := List.exists_cons_of_ne_nil hindex.ne_nil
    exact Decimal.toDigits_digitsValue (fun hd => h (congrArg some hd)) hindex.digits

theorem isPositional_numberLayout {e : Int} :
    numberLayout.IsPositional e ↔ -6 ≤ e ∧ e ≤ 20 := by
  constructor
  · intro h
    exact h _ _ rfl
  · rintro h least greatest hrange
    cases hrange
    exact h

/-- What code calls a natural number. -/
theorem numberName_ofNat (n : Nat) :
    (∃ rank : Nat, numberName (Double.ofNat n) = numberLayout.magnitudeChars rank)
      ∨ numberName (Double.ofNat n) = "Infinity".toList := by
  rcases Double.ofNat_cases n with ⟨rank, heq⟩ | heq
  · refine .inl ⟨rank, ?_⟩
    rw [heq, numberName, Layout.write, String.toList_ofList]
    rfl
  · exact .inr (by rw [heq]; rfl)

/-- **A plain index is called by its digits** if it has at most 53 bits. -/
theorem IsPlain.indexName_eq {digits : List Char} (h : IsPlain digits) (hindex : IsIndex digits)
    (hlt : digitsValue digits < 2 ^ 53) : indexName digits = digits := by
  have hwrite := Decimal.Layout.write_ofNat (l := numberLayout) rfl
    (fun e hlow hhigh => isPositional_numberLayout.mpr (by omega)) hlt
  rw [h.toDigits_eq hindex] at hwrite
  rw [indexName, h.literalValue_eq]
  rcases Double.ofNat_cases (digitsValue digits) with ⟨rank, heq⟩ | heq
  · rw [heq] at hwrite ⊢
    rw [numberName, hwrite, String.toList_ofList]
  · rw [heq] at hwrite
    have hword : digits = "inf".toList := by
      have htext := congrArg String.toList hwrite
      rw [String.toList_ofList] at htext
      exact htext.symm
    exact absurd (hindex.digits 'i' (by rw [hword]; decide)) (by decide)

/-- **What is called by its digits is plain**, and has no more digits than
code writes without an exponent. -/
theorem isPlain_of_indexName_eq {digits : List Char} (hindex : IsIndex digits)
    (h : indexName digits = digits) : IsPlain digits ∧ digits.length ≤ 21 := by
  rcases numberName_ofNat (literalValue digits) with ⟨rank, heq⟩ | heq
  · have hchars : numberLayout.magnitudeChars rank = digits := heq.symm.trans h
    have hdigits := hindex.digits
    rw [← hchars] at hdigits
    rcases Layout.magnitudeChars_of_digits rfl hdigits with hzero | ⟨hhead, hrange⟩
    · rw [hchars] at hzero
      subst hzero
      exact ⟨.inl rfl, by decide⟩
    · rw [hchars] at hhead hrange
      have hlast := (isPositional_numberLayout.mp hrange).2
      exact ⟨.inr hhead, by omega⟩
  · have hdigits := hindex.digits
    rw [← h, indexName, heq] at hdigits
    exact absurd (hdigits 'I' (by decide)) (by decide)

/-! ## Fields -/

/-- The members are the segments of the field if each index is called by its
own digits. -/
theorem addresses_segments_iff {field p : String} (h : path field = .ok p) :
    Addresses p (field.toList.splitOn '.')
      ↔ ∀ segment ∈ field.toList.splitOn '.', IsIndex segment → indexName segment = segment := by
  have hmap := List.map_inj_left (l := field.toList.splitOn '.') (f := nameInCode) (g := id)
  rw [List.map_id] at hmap
  rw [addresses_path_iff h, eq_comm, hmap]
  refine forall₂_congr fun segment hmem => ?_
  rcases exists_path_iff.mp ⟨p, h⟩ segment hmem with hi | hi
  · exact ⟨fun _ hindex => absurd hindex hi.not_isIndex, fun _ => nameInCode_of_isIdentifier hi⟩
  · rw [nameInCode_of_isIndex hi]
    exact ⟨fun heq _ => heq, fun heq => heq hi⟩

/-- **What the code of a field addresses.** It addresses one list of members,
what the segments of the field are called in code. These are the segments
themselves if each index among them is called by its own digits. For that
an index has to be plain, with at most 21 digits, and it is enough that it
is plain and of at most 53 bits. -/
theorem path_addresses (field p : String) (h : path field = .ok p) :
    (∀ names, Addresses p names ↔ names = (field.toList.splitOn '.').map nameInCode)
    ∧ (Addresses p (field.toList.splitOn '.')
      ↔ ∀ segment ∈ field.toList.splitOn '.', IsIndex segment → indexName segment = segment)
    ∧ (Addresses p (field.toList.splitOn '.')
      → ∀ segment ∈ field.toList.splitOn '.', IsIndex segment →
        IsPlain segment ∧ segment.length ≤ 21)
    ∧ ((∀ segment ∈ field.toList.splitOn '.', IsIndex segment →
        IsPlain segment ∧ digitsValue segment < 2 ^ 53)
      → Addresses p (field.toList.splitOn '.')) := by
  have hown := addresses_segments_iff h
  refine ⟨fun names => addresses_path_iff h, hown, fun haddr segment hmem hindex => ?_,
    fun hplain => hown.mpr fun segment hmem hindex => ?_⟩
  · exact isPlain_of_indexName_eq hindex (hown.mp haddr segment hmem hindex)
  · obtain ⟨hp, hlt⟩ := hplain segment hmem hindex
    exact hp.indexName_eq hindex hlt

/-- An index between two names. -/
theorem path_addresses_index :
    path "a.10.$b" = .ok "this.a[10].$b"
    ∧ Addresses "this.a[10].$b" ["a".toList, "10".toList, "$b".toList] := by
  have hplain : ∀ segment ∈ "a.10.$b".toList.splitOn '.', IsIndex segment →
      IsPlain segment ∧ digitsValue segment < 2 ^ 53 := by
    intro segment hmem hindex
    have hsegments : "a.10.$b".toList.splitOn '.' = ["a".toList, "10".toList, "$b".toList] := by
      decide
    rw [hsegments, List.mem_cons, List.mem_cons, List.mem_singleton] at hmem
    rcases hmem with rfl | rfl | rfl
    · exact absurd (isIndex_iff.mpr hindex) (by decide)
    · exact ⟨.inr (by decide), by decide⟩
    · exact absurd (isIndex_iff.mpr hindex) (by decide)
  exact ⟨rfl, (path_addresses "a.10.$b" "this.a[10].$b" rfl).2.2.2 hplain⟩

/-- A zero in front, which makes the digits octal if they can be, and a
number of 54 bits: the code of these fields addresses other members. -/
theorem path_addresses_other :
    path "a.01" = .ok "this.a[01]" ∧ ¬ Addresses "this.a[01]" ["a".toList, "01".toList]
    ∧ Addresses "this.a[01]" ["a".toList, "1".toList]
    ∧ path "a.010" = .ok "this.a[010]" ∧ Addresses "this.a[010]" ["a".toList, "8".toList]
    ∧ path "a.9007199254740993" = .ok "this.a[9007199254740993]"
    ∧ Addresses "this.a[9007199254740993]" ["a".toList, "9007199254740992".toList] := by
  have hone : path "a.01" = .ok "this.a[01]" := rfl
  have height : path "a.010" = .ok "this.a[010]" := rfl
  have hlarge : path "a.9007199254740993" = .ok "this.a[9007199254740993]" := rfl
  rw [addresses_path_iff hone, addresses_path_iff hone, addresses_path_iff height,
    addresses_path_iff hlarge]
  decide +kernel

end DocFilter.Predicate
